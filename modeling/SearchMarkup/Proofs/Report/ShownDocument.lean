/-
# The report of a document and its parts

What is shown of a document, its markup and the number of its marked segments are worked
out apart. For every document, tags and settings they agree
(`SnippetDocument.report_agrees`):

| highlights | abstract | what a reader of the markup sees |
| --- | --- | --- |
| some | any or none | a paragraph for each highlight: its text without the pairs of tags |
| none | one | one paragraph: the abstract as it is, tags and all |
| none | none | nothing |

The spans of the class `highlight` are as many as the marked segments. The pairs of tags
are those of the one leftmost decomposition of a highlight
(`Decomposition.plainText_segments`), whatever characters the tags are made of: markup is
escaped after the highlights are split, so a reader sees no tag of a highlight as markup.
-/

import SearchMarkup.Proofs.Html.ParagraphReading
import SearchMarkup.Proofs.Marking.Metrics
import SearchMarkup.Report.Snippet

namespace SearchMarkup

/-- The plain text of segments may be put together in parts. -/
theorem Segment.plainText_append (l l' : List Segment) :
    plainText (l ++ l') = plainText l ++ plainText l' :=
  List.flatMap_append

namespace Decomposition

/-- The text that was cut, without the pairs of tags. -/
def untagged (d : Decomposition) : Text :=
  d.pairs.flatMap (fun (u, m) => u ++ m) ++ d.remainder

/-- The plain text of pairs is theirs without the tags. -/
theorem plainText_ofPairs (ps : List (Text × Text)) :
    Segment.plainText (ofPairs ps) = ps.flatMap fun (u, m) => u ++ m := by
  induction ps with
  | nil => rfl
  | cons p ps ih =>
    obtain ⟨u, m⟩ := p
    rw [ofPairs_cons, Segment.plainText_append, Segment.plainText_cons, ih, List.flatMap_cons]
    split
    · next hu => simp [hu]
    · simp

/-- **The segments hold the text that was cut without the pairs of tags.** -/
theorem plainText_segments (d : Decomposition) : Segment.plainText d.segments = d.untagged := by
  rw [segments, Segment.plainText_append, plainText_ofPairs, untagged]
  split
  · next hr => rw [hr.1, Segment.plainText_nil]
  · simp

end Decomposition

namespace SnippetReport

/-- The report of what is shown of a document. -/
def ofBody (b : SnippetBody) (e : Elapsed) : SnippetReport where
  body := b
  html := Html.paragraphsMarkup b.paragraphs
  markedSegments := b.markedCount
  elapsed := e

/-- The report without the time that was taken. -/
def untimed (r : SnippetReport) : SnippetReport := { r with elapsed := {} }

end SnippetReport

section

variable (s : Settings) (tags : MarkerTags) (timing : Timing)

/-- A report about a document is one about what is shown of it. -/
theorem value_highlightDocument (d : SnippetDocument) :
    (highlightDocument s tags timing d).value = .ofBody (d.shown tags) timing.elapsed := by
  rw [highlightDocument, Logged.value_bind, d.value_body]
  rfl

/-- Snippets are highlighted as a document that has no abstract. -/
theorem highlightSnippets_eq (items : List Text) :
    highlightSnippets s tags timing items = highlightDocument s tags timing ⟨some items, none⟩ :=
  rfl

end

/-- What is shown of the texts of highlights: each without its pairs of tags. -/
theorem Extractor.map_plainText_segmentsEach (tags : MarkerTags) (ts : List Text) :
    (segmentsEach tags ts).map Segment.plainText =
      ts.map fun t => (Decomposition.ofText tags t).untagged := by
  rw [segmentsEach, List.map_map]
  refine List.map_congr_left fun t _ => ?_
  rw [Function.comp_apply, Decomposition.segments_ofText, Decomposition.plainText_segments]

/-- Each of some texts has its leftmost decomposition. -/
theorem Decomposition.forall₂_isLeftmost_ofText (tags : MarkerTags) (ts : List Text) :
    List.Forall₂ (IsLeftmost tags) ts (ts.map (ofText tags)) := by
  rw [List.forall₂_map_right_iff]
  exact List.forall₂_same.2 fun t _ => isLeftmost_iff.2 rfl

/-- A reader sees the text of paragraphs without tags. -/
theorem Html.map_text_paragraphRuns (ps : List (List Segment)) :
    (ps.map paragraphRuns).map (fun rs => rs.flatMap Run.text) = ps.map Segment.plainText := by
  rw [List.map_map]
  exact List.map_congr_left fun p _ => flatMap_text_paragraphRuns p

namespace SnippetDocument

open Html (ReadsParagraphs Run paragraphRuns map_text_paragraphRuns)

/-- **The parts of the report of a document agree.** Snippets are reported as a document
without an abstract. -/
theorem report_agrees (s : Settings) (tags : MarkerTags) (timing : Timing)
    (d : SnippetDocument) :
    let r := (highlightDocument s tags timing d).value
    (∃ rss, (∀ rss', ReadsParagraphs r.html rss' ↔ rss' = rss) ∧
      rss.flatten.countP Run.isHighlight = r.markedSegments ∧
      match d.highlights.getD [], d.abstractText with
      | t :: ts, _ =>
        r.body.source = .highlights ∧
          r.body.paragraphs.map (Segment.rejoinAll tags) = t :: ts ∧
          ∃ ds, List.Forall₂ (Decomposition.IsLeftmost tags) (t :: ts) ds ∧
            rss.map (fun rs => rs.flatMap Run.text) = ds.map Decomposition.untagged
      | [], some a =>
        r.body.source = .abstract ∧ rss.map (fun rs => rs.flatMap Run.text) = [a] ∧
          r.markedSegments = 0 ∧ ∀ x : Extractor, (d.body x).value.2 = x
      | [], none => r.body = ⟨.empty, []⟩ ∧ r.html = []) ∧
    ∀ items timing', (highlightSnippets s tags timing' items).value.untimed =
      (highlightDocument s tags timing ⟨some items, none⟩).value.untimed := by
  intro r
  have hr : r = .ofBody (d.shown tags) timing.elapsed := value_highlightDocument s tags timing d
  have hreads : ReadsParagraphs r.html (r.body.paragraphs.map paragraphRuns) := by
    rw [hr]
    exact Html.reads_paragraphsMarkup _
  have hcount : (r.body.paragraphs.map paragraphRuns).flatten.countP Run.isHighlight =
      r.markedSegments := by
    rw [hr]
    exact Html.countP_isHighlight_flatten _
  refine ⟨⟨r.body.paragraphs.map paragraphRuns, fun rss' => ⟨?_, ?_⟩, hcount, ?_⟩,
    fun _ _ => rfl⟩
  · intro h
    exact h.unique hreads
  · rintro rfl
    exact hreads
  · clear_value r
    subst hr
    rw [map_text_paragraphRuns]
    -- What is shown depends on whether there are highlights, then on the abstract.
    cases hts : d.highlights.getD [] with
    | cons t ts =>
      have hshown : d.shown tags = ⟨.highlights, Extractor.segmentsEach tags (t :: ts)⟩ := by
        simp [shown, hts]
      rw [hshown]
      refine ⟨rfl, Extractor.map_rejoinAll_segmentsEach tags _, _,
        Decomposition.forall₂_isLeftmost_ofText tags _, ?_⟩
      rw [List.map_map]
      exact Extractor.map_plainText_segmentsEach tags _
    | nil =>
      cases ha : d.abstractText with
      | some a =>
        have hshown : d.shown tags = ⟨.abstract, [[⟨false, a⟩]]⟩ := by simp [shown, hts, ha]
        rw [hshown]
        refine ⟨rfl, ?_, rfl, fun x => ?_⟩
        · simp [SnippetReport.ofBody]
        · rw [d.value_body, hts, Extractor.see_nil]
      | none =>
        have hshown : d.shown tags = ⟨.empty, []⟩ := by simp [shown, hts, ha]
        rw [hshown]
        exact ⟨rfl, rfl⟩

/-- Tags may be made of what markup is made of. -/
example :
    let d : SnippetDocument := ⟨some [['a', '<', 'b', '>', '&', '<']], some ['c']⟩
    (d.shown ⟨['<'], ['>'], by decide, by decide⟩).paragraphs.map paragraphRuns =
      [[⟨none, ['a']⟩, ⟨some "highlight", ['b']⟩, ⟨none, ['&', '<']⟩]] := by
  cbv

end SnippetDocument
end SearchMarkup
