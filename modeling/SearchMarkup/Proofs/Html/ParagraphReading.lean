/-
# Reading rendered paragraphs back

Rendered paragraphs are `p` elements with a line feed between any two, and each holds
coded text with spans in it. `ReadsParagraphs m rss` says that a reader of the markup `m`
sees, paragraph by paragraph, the runs `rss`.

A line feed in a segment is no line feed between paragraphs, and a `</p>` in a segment
ends none: the runs of a paragraph are known up to the tag that closes it
(`Reads.append_inj`), and only then is a line feed asked for. So there is one reading at
most (`ReadsParagraphs.unique`). What a reader sees of a segment:

| segment | runs |
| --- | --- |
| marked | its text in a span of the class `highlight`, even if it is empty |
| unmarked | its text outside spans, put together with what it touches |

Markup is made of these runs alone (`paragraphMarkup_eq`), so it tells two lists of
paragraphs apart exactly when their runs differ.
-/

import SearchMarkup.Proofs.Html.QueryReading

namespace SearchMarkup
namespace Html

/-- The tag that opens a paragraph. -/
def paragraphOpening : Text :=
  ['<', 'p', ' ', 'c', 'l', 'a', 's', 's', '=', '"', 'e', 'l', 'l', 'i', 'p', 's', 'i', 's', '-',
    't', 'e', 'x', 't', '"', '>']

/-- The tag that closes a paragraph. -/
def paragraphClosing : Text := ['<', '/', 'p', '>']

/-- A reader of the markup sees paragraphs with these runs. -/
inductive ReadsParagraphs : Text → List (List Run) → Prop
  | nil : ReadsParagraphs [] []
  | last {m : Text} {rs : List Run} (h : Reads m rs) :
    ReadsParagraphs (paragraphOpening ++ m ++ paragraphClosing) [rs]
  | cons {m m' : Text} {rs rs' : List Run} {rss : List (List Run)} (h : Reads m rs)
    (h' : ReadsParagraphs m' (rs' :: rss)) :
    ReadsParagraphs (paragraphOpening ++ m ++ paragraphClosing ++ '\n' :: m') (rs :: rs' :: rss)

/-- What a reader sees of a segment. -/
def segmentRun (s : Segment) : Run := ⟨if s.marked then some "highlight" else none, s.text⟩

/-- What a reader sees of a paragraph. -/
def paragraphRuns (p : List Segment) : List Run := Run.joined (p.map segmentRun)

/-- A paragraph is read in one way, whatever comes after it. -/
theorem paragraph_inj {m m' z z' : Text} {rs rs' : List Run} (h : Reads m rs) (h' : Reads m' rs')
    (heq : paragraphOpening ++ m ++ paragraphClosing ++ z =
      paragraphOpening ++ m' ++ paragraphClosing ++ z') : rs = rs' ∧ z = z' := by
  simp only [List.append_assoc, List.append_cancel_left_eq] at heq
  obtain ⟨hrs, heq⟩ := h.append_inj (.closing _) (.closing _) h' heq
  exact ⟨hrs, by simpa using heq⟩

/-- **Paragraphs are read in one way.** -/
theorem ReadsParagraphs.unique {m : Text} {rss rss' : List (List Run)}
    (h : ReadsParagraphs m rss) (h' : ReadsParagraphs m rss') : rss = rss' := by
  induction h generalizing rss' with
  | nil =>
    generalize hm : ([] : Text) = m' at h'
    cases h' with
    | nil => rfl
    | last _ => simp [paragraphOpening] at hm
    | cons _ _ => simp [paragraphOpening] at hm
  | @last m rs h =>
    generalize hm : paragraphOpening ++ m ++ paragraphClosing = m' at h'
    rw [← List.append_nil (_ ++ paragraphClosing)] at hm
    cases h' with
    | nil => simp [paragraphOpening] at hm
    | last h' => rw [(paragraph_inj h h' (hm.trans (List.append_nil _).symm)).1]
    | cons h' _ => exact absurd (paragraph_inj h h' hm).2.symm (List.cons_ne_nil _ _)
  | @cons m m₁ rs rs₁ rss h _ ih =>
    generalize hm : paragraphOpening ++ m ++ paragraphClosing ++ '\n' :: m₁ = m' at h'
    cases h' with
    | nil => simp [paragraphOpening] at hm
    | last h' =>
      have htail := (paragraph_inj h h' (hm.trans (List.append_nil _).symm)).2
      exact absurd htail (List.cons_ne_nil _ _)
    | cons h' h₁ =>
      obtain ⟨rfl, htail⟩ := paragraph_inj h h' hm
      obtain ⟨-, rfl⟩ := List.cons.inj htail
      rw [ih h₁]

/-! ## The markup of paragraphs -/

namespace Run

/-- The markup of a run. -/
def markup : Run → Text
  | ⟨none, t⟩ => escape t
  | ⟨some className, t⟩ => spanOpening className ++ escape t ++ spanClosing

/-- Runs put together have the same markup. -/
theorem flatMap_markup_join (r : Run) (rs : List Run) :
    (join r rs).flatMap markup = r.markup ++ rs.flatMap markup := by
  unfold join
  split <;> simp [markup]

/-- So do all runs put together. -/
theorem flatMap_markup_joined (rs : List Run) :
    (joined rs).flatMap markup = rs.flatMap markup := by
  induction rs with
  | nil => rfl
  | cons r rs ih =>
    show (join r (joined rs)).flatMap markup = _
    rw [flatMap_markup_join, ih, List.flatMap_cons]

end Run

/-- A segment is read as its run. -/
theorem run_segmentPiece (s : Segment) : (segmentPiece s).run = segmentRun s := by
  unfold segmentPiece segmentRun
  split <;> rfl

/-- The class of a segment can stand between quotes. -/
theorem isQuotable_segmentPiece (s : Segment) : (segmentPiece s).IsQuotable := by
  unfold segmentPiece
  split
  · exact isQuotable_span (by decide) s.text
  · exact fun _ h => nomatch h

/-- A piece is written as its run is. -/
theorem Piece.markup_eq (p : Piece) : p.markup = p.run.markup := by
  cases p with
  | text t => rfl
  | equals => rfl
  | span className t => simp [markup, element, run, Run.markup, spanOpening, spanClosing]

/-- The markup of segments is that of their runs. -/
theorem flatMap_markup_segmentPiece (p : List Segment) :
    (p.map segmentPiece).flatMap Piece.markup = (paragraphRuns p).flatMap Run.markup := by
  rw [paragraphRuns, Run.flatMap_markup_joined, List.flatMap_map, List.flatMap_map]
  simp only [Piece.markup_eq, run_segmentPiece]

/-- **A paragraph is written as its runs are.** -/
theorem paragraphMarkup_eq (p : List Segment) :
    paragraphMarkup p =
      paragraphOpening ++ (paragraphRuns p).flatMap Run.markup ++ paragraphClosing := by
  rw [← flatMap_markup_segmentPiece, List.flatMap_map]
  simp [paragraphMarkup, Piece.element, paragraphClass, paragraphOpening, paragraphClosing]

/-- **The markup of segments is read as their runs.** -/
theorem reads_paragraphRuns (p : List Segment) :
    Reads ((paragraphRuns p).flatMap Run.markup) (paragraphRuns p) := by
  have hquotable : ∀ q ∈ p.map segmentPiece, q.IsQuotable := by
    intro q hq
    obtain ⟨s, -, rfl⟩ := List.mem_map.1 hq
    exact isQuotable_segmentPiece s
  have hreads := Reads.pieces hquotable
  have hruns : (p.map segmentPiece).map Piece.run = p.map segmentRun := by
    rw [List.map_map]
    exact List.map_congr_left fun s _ => run_segmentPiece s
  rw [flatMap_markup_segmentPiece, hruns] at hreads
  exact hreads

/-- **The markup of paragraphs is read as their runs.** -/
theorem reads_paragraphsMarkup :
    ∀ ps : List (List Segment), ReadsParagraphs (paragraphsMarkup ps) (ps.map paragraphRuns)
  | [] => .nil
  | [p] => by
    rw [paragraphsMarkup, List.map_singleton, List.intercalate_singleton, paragraphMarkup_eq]
    exact .last (reads_paragraphRuns p)
  | p :: q :: ps => by
    have ih := reads_paragraphsMarkup (q :: ps)
    have hcons : paragraphsMarkup (p :: q :: ps) =
        paragraphMarkup p ++ '\n' :: paragraphsMarkup (q :: ps) := by
      simp [paragraphsMarkup, List.intercalate_cons_cons]
    rw [hcons, paragraphMarkup_eq]
    exact .cons (reads_paragraphRuns p) ih

/-- Paragraphs of the same runs have the same markup. -/
theorem paragraphsMarkup_congr {ps ps' : List (List Segment)}
    (h : ps.map paragraphRuns = ps'.map paragraphRuns) :
    paragraphsMarkup ps = paragraphsMarkup ps' := by
  have hmap (ps : List (List Segment)) : ps.map paragraphMarkup = (ps.map paragraphRuns).map
      fun rs => paragraphOpening ++ rs.flatMap Run.markup ++ paragraphClosing := by
    rw [List.map_map]
    exact List.map_congr_left fun p _ => paragraphMarkup_eq p
  rw [paragraphsMarkup, paragraphsMarkup, hmap, hmap, h]

/-- The runs of a paragraph hold its plain text. -/
theorem flatMap_text_paragraphRuns (p : List Segment) :
    (paragraphRuns p).flatMap Run.text = Segment.plainText p := by
  rw [paragraphRuns, Run.flatMap_text_joined, List.flatMap_map]
  rfl

/-- Whether a run is a span of the class of marked segments. -/
def Run.isHighlight (r : Run) : Bool := r.className == some "highlight"

/-- A reader sees as many of these spans as segments are marked. -/
theorem countP_isHighlight_paragraphRuns (p : List Segment) :
    (paragraphRuns p).countP Run.isHighlight = p.countP Segment.marked := by
  rw [paragraphRuns, Run.countP_joined fun _ => rfl, List.countP_map]
  refine List.countP_congr fun s _ => ?_
  cases hm : s.marked <;> simp [segmentRun, Run.isHighlight, hm]

/-- There are as many highlights as marked segments. -/
theorem countP_isHighlight_flatten (ps : List (List Segment)) :
    (ps.map paragraphRuns).flatten.countP Run.isHighlight = ps.flatten.countP Segment.marked := by
  induction ps with
  | nil => rfl
  | cons p ps ih =>
    rw [List.map_cons, List.flatten_cons, List.flatten_cons, List.countP_append,
      List.countP_append, countP_isHighlight_paragraphRuns, ih]

/-- **A reader of rendered paragraphs sees their segments,** those outside spans put
together. Only paragraphs that look the same to the reader are rendered alike, and what
is shown of a paragraph is its text without tags. -/
theorem reads_renderParagraphs_iff (ps : List (List Segment)) :
    let html := (renderParagraphs ps).value
    (∀ rss, ReadsParagraphs html rss ↔ rss = ps.map paragraphRuns) ∧
      (∀ ps', (renderParagraphs ps').value = html ↔
        ps'.map paragraphRuns = ps.map paragraphRuns) ∧
      (ps.map paragraphRuns).map (fun rs => rs.flatMap Run.text) = ps.map Segment.plainText := by
  intro html
  have hreads : ReadsParagraphs html (ps.map paragraphRuns) := reads_paragraphsMarkup ps
  refine ⟨fun rss => ?_, fun ps' => ?_, ?_⟩
  · constructor
    · intro h
      exact h.unique hreads
    · rintro rfl
      exact hreads
  · constructor
    · intro h
      have hreads' : ReadsParagraphs html (ps'.map paragraphRuns) :=
        h ▸ reads_paragraphsMarkup ps'
      exact hreads'.unique hreads
    · exact paragraphsMarkup_congr
  · rw [List.map_map]
    exact List.map_congr_left fun p _ => flatMap_text_paragraphRuns p

/-- An empty unmarked segment is not seen and an empty marked one is. -/
example : paragraphRuns [⟨false, []⟩, ⟨true, []⟩, ⟨false, ['a']⟩, ⟨false, []⟩, ⟨false, ['b']⟩] =
    [⟨some "highlight", []⟩, ⟨none, ['a', 'b']⟩] := by
  decide

end Html
end SearchMarkup
