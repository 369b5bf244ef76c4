/-
# What an extractor counts

An extractor counts while it splits texts, but all it counts can be told from the segments
it gives (`ExtractionMetrics.ofSegments`):

| metric | what it is |
| --- | --- |
| items | the number of texts that were split |
| segments, marked | the number of segments, and of the marked ones |
| dangling open tags | the number of texts whose last segment is unmarked and holds an open tag |
| stray close tags | the number of unmarked segments that hold a close tag |

With one tag for both ends no close tag is stray. An abstract that is shown for want of
highlights is not split, and counts nothing.

An open tag that nothing closes ends the search, so it stays in the last segment, and that
is unmarked. Where each open tag was closed, the last segment is marked or holds none
(`countP_isDangling_extractFrom`).

Each segment but the first takes a byte of the text, or a tag does for it. So none of these
numbers is greater than the number of texts and of their bytes, and a word has room for each
of them as long as it has for that.
-/

import SearchMarkup.Marking.Snippet
import SearchMarkup.Proofs.Marking.Decomposition
import Mathlib.Data.List.Infix

namespace SearchMarkup

/-- Whether a segment is unmarked and holds a tag. -/
def Segment.holds (tag : Text) (s : Segment) : Bool := !s.marked && decide (tag <:+: s.text)

/-- Whether segments end in an open tag that nothing closes, and what follows it. -/
def Segment.endOpen (tags : MarkerTags) (l : List Segment) : Bool :=
  l.getLast?.any (holds tags.opening)

/-- How many segments hold a close tag that closes nothing; none does if one tag stands at
both ends. -/
def Segment.strayCloses (tags : MarkerTags) (l : List Segment) : Nat :=
  if tags.opening = tags.closing then 0 else l.countP (holds tags.closing)

/-- What the metrics say of texts, given the segments of each. -/
def ExtractionMetrics.ofSegments (tags : MarkerTags) (ls : List (List Segment)) :
    ExtractionMetrics where
  items := ls.length
  segments := ls.flatten.length
  marked := ls.flatten.countP Segment.marked
  danglingOpens := ls.countP (Segment.endOpen tags)
  strayCloses := Segment.strayCloses tags ls.flatten

/-- All the counts, as numbers. -/
def ExtractionMetrics.numbers (m : ExtractionMetrics) : List Nat :=
  [m.items, m.segments, m.marked, m.danglingOpens, m.strayCloses]

/-- No more is counted than there are lists and segments. -/
theorem ExtractionMetrics.le_of_mem_numbers_ofSegments {tags : MarkerTags}
    {ls : List (List Segment)} {n : Nat} (h : n ∈ (ofSegments tags ls).numbers) :
    n ≤ max ls.length ls.flatten.length := by
  have hmarked : ls.flatten.countP Segment.marked ≤ ls.flatten.length := List.countP_le_length
  have hdangling : ls.countP (Segment.endOpen tags) ≤ ls.length := List.countP_le_length
  have hstray : Segment.strayCloses tags ls.flatten ≤ ls.flatten.length := by
    unfold Segment.strayCloses
    split
    · exact Nat.zero_le _
    · exact List.countP_le_length
  simp only [numbers, ofSegments, List.mem_cons, List.not_mem_nil, or_false] at h
  omega

/-- Whether a finding is about an open tag. -/
def TagFinding.isDangling : TagFinding → Bool
  | .danglingOpen _ => true
  | .strayClose _ => false

/-- Findings of each kind are counted on top of what was counted before. -/
theorem ExtractionMetrics.foldl_recordFinding (m : ExtractionMetrics) (l : List TagFinding) :
    l.foldl recordFinding m =
      { m with
        danglingOpens := m.danglingOpens + l.countP TagFinding.isDangling
        strayCloses := m.strayCloses + l.countP fun f => !f.isDangling } := by
  induction l generalizing m with
  | nil => rfl
  | cons f l ih =>
    rw [List.foldl_cons, ih]
    cases f <;> simp [recordFinding, TagFinding.isDangling, List.countP_cons, Nat.add_assoc,
      Nat.add_comm 1]

/-- Stray close tags of lists add up. -/
theorem Segment.strayCloses_append (tags : MarkerTags) (l l' : List Segment) :
    strayCloses tags (l ++ l') = strayCloses tags l + strayCloses tags l' := by
  unfold strayCloses
  split
  · rfl
  · exact List.countP_append

namespace Extraction

open Segment (holds endOpen)

variable {tags : MarkerTags} {t : Text} {first : Bool}

/-! ## What is found and what is given -/

/-- A stray close tag is no dangling open tag. -/
theorem countP_isDangling_strayCloses (tags : MarkerTags) (t : Text) :
    (strayCloses tags t).countP TagFinding.isDangling = 0 := by
  unfold strayCloses
  split <;> rfl

/-- A stray close tag is found where the unmarked segment holds one. -/
theorem countP_strayCloses (tags : MarkerTags) (t : Text) :
    ((strayCloses tags t).countP fun f => !f.isDangling) =
      Segment.strayCloses tags [⟨false, t⟩] := by
  unfold strayCloses Segment.strayCloses
  by_cases heq : tags.opening = tags.closing
  · simp [heq]
  · by_cases hin : tags.closing <:+: t <;>
      simp [heq, hin, holds, Text.contains_iff, TagFinding.isDangling]

/-- No open tag dangles where there is none. -/
theorem countP_isDangling_ofRemainder :
    (ofRemainder tags first t).findings.countP TagFinding.isDangling = 0 := by
  unfold ofRemainder
  split
  · rfl
  · simp [consUnmarked, countP_isDangling_strayCloses]

/-- Without a further pair of tags, segments end open just when there is an open tag. -/
theorem endOpen_ofRemainder :
    endOpen tags (ofRemainder tags first t).segments = decide (tags.opening <:+: t) := by
  unfold ofRemainder
  split
  · next hempty =>
    rw [Bool.and_eq_true, List.isEmpty_iff] at hempty
    simp [endOpen, hempty.1, tags.opening_ne_nil]
  · simp [endOpen, consUnmarked, holds]

/-- A marked segment in front does not change how the segments end. -/
theorem endOpen_cons_marked {m : Text} {l : List Segment} :
    endOpen tags (⟨true, m⟩ :: l) = endOpen tags l := by
  cases l <;> rfl

/-- A marked segment holds no stray close tag. -/
theorem strayCloses_cons_marked {m : Text} {l : List Segment} :
    Segment.strayCloses tags (⟨true, m⟩ :: l) = Segment.strayCloses tags l := by
  simp [Segment.strayCloses, holds]

/-- **An open tag that nothing closes is found just when the segments end in one.** -/
theorem countP_isDangling_extractFrom (tags : MarkerTags) (first : Bool) (offset : Nat)
    (t : Text) :
    (extractFrom tags first offset t).findings.countP TagFinding.isDangling =
      if endOpen tags (extractFrom tags first offset t).segments then 1 else 0 := by
  fun_induction extractFrom tags first offset t with
  | case1 first offset t hn =>
    have hnot := Text.splitAtFirst?_eq_none_iff.1 hn
    rw [countP_isDangling_ofRemainder, endOpen_ofRemainder]
    simp [hnot]
  | case2 first offset t u inner ho hn last =>
    have hin := (Text.splitAtFirst?_eq_some_iff.1 ho).isInfix
    have hopen : endOpen tags last.segments = true := by
      rw [endOpen_ofRemainder]
      exact decide_eq_true hin
    rw [if_pos hopen, List.countP_cons_of_pos rfl, countP_isDangling_ofRemainder]
  | case3 first offset t u inner ho m rest hc later x hu ih =>
    rw [show x.segments = ⟨true, m⟩ :: later.segments from rfl, endOpen_cons_marked]
    exact ih
  | case4 first offset t u inner ho m rest hc later x hu ih =>
    have hsegments : (consUnmarked tags u x).segments =
        ⟨false, u⟩ :: ⟨true, m⟩ :: later.segments := rfl
    have hopen : endOpen tags (⟨false, u⟩ :: ⟨true, m⟩ :: later.segments) =
        endOpen tags later.segments := endOpen_cons_marked
    have hfindings : (consUnmarked tags u x).findings =
        strayCloses tags u ++ later.findings := rfl
    rw [hsegments, hopen, hfindings, List.countP_append, countP_isDangling_strayCloses,
      Nat.zero_add]
    exact ih

/-- Without a further pair of tags, close tags are stray as its segment says. -/
theorem countP_not_isDangling_ofRemainder :
    ((ofRemainder tags first t).findings.countP fun f => !f.isDangling) =
      Segment.strayCloses tags (ofRemainder tags first t).segments := by
  unfold ofRemainder
  split
  · simp [Segment.strayCloses]
  · simp [consUnmarked, countP_strayCloses]

/-- **A close tag is found stray in each unmarked segment that holds one.** -/
theorem countP_not_isDangling_extractFrom (tags : MarkerTags) (first : Bool) (offset : Nat)
    (t : Text) :
    ((extractFrom tags first offset t).findings.countP fun f => !f.isDangling) =
      Segment.strayCloses tags (extractFrom tags first offset t).segments := by
  fun_induction extractFrom tags first offset t with
  | case1 first offset t hn => exact countP_not_isDangling_ofRemainder
  | case2 first offset t u inner ho hn last =>
    rw [List.countP_cons_of_neg (by simp [TagFinding.isDangling])]
    exact countP_not_isDangling_ofRemainder
  | case3 first offset t u inner ho m rest hc later x hu ih =>
    rw [show x.segments = ⟨true, m⟩ :: later.segments from rfl, strayCloses_cons_marked]
    exact ih
  | case4 first offset t u inner ho m rest hc later x hu ih =>
    have hsegments : (consUnmarked tags u x).segments =
        [⟨false, u⟩] ++ ⟨true, m⟩ :: later.segments := rfl
    have hfindings : (consUnmarked tags u x).findings =
        strayCloses tags u ++ later.findings := rfl
    rw [hsegments, hfindings, List.countP_append, countP_strayCloses,
      Segment.strayCloses_append, strayCloses_cons_marked]
    exact congrArg _ ih

/-- A pair of tags takes two characters at least. -/
theorem length_add_two_le_of_splitAtFirst? {u inner m rest : Text}
    (ho : Text.splitAtFirst? tags.opening t = some (u, inner))
    (hc : Text.splitAtFirst? tags.closing inner = some (m, rest)) :
    u.length + rest.length + 2 ≤ t.length := by
  have hopen := congrArg List.length (Text.eq_append_of_splitAtFirst? ho)
  have hclose := congrArg List.length (Text.eq_append_of_splitAtFirst? hc)
  have hopening := List.length_pos_iff.2 tags.opening_ne_nil
  have hclosing := List.length_pos_iff.2 tags.closing_ne_nil
  simp only [List.length_append] at hopen hclose
  omega

/-- A text has at most one segment more than characters. -/
theorem length_segments_extractFrom_le (tags : MarkerTags) (first : Bool) (offset : Nat)
    (t : Text) : (extractFrom tags first offset t).segments.length ≤ t.length + 1 := by
  have hremainder (first : Bool) (t : Text) :
      (ofRemainder tags first t).segments.length ≤ t.length + 1 := by
    unfold ofRemainder
    split
    · exact Nat.zero_le _
    · exact Nat.succ_le_succ (Nat.zero_le _)
  fun_induction extractFrom tags first offset t with
  | case1 first offset t hn => exact hremainder first t
  | case2 first offset t u inner ho hn last => exact hremainder first t
  | case3 first offset t u inner ho m rest hc later x hu ih =>
    have hsegments : x.segments.length = later.segments.length + 1 := rfl
    have hlater : later.segments.length ≤ rest.length + 1 := ih
    have htags := length_add_two_le_of_splitAtFirst? ho hc
    omega
  | case4 first offset t u inner ho m rest hc later x hu ih =>
    have hsegments : (consUnmarked tags u x).segments.length = later.segments.length + 2 := rfl
    have hlater : later.segments.length ≤ rest.length + 1 := ih
    have htags := length_add_two_le_of_splitAtFirst? ho hc
    have hbefore : u.length ≠ 0 := mt List.isEmpty_iff_length_eq_zero.2 hu
    omega

end Extraction

/-! ## Texts one after another -/

/-- **One more text adds to what the segments say.** -/
theorem ExtractionMetrics.record_ofSegments (tags : MarkerTags) (ls : List (List Segment))
    (t : Text) :
    (ofSegments tags ls).record (Extraction.ofText tags t) =
      ofSegments tags (ls ++ [(Extraction.ofText tags t).segments]) := by
  have hdangling := Extraction.countP_isDangling_extractFrom tags true 0 t
  have hstray := Extraction.countP_not_isDangling_extractFrom tags true 0 t
  rw [← Extraction.ofText] at hdangling hstray
  rw [record, foldl_recordFinding, hdangling, hstray]
  simp [ofSegments, Segment.strayCloses_append, List.countP_append, List.countP_singleton]

namespace Extractor

/-- The segments of each of some texts. -/
def segmentsEach (tags : MarkerTags) (ts : List Text) : List (List Segment) :=
  ts.map fun t => (Extraction.ofText tags t).segments

/-- Texts have no more segments than the texts and their bytes are. -/
theorem length_flatten_segmentsEach_le (tags : MarkerTags) (ts : List Text) :
    (segmentsEach tags ts).flatten.length ≤ ts.length + Text.size ts.flatten := by
  induction ts with
  | nil => exact Nat.le_refl 0
  | cons t ts ih =>
    have hcons : segmentsEach tags (t :: ts) =
        (Extraction.ofText tags t).segments :: segmentsEach tags ts := rfl
    have hle : (Extraction.ofText tags t).segments.length ≤ t.length + 1 :=
      Extraction.length_segments_extractFrom_le tags true 0 t
    have hsize := t.length_le_size
    rw [hcons, List.flatten_cons, List.flatten_cons, List.length_append, List.length_cons,
      Text.size_append]
    omega

/-- The extractor that has seen texts too. -/
def see (x : Extractor) (ts : List Text) : Extractor :=
  { x with metrics := ts.foldl (fun m t => m.record (Extraction.ofText x.tags t)) x.metrics }

@[simp] theorem see_nil (x : Extractor) : x.see [] = x := rfl

/-- Texts may be seen in parts. -/
@[simp] theorem see_see (x : Extractor) (ts ts' : List Text) :
    (x.see ts).see ts' = x.see (ts ++ ts') := by
  simp [see]

/-- Joined with the tags, the segments are the texts again. -/
theorem map_rejoinAll_segmentsEach (tags : MarkerTags) (ts : List Text) :
    (segmentsEach tags ts).map (Segment.rejoinAll tags) = ts := by
  rw [segmentsEach, List.map_map]
  refine (List.map_congr_left fun t _ => ?_).trans (List.map_id ts)
  exact Decomposition.rejoinAll_segments_ofText tags t

/-- Seeing texts adds their segments to what the metrics say. -/
theorem metrics_see (tags : MarkerTags) (s : MarkingSettings) (ls : List (List Segment))
    (ts : List Text) :
    (see ⟨tags, s, .ofSegments tags ls⟩ ts).metrics =
      .ofSegments tags (ls ++ segmentsEach tags ts) := by
  induction ts generalizing ls with
  | nil => simp [segmentsEach]
  | cons t ts ih =>
    have hcons : see ⟨tags, s, .ofSegments tags ls⟩ (t :: ts) =
        see ⟨tags, s, .ofSegments tags (ls ++ segmentsEach tags [t])⟩ ts := by
      simp [see, segmentsEach, ExtractionMetrics.record_ofSegments]
    rw [hcons, ih, List.append_assoc]
    rfl

/-- Texts are split one by one, and all are seen. -/
theorem value_extractEach (x : Extractor) (ts : List Text) :
    (x.extractEach ts).value = (segmentsEach x.tags ts, x.see ts) := by
  induction ts generalizing x with
  | nil => rfl
  | cons t ts ih => simp [extractEach, extract, ih, segmentsEach, see]

/-- The reports about a list of texts do not change what it gives. -/
theorem value_extractAll (x : Extractor) (ts : List Text) :
    (x.extractAll ts).value = (segmentsEach x.tags ts, x.see ts) := by
  rw [← value_extractEach]
  unfold extractAll
  split <;> rfl

end Extractor

/-- What is shown of a document. -/
def SnippetDocument.shown (tags : MarkerTags) (d : SnippetDocument) : SnippetBody :=
  match d.highlights.getD [], d.abstractText with
  | [], none => ⟨.empty, []⟩
  | [], some t => ⟨.abstract, [[⟨false, t⟩]]⟩
  | t :: ts, _ => ⟨.highlights, Extractor.segmentsEach tags (t :: ts)⟩

/-- The highlights of a document are split, and nothing else of it. -/
theorem SnippetDocument.value_body (d : SnippetDocument) (x : Extractor) :
    (d.body x).value = (d.shown x.tags, x.see (d.highlights.getD [])) := by
  cases hts : d.highlights.getD [] with
  | nil => cases ha : d.abstractText <;> simp [body, shown, SnippetBody.select, hts, ha]
  | cons t ts => simp [body, shown, SnippetBody.select, hts, Extractor.value_extractAll]

namespace Extractor

/-- What a host can do with an extractor. -/
inductive Use where
  | extract (t : Text)
  | extractAll (ts : List Text)
  | body (d : SnippetDocument)
  deriving DecidableEq, Repr

/-- The texts that a use splits. -/
def Use.texts : Use → List Text
  | .extract t => [t]
  | .extractAll ts => ts
  | .body d => d.highlights.getD []

/-- The segments that a use gives for each text it splits, and the extractor after it. What
is shown of a document was split if it comes from its highlights. -/
def use (x : Extractor) : Use → List (List Segment) × Extractor
  | .extract t => ([(x.extract t).value.1], (x.extract t).value.2)
  | .extractAll ts => (x.extractAll ts).value
  | .body d =>
    let (body, x) := (d.body x).value
    (if body.source = .highlights then body.paragraphs else [], x)

/-- The segments that uses give one by one. -/
def given (x : Extractor) : List Use → List (List Segment)
  | [] => []
  | u :: l => (x.use u).1 ++ (x.use u).2.given l

/-- The extractor after uses one by one. -/
def after (x : Extractor) (l : List Use) : Extractor := l.foldl (fun x u => (x.use u).2) x

/-- **A use gives the segments of the texts it splits, and these are seen.** -/
theorem use_eq (x : Extractor) (u : Use) :
    x.use u = (segmentsEach x.tags u.texts, x.see u.texts) := by
  cases u with
  | extract t => rfl
  | extractAll ts => exact x.value_extractAll ts
  | body d =>
    rw [use, d.value_body]
    refine Prod.ext ?_ rfl
    -- Only if there are no highlights are the paragraphs anything but their segments.
    cases hts : d.highlights.getD [] with
    | nil =>
      cases ha : d.abstractText <;>
        simp [SnippetDocument.shown, Use.texts, hts, ha, segmentsEach]
    | cons t ts => simp [SnippetDocument.shown, Use.texts, hts]

/-- After uses, the texts they split have been seen. -/
theorem after_eq (x : Extractor) (l : List Use) : x.after l = x.see (l.flatMap Use.texts) := by
  induction l generalizing x with
  | nil => rfl
  | cons u l ih =>
    have hcons : x.after (u :: l) = (x.use u).2.after l := rfl
    rw [hcons, ih, use_eq, see_see, List.flatMap_cons]

/-- Uses give the segments of the texts they split. -/
theorem given_eq (x : Extractor) (l : List Use) :
    x.given l = segmentsEach x.tags (l.flatMap Use.texts) := by
  induction l generalizing x with
  | nil => rfl
  | cons u l ih =>
    rw [given, ih, use_eq, List.flatMap_cons]
    exact List.map_append.symm

/-- **What an extractor has counted is told by the segments it gave,** which are one list for
each text that was split. No count is greater than the number of these texts and their bytes. -/
theorem metrics_eq_ofSegments (tags : MarkerTags) (s : MarkingSettings) (l : List Use) :
    let x : Extractor := { tags := tags, settings := s }
    (x.given l).map (Segment.rejoinAll tags) = l.flatMap Use.texts ∧
      (x.after l).metrics = .ofSegments tags (x.given l) ∧
      ∀ n ∈ (x.after l).metrics.numbers,
        n ≤ (l.flatMap Use.texts).length + Text.size (l.flatMap Use.texts).flatten := by
  intro x
  have hempty : ExtractionMetrics.ofSegments tags [] = {} := by
    simp [ExtractionMetrics.ofSegments, Segment.strayCloses]
  have hsee := metrics_see tags s [] (l.flatMap Use.texts)
  rw [hempty, List.nil_append] at hsee
  rw [after_eq, given_eq]
  refine ⟨map_rejoinAll_segmentsEach tags _, hsee, fun n hn => ?_⟩
  rw [hsee] at hn
  have hle := ExtractionMetrics.le_of_mem_numbers_ofSegments hn
  have hsegments := length_flatten_segmentsEach_le tags (l.flatMap Use.texts)
  have hlists : (segmentsEach tags (l.flatMap Use.texts)).length =
      (l.flatMap Use.texts).length := List.length_map ..
  omega

/-- A close tag before an open one, and the open one not closed. The abstract counts nothing. -/
example :
    let x : Extractor := { tags := .standard, settings := .ofEnvironment [] }
    (x.after [.extract "</kw>a<kw>".toList, .body ⟨none, some "<kw>".toList⟩]).metrics =
      ⟨1, 1, 0, 1, 1⟩ := by
  cbv

end Extractor
end SearchMarkup
