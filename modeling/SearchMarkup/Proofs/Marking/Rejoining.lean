/-
# Segments found again after rejoining

Segments are joined with their tags and extracted again. They come back as they were
when they are canonical (`Segment.IsCanonical`):

| segments | condition |
| --- | --- |
| all | at least one, and of two neighbours one is marked |
| unmarked | not empty, unless there is nothing else, and without the open tag |
| marked | without the close tag |

and no proper part of a tag both begins and ends it. Such a tag cannot begin in the text
before it and end in the tag itself, so each tag that was put in is the leftmost one
(`Text.Leftmost.of_isUnbordered`), and the segments are the pieces of the one leftmost
decomposition of the joined text (`Decomposition.exists_isLeftmost_rejoinAll`).

The condition on the tags is needed: see the example at the end.
-/

import SearchMarkup.Proofs.Marking.Decomposition

namespace SearchMarkup

open Text (IsUnbordered Leftmost)

namespace Segment

/-- A segment that the extractor can give and that holds no tag it would stop at. -/
def IsClean (tags : MarkerTags) (s : Segment) : Prop :=
  if s.marked then ¬tags.closing <:+: s.text else s.text ≠ [] ∧ ¬tags.opening <:+: s.text

/-- Segments in the form in which the extractor gives them, with no tag in a text that
would be taken for one around it. -/
structure IsCanonical (tags : MarkerTags) (l : List Segment) : Prop where
  ne_nil : l ≠ []
  isChain : l.IsChain fun s s' => s.marked = true ∨ s'.marked = true
  text_ne_nil : l = [⟨false, []⟩] ∨ ∀ s ∈ l, s.marked = false → s.text ≠ []
  not_closing : ∀ s ∈ l, s.marked = true → ¬tags.closing <:+: s.text
  not_opening : ∀ s ∈ l, s.marked = false → ¬tags.opening <:+: s.text

/-- No segment of a canonical list holds what would end it early. -/
theorem IsCanonical.isClean {tags : MarkerTags} {l : List Segment} (h : IsCanonical tags l)
    (hl : l ≠ [⟨false, []⟩]) : ∀ s ∈ l, s.IsClean tags := by
  intro s hs
  unfold IsClean
  split
  · next hm => exact h.not_closing s hs hm
  · next hm =>
    have hm : s.marked = false := Bool.not_eq_true _ ▸ hm
    exact ⟨h.text_ne_nil.resolve_left hl s hs hm, h.not_opening s hs hm⟩

end Segment

namespace Decomposition

variable {tags : MarkerTags}

/-- Where segments come after others, nothing else is left out. -/
theorem segments_eq_laterSegments {d : Decomposition} (h : d.laterSegments ≠ []) :
    d.segments = d.laterSegments := by
  obtain ⟨pairs, r⟩ := d
  by_cases hr : r = []
  · have hpairs : pairs ≠ [] := by
      rintro rfl
      exact h (by simp [laterSegments, ofPairs, hr])
    simp [segments, laterSegments, hr, hpairs]
  · simp [segments, laterSegments, hr]

/-- A pair of tags around `m`, put after `u`, comes before the pairs of what follows. -/
theorem IsLeftmost.cons_of_isUnbordered {t u m : Text} {d : Decomposition}
    (ho : IsUnbordered tags.opening) (hc : IsUnbordered tags.closing)
    (hu : ¬tags.opening <:+: u) (hm : ¬tags.closing <:+: m) (h : d.IsLeftmost tags t) :
    (d.cons u m).IsLeftmost tags (u ++ tags.opening ++ (m ++ tags.closing ++ t)) :=
  isLeftmost_cons_iff.2 ⟨_, _, .of_isUnbordered ho hu, .of_isUnbordered hc hm, h⟩

/-- **Clean segments are the pieces of the leftmost decomposition of the text they make.** -/
theorem exists_isLeftmost_rejoinAll (ho : IsUnbordered tags.opening)
    (hc : IsUnbordered tags.closing) :
    ∀ l : List Segment, (l.IsChain fun s s' => s.marked = true ∨ s'.marked = true) →
      (∀ s ∈ l, s.IsClean tags) →
        ∃ d : Decomposition, d.IsLeftmost tags (Segment.rejoinAll tags l) ∧ d.laterSegments = l
  | [], _, _ => by
    refine ⟨⟨[], []⟩, isLeftmost_nil_iff.2 ⟨rfl, fun a b h => ?_⟩, rfl⟩
    simp [tags.opening_ne_nil] at h
  | ⟨true, m⟩ :: l, hl, hclean => by
    obtain ⟨hm, hclean⟩ := List.forall_mem_cons.1 hclean
    obtain ⟨d, hd, hs⟩ := exists_isLeftmost_rejoinAll ho hc l hl.of_cons hclean
    have hnil : ¬tags.opening <:+: [] := by simp [tags.opening_ne_nil]
    refine ⟨d.cons [] m, ?_, by simp [laterSegments_cons, segments_cons, hs]⟩
    simpa [Segment.rejoin, MarkerTags.wrap] using hd.cons_of_isUnbordered ho hc hnil hm
  | [⟨false, u⟩], _, hclean => by
    obtain ⟨hne, hu⟩ := hclean _ (List.mem_singleton_self _)
    refine ⟨⟨[], u⟩, isLeftmost_nil_iff.2 ⟨(List.append_nil u).symm, fun a b h => ?_⟩, ?_⟩
    · exact absurd ⟨a, b, h.symm.trans (List.append_nil u)⟩ hu
    · simp [laterSegments, ofPairs, hne]
  | ⟨false, u⟩ :: ⟨true, m⟩ :: l, hl, hclean => by
    obtain ⟨⟨hne, hu⟩, hclean⟩ := List.forall_mem_cons.1 hclean
    obtain ⟨hm, hclean⟩ := List.forall_mem_cons.1 hclean
    obtain ⟨d, hd, hs⟩ := exists_isLeftmost_rejoinAll ho hc l hl.of_cons.of_cons hclean
    refine ⟨d.cons u m, ?_, by simp [laterSegments_cons, segments_cons, hs, hne]⟩
    simpa [Segment.rejoin, MarkerTags.wrap] using hd.cons_of_isUnbordered ho hc hu hm
  | ⟨false, _⟩ :: ⟨false, _⟩ :: _, hl, _ => by simp at hl

end Decomposition

namespace Extractor

open Decomposition

/-- **Extraction undoes rejoining** on canonical segments, if no proper part of a tag both
begins and ends it. -/
theorem extract_rejoinAll (x : Extractor) (l : List Segment)
    (ho : IsUnbordered x.tags.opening) (hc : IsUnbordered x.tags.closing)
    (hl : Segment.IsCanonical x.tags l) :
    (x.extract (Segment.rejoinAll x.tags l)).value.1 = l := by
  have hextract : (x.extract (Segment.rejoinAll x.tags l)).value.1 =
      (ofText x.tags (Segment.rejoinAll x.tags l)).segments := segments_extractFrom
  rw [hextract]
  by_cases hempty : l = [⟨false, []⟩]
  · subst hempty
    have hleft : (⟨[], []⟩ : Decomposition).IsLeftmost x.tags [] :=
      isLeftmost_nil_iff.2 ⟨rfl, fun a b h => by simp [x.tags.opening_ne_nil] at h⟩
    exact congrArg segments (isLeftmost_iff.1 hleft).symm
  · obtain ⟨d, hd, hs⟩ := exists_isLeftmost_rejoinAll ho hc l hl.isChain (hl.isClean hempty)
    rw [← isLeftmost_iff.1 hd, segments_eq_laterSegments (hs ▸ hl.ne_nil), hs]

/-- Texts that end in parts of the tags after them, and that hold the other tag. -/
theorem extract_rejoinAll_parts_of_tags :
    let x : Extractor := ⟨.standard, ⟨Limits.openTag, Limits.closeTag, true⟩, {}⟩
    let l : List Segment := [⟨false, ['a', '<', 'k']⟩, ⟨true, ['<', 'k', 'w', '>', '<', '/', 'k']⟩,
      ⟨true, []⟩, ⟨false, ['<', '/', 'k', 'w', '>', '<']⟩]
    IsUnbordered x.tags.opening ∧ IsUnbordered x.tags.closing ∧ Segment.IsCanonical x.tags l ∧
      (x.extract (Segment.rejoinAll x.tags l)).value.1 = l := by
  intro x l
  have ho : IsUnbordered x.tags.opening := by decide
  have hc : IsUnbordered x.tags.closing := by decide
  have hl : Segment.IsCanonical x.tags l :=
    ⟨by decide, by decide, by decide, by decide, by decide⟩
  exact ⟨ho, hc, hl, extract_rejoinAll x l ho hc hl⟩

/-- A tag that begins as it ends is found too early. -/
example :
    let tags : MarkerTags := ⟨['*', '*'], ['|'], by decide, by decide⟩
    let l : List Segment := [⟨false, ['*']⟩, ⟨true, ['a']⟩]
    (Extraction.ofText tags (Segment.rejoinAll tags l)).segments = [⟨true, ['*', 'a']⟩] := by
  cbv

end Extractor
end SearchMarkup
