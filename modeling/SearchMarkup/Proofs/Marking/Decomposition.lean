/-
# The one way to cut a snippet at its tags

A snippet is cut as

    u₀ O m₁ C u₁ O m₂ C … O mₖ C r

where each open tag `O` is the leftmost one after the close tag before it, each close
tag `C` is the leftmost one after its open tag, and no open tag in `r` has a close tag
after it. A snippet has exactly one such decomposition (`isLeftmost_iff`), and the
segments that the extractor gives are its pieces in order: each `u` that is not empty,
unmarked, each `m`, marked, and last `r`, unless that is empty and something precedes
it (`segments_extractFrom`).
-/

import SearchMarkup.Marking.Extractor
import SearchMarkup.Proofs.Text.Leftmost
import Mathlib.Data.List.Chain

namespace SearchMarkup

open Text (Leftmost splitAtFirst?_eq_none_iff splitAtFirst?_eq_some_iff)

/-- A text cut at pairs of tags. -/
structure Decomposition where
  /-- For each pair, the text that leads up to it and the text within. -/
  pairs : List (Text × Text)
  /-- What follows the last pair. -/
  remainder : Text
  deriving DecidableEq, Repr

namespace Decomposition

/-- The text that was cut. -/
def text (tags : MarkerTags) (d : Decomposition) : Text :=
  d.pairs.flatMap (fun (u, m) => u ++ tags.wrap m) ++ d.remainder

/-- The segments of pairs: each marked text, after the unmarked one unless that is empty. -/
def ofPairs (pairs : List (Text × Text)) : List Segment :=
  pairs.flatMap fun (u, m) => (if u = [] then [] else [⟨false, u⟩]) ++ [⟨true, m⟩]

/-- The pieces of a cut text as segments. -/
def segments (d : Decomposition) : List Segment :=
  ofPairs d.pairs ++ if d.remainder = [] ∧ d.pairs ≠ [] then [] else [⟨false, d.remainder⟩]

/-- Each tag is the leftmost one that can be taken, and none is left to take. -/
structure IsLeftmost (tags : MarkerTags) (t : Text) (d : Decomposition) : Prop where
  text_eq : d.text tags = t
  opening : ∀ ps u m qs, d.pairs = ps ++ (u, m) :: qs →
    Leftmost tags.opening (text tags ⟨(u, m) :: qs, d.remainder⟩) u
      (m ++ tags.closing ++ text tags ⟨qs, d.remainder⟩)
  closing : ∀ ps u m qs, d.pairs = ps ++ (u, m) :: qs →
    Leftmost tags.closing (m ++ tags.closing ++ text tags ⟨qs, d.remainder⟩) m
      (text tags ⟨qs, d.remainder⟩)
  remainder : ∀ a b, d.remainder = a ++ tags.opening ++ b → ¬tags.closing <:+: b

/-- One more pair in front. -/
def cons (u m : Text) (d : Decomposition) : Decomposition := ⟨(u, m) :: d.pairs, d.remainder⟩

/-- The decomposition found from the left. -/
def ofText (tags : MarkerTags) (t : Text) : Decomposition :=
  match _ho : Text.splitAtFirst? tags.opening t with
  | none => ⟨[], t⟩
  | some (before, inner) =>
    match _hc : Text.splitAtFirst? tags.closing inner with
    | none => ⟨[], t⟩
    | some (marked, rest) => (ofText tags rest).cons before marked
  termination_by t.length
  decreasing_by
    have h₁ := congrArg List.length (Text.eq_append_of_splitAtFirst? _ho)
    have h₂ := congrArg List.length (Text.eq_append_of_splitAtFirst? _hc)
    have h₃ := List.length_pos_iff.2 tags.opening_ne_nil
    simp only [List.length_append] at h₁ h₂
    omega

variable {tags : MarkerTags} {t u m : Text} {d : Decomposition}

/-- A pair in front is part of the text. -/
@[simp] theorem text_cons : (d.cons u m).text tags =
    u ++ tags.opening ++ (m ++ tags.closing ++ d.text tags) := by
  simp [text, cons, MarkerTags.wrap]

/-- Without pairs a text is split leftmost if no open tag in it is closed. -/
theorem isLeftmost_nil_iff {r : Text} :
    IsLeftmost tags t ⟨[], r⟩ ↔
      r = t ∧ ∀ a b, t = a ++ tags.opening ++ b → ¬tags.closing <:+: b := by
  constructor
  · intro h
    obtain rfl : r = t := h.text_eq
    exact ⟨rfl, h.remainder⟩
  · rintro ⟨rfl, h⟩
    exact ⟨rfl, fun ps u m qs hp => by simp at hp, fun ps u m qs hp => by simp at hp, h⟩

/-- With a pair in front it is if the pair is the first, and the rest is. -/
theorem isLeftmost_cons_iff :
    IsLeftmost tags t (d.cons u m) ↔
      ∃ inner rest, Leftmost tags.opening t u inner ∧ Leftmost tags.closing inner m rest ∧
        IsLeftmost tags rest d := by
  constructor
  · intro h
    have ho : Leftmost tags.opening ((d.cons u m).text tags) u
        (m ++ tags.closing ++ d.text tags) := h.opening [] u m d.pairs rfl
    have hc := h.closing [] u m d.pairs rfl
    rw [h.text_eq] at ho
    refine ⟨_, _, ho, hc, rfl, ?_, ?_, h.remainder⟩
    · intro ps u' m' qs hp
      exact h.opening ((u, m) :: ps) u' m' qs (congrArg ((u, m) :: ·) hp)
    · intro ps u' m' qs hp
      exact h.closing ((u, m) :: ps) u' m' qs (congrArg ((u, m) :: ·) hp)
  · rintro ⟨inner, rest, ho, hc, h⟩
    obtain rfl := h.text_eq
    obtain rfl := hc.eq_append
    obtain rfl := ho.eq_append
    refine ⟨text_cons, ?_, ?_, h.remainder⟩
    · intro ps u' m' qs hp
      cases ps with
      | nil =>
        obtain ⟨hum, rfl⟩ := List.cons.inj hp
        obtain ⟨rfl, rfl⟩ := Prod.mk.inj hum
        rw [← text_cons] at ho
        exact ho
      | cons p ps => exact h.opening ps u' m' qs (List.cons.inj hp).2
    · intro ps u' m' qs hp
      cases ps with
      | nil =>
        obtain ⟨hum, rfl⟩ := List.cons.inj hp
        obtain ⟨rfl, rfl⟩ := Prod.mk.inj hum
        exact hc
      | cons p ps => exact h.closing ps u' m' qs (List.cons.inj hp).2

/-- Without a pair of tags there is nothing to cut. -/
theorem isLeftmost_iff_of_forall
    (h : ∀ a b, t = a ++ tags.opening ++ b → ¬tags.closing <:+: b) :
    IsLeftmost tags t d ↔ d = ⟨[], t⟩ := by
  obtain ⟨pairs, r⟩ := d
  cases pairs with
  | nil =>
    rw [isLeftmost_nil_iff]
    constructor
    · rintro ⟨rfl, -⟩
      rfl
    · intro hd
      cases hd
      exact ⟨rfl, h⟩
  | cons p ps =>
    refine ⟨fun hd => ?_, fun hd => ?_⟩
    · obtain ⟨u, m⟩ := p
      obtain ⟨inner, rest, ho, hc, -⟩ := (isLeftmost_cons_iff (d := ⟨ps, r⟩)).1 hd
      exact absurd hc.isInfix (h u inner ho.eq_append)
    · simp at hd

/-- With one, the leftmost comes first. -/
theorem isLeftmost_iff_of_leftmost {inner rest : Text} (ho : Leftmost tags.opening t u inner)
    (hc : Leftmost tags.closing inner m rest) :
    IsLeftmost tags t d ↔ ∃ e, d = e.cons u m ∧ IsLeftmost tags rest e := by
  constructor
  · intro h
    obtain ⟨pairs, r⟩ := d
    cases pairs with
    | nil => exact absurd hc.isInfix ((isLeftmost_nil_iff.1 h).2 u inner ho.eq_append)
    | cons p ps =>
      obtain ⟨u', m'⟩ := p
      obtain ⟨inner', rest', ho', hc', he⟩ := (isLeftmost_cons_iff (d := ⟨ps, r⟩)).1 h
      obtain ⟨rfl, rfl⟩ := ho.unique ho'
      obtain ⟨rfl, rfl⟩ := hc.unique hc'
      exact ⟨⟨ps, r⟩, rfl, he⟩
  · rintro ⟨e, rfl, he⟩
    exact isLeftmost_cons_iff.2 ⟨inner, rest, ho, hc, he⟩

/-- **A text has one decomposition, the one found from the left.** -/
theorem isLeftmost_iff : IsLeftmost tags t d ↔ d = ofText tags t := by
  fun_induction ofText tags t generalizing d with
  | case1 t hn =>
    refine isLeftmost_iff_of_forall fun a b ht => ?_
    exact absurd ⟨a, b, ht.symm⟩ (splitAtFirst?_eq_none_iff.1 hn)
  | case2 t u inner ho hn =>
    have ho := splitAtFirst?_eq_some_iff.1 ho
    exact isLeftmost_iff_of_forall fun a b ht =>
      ho.not_isInfix (splitAtFirst?_eq_none_iff.1 hn) ht
  | case3 t u inner ho m rest hc ih =>
    have ho := splitAtFirst?_eq_some_iff.1 ho
    have hc := splitAtFirst?_eq_some_iff.1 hc
    rw [isLeftmost_iff_of_leftmost ho hc]
    constructor
    · rintro ⟨e, rfl, he⟩
      rw [ih.1 he]
    · rintro rfl
      exact ⟨_, rfl, ih.2 rfl⟩

/-- The segments of what follows others: an empty remainder always goes. -/
def laterSegments (d : Decomposition) : List Segment :=
  ofPairs d.pairs ++ if d.remainder = [] then [] else [⟨false, d.remainder⟩]

/-- A pair in front gives a marked segment, and an unmarked one unless that is empty. -/
theorem segments_cons :
    (d.cons u m).segments =
      (if u = [] then [] else [⟨false, u⟩]) ++ ⟨true, m⟩ :: d.laterSegments := by
  by_cases hr : d.remainder = [] <;> simp [segments, laterSegments, cons, ofPairs, hr]

/-- After a segment, pairs give the same. -/
theorem laterSegments_cons : (d.cons u m).laterSegments = (d.cons u m).segments := by
  by_cases hr : d.remainder = [] <;> simp [segments, laterSegments, cons, hr]

variable {inner rest : Text} {first : Bool} {offset : Nat}

/-- The rest is one segment, left out if it is empty and not the first. -/
theorem segments_ofRemainder :
    (Extraction.ofRemainder tags first t).segments =
      if first then segments ⟨[], t⟩ else laterSegments ⟨[], t⟩ := by
  cases first <;> cases t <;> rfl

/-- What the extractor gives when both tags are found. -/
theorem segments_extractFrom_of_some (ho : tags.opening.splitAtFirst? t = some (u, inner))
    (hc : tags.closing.splitAtFirst? inner = some (m, rest)) :
    (Extraction.extractFrom tags first offset t).segments =
      (if u = [] then [] else [⟨false, u⟩]) ++ ⟨true, m⟩ ::
        (Extraction.extractFrom tags false
          (offset + u.size + tags.opening.size + m.size + tags.closing.size) rest).segments := by
  rw [Extraction.extractFrom]
  split
  · next hn => cases hn.symm.trans ho
  · next u' inner' ho' =>
    obtain ⟨rfl, rfl⟩ := Prod.mk.inj (Option.some.inj (ho'.symm.trans ho))
    split
    · next hn => cases hn.symm.trans hc
    · next m' rest' hc' =>
      obtain ⟨rfl, rfl⟩ := Prod.mk.inj (Option.some.inj (hc'.symm.trans hc))
      cases u' <;> rfl

/-- The extractor cuts where the decomposition does. -/
theorem segments_extractFrom :
    (Extraction.extractFrom tags first offset t).segments =
      if first then (ofText tags t).segments else (ofText tags t).laterSegments := by
  fun_induction ofText tags t generalizing first offset with
  | case1 t hn =>
    rw [Extraction.extractFrom]
    split
    · exact segments_ofRemainder
    · next hs => cases hn.symm.trans hs
  | case2 t u inner ho hn =>
    rw [Extraction.extractFrom]
    split
    · exact segments_ofRemainder
    · next u' inner' ho' =>
      obtain ⟨rfl, rfl⟩ := Prod.mk.inj (Option.some.inj (ho'.symm.trans ho))
      split
      · exact segments_ofRemainder
      · next hs => cases hn.symm.trans hs
  | case3 t u inner ho m rest hc ih =>
    rw [segments_extractFrom_of_some ho hc, ih, laterSegments_cons, segments_cons, ite_self]
    rfl

/-! ## What follows for the segments -/

/-- Segments may be joined in parts. -/
@[simp] theorem rejoinAll_append {l l' : List Segment} :
    Segment.rejoinAll tags (l ++ l') = Segment.rejoinAll tags l ++ Segment.rejoinAll tags l' :=
  List.flatMap_append

/-- The segments of pairs are those of one after another. -/
theorem ofPairs_cons {ps : List (Text × Text)} :
    ofPairs ((u, m) :: ps) =
      (if u = [] then [] else [⟨false, u⟩]) ++ ⟨true, m⟩ :: ofPairs ps := by
  simp [ofPairs]

/-- Joined, the segments of pairs are the pairs with their tags. -/
theorem rejoinAll_ofPairs {ps : List (Text × Text)} :
    Segment.rejoinAll tags (ofPairs ps) = ps.flatMap fun (u, m) => u ++ tags.wrap m := by
  induction ps with
  | nil => rfl
  | cons p ps ih =>
    obtain ⟨u, m⟩ := p
    rw [ofPairs_cons, rejoinAll_append, Segment.rejoinAll_cons, ih, List.flatMap_cons]
    split
    · next hu => simp [hu, Segment.rejoin]
    · simp [Segment.rejoin]

/-- Segments are joined to the text that was cut. -/
theorem rejoinAll_segments : Segment.rejoinAll tags d.segments = d.text tags := by
  rw [segments, rejoinAll_append, rejoinAll_ofPairs, text]
  split
  · next hr => rw [hr.1, Segment.rejoinAll_nil]
  · simp [Segment.rejoin]

/-- The segments of a text are those of its leftmost decomposition. -/
theorem segments_ofText (tags : MarkerTags) (t : Text) :
    (Extraction.ofText tags t).segments = (ofText tags t).segments :=
  segments_extractFrom

/-- A text is decomposed without loss. -/
theorem text_ofText (tags : MarkerTags) (t : Text) : (ofText tags t).text tags = t :=
  (isLeftmost_iff.2 rfl).text_eq

/-- The segments of a snippet are joined to the snippet. -/
theorem rejoinAll_segments_ofText (tags : MarkerTags) (t : Text) :
    Segment.rejoinAll tags (Extraction.ofText tags t).segments = t := by
  rw [segments_ofText, rejoinAll_segments, text_ofText]

/-- There is always a segment. -/
theorem segments_ne_nil : d.segments ≠ [] := by
  obtain ⟨pairs, r⟩ := d
  cases pairs with
  | nil => simp [segments]
  | cons p ps => simp [segments, ofPairs]

/-- No two segments that touch are unmarked, if none are in what follows the pairs. -/
theorem isChain_ofPairs_append {ps : List (Text × Text)} {l : List Segment}
    (hl : l.IsChain fun s s' => s.marked = true ∨ s'.marked = true) :
    (ofPairs ps ++ l).IsChain fun s s' => s.marked = true ∨ s'.marked = true := by
  induction ps with
  | nil => exact hl
  | cons p ps ih =>
    obtain ⟨u, m⟩ := p
    have hm : (⟨true, m⟩ :: (ofPairs ps ++ l)).IsChain
        fun s s' : Segment => s.marked = true ∨ s'.marked = true :=
      ih.cons fun _ _ => .inl rfl
    by_cases hu : u = []
    · simpa [ofPairs, hu] using hm
    · have hum := hm.cons (x := ⟨false, u⟩) fun _ hs => .inr (by cases hs; rfl)
      simpa [ofPairs, hu] using hum

/-- Of two neighbours one is marked. -/
theorem isChain_segments : d.segments.IsChain fun s s' => s.marked = true ∨ s'.marked = true := by
  refine isChain_ofPairs_append ?_
  split
  · exact .nil
  · exact .singleton _

/-- A marked segment is not among unmarked ones. -/
theorem not_mem_of_marked {s : Segment} {c : Prop} [Decidable c] (hm : s.marked = true) :
    s ∉ if c then [] else [⟨false, u⟩] := by
  intro hs
  split at hs
  · cases hs
  · rw [List.mem_singleton.1 hs] at hm
    cases hm

/-- A marked text stands between two tags. -/
theorem exists_pairs_of_mem_segments {s : Segment} (hs : s ∈ d.segments) (hm : s.marked = true) :
    ∃ ps u qs, d.pairs = ps ++ (u, s.text) :: qs := by
  have hs := (List.mem_append.1 hs).resolve_right (not_mem_of_marked hm)
  obtain ⟨⟨u, m⟩, hp, hs⟩ := List.mem_flatMap.1 hs
  have hs := (List.mem_append.1 hs).resolve_left (not_mem_of_marked hm)
  obtain rfl := List.mem_singleton.1 hs
  obtain ⟨ps, qs, hpq⟩ := List.append_of_mem hp
  exact ⟨ps, u, qs, hpq⟩

/-- No marked segment holds a close tag. -/
theorem IsLeftmost.not_isInfix {s : Segment} (h : IsLeftmost tags t d) (hs : s ∈ d.segments)
    (hm : s.marked = true) : ¬tags.closing <:+: s.text := by
  obtain ⟨ps, u, qs, hp⟩ := exists_pairs_of_mem_segments hs hm
  exact (h.closing ps u s.text qs hp).not_isInfix_left tags.closing_ne_nil

end Decomposition

namespace Extractor

open Decomposition

/-- **The extractor gives the pieces of the one decomposition of a snippet.** Joined with
the tags they are the snippet again, a marked text holds no close tag, of two neighbours
one is marked, and there is always a segment. -/
theorem segments_extract (x : Extractor) (t : Text) :
    ∃ d : Decomposition, (∀ e, e.IsLeftmost x.tags t ↔ e = d) ∧
      (x.extract t).value.1 = d.segments ∧
      Segment.rejoinAll x.tags (x.extract t).value.1 = t ∧
      (∀ s ∈ (x.extract t).value.1, s.marked = true → ¬x.tags.closing <:+: s.text) ∧
      ((x.extract t).value.1.IsChain fun s s' => s.marked = true ∨ s'.marked = true) ∧
      (x.extract t).value.1 ≠ [] := by
  have hd : (ofText x.tags t).IsLeftmost x.tags t := isLeftmost_iff.2 rfl
  have hs : (x.extract t).value.1 = (ofText x.tags t).segments := segments_extractFrom
  refine ⟨ofText x.tags t, fun e => isLeftmost_iff, hs, ?_⟩
  rw [hs]
  refine ⟨?_, ?_, isChain_segments, segments_ne_nil⟩
  · rw [rejoinAll_segments, hd.text_eq]
  · intro s hmem hm
    exact hd.not_isInfix hmem hm

/-- With one tag for both ends, an odd one stays in the remainder. -/
example : (Extraction.ofText ⟨['|'], ['|'], by decide, by decide⟩ "a|b||c".toList).segments =
    [⟨false, ['a']⟩, ⟨true, ['b']⟩, ⟨false, ['|', 'c']⟩] := by
  cbv

end Extractor
end SearchMarkup
