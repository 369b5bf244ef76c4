/-
# What the check for faults says

A sequence may hold any tokens under any spans: they may overlap or leave gaps, end before they
begin, reach past the source or into a character, and be empty.  Tokens *cover* a source from
one byte to another (`TokenSequence.Covers`) when the first begins at the one, each begins where
the one before it ends, the source has each one's text under its span, and the last ends at the
other.

The check finds nothing exactly of the sequences that cover their source from its beginning to
its end, and otherwise tells the first thing that is wrong (`CoverageFault.IsFirst`).  The
tokens before it cover the source up to a byte `n`, and

| fault | because |
| --- | --- |
| a gap | the next token begins elsewhere |
| a mismatch | the next token begins there, and the source has another text under it, or none |
| incomplete | there is no next token, and the source goes on |

Both halves go through the tokens that are in order: the check passes over them
(`faultFrom?_append`), and whatever it finds is found after them (`isFirst_of_faultFrom?`).
That such tokens have the text of the source up to `n` needs the bytes of their spans alone
(`Covers.exists_eq_append`), so a span that ends early or late is told by its text.
-/

import SearchMarkup.Proofs.Query.Place
import SearchMarkup.Query.Sequence
import Mathlib.Data.List.Chain

namespace SearchMarkup

/-- A span that begins after `a` has a text exactly if the source goes on with that text, and the
span ends after it. -/
theorem Span.slice?_append_eq_some_iff {s : Span} {a t m : Text} (h : s.start.offset = a.size) :
    s.slice? (a ++ t) = some m ↔ ∃ b, t = m ++ b ∧ s.stop.offset = (a ++ m).size := by
  rw [Span.slice?, h, Text.slice?_eq_some_iff, Text.size_append]
  constructor
  · rintro ⟨a', b, ht, ha, hstop⟩
    rw [List.append_assoc] at ht
    obtain ⟨rfl, rfl⟩ := Text.append_inj_of_size ht ha.symm
    exact ⟨b, rfl, hstop.symm⟩
  · rintro ⟨b, rfl, hstop⟩
    exact ⟨a, b, (List.append_assoc ..).symm, rfl, hstop.symm⟩

namespace TokenSequence

/-- Tokens cover a source from one byte to another. -/
structure Covers (source : Text) (start : Nat) (l : List (Located Token)) (stop : Nat) : Prop where
  /-- The first begins where it should. -/
  first : ∀ x ∈ l.head?, x.span.start.offset = start
  /-- Each begins where the one before it ends. -/
  contiguous : l.IsChain fun x y => x.span.stop.offset = y.span.start.offset
  /-- The source has each one's text under its span. -/
  texts : ∀ x ∈ l, x.span.slice? source = some x.value.text
  /-- The last ends where it should; without tokens there is nothing to cover. -/
  last : (l.getLast?.map fun x => x.span.stop.offset).getD start = stop

variable {source a t : Text} {start mid stop i : Nat} {x : Located Token}
  {l r xs : List (Located Token)}

/-- Without tokens nothing is covered. -/
theorem covers_nil_iff : Covers source start [] stop ↔ start = stop :=
  ⟨Covers.last, fun h => ⟨nofun, .nil, nofun, h⟩⟩

/-- The first token stands at the place, and the others cover what follows it. -/
theorem covers_cons_iff : Covers source start (x :: xs) stop ↔
    x.span.start.offset = start ∧ x.span.slice? source = some x.value.text ∧
      Covers source x.span.stop.offset xs stop := by
  have hlast : (((x :: xs).getLast?.map fun y => y.span.stop.offset).getD start) =
      (xs.getLast?.map fun y => y.span.stop.offset).getD x.span.stop.offset := by
    rw [List.getLast?_cons]
    cases xs.getLast? <;> rfl
  constructor
  · rintro ⟨hfirst, hchain, htexts, hstop⟩
    refine ⟨hfirst x rfl, htexts x (List.mem_cons_self ..), ?_, hchain.of_cons,
      fun y hy => htexts y (List.mem_cons_of_mem x hy), hlast ▸ hstop⟩
    exact fun y hy => ((List.isChain_cons.1 hchain).1 y hy).symm
  · rintro ⟨hstart, htext, hxs⟩
    refine ⟨?_, List.isChain_cons.2 ⟨fun y hy => (hxs.first y hy).symm, hxs.contiguous⟩,
      List.forall_mem_cons.2 ⟨htext, hxs.texts⟩, hlast.trans hxs.last⟩
    rintro y hy
    obtain rfl := Option.some.inj hy
    exact hstart

/-- Tokens that cover two stretches that meet cover both. -/
theorem Covers.append (h : Covers source start l mid) (h' : Covers source mid r stop) :
    Covers source start (l ++ r) stop := by
  induction l generalizing start with
  | nil =>
    obtain rfl := covers_nil_iff.1 h
    exact h'
  | cons x xs ih =>
    obtain ⟨hstart, htext, hxs⟩ := covers_cons_iff.1 h
    exact covers_cons_iff.2 ⟨hstart, htext, ih hxs⟩

/-- **Tokens that cover a stretch have its text.** -/
theorem Covers.exists_eq_append (h : Covers (a ++ t) a.size l stop) :
    ∃ b, t = (l.flatMap fun x => x.value.text) ++ b ∧
      stop = (a ++ l.flatMap fun x => x.value.text).size := by
  induction l generalizing a t with
  | nil =>
    obtain rfl := covers_nil_iff.1 h
    exact ⟨t, rfl, by rw [List.flatMap_nil, List.append_nil]⟩
  | cons x xs ih =>
    obtain ⟨hstart, htext, hxs⟩ := covers_cons_iff.1 h
    obtain ⟨b, rfl, hstop⟩ := (Span.slice?_append_eq_some_iff hstart).1 htext
    rw [← List.append_assoc, hstop] at hxs
    obtain ⟨b', rfl, hend⟩ := ih hxs
    exact ⟨b', by simp, by simpa using hend⟩

/-- Tokens that cover a beginning of a source have its text. -/
theorem Covers.slice? (h : Covers source 0 l stop) :
    source.slice? 0 stop = some (l.flatMap fun x => x.value.text) := by
  obtain ⟨b, hsource, rfl⟩ := Covers.exists_eq_append (a := []) h
  exact Text.slice?_eq_some_iff.2 ⟨[], b, hsource, rfl, Nat.zero_add _⟩

/-- No token reaches past the source. -/
theorem Covers.stop_le (h : Covers source 0 l stop) : stop ≤ source.size := by
  obtain ⟨b, hsource, rfl⟩ := Covers.exists_eq_append (a := []) h
  rw [hsource, List.nil_append, Text.size_append]
  omega

/-- Tokens that cover a source have its text. -/
theorem Covers.flatMap_text (h : Covers source 0 l source.size) :
    (l.flatMap fun x => x.value.text) = source := by
  have hwhole : source.slice? 0 source.size = some source :=
    Text.slice?_eq_some_iff.2 ⟨[], [], (List.append_nil source).symm, rfl, Nat.zero_add _⟩
  exact Option.some.inj (h.slice?.symm.trans hwhole)

/-! ## The check -/

/-- **The check passes over tokens that cover a stretch.** -/
theorem faultFrom?_append (h : Covers source start l mid) :
    faultFrom? source i start (l ++ r) = faultFrom? source (i + l.length) mid r := by
  induction l generalizing start i with
  | nil =>
    obtain rfl := covers_nil_iff.1 h
    rfl
  | cons x xs ih =>
    obtain ⟨hstart, htext, hxs⟩ := covers_cons_iff.1 h
    rw [List.cons_append, faultFrom?, if_neg (not_not_intro hstart), if_neg (not_not_intro htext),
      ih hxs, List.length_cons, Nat.add_assoc, Nat.add_comm 1]

/-- There is no fault just when the tokens cover what is left. -/
theorem faultFrom?_eq_none_iff :
    faultFrom? source i start l = none ↔ Covers source start l source.size := by
  induction l generalizing start i with
  | nil =>
    rw [covers_nil_iff, faultFrom?]
    split <;> simp_all
  | cons x xs ih =>
    rw [covers_cons_iff, faultFrom?]
    split
    · next hstart => exact ⟨nofun, fun h => absurd h.1 hstart⟩
    · next hstart =>
      split
      · next htext => exact ⟨nofun, fun h => absurd h.2.1 htext⟩
      · next htext =>
        rw [ih]
        exact ⟨fun h => ⟨not_not.1 hstart, not_not.1 htext, h⟩, fun h => h.2.2⟩

/-- **The check finds nothing of a cover.** -/
theorem coverageFault?_eq_none_iff {s : TokenSequence} :
    s.coverageFault? source = none ↔ Covers source 0 s.tokens source.size :=
  faultFrom?_eq_none_iff

end TokenSequence

open TokenSequence

/-- A fault is the first thing that is wrong with tokens as a cover of a source. -/
inductive CoverageFault.IsFirst (source : Text) : List (Located Token) → CoverageFault → Prop
  /-- The next token begins elsewhere. -/
  | gap {l r : List (Located Token)} {x : Located Token} {n : Nat} (h : Covers source 0 l n)
      (hne : x.span.start.offset ≠ n) :
      IsFirst source (l ++ x :: r) (.gap l.length n x.span.start.offset)
  /-- The next token begins there, and the source has another text under its span, or none. -/
  | mismatch {l r : List (Located Token)} {x : Located Token} {n : Nat} (h : Covers source 0 l n)
      (hstart : x.span.start.offset = n) (hne : x.span.slice? source ≠ some x.value.text) :
      IsFirst source (l ++ x :: r) (.mismatch l.length n)
  /-- There is no next token, and the source goes on. -/
  | incomplete {l : List (Located Token)} {n : Nat} (h : Covers source 0 l n)
      (hlt : n < source.size) : IsFirst source l (.incomplete n source.size)

namespace TokenSequence

variable {source : Text} {n : Nat} {done rest : List (Located Token)} {fault : CoverageFault}

/-- What is found after tokens that are in order is the first fault. -/
theorem isFirst_of_faultFrom? (hdone : Covers source 0 done n)
    (h : faultFrom? source done.length n rest = some fault) :
    fault.IsFirst source (done ++ rest) := by
  induction rest generalizing done n with
  | nil =>
    rw [faultFrom?] at h
    split at h
    · cases h
    · next hne =>
      obtain rfl := Option.some.inj h
      rw [List.append_nil]
      exact .incomplete hdone (Nat.lt_of_le_of_ne hdone.stop_le hne)
  | cons x xs ih =>
    rw [faultFrom?] at h
    split at h
    · next hne =>
      obtain rfl := Option.some.inj h
      exact .gap hdone hne
    · next hstart =>
      rw [not_not] at hstart
      split at h
      · next hne =>
        obtain rfl := Option.some.inj h
        rw [hstart]
        exact .mismatch hdone hstart hne
      · next htext =>
        -- the token is in order, and the check goes on after it
        have hx : Covers source n [x] x.span.stop.offset :=
          covers_cons_iff.2 ⟨hstart, not_not.1 htext, covers_nil_iff.2 rfl⟩
        have hfirst := ih (hdone.append hx) (by rwa [List.length_append, List.length_singleton])
        rwa [List.append_assoc, List.singleton_append] at hfirst

/-- The first fault is the one that is found. -/
theorem coverageFault?_of_isFirst {s : TokenSequence} (h : fault.IsFirst source s.tokens) :
    s.coverageFault? source = some fault := by
  obtain ⟨l, size⟩ := s
  rw [coverageFault?]
  dsimp only at h ⊢
  cases h with
  | gap h hne => rw [faultFrom?_append h, Nat.zero_add, faultFrom?, if_pos hne]
  | mismatch h hstart hne =>
    rw [faultFrom?_append h, Nat.zero_add, faultFrom?, if_neg (not_not_intro hstart), if_pos hne,
      hstart]
  | incomplete h hlt =>
    rw [← List.append_nil l, faultFrom?_append h, faultFrom?, if_neg (Nat.ne_of_lt hlt)]

/-- **The check tells whether tokens cover a source, and if not the first thing that is
wrong.**  A sequence that covers its source has its text, and gives it whenever a text can be as
long as the sequence says that its source is, which is not checked.  A fault is found exactly if
it is the first: its index is that of the first token that does not begin where the one before it
ends, or is not what the source has under it, and all tokens before it cover the source up to the
byte told; without such a token it is the byte that the tokens come to, short of the end.  Such
tokens have the text of the source up to that byte. -/
theorem coverageFault?_exact (s : TokenSequence) (source : Text) :
    (s.coverageFault? source = none ↔ Covers source 0 s.tokens source.size) ∧
      (s.coverageFault? source = none →
        s.text = source ∧ (s.rebuilt? = some source ↔ s.sourceSize ≤ Limits.textSize)) ∧
      (∀ fault, s.coverageFault? source = some fault ↔ fault.IsFirst source s.tokens) ∧
      ∀ l n, Covers source 0 l n → source.slice? 0 n = some (l.flatMap fun x => x.value.text) := by
  refine ⟨coverageFault?_eq_none_iff, fun h => ?_, fun fault => ⟨fun h => ?_,
    coverageFault?_of_isFirst⟩, fun l n => Covers.slice?⟩
  · have htext : s.text = source := by
      rw [text, values, List.flatMap_map]
      exact (coverageFault?_eq_none_iff.1 h).flatMap_text
    refine ⟨htext, ?_⟩
    rw [rebuilt?, htext]
    exact Option.ite_some_none_eq_some.trans (and_iff_left rfl)
  · exact isFirst_of_faultFrom? (covers_nil_iff.2 rfl) h

/-- The token `a` covers `a`, and yet does not give its text in a sequence that says its source has
`2 ^ 63` bytes. -/
theorem rebuilt?_of_unchecked_size :
    let x : Located Token := ⟨.plain ['a'], ⟨⟨0, 1, 1⟩, ⟨1, 1, 2⟩⟩⟩
    let s : TokenSequence := ⟨[x], Nat.pow 2 63⟩
    s.coverageFault? ['a'] = none ∧ s.rebuilt? ≠ some ['a'] := by
  decide

end TokenSequence
end SearchMarkup
