/-
# The places of tokens in closed form

A scan keeps its place as it goes: it adds to it for each character that it puts aside, and for
each match at once, remembers it where plain text begins, and returns to what it remembers when
the plain text ends.  What it arrives at can be counted off the text `a` before the place:

| | is |
| --- | --- |
| the offset | the number of bytes of `a` |
| the line | one more than the line feeds in `a` |
| the column | one more than the characters after the last line feed in `a`, or in all of `a` |

Lines and columns are 32-bit words, so this holds of the numbers modulo `2 ^ 32` in every text
(`Position.after_eq`), and of the numbers themselves where they fit (`Position.isAfter_after`).
They do in a text of fewer than `2 ^ 32 - 1` characters, as the numbers begin at one and no
character adds more than one to either.  Nothing overflows on the way either, however the way
is cut into single characters and longer stretches (`Position.moves?_after`).
-/

import SearchMarkup.Proofs.Query.OffsetScan
import SearchMarkup.Proofs.Query.Tiling
import Mathlib

namespace SearchMarkup

/-- What follows the last line feed of a text; all of it if there is none. -/
def Text.lastLine (t : Text) : Text := t.rtakeWhile fun c => c != '\n'

/-- A line feed begins a new line, and any other character goes on with the last. -/
theorem Text.lastLine_concat (t : Text) (c : Char) :
    lastLine (t ++ [c]) = if c = '\n' then [] else lastLine t ++ [c] := by
  rw [lastLine, List.rtakeWhile_concat]
  by_cases hc : c = '\n' <;> simp [hc, lastLine]

/-- The last line is no longer than the text. -/
theorem Text.length_lastLine_le (t : Text) : (lastLine t).length ≤ t.length :=
  (List.rtakeWhile_suffix _ t).length_le

/-- How a scan goes on: past one character, or past a stretch of text at once. -/
inductive Move where
  | step (c : Char)
  | leap (s : Text)
  deriving DecidableEq, Repr

namespace Move

/-- What is passed. -/
def text : Move → Text
  | .step c => [c]
  | .leap s => s

/-- What moves pass one after the other. -/
def texts (ms : List Move) : Text := ms.flatMap text

end Move

namespace Position

/-- A place is the one after a text, by counting what the text holds. -/
structure IsAfter (p : Position) (a : Text) : Prop where
  offset : p.offset = a.size
  line : p.line.toNat = 1 + a.count '\n'
  column : p.column.toNat = 1 + a.lastLine.length

/-- The place after a move, if each number on the way fits its word. -/
def move? (p : Position) : Move → Option Position
  | .step c => p.advance? c
  | .leap s => p.advanceBy? s

/-- The place after moves one after the other, if each number on the way fits its word. -/
def moves? (p : Position) : List Move → Option Position
  | [] => some p
  | m :: ms => (p.move? m).bind fun q => q.moves? ms

variable {a : Text} {ms : List Move}

/-- **The place after a text in closed form,** up to what a word holds. -/
theorem after_eq (a : Text) :
    after a = ⟨a.size, .ofNat (1 + a.count '\n'), .ofNat (1 + a.lastLine.length)⟩ := by
  induction a using List.reverseRecOn with
  | nil => rfl
  | append_singleton a c ih =>
    have hsucc (n : Nat) : UInt32.ofNat (1 + (n + 1)) = .ofNat (1 + n) + 1 :=
      UInt32.ofNat_add (1 + n) 1
    rw [← advance_after, ih, advance, Text.lastLine_concat, List.count_append, Text.size_append]
    by_cases hc : c = '\n'
    · subst hc
      rw [if_pos rfl, if_pos rfl, List.count_singleton_self, hsucc]
      rfl
    · have hcount : [c].count '\n' = 0 := List.count_eq_zero.2 (by simpa using Ne.symm hc)
      rw [if_neg hc, if_neg hc, hcount, List.length_append, List.length_singleton, hsucc,
        Text.size_cons, Text.size_nil]
      rfl

/-- **The place after a text in closed form.** -/
theorem isAfter_after (h : a.length + 1 < Nat.pow 2 32) : (after a).IsAfter a := by
  have hsize : UInt32.size = Nat.pow 2 32 := rfl
  have hline : a.count '\n' ≤ a.length := List.count_le_length
  have hcolumn := a.length_lastLine_le
  refine ⟨offset_after a, ?_, ?_⟩
  · rw [after_eq, UInt32.toNat_ofNat_of_lt' (by omega)]
  · rw [after_eq, UInt32.toNat_ofNat_of_lt' (by omega)]

/-- **Moves over a text come to the place after it,** and no number overflows. -/
theorem moves?_after (h : (a ++ Move.texts ms).length + 1 < Nat.pow 2 32) :
    (after a).moves? ms = some (after (a ++ Move.texts ms)) := by
  induction ms generalizing a with
  | nil => rw [moves?, Move.texts, List.flatMap_nil, List.append_nil]
  | cons m ms ih =>
    have htexts : a ++ Move.texts (m :: ms) = a ++ m.text ++ Move.texts ms := by
      rw [Move.texts, List.flatMap_cons, List.append_assoc, Move.texts]
    rw [htexts] at h ⊢
    have hm : (after a).move? m = some (after (a ++ m.text)) := by
      have hlen : (a ++ m.text).length + 1 < Nat.pow 2 32 := by
        rw [List.length_append] at h
        omega
      cases m with
      | step c => exact advance?_after (by simpa [Move.text] using hlen)
      | leap s => exact advanceBy?_after hlen
    rw [moves?, hm, Option.bind_some, ih h]

end Position

namespace Lexer

/-- **The ends of each token are counted off the text before them.**  In a query of fewer than
`2 ^ 32 - 1` characters the offset, the line and the column of either end are in closed form
those of the text before it.  Every way to that end comes to the same place, whichever part of
it is gone by single characters and whichever by longer stretches, and no number on it
overflows.  Nor does any in the scan itself: one that faults at the first number that does not
fit its word yields these tokens. -/
theorem tokenize_places (x : Lexer) (t : Text) (h : t.length < Nat.pow 2 32 - 1) :
    let l := (x.tokenize t).value.1.tokens
    (∀ y ∈ l, ∃ a b, t = a ++ (y.value.text ++ b) ∧
        y.span.start.IsAfter a ∧ y.span.stop.IsAfter (a ++ y.value.text) ∧
        (∀ ms, Move.texts ms = a → Position.start.moves? ms = some y.span.start) ∧
        ∀ ms, Move.texts ms = a ++ y.value.text → Position.start.moves? ms = some y.span.stop) ∧
      ∀ r, Offsets.Runs .faults t {} r ↔ r = .ok ⟨l, (Scan.ofText t).findings⟩ := by
  intro l
  have hfits : Offsets.Fits .faults t := fun _ => by omega
  refine ⟨fun y hy => ?_, fun r => Offsets.runs_start_iff hfits⟩
  obtain ⟨a, b, ht, hspan⟩ := (Scan.tiles_ofText t).exists_eq_append hy
  rw [List.nil_append] at hspan
  rw [List.append_assoc] at ht
  -- a text before a place of `t` is no longer than `t`
  have hlen : (a ++ y.value.text).length + 1 < Nat.pow 2 32 := by
    rw [ht, ← List.append_assoc, List.length_append] at h
    omega
  have hlen' : a.length + 1 < Nat.pow 2 32 := by
    rw [List.length_append] at hlen
    omega
  refine ⟨a, b, ht, ?_, ?_, ?_, ?_⟩
  · rw [hspan]
    exact Position.isAfter_after hlen'
  · rw [hspan]
    exact Position.isAfter_after hlen
  · rintro ms rfl
    rw [hspan]
    exact Position.moves?_after (a := []) hlen'
  · rintro ms hms
    rw [hspan, Span.after, ← hms]
    exact Position.moves?_after (a := []) (hms ▸ hlen)

/-- In a line feed, `=`, `“`, a line feed, `ü` and `”`, the quotation begins in column 2 of line 2
and ends in column 3 of line 3. -/
theorem tokenize_places_quotation_over_lines :
    let x : Lexer := ⟨⟨true, true, true⟩, {}⟩
    let a : Text := ['\n', '=']
    let q : Quotation := ⟨'“', ['\n', 'ü'], '”'⟩
    let y : Located Token := ⟨.quotation q, ⟨⟨2, 2, 2⟩, ⟨11, 3, 3⟩⟩⟩
    (a ++ q.text).length < Nat.pow 2 32 - 1 ∧ y ∈ (x.tokenize (a ++ q.text)).value.1.tokens ∧
      y.span.start.IsAfter a ∧ y.span.stop.IsAfter (a ++ q.text) ∧
      Position.start.moves? [.step '\n', .step '=', .leap q.text] = some y.span.stop ∧
      Position.start.moves? [.leap ['\n', '=', '“', '\n', 'ü'], .step '”'] = some y.span.stop ∧
      Offsets.Runs .faults (a ++ q.text) {} (.ok (Scan.ofText (a ++ q.text))) := by
  intro x a q y
  have hlen : (a ++ q.text).length < Nat.pow 2 32 - 1 := by decide
  have hsecond : (x.tokenize (a ++ q.text)).value.1.tokens[1]? =
      some ⟨.quotation ⟨'“', ['\n', 'ü'], '”'⟩, ⟨⟨2, 2, 2⟩, ⟨11, 3, 3⟩⟩⟩ := by cbv
  have hy : y ∈ (x.tokenize (a ++ q.text)).value.1.tokens := List.mem_of_getElem? hsecond
  obtain ⟨hplaces, hruns⟩ := tokenize_places x (a ++ q.text) hlen
  obtain ⟨a', b', ht, hstart, hstop, -, hmoves⟩ := hplaces y hy
  obtain ⟨rfl, -⟩ := Text.append_inj_of_size ht hstart.offset
  exact ⟨hlen, hy, hstart, hstop, hmoves _ rfl, hmoves _ rfl, (hruns _).2 rfl⟩

end Lexer
end SearchMarkup
