/-
# Positions, spans and located values

A position counts the bytes before it, and the line and column it stands at. Lines
and columns begin at 1 and count characters in 32-bit words, as an editor's caret
does; only a line feed begins a new line.

`advance` goes on from any place, and its words wrap around; `advance?` goes on only
while every number of the new place fits its word, and then to the same place.
-/

import SearchMarkup.Text.Basic

namespace SearchMarkup

/-- A place in a text. -/
structure Position where
  /-- Bytes before the place. -/
  offset : Nat
  /-- Line, from 1. -/
  line : UInt32
  /-- Column in characters, from 1. -/
  column : UInt32
  deriving DecidableEq, Repr, Inhabited

namespace Position

/-- The place before the first character. -/
def start : Position := ⟨0, 1, 1⟩

/-- The place after one more character. -/
def advance (p : Position) (c : Char) : Position :=
  if c = '\n' then ⟨p.offset + 1, p.line + 1, 1⟩
  else ⟨p.offset + c.utf8Size, p.line, p.column + 1⟩

/-- The place after a further stretch of text. -/
def advanceBy (p : Position) (t : Text) : Position := t.foldl advance p

@[simp] theorem advanceBy_nil (p : Position) : p.advanceBy [] = p := rfl

/-- A text is read character by character. -/
@[simp] theorem advanceBy_cons (p : Position) (c : Char) (t : Text) :
    p.advanceBy (c :: t) = (p.advance c).advanceBy t := rfl

/-- A text may be read in parts. -/
@[simp] theorem advanceBy_append (p : Position) (s t : Text) :
    p.advanceBy (s ++ t) = (p.advanceBy s).advanceBy t := by
  simp [advanceBy]

/-- The offset counts the bytes of what is read. -/
theorem offset_advance (p : Position) (c : Char) :
    (p.advance c).offset = p.offset + c.utf8Size := by
  unfold advance
  split
  · next h => subst h; rfl
  · rfl

/-- **Offsets count bytes:** a stretch of text moves the offset by its size. -/
@[simp] theorem offset_advanceBy (p : Position) (t : Text) :
    (p.advanceBy t).offset = p.offset + t.size := by
  induction t generalizing p with
  | nil => rfl
  | cons c t ih => rw [advanceBy_cons, ih, offset_advance, Text.size_cons]; omega

/-- The number that a character counts towards: the line, or else the column. -/
def counter (p : Position) (c : Char) : UInt32 := if c = '\n' then p.line else p.column

/-- The place after one more character, if it can be told: its offset has to fit 64 bits,
and the number that the character counts towards 32. -/
def advance? (p : Position) (c : Char) : Option Position :=
  if p.offset + c.utf8Size < Nat.pow 2 64 ∧ (p.counter c).toNat + 1 < Nat.pow 2 32 then
    some (p.advance c)
  else none

/-- The place after a further stretch of text, if each place on the way can be told. -/
def advanceBy? (p : Position) : Text → Option Position
  | [] => some p
  | c :: t => (p.advance? c).bind fun q => q.advanceBy? t

/-- Where the numbers fit, checked and wrapping arithmetic come to the same place. -/
theorem eq_advance_of_advance? {p q : Position} {c : Char} (h : p.advance? c = some q) :
    q = p.advance c := by
  unfold advance? at h
  split at h
  · exact (Option.some.inj h).symm
  · exact nomatch h

/-- **A place that can be told is the one that is reached anyway.** -/
theorem eq_advanceBy_of_advanceBy? {p q : Position} {t : Text}
    (h : p.advanceBy? t = some q) : q = p.advanceBy t := by
  induction t generalizing p with
  | nil => exact (Option.some.inj h).symm
  | cons c t ih =>
    obtain ⟨r, hr, hq⟩ := Option.bind_eq_some_iff.1 h
    rw [advanceBy_cons, ← eq_advance_of_advance? hr]
    exact ih hq

/-- The decimal digits of a line or column. -/
def digits (n : UInt32) : String := toString n.toNat

/-- Line and column, as in `3:14`. -/
def display (p : Position) : String := digits p.line ++ ":" ++ digits p.column

end Position

/-- A stretch of text, from `start` up to but not including `stop`. -/
structure Span where
  start : Position
  stop : Position
  deriving DecidableEq, Repr, Inhabited

namespace Span

/-- The number of bytes covered, which a span that ends before it starts does not have. -/
def length? (s : Span) : Option Nat :=
  if s.start.offset ≤ s.stop.offset then some (s.stop.offset - s.start.offset) else none

/-- A span has a length if it does not end before it starts. -/
theorem length?_eq_some_iff {s : Span} {n : Nat} :
    s.length? = some n ↔ s.start.offset + n = s.stop.offset := by
  unfold length?
  split
  · rw [Option.some.injEq]; omega
  · simp only [reduceCtorEq, false_iff]; omega

/-- Whether no byte is covered. -/
def isEmpty (s : Span) : Bool := s.start.offset == s.stop.offset

/-- Whether the byte at an offset is covered. -/
def covers (s : Span) (offset : Nat) : Bool :=
  s.start.offset ≤ offset && offset < s.stop.offset

/-- A span covers its start and not its end. -/
theorem covers_iff {s : Span} {offset : Nat} :
    s.covers offset = true ↔ s.start.offset ≤ offset ∧ offset < s.stop.offset := by
  simp [covers]

/-- The earlier of the two starts and the later of the two ends; on equal offsets
the first span's. -/
def merge (s t : Span) : Span where
  start := if s.start.offset ≤ t.start.offset then s.start else t.start
  stop := if t.stop.offset ≤ s.stop.offset then s.stop else t.stop

/-- The text covered by a span; `none` when the span does not fit the text. -/
def slice? (s : Span) (t : Text) : Option Text := t.slice? s.start.offset s.stop.offset

/-- `line:column-column` on one line, `line:column-line:column` across lines. -/
def display (s : Span) : String :=
  if s.start.line = s.stop.line then s.start.display ++ "-" ++ Position.digits s.stop.column
  else s.start.display ++ "-" ++ s.stop.display

end Span

/-- A value together with the stretch of text it was read from. -/
structure Located (α : Type) where
  value : α
  span : Span
  deriving DecidableEq, Repr

end SearchMarkup
