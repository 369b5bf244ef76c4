/-
# Cutting a text by its bytes

The bytes of a text tell where its characters begin: all but the first byte of a character are
*continuation* bytes, and these are the bytes from `80` up to `BF`.  So the last place at or
before a number of bytes is found by going back while a continuation byte follows.

Going back can fall below zero, and a cut can miss the places of the text; both are faults.
-/

import SearchMarkup.Text.Basic

namespace SearchMarkup

/-- Why a text is not cut. -/
inductive CutFault where
  /-- The search for a place went below zero. -/
  | belowZero
  /-- The text has no place after so many bytes. -/
  | noPlace (n : Nat)
  deriving DecidableEq, Repr

namespace CutFault

variable {α β : Type}

/-- A step that succeeds hands its value on. -/
@[simp] theorem ok_bind (a : α) (f : α → Except CutFault β) : (Except.ok a >>= f) = f a := rfl

/-- A value is a success. -/
@[simp] theorem pure_eq (a : α) : (pure a : Except CutFault α) = .ok a := rfl

end CutFault

/-- Where a search for a place came to its end, and after how many steps back. -/
structure Retreat where
  place : Nat
  steps : Nat
  deriving DecidableEq, Repr

namespace Text

/-- The bytes of the UTF-8 form. -/
def bytes (t : Text) : List UInt8 := t.flatMap String.utf8EncodeChar

/-- Whether a byte goes on with a character that another byte begins. -/
def isContinuation (b : UInt8) : Bool := 0x80 ≤ b.toNat && b.toNat < 0xC0

/-- Whether a character begins after so many bytes, or the text ends there. -/
def isBoundary (t : Text) (n : Nat) : Bool :=
  n == 0 ||
    match t.bytes[n]? with
    | some b => !isContinuation b
    | none => n == t.bytes.length

/-- The search for the last place at or before a byte, after some steps. -/
def retreat (t : Text) (steps : Nat) : Nat → Except CutFault Retreat
  | 0 => if t.isBoundary 0 then .ok ⟨0, steps⟩ else .error .belowZero
  | n + 1 => if t.isBoundary (n + 1) then .ok ⟨n + 1, steps⟩ else t.retreat (steps + 1) n

/-- What is before a place. -/
def cutAt (t : Text) (n : Nat) : Except CutFault Text :=
  match t.splitAtByte? n with
  | some (a, _) => .ok a
  | none => .error (.noPlace n)

/-- A text cut to a number of bytes, with three dots when something was cut off. -/
def truncateByBytes (limit : Nat) (t : Text) : Except CutFault Text :=
  if t.size ≤ limit then .ok t
  else do
    let found ← t.retreat 0 limit
    let kept ← t.cutAt found.place
    return kept ++ ['.', '.', '.']

@[simp] theorem bytes_nil : bytes [] = [] := rfl

/-- A text is encoded character by character. -/
@[simp] theorem bytes_cons (c : Char) (t : Text) :
    bytes (c :: t) = String.utf8EncodeChar c ++ bytes t := rfl

/-- A byte goes on a character if it lies between these. -/
theorem isContinuation_ofNat_iff {n : Nat} (hn : n < 256) :
    isContinuation (UInt8.ofNat n) = true ↔ 0x80 ≤ n ∧ n < 0xC0 := by
  rw [isContinuation, UInt8.toNat_ofNat', Nat.mod_eq_of_lt hn, Bool.and_eq_true, decide_eq_true_iff,
    decide_eq_true_iff]

/-- A byte that holds six bits of a number goes on with a character. -/
theorem isContinuation_low (n : Nat) : isContinuation (UInt8.ofNat (n % 0x40 + 0x80)) = true :=
  (isContinuation_ofNat_iff (by omega)).2 (by omega)

/-- Any other byte begins one. -/
theorem isContinuation_eq_false {n : Nat} (hn : n < 256) (h : n < 0x80 ∨ 0xC0 ≤ n) :
    isContinuation (UInt8.ofNat n) = false := by
  rw [← Bool.not_eq_true, isContinuation_ofNat_iff hn]
  omega

/-- **The first byte of a character is told from the others.** -/
theorem exists_utf8EncodeChar (c : Char) : ∃ b bs, String.utf8EncodeChar c = b :: bs ∧
    isContinuation b = false ∧ ∀ x ∈ bs, isContinuation x = true := by
  have hnil : ∀ x ∈ ([] : List UInt8), isContinuation x = true := nofun
  have hcons (n : Nat) {bs : List UInt8} (h : ∀ x ∈ bs, isContinuation x = true) :
      ∀ x ∈ UInt8.ofNat (n % 0x40 + 0x80) :: bs, isContinuation x = true :=
    List.forall_mem_cons.2 ⟨isContinuation_low n, h⟩
  unfold String.utf8EncodeChar
  generalize c.val.toNat = v
  dsimp only
  split
  · exact ⟨_, _, rfl, isContinuation_eq_false (by omega) (by omega), hnil⟩
  · split
    · exact ⟨_, _, rfl, isContinuation_eq_false (by omega) (by omega), hcons v hnil⟩
    · split
      · exact ⟨_, _, rfl, isContinuation_eq_false (by omega) (by omega),
          hcons (v / 64) (hcons v hnil)⟩
      · exact ⟨_, _, rfl, isContinuation_eq_false (by omega) (by omega),
          hcons (v / 4096) (hcons (v / 64) (hcons v hnil))⟩

end Text
end SearchMarkup
