/-
# Numbers in machine words

A count, a size and a revision are words of 64 bits. What becomes of a number that does
not fit its word is settled when the library is built: where arithmetic is checked it is a
fault, and elsewhere it wraps around.

Checked arithmetic is what the development profile has, and what hosts see unless they ask
for another one.
-/

namespace SearchMarkup

/-- What becomes of a number that does not fit its word. -/
inductive Overflow where
  /-- It wraps around. -/
  | wraps
  /-- It is a fault. -/
  | faults
  deriving DecidableEq, Repr

namespace Overflow

variable {o : Overflow} {n : Nat} {v w : UInt64}

/-- Arithmetic that is checked does not wrap around. -/
theorem ne_wraps_of_faults (h : o = .faults) : o ≠ .wraps := by
  rw [h]
  decide

/-- A number as a word; `none` is a fault. -/
def word? (o : Overflow) (n : Nat) : Option UInt64 :=
  if n < UInt64.size ∨ o = .wraps then some (UInt64.ofNat n) else none

/-- The word that follows a word. -/
def next? (o : Overflow) (w : UInt64) : Option UInt64 := o.word? (w.toNat + 1)

/-- **A word is the number it was made from,** unless that wrapped around. -/
theorem toNat_of_word? (h : o.word? n = some w) (hfits : o = .wraps → n < UInt64.size) :
    w.toNat = n := by
  unfold word? at h
  split at h
  · next hword =>
    obtain rfl := Option.some.inj h
    exact UInt64.toNat_ofNat_of_lt' (hword.elim id hfits)
  · cases h

/-- The word made from the number that follows is the word that follows, also around the end. -/
theorem ofNat_toNat_succ (w : UInt64) : UInt64.ofNat (w.toNat + 1) = w + 1 := by
  simp

/-- There is one word that may follow, under either arithmetic. -/
theorem eq_of_next? (h : o.next? v = some w) : w = v + 1 := by
  unfold next? word? at h
  split at h
  · rw [← Option.some.inj h, ofNat_toNat_succ]
  · cases h

/-- A word has one that follows, unless it is the last and arithmetic is checked. -/
theorem next?_eq_some (h : o = .faults → w.toNat + 1 < UInt64.size) :
    o.next? w = some (w + 1) := by
  have hword : w.toNat + 1 < UInt64.size ∨ o = .wraps := by
    cases o with
    | wraps => exact .inr rfl
    | faults => exact .inl (h rfl)
  rw [next?, word?, if_pos hword, ofNat_toNat_succ]

/-- The word that follows stands for the number that follows, unless it wrapped around. -/
theorem toNat_of_next? (h : o.next? v = some w) (hfits : o = .wraps → v.toNat + 1 < UInt64.size) :
    w.toNat = v.toNat + 1 := toNat_of_word? h hfits

/-- So does the word that follows one of at most `n`, if there are words beyond `n + 1`. -/
theorem toNat_of_next?_of_le (h : o.next? v = some w) (hle : v.toNat ≤ n)
    (hroom : o = .wraps → n + 1 < UInt64.size) : w.toNat = v.toNat + 1 :=
  toNat_of_next? h fun ho => Nat.lt_of_le_of_lt (Nat.succ_le_succ hle) (hroom ho)

end Overflow
end SearchMarkup
