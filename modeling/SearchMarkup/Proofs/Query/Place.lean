/-
# Places of a text

A text can be cut in two between any two of its characters, and nowhere else. The
place of such a cut is `Cursor.between a b`: `a` has been read and `b` is still to
come. `Cursor.at?_eq_some_iff` says that these are the places found by byte offset,
and the lemmas on `Text` say that the offset alone tells two cuts of one text apart
and puts them in order.
-/

import SearchMarkup.Query.Rule

namespace SearchMarkup
namespace Text

/-- Two cuts of a text at the same byte are one cut. -/
theorem append_inj_of_size {a b a' b' : Text} (h : a ++ b = a' ++ b')
    (hs : a.size = a'.size) : a = a' ∧ b = b' := by
  have hsplit := splitAtByte?_size a b
  rw [h, hs, splitAtByte?_size] at hsplit
  obtain ⟨ha, hb⟩ := Prod.mk.inj (Option.some.inj hsplit)
  exact ⟨ha.symm, hb.symm⟩

/-- Of two cuts of a text, the one at the later byte has read a stretch more. -/
theorem exists_append_of_size_le {a b a' b' : Text} (h : a ++ b = a' ++ b')
    (hs : a.size ≤ a'.size) : ∃ m, a' = a ++ m ∧ b = m ++ b' := by
  rcases List.append_eq_append_iff.1 h with hm | ⟨m, rfl, rfl⟩
  · exact hm
  · rw [size_append] at hs
    obtain rfl : m = [] := size_eq_zero.1 (by omega)
    exact ⟨[], by simp, rfl⟩

end Text

namespace Cursor

/-- The place between two parts of a text. -/
def between (a b : Text) : Cursor := ⟨a.getLast?, a.size, b⟩

@[simp] theorem before_between (a b : Text) : (between a b).before = a.getLast? := rfl

@[simp] theorem offset_between (a b : Text) : (between a b).offset = a.size := rfl

@[simp] theorem rest_between (a b : Text) : (between a b).rest = b := rfl

/-- There is a place between any two parts of a text. -/
@[simp] theorem at?_size (a b : Text) : at? (a ++ b) a.size = some (between a b) := by
  rw [at?, Text.splitAtByte?_size]
  rfl

/-- **The places of a text are its cuts in two.** -/
theorem at?_eq_some_iff {t : Text} {n : Nat} {c : Cursor} :
    at? t n = some c ↔ ∃ a b, t = a ++ b ∧ a.size = n ∧ c = between a b := by
  constructor
  · intro h
    obtain ⟨⟨a, b⟩, hab, rfl⟩ := Option.map_eq_some_iff.1 h
    obtain ⟨rfl, rfl⟩ := Text.splitAtByte?_eq_some_iff.1 hab
    exact ⟨a, b, rfl, rfl, rfl⟩
  · rintro ⟨a, b, rfl, rfl, rfl⟩
    exact at?_size a b

end Cursor
end SearchMarkup
