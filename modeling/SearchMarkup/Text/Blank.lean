/-
# Blank characters

A character is blank when it has the Unicode property *White_Space*. A line is
blank when all its characters are.
-/

import SearchMarkup.Text.Basic

namespace SearchMarkup
namespace Text

/-- The code points with the property *White_Space*, as inclusive ranges. -/
def blankRanges : List (Nat × Nat) := [
  (0x9, 0xD), (0x20, 0x20), (0x85, 0x85), (0xA0, 0xA0), (0x1680, 0x1680), (0x2000, 0x200A),
  (0x2028, 0x2029), (0x202F, 0x202F), (0x205F, 0x205F), (0x3000, 0x3000)]

/-- Whether a character is white space. -/
def isBlankChar (c : Char) : Bool :=
  blankRanges.any fun (lo, hi) => lo ≤ c.toNat && c.toNat ≤ hi

/-- Whether a text holds nothing but white space. -/
def isBlank (t : Text) : Bool := t.all isBlankChar

/-- Every ASCII blank is one. -/
theorem isBlankChar_of_isWhitespace {c : Char} (h : c.isWhitespace = true) :
    isBlankChar c = true := by
  simp only [Char.isWhitespace, Bool.or_eq_true, decide_eq_true_eq] at h
  rcases h with ((rfl | rfl) | rfl) | rfl <;> decide

end Text
end SearchMarkup
