/-
# Entities

The five characters that can open or close markup or an attribute are written as
entities, so that text never reads as markup:

| `&` | `<` | `>` | `"` | `'` |
| --- | --- | --- | --- | --- |
| `&amp;` | `&lt;` | `&gt;` | `&quot;` | `&#39;` |
-/

import SearchMarkup.Text.Basic

namespace SearchMarkup
namespace Html

/-- The entity of a character, if it needs one. -/
def entity? : Char → Option Text
  | '&' => some ['&', 'a', 'm', 'p', ';']
  | '<' => some ['&', 'l', 't', ';']
  | '>' => some ['&', 'g', 't', ';']
  | '"' => some ['&', 'q', 'u', 'o', 't', ';']
  | '\'' => some ['&', '#', '3', '9', ';']
  | _ => none

/-- Whether a text holds a character that needs an entity. -/
def needsEscape (t : Text) : Bool := t.any fun c => (entity? c).isSome

/-- A character as it stands in markup. -/
def escapeChar (c : Char) : Text := (entity? c).getD [c]

/-- A text as it stands in markup. -/
def escape (t : Text) : Text := t.flatMap escapeChar

@[simp] theorem escape_nil : escape [] = [] := rfl

/-- A text is coded character by character. -/
@[simp] theorem escape_cons (c : Char) (t : Text) :
    escape (c :: t) = escapeChar c ++ escape t := rfl

/-- A text may be coded in parts. -/
@[simp] theorem escape_append (s t : Text) : escape (s ++ t) = escape s ++ escape t := by
  simp [escape]

/-- A character that needs no entity stands for itself. -/
theorem escapeChar_of_entity?_eq_none {c : Char} (h : entity? c = none) : escapeChar c = [c] := by
  simp [escapeChar, h]

end Html
end SearchMarkup
