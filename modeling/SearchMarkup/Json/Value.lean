/-
# JSON values

Objects keep their members in order, repeated names included. Numbers are whole
numbers of either sign, or floating-point numbers.

`Json.write` prints a value in a layout: `Layout.compact` on one line without blanks,
`Layout.pretty` with each item on a line of its own, indented by two blanks a level.
-/

import SearchMarkup.Decimal.Shortest
import SearchMarkup.Text.Basic

namespace SearchMarkup

/-- A number of a JSON document. -/
inductive JsonNumber where
  | nat (n : Nat)
  /-- The negative of a number above zero. -/
  | neg (n : Nat)
  | float (f : Float)

/-- A JSON value. -/
inductive Json where
  | null
  | bool (b : Bool)
  | num (n : JsonNumber)
  | str (s : String)
  | arr (items : List Json)
  | obj (members : List (String × Json))

namespace JsonNumber

/-- The text of a number. A floating-point number that is not finite has none, and
`null` stands for it. -/
def text : JsonNumber → Text
  | nat n => Decimal.digits n
  | neg n => '-' :: Decimal.digits n
  | float f => if f.isFinite then Decimal.floatText f else ['n', 'u', 'l', 'l']

end JsonNumber

namespace Json

/-- A text as a JSON string. -/
def text (t : Text) : Json := str (String.ofList t)

/-- A whole number as a JSON number. -/
def nat (n : Nat) : Json := num (.nat n)

/-- A value that may be absent. -/
def option {α : Type} (f : α → Json) : Option α → Json
  | none => null
  | some a => f a

/-- A list of values. -/
def list {α : Type} (f : α → Json) (items : List α) : Json := arr (items.map f)

/-- The members of an object; no other value has any. -/
def members : Json → List (String × Json)
  | obj ms => ms
  | _ => []

/-- The first member of a name. -/
def get? (j : Json) (name : String) : Option Json :=
  (j.members.find? fun m => m.1 == name).map Prod.snd

/-- A character between the quotes of a JSON string: quotes, backslashes and control
characters are escaped. -/
def escapeChar (c : Char) : Text :=
  match c with
  | '"' => ['\\', '"']
  | '\\' => ['\\', '\\']
  | '\x08' => ['\\', 'b']
  | '\x0c' => ['\\', 'f']
  | '\n' => ['\\', 'n']
  | '\r' => ['\\', 'r']
  | '\t' => ['\\', 't']
  | c =>
    if c.toNat < 0x20 then
      ['\\', 'u', '0', '0', Nat.digitChar (c.toNat / 16), Nat.digitChar (c.toNat % 16)]
    else [c]

/-- A JSON string with its quotes. -/
def writeString (s : String) : Text := '"' :: s.toList.flatMap escapeChar ++ ['"']

/-- What a printer puts between the parts of a value. -/
structure Layout where
  /-- Between a bracket or comma and an item at a depth. -/
  lineBreak : Nat → Text
  /-- Between the name and the value of a member. -/
  colon : Text

namespace Layout

/-- All on one line. -/
def compact : Layout := ⟨fun _ => [], [':']⟩

/-- One item or member to a line, indented by its depth. -/
def pretty : Layout := ⟨fun depth => '\n' :: List.replicate (2 * depth) ' ', [':', ' ']⟩

end Layout

mutual

/-- The text of a value at a depth. -/
def write (l : Layout) (depth : Nat) : Json → Text
  | null => ['n', 'u', 'l', 'l']
  | bool true => ['t', 'r', 'u', 'e']
  | bool false => ['f', 'a', 'l', 's', 'e']
  | num n => n.text
  | str s => writeString s
  | arr [] => ['[', ']']
  | arr (item :: items) =>
    '[' :: (l.lineBreak (depth + 1) ++ (write l (depth + 1) item ++
      (writeItems l (depth + 1) items ++ (l.lineBreak depth ++ [']']))))
  | obj [] => ['\x7b', '\x7d']
  | obj ((name, value) :: members) =>
    '\x7b' :: (l.lineBreak (depth + 1) ++ (writeString name ++ (l.colon ++
      (write l (depth + 1) value ++
        (writeMembers l (depth + 1) members ++ (l.lineBreak depth ++ ['\x7d']))))))

/-- The text of the items after the first. -/
def writeItems (l : Layout) (depth : Nat) : List Json → Text
  | [] => []
  | item :: items =>
    ',' :: (l.lineBreak depth ++ (write l depth item ++ writeItems l depth items))

/-- The text of the members after the first. -/
def writeMembers (l : Layout) (depth : Nat) : List (String × Json) → Text
  | [] => []
  | (name, value) :: members =>
    ',' :: (l.lineBreak depth ++ (writeString name ++ (l.colon ++
      (write l depth value ++ writeMembers l depth members))))

end

/-- On one line, without blanks. -/
def compact (j : Json) : Text := write .compact 0 j

/-- One item to a line, indented. -/
def pretty (j : Json) : Text := write .pretty 0 j

end Json
end SearchMarkup
