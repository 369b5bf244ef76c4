/-
# Reading records from JSON

A record is written as an object with one member per field and may also be read from
an array of its fields in order. In an object, members of other names are passed over
and missing members are left to each field; an array has every field.
-/

import SearchMarkup.Json.Value

namespace SearchMarkup
namespace Json

/-- The values of the named fields; `none` stands for a missing member. -/
def record? (names : List String) : Json → Option (List (Option Json))
  | obj ms => some (names.map (obj ms).get?)
  | arr items => if items.length = names.length then some (items.map some) else none
  | _ => none

/-- A whole number below a bound. -/
def natBelow? (bound : Nat) : Json → Option Nat
  | num (.nat n) => if n < bound then some n else none
  | _ => none

/-- A whole number of 64 bits. -/
def nat64? (j : Json) : Option Nat := j.natBelow? (Nat.pow 2 64)

/-- A whole number of 32 bits. -/
def word32? (j : Json) : Option UInt32 := (j.natBelow? (Nat.pow 2 32)).map UInt32.ofNat

def bool? : Json → Option Bool
  | bool b => some b
  | _ => none

def string? : Json → Option String
  | str s => some s
  | _ => none

/-- A string as text. -/
def text? (j : Json) : Option Text := j.string?.map String.toList

/-- A string of one character. -/
def char? (j : Json) : Option Char :=
  match j.text? with
  | some [c] => some c
  | _ => none

/-- A list, each item of which reads. -/
def list? {α : Type} (read : Json → Option α) : Json → Option (List α)
  | arr items => items.mapM read
  | _ => none

/-- A value that may be missing or `null`. -/
def optional? {α : Type} (read : Json → Option α) : Option Json → Option (Option α)
  | none => some none
  | some null => some none
  | some j => (read j).map some

/-- A name alone, or as the only member of an object with value `null`. -/
def name? : Json → Option String
  | str s => some s
  | obj [(name, null)] => some name
  | _ => none

end Json
end SearchMarkup
