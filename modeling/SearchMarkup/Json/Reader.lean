/-
# Reading JSON values

`parse?` reads a whole JSON text. Lists and objects may be nested at most
`maxDepth` deep. A comma stands between items and never after the last, and
nothing but blanks follows the value.

`skipValue` passes over a value that nobody wants. It takes any depth and any
number, and does not decode strings.
-/

import SearchMarkup.Json.Scalar

namespace SearchMarkup
namespace Json

/-- How deep lists and objects may be nested. -/
def maxDepth : Nat := 127

/-- Moves to the next item of a list, or past its end; `first` says that none has been
read yet. -/
def nextItem (first : Bool) (t : Text) : Except Stop (Bool × Text) :=
  match skipBlanks t with
  | [] => stopAt .endInList []
  | ']' :: rest => .ok (false, rest)
  | c :: rest =>
    if first then .ok (true, c :: rest)
    else if c = ',' then
      match skipBlanks rest with
      | [] => stopAt .endInValue []
      | ']' :: rest => stopOn .trailingComma (']' :: rest)
      | rest => .ok (true, rest)
    else stopOn .expectedListEnd (c :: rest)

/-- Moves past the opening quote of the next member's name, or past the end of an
object. -/
def nextMember (first : Bool) (t : Text) : Except Stop (Bool × Text) :=
  match skipBlanks t with
  | [] => stopAt .endInObject []
  | '\x7d' :: rest => .ok (false, rest)
  | c :: rest =>
    if first then
      if c = '"' then .ok (true, rest) else stopOn .nameNotString (c :: rest)
    else if c = ',' then
      match skipBlanks rest with
      | [] => stopAt .endInValue []
      | '"' :: rest => .ok (true, rest)
      | '\x7d' :: rest => stopOn .trailingComma ('\x7d' :: rest)
      | rest => stopOn .nameNotString rest
    else stopOn .expectedObjectEnd (c :: rest)

/-- Moves past the colon after a member's name. -/
def takeColon (t : Text) : Except Stop Text :=
  match skipBlanks t with
  | [] => stopAt .endInObject []
  | ':' :: rest => .ok rest
  | rest => stopOn .expectedColon rest

/-- Reads the items of a list up to and past its end, at most `fuel` of them. -/
def readItems {α : Type} (read : Text → Except Stop (α × Text)) (first : Bool) :
    Nat → Text → Except Stop (List α × Text)
  | 0, t => stopAt .endInList t
  | fuel + 1, t => do
    match ← nextItem first t with
    | (false, t) => return ([], t)
    | (true, t) =>
      let (item, t) ← read t
      let (items, t) ← readItems read false fuel t
      return (item :: items, t)

/-- Reads the members of an object up to and past its end, at most `fuel` of them. -/
def readMembers (read : Text → Except Stop (Json × Text)) (first : Bool) :
    Nat → Text → Except Stop (List (String × Json) × Text)
  | 0, t => stopAt .endInObject t
  | fuel + 1, t => do
    match ← nextMember first t with
    | (false, t) => return ([], t)
    | (true, t) =>
      let (name, t) ← readString t
      let t ← takeColon t
      let (value, t) ← read t
      let (members, t) ← readMembers read false fuel t
      return ((name, value) :: members, t)

/-- Reads a value that begins with a given character and holds no other value. -/
def readScalar (c : Char) (t : Text) : Except Stop (Json × Text) :=
  match c with
  | 'n' => do return (null, ← readLiteral ['u', 'l', 'l'] t)
  | 't' => do return (bool true, ← readLiteral ['r', 'u', 'e'] t)
  | 'f' => do return (bool false, ← readLiteral ['a', 'l', 's', 'e'] t)
  | '"' => do let (s, t) ← readString t; return (str s, t)
  | '-' => do let (n, t) ← readNumber false t; return (num n, t)
  | c =>
    if c.isDigit then do let (n, t) ← readNumber true (c :: t); return (num n, t)
    else stopOn .expectedValue (c :: t)

/-- Reads a value in which lists and objects are nested at most `depth` deep. -/
def readValue (depth : Nat) (t : Text) : Except Stop (Json × Text) :=
  match skipBlanks t with
  | [] => stopAt .endInValue []
  | '[' :: t =>
    match depth with
    | 0 => stopOn .nestedTooDeeply ('[' :: t)
    | depth + 1 => do
      let (items, t) ← readItems (readValue depth) true (t.length + 1) t
      return (arr items, t)
  | '\x7b' :: t =>
    match depth with
    | 0 => stopOn .nestedTooDeeply ('\x7b' :: t)
    | depth + 1 => do
      let (members, t) ← readMembers (readValue depth) true (t.length + 1) t
      return (obj members, t)
  | c :: t => readScalar c t

/-- Refuses anything but blanks. -/
def expectEnd (t : Text) : Except Stop Unit :=
  match skipBlanks t with
  | [] => .ok ()
  | t => stopOn .trailingCharacters t

/-- The value of a whole JSON text. -/
def parse? (t : Text) : Except Fault Json :=
  Except.mapError (Fault.ofStop t) do
    let (value, rest) ← readValue maxDepth t
    expectEnd rest
    return value

/-! ## Passing over values -/

/-- Passes over an escape after its backslash. -/
def skipEscape : Text → Except Stop Text
  | [] => stopAt .endInString []
  | c :: t =>
    if c = 'u' then do return (← readFourHex t).2
    else if (simpleEscape? c).isSome then .ok t
    else stopOn .invalidEscape (c :: t)

/-- Passes over a string after its opening quote. -/
def skipChars : Nat → Text → Except Stop Text
  | _, [] => stopAt .endInString []
  | 0, t => stopAt .endInString t
  | fuel + 1, c :: t =>
    if c = '"' then .ok t
    else if c = '\\' then do skipChars fuel (← skipEscape t)
    else if c.toNat < 0x20 then stopAt .controlCharacter (c :: t)
    else skipChars fuel t

/-- Passes over a string after its opening quote. -/
def skipString (t : Text) : Except Stop Text := skipChars t.length t

/-- Passes over digits, of which there has to be one. -/
def skipDigits (onEnd : Text → Except Stop Text) : Text → Except Stop Text
  | [] => onEnd []
  | c :: t => if c.isDigit then .ok (t.dropWhile Char.isDigit) else onEnd (c :: t)

/-- Stops at a character that belongs to no number, and at the end of the text. -/
def refuseDigit (t : Text) : Except Stop Text := stopOn .invalidNumber t

/-- Passes over an exponent, if there is one. -/
def skipOptionalExponent (t : Text) : Except Stop Text :=
  let afterMark (t : Text) : Except Stop Text :=
    match t with
    | '+' :: t => skipDigits refuseDigit t
    | '-' :: t => skipDigits refuseDigit t
    | t => skipDigits refuseDigit t
  match t with
  | 'e' :: t => afterMark t
  | 'E' :: t => afterMark t
  | t => .ok t

/-- Passes over a number after its sign. -/
def skipNumber (t : Text) : Except Stop Text := do
  let t ←
    match t with
    | '0' :: t => if startsWithDigit t then stopOn .invalidNumber t else .ok t
    | t => skipDigits refuseDigit t
  match t with
  | '.' :: t => do skipOptionalExponent (← skipDigits refuseDigit t)
  | t => skipOptionalExponent t

/-- A list or object that is being passed over. -/
inductive Enclosing where
  | list
  | object
  deriving DecidableEq, Repr

/-- Passes over a member's name and colon. -/
def skipName (t : Text) : Except Stop Text :=
  match skipBlanks t with
  | [] => stopAt .endInObject []
  | '"' :: t => do takeColon (← skipString t)
  | t => stopOn .nameNotString t

/-- What comes after a value inside lists and objects, the innermost first: their
ends, and then the next item or the end of them all. -/
def leaveEnclosing (fresh : Bool) : List Enclosing → Text → Except Stop (List Enclosing × Text)
  | [], t => .ok ([], t)
  | e :: outer, t =>
    match e, skipBlanks t with
    | .list, [] => stopAt .endInList []
    | .object, [] => stopAt .endInObject []
    | .list, ']' :: t => leaveEnclosing false outer t
    | .object, '\x7d' :: t => leaveEnclosing false outer t
    | e, c :: t =>
      if fresh then .ok (e :: outer, c :: t)
      else if c = ',' then .ok (e :: outer, t)
      else stopOn (if e = .list then .expectedListEnd else .expectedObjectEnd) (c :: t)

/-- Passes over a value inside lists and objects, and over the rest of these. -/
def skipNested (enclosing : List Enclosing) : Nat → Text → Except Stop Text
  | 0, t => stopAt .endInValue t
  | fuel + 1, t => do
    let (fresh, enclosing, t) ← show Except Stop (Bool × List Enclosing × Text) from
      match skipBlanks t with
      | [] => stopAt .endInValue []
      | '[' :: t => .ok (true, .list :: enclosing, t)
      | '\x7b' :: t => .ok (true, .object :: enclosing, t)
      | 'n' :: t => do return (false, enclosing, ← readLiteral ['u', 'l', 'l'] t)
      | 't' :: t => do return (false, enclosing, ← readLiteral ['r', 'u', 'e'] t)
      | 'f' :: t => do return (false, enclosing, ← readLiteral ['a', 'l', 's', 'e'] t)
      | '"' :: t => do return (false, enclosing, ← skipString t)
      | '-' :: t => do return (false, enclosing, ← skipNumber t)
      | c :: t =>
        if c.isDigit then do return (false, enclosing, ← skipNumber (c :: t))
        else stopOn .expectedValue (c :: t)
    match ← leaveEnclosing fresh enclosing t with
    | ([], t) => return t
    | (.list :: outer, t) => skipNested (.list :: outer) fuel t
    | (.object :: outer, t) => skipNested (.object :: outer) fuel (← skipName t)

/-- Passes over a value. -/
def skipValue (t : Text) : Except Stop Text := skipNested [] (t.length + 1) t

end Json
end SearchMarkup
