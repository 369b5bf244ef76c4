/-
# Reading strings, numbers and literals of a JSON text

Every reader takes the text still to be read and returns a value with what follows
it, or stops. Whole numbers up to `2 ^ 64 - 1` are kept exactly; a longer one, and
every number with a point or an exponent, becomes a floating-point number computed
from its leading digits that fit 64 bits and a power of ten.
-/

import SearchMarkup.Json.Fault
import SearchMarkup.Json.Value

namespace SearchMarkup
namespace Json

/-- Stops before any of the text is looked at. -/
def stopAt {α : Type} (cause : Cause) (t : Text) : Except Stop α := .error ⟨cause, t, 0⟩

/-- Stops after looking at the next byte. -/
def stopOn {α : Type} (cause : Cause) (t : Text) : Except Stop α := .error ⟨cause, t, 1⟩

/-- Whether a character may stand between the parts of a JSON text. -/
def isBlank (c : Char) : Bool := c == ' ' || c == '\n' || c == '\t' || c == '\r'

/-- The text without leading blanks. -/
def skipBlanks (t : Text) : Text := t.dropWhile isBlank

/-- Reads the rest of a literal. -/
def readLiteral : Text → Text → Except Stop Text
  | [], t => .ok t
  | _ :: _, [] => stopAt .endInValue []
  | expected :: more, c :: t =>
    if c = expected then readLiteral more t else stopOn .expectedLiteral (c :: t)

/-! ## Strings -/

/-- The value of a hexadecimal digit. -/
def hexDigit? (c : Char) : Option Nat :=
  if c.isDigit then some (c.toNat - '0'.toNat)
  else if 'a' ≤ c ∧ c ≤ 'f' then some (c.toNat - 'a'.toNat + 10)
  else if 'A' ≤ c ∧ c ≤ 'F' then some (c.toNat - 'A'.toNat + 10)
  else none

/-- Reads the four hexadecimal digits of an escape. -/
def readFourHex (t : Text) : Except Stop (Nat × Text) :=
  match t with
  | a :: b :: c :: d :: rest =>
    match hexDigit? a, hexDigit? b, hexDigit? c, hexDigit? d with
    | some a, some b, some c, some d => .ok (((a * 16 + b) * 16 + c) * 16 + d, rest)
    | _, _, _, _ => .error ⟨.invalidEscape, t, 4⟩
  | _ => if t.size < 4 then stopAt .endInString [] else .error ⟨.invalidEscape, t, 4⟩

/-- Takes a given character. -/
def takeChar (expected : Char) (cause : Cause) : Text → Except Stop Text
  | [] => stopAt .endInString []
  | c :: t => if c = expected then .ok t else stopOn cause (c :: t)

/-- Reads a `\u` escape after its `u`. Characters above U+FFFF take two escapes, a
leading and a trailing surrogate; neither may stand alone. -/
def readUnicodeEscape (t : Text) : Except Stop (Char × Text) := do
  let (n, t) ← readFourHex t
  if 0xDC00 ≤ n ∧ n ≤ 0xDFFF then stopAt .loneSurrogate t
  else if n < 0xD800 ∨ 0xDBFF < n then return (Char.ofNat n, t)
  else
    let t ← takeChar '\\' .unfinishedSurrogatePair t
    let t ← takeChar 'u' .unfinishedSurrogatePair t
    let (m, t) ← readFourHex t
    if m < 0xDC00 ∨ 0xDFFF < m then stopAt .loneSurrogate t
    else return (Char.ofNat ((n - 0xD800) * 0x400 + (m - 0xDC00) + 0x10000), t)

/-- The character that a one-letter escape stands for. -/
def simpleEscape? : Char → Option Char
  | '"' => some '"'
  | '\\' => some '\\'
  | '/' => some '/'
  | 'b' => some '\x08'
  | 'f' => some '\x0c'
  | 'n' => some '\n'
  | 'r' => some '\r'
  | 't' => some '\t'
  | _ => none

/-- Reads an escape after its backslash. -/
def readEscape : Text → Except Stop (Char × Text)
  | [] => stopAt .endInString []
  | c :: t =>
    if c = 'u' then readUnicodeEscape t
    else
      match simpleEscape? c with
      | some d => .ok (d, t)
      | none => stopOn .invalidEscape (c :: t)

/-- Reads the characters of a string up to its closing quote; `reversed` holds the
characters read before, and `fuel` bounds how many are still to come. -/
def readChars (reversed : Text) : Nat → Text → Except Stop (String × Text)
  | _, [] => stopAt .endInString []
  | 0, t => stopAt .endInString t
  | fuel + 1, c :: t =>
    if c = '"' then .ok (String.ofList reversed.reverse, t)
    else if c = '\\' then do
      let (d, t) ← readEscape t
      readChars (d :: reversed) fuel t
    else if c.toNat < 0x20 then stopOn .controlCharacter (c :: t)
    else readChars (c :: reversed) fuel t

/-- Reads a string after its opening quote. -/
def readString (t : Text) : Except Stop (String × Text) := readChars [] t.length t

/-! ## Numbers -/

/-- The largest number that is kept exactly. -/
def maxWhole : Nat := Nat.pow 2 64 - 1

/-- Scales by a power of ten in steps that a floating-point number can hold; `none`
when the result is too large. Three steps empty any 64-bit number. -/
def scale? : Nat → Float → Int → Option Float
  | 0, f, _ => some f
  | steps + 1, f, exponent =>
    if exponent.natAbs ≤ 308 then
      let power := Float.ofScientific 1 false exponent.natAbs
      if 0 ≤ exponent then
        let g := f * power
        if g.isInf then none else some g
      else some (f / power)
    else if f == 0.0 then some f
    else if 0 ≤ exponent then none
    else scale? steps (f / Float.ofScientific 1 false 308) (exponent + 308)

/-- The number `significand · 10 ^ exponent`, read up to `t`. -/
def finishFloat (positive : Bool) (significand : Nat) (exponent : Int) (t : Text) :
    Except Stop (JsonNumber × Text) :=
  match scale? 8 (UInt64.ofNat significand).toFloat exponent with
  | none => stopAt .numberOutOfRange t
  | some f => .ok (.float (if positive then f else -f), t)

/-- The value of a decimal digit. -/
def digitValue (c : Char) : Nat := c.toNat - '0'.toNat

/-- Whether a text begins with a digit. -/
def startsWithDigit (t : Text) : Bool := t.head?.any Char.isDigit

/-- Reads the digits of an exponent after the first. One beyond 31 bits decides the
number alone: zero, or out of range. -/
def readExponentDigits (positive : Bool) (significand : Nat) (start : Int) (negative : Bool)
    (exponent : Nat) : Text → Except Stop (JsonNumber × Text)
  | [] => finish []
  | c :: t =>
    if c.isDigit then
      let next := exponent * 10 + digitValue c
      if 2147483647 < next then
        if significand ≠ 0 ∧ !negative then stopAt .numberOutOfRange t
        else .ok (.float (if positive then 0.0 else -0.0), t.dropWhile Char.isDigit)
      else readExponentDigits positive significand start negative next t
    else finish (c :: t)
where
  finish (t : Text) : Except Stop (JsonNumber × Text) :=
    finishFloat positive significand (if negative then start - exponent else start + exponent) t

/-- Reads an exponent after its `e`. -/
def readExponent (positive : Bool) (significand : Nat) (start : Int) (t : Text) :
    Except Stop (JsonNumber × Text) :=
  let (negative, t) :=
    match t with
    | '+' :: t => (false, t)
    | '-' :: t => (true, t)
    | t => (false, t)
  match t with
  | [] => stopAt .endInValue []
  | c :: rest =>
    if c.isDigit then readExponentDigits positive significand start negative (digitValue c) rest
    else stopOn .invalidNumber (c :: rest)

/-- Goes on with an exponent, if there is one. -/
def readOptionalExponent (positive : Bool) (significand : Nat) (exponent : Int) :
    Text → Except Stop (JsonNumber × Text)
  | 'e' :: t => readExponent positive significand exponent t
  | 'E' :: t => readExponent positive significand exponent t
  | t => finishFloat positive significand exponent t

/-- Reads the digits after a point; `count` of them have been read. Digits that no
longer fit 64 bits are passed over. -/
def readFraction (positive : Bool) (exponent : Int) (significand count : Nat) :
    Text → Except Stop (JsonNumber × Text)
  | [] => finish []
  | c :: t =>
    if c.isDigit then
      let next := significand * 10 + digitValue c
      if maxWhole < next then
        readOptionalExponent positive significand (exponent - count) (t.dropWhile Char.isDigit)
      else readFraction positive exponent next (count + 1) t
    else finish (c :: t)
where
  finish (t : Text) : Except Stop (JsonNumber × Text) :=
    if count = 0 then stopOn (if t.isEmpty then .endInValue else .invalidNumber) t
    else readOptionalExponent positive significand (exponent - count) t

/-- Reads on in a number too long for 64 bits; `dropped` digits have been passed over. -/
def readLong (positive : Bool) (significand dropped : Nat) : Text → Except Stop (JsonNumber × Text)
  | '.' :: t => readFraction positive dropped significand 0 t
  | c :: t =>
    if c.isDigit then readLong positive significand (dropped + 1) t
    else readOptionalExponent positive significand dropped (c :: t)
  | [] => finishFloat positive significand dropped []

/-- A whole number with its sign. Minus zero, and what lies below `-2 ^ 63`, become
floating-point numbers. -/
def wholeNumber (positive : Bool) (n : Nat) : JsonNumber :=
  if positive then .nat n
  else if n = 0 ∨ Nat.pow 2 63 < n then .float (-(UInt64.ofNat n).toFloat)
  else .neg n

/-- Reads what may follow the digits of a whole number. -/
def readAfterWhole (positive : Bool) (significand : Nat) : Text → Except Stop (JsonNumber × Text)
  | '.' :: t => readFraction positive 0 significand 0 t
  | 'e' :: t => readExponent positive significand 0 t
  | 'E' :: t => readExponent positive significand 0 t
  | t => .ok (wholeNumber positive significand, t)

/-- Reads the digits of a whole number after the first. -/
def readWhole (positive : Bool) (significand : Nat) : Text → Except Stop (JsonNumber × Text)
  | [] => readAfterWhole positive significand []
  | c :: t =>
    if c.isDigit then
      let next := significand * 10 + digitValue c
      if maxWhole < next then readLong positive significand 0 (c :: t)
      else readWhole positive next t
    else readAfterWhole positive significand (c :: t)

/-- Reads a number after its sign. A zero that leads other digits is refused. -/
def readNumber (positive : Bool) : Text → Except Stop (JsonNumber × Text)
  | [] => stopAt .endInValue []
  | '0' :: t =>
    if startsWithDigit t then stopOn .invalidNumber t else readAfterWhole positive 0 t
  | c :: t =>
    if c.isDigit then readWhole positive (digitValue c) t
    else stopOn .invalidNumber (c :: t)

end Json
end SearchMarkup
