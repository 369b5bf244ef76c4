/-
# Faults in a JSON text

A fault has a cause and a place. A reader that stops knows the text it has not read
yet, and how many more bytes it looked at; the line and column follow from the whole
text. Lines count from 1; the column is the number of bytes since the line began.
-/

import SearchMarkup.Text.Basic

namespace SearchMarkup
namespace Json

/-- Why a JSON text was refused. -/
inductive Cause where
  | endInList
  | endInObject
  | endInString
  | endInValue
  | expectedColon
  | expectedListEnd
  | expectedObjectEnd
  | expectedLiteral
  | expectedValue
  | invalidEscape
  | invalidNumber
  | numberOutOfRange
  | controlCharacter
  | nameNotString
  | loneSurrogate
  | unfinishedSurrogatePair
  | trailingComma
  | trailingCharacters
  | nestedTooDeeply
  /-- A value of another kind than the one asked for. -/
  | wrongKind (found expected : String)
  /-- A member that may occur once occurs again. -/
  | repeatedMember (name : String)
  /-- A value that fits none of the forms allowed. -/
  | noFormFits (type : String)
  deriving DecidableEq, Repr

namespace Cause

def message : Cause → String
  | endInList => "EOF while parsing a list"
  | endInObject => "EOF while parsing an object"
  | endInString => "EOF while parsing a string"
  | endInValue => "EOF while parsing a value"
  | expectedColon => "expected `:`"
  | expectedListEnd => "expected `,` or `]`"
  | expectedObjectEnd => "expected `,` or `\x7d`"
  | expectedLiteral => "expected ident"
  | expectedValue => "expected value"
  | invalidEscape => "invalid escape"
  | invalidNumber => "invalid number"
  | numberOutOfRange => "number out of range"
  | controlCharacter => "control character (\\u0000-\\u001F) found while parsing a string"
  | nameNotString => "key must be a string"
  | loneSurrogate => "lone leading surrogate in hex escape"
  | unfinishedSurrogatePair => "unexpected end of hex escape"
  | trailingComma => "trailing comma"
  | trailingCharacters => "trailing characters"
  | nestedTooDeeply => "recursion limit exceeded"
  | wrongKind found expected => "invalid type: " ++ found ++ ", expected " ++ expected
  | repeatedMember name => "duplicate field `" ++ name ++ "`"
  | noFormFits type => "data did not match any variant of untagged enum " ++ type

end Cause

/-- A cause, the text that was still to be read, and how many bytes of it had been
looked at. -/
structure Stop where
  cause : Cause
  rest : Text
  ahead : Nat := 0
  deriving DecidableEq, Repr

/-- A cause with its line and column; both are 0 when it concerns the whole text. -/
structure Fault where
  cause : Cause
  line : Nat
  column : Nat
  deriving DecidableEq, Repr

namespace Fault

/-- The line and column after a number of bytes; the end of the text is never passed. -/
def place (line column : Nat) : Text → Nat → Nat × Nat
  | [], _ => (line, column)
  | c :: t, bytes =>
    if bytes < c.utf8Size then (line, column + bytes)
    else if c = '\n' then place (line + 1) 0 t (bytes - 1)
    else place line (column + c.utf8Size) t (bytes - c.utf8Size)

/-- Where a reader of a text stopped. -/
def ofStop (t : Text) (s : Stop) : Fault :=
  let (line, column) := place 1 0 t (t.size - s.rest.size + s.ahead)
  ⟨s.cause, line, column⟩

/-- A fault of the text as a whole. -/
def whole (cause : Cause) : Fault := ⟨cause, 0, 0⟩

def message (f : Fault) : String :=
  if f.line = 0 then f.cause.message
  else f.cause.message ++ " at line " ++ toString f.line ++ " column " ++ toString f.column

end Fault
end Json
end SearchMarkup
