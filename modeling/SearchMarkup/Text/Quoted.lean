/-
# Quoted text

Reports show a text between double quotes with everything that could be mistaken
or could not be seen escaped:

| character | written |
| --- | --- |
| NUL, tab, line feed, carriage return | `\0`, `\t`, `\n`, `\r` |
| double quote, backslash | `\"`, `\\` |
| other characters without a visible form | `\u{…}`, the code point in hexadecimal |
| any other | itself |
-/

import SearchMarkup.Text.Basic
import SearchMarkup.Text.Visible

namespace SearchMarkup
namespace Text

/-- The hexadecimal digits of a number, in lower case and without leading zeros. -/
def hexDigits (n : Nat) : Text := Nat.toDigits 16 n

/-- One character as it stands between the quotes. -/
def escapeChar (c : Char) : Text :=
  match c with
  | '\x00' => ['\\', '0']
  | '\t' => ['\\', 't']
  | '\n' => ['\\', 'n']
  | '\r' => ['\\', 'r']
  | '"' => ['\\', '"']
  | '\\' => ['\\', '\\']
  | c => if isVisible c then [c] else ['\\', 'u', '\x7b'] ++ hexDigits c.toNat ++ ['\x7d']

/-- A text between double quotes. -/
def quote (t : Text) : Text := '"' :: t.flatMap escapeChar ++ ['"']

end Text
end SearchMarkup
