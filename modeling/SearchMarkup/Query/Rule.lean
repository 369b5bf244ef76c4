/-
# The rules that classify query text

At a place in the text the rules are tried in this order, and the first that matches
makes a token:

| rule | matches |
| --- | --- |
| `fieldPair` | a field key at a word start, `=`, a closed quotation |
| `connective` | `AND`, `OR` or `NOT` as a whole word |
| `quotation` | a closed quotation |
| `bareField` | a field key as a whole word |

A quotation opens at any quote character and closes at the next one that no escape
mark takes away. Where no rule matches, `nearMiss?` says what the text was probably
meant to be.

A failed search for a closing quote shows that no later quotation closes either: every
quote character after the failed one is escaped, and stays so when the search begins
there. `QuoteMemo` remembers the first failure, so that a text is searched to its end
in vain at most once.
-/

import SearchMarkup.Query.Token
import SearchMarkup.Text.Alphanumeric

namespace SearchMarkup

/-- Whether a character belongs to a word. -/
def isWordChar (c : Char) : Bool := Text.isAlphanumeric c || c == '_'

/-- A place between two characters of a text: what stands just before it, how many
bytes precede it, and everything after it. -/
structure Cursor where
  before : Option Char
  offset : Nat
  rest : Text
  deriving DecidableEq, Repr

namespace Cursor

/-- The place before the first character. -/
def start (t : Text) : Cursor := ⟨none, 0, t⟩

/-- The place after a number of bytes; `none` when that is no place of the text. -/
def at? (t : Text) (offset : Nat) : Option Cursor :=
  (t.splitAtByte? offset).map fun (a, b) => ⟨a.getLast?, offset, b⟩

/-- No word character stands just before the place. -/
def atWordStart (c : Cursor) : Bool := !c.before.any isWordChar

/-- No word character follows the place. -/
def atWordEnd (c : Cursor) : Bool := !c.rest.head?.any isWordChar

/-- The run of word characters that follows the place. -/
def word (c : Cursor) : Text := c.rest.takeWhile isWordChar

end Cursor

/-- Where a search for a closing quote first failed. -/
structure QuoteMemo where
  openFrom : Option Nat := none
  deriving DecidableEq, Repr

namespace QuoteMemo

/-- Whether a quotation that opens at an offset is known not to close. -/
def knowsOpen (m : QuoteMemo) (offset : Nat) : Bool :=
  m.openFrom.any fun first => first ≤ offset

/-- Remembers a failure; only the first one counts. -/
def record (m : QuoteMemo) (offset : Nat) : QuoteMemo :=
  ⟨m.openFrom.or (some offset)⟩

end QuoteMemo

/-- The text up to the first quote character that is not escaped, that character, and
what follows it. `escaped` says whether the first character is escaped. -/
def splitAtClosing? (escaped : Bool) : Text → Option (Text × Char × Text)
  | [] => none
  | c :: t =>
    if !escaped && isQuote c then some ([], c, t)
    else
      (splitAtClosing? (!escaped && c == escapeMark) t).map fun (body, q, rest) =>
        (c :: body, q, rest)

/-- The quotation that opens at a place, with the text after it. A failed search is
remembered, and not repeated for a place that cannot succeed. -/
def scanQuotation (memo : QuoteMemo) (c : Cursor) : Option (Quotation × Text) × QuoteMemo :=
  match c.rest with
  | [] => (none, memo)
  | opening :: t =>
    if !isQuote opening || memo.knowsOpen c.offset then (none, memo)
    else
      match splitAtClosing? false t with
      | some (body, closing, rest) => (some (⟨opening, body, closing⟩, rest), memo)
      | none => (none, memo.record c.offset)

/-- A token found at a place, with the text after it. -/
structure Match where
  token : Token
  rest : Text
  deriving DecidableEq, Repr

namespace Rule

/-- The field whose key stands at a place, with the text after the key. The key has to
begin a word but need not end one. -/
def fieldKey? (c : Cursor) : Option (Field × Text) :=
  if c.atWordStart then
    Field.all.findSome? fun f => (Text.afterLeading? f.key c.rest).map fun rest => (f, rest)
  else none

/-- A field key, `=`, and a closed quotation. -/
def fieldPair (memo : QuoteMemo) (c : Cursor) : Option Match × QuoteMemo :=
  match fieldKey? c with
  | some (f, '=' :: rest) =>
    let (found, memo) := scanQuotation memo ⟨some '=', c.offset + f.key.size + 1, rest⟩
    (found.map fun (q, rest) => ⟨.field f (some q), rest⟩, memo)
  | _ => (none, memo)

/-- A connective as a whole word. -/
def connective (c : Cursor) : Option Match :=
  if c.atWordStart then
    Connective.all.findSome? fun k =>
      (Text.afterLeading? k.word c.rest).bind fun rest =>
        if Cursor.atWordEnd ⟨k.word.getLast?, c.offset + k.word.size, rest⟩ then
          some ⟨.connective k, rest⟩
        else none
  else none

/-- A closed quotation. -/
def quotation (memo : QuoteMemo) (c : Cursor) : Option Match × QuoteMemo :=
  let (found, memo) := scanQuotation memo c
  (found.map fun (q, rest) => ⟨.quotation q, rest⟩, memo)

/-- A field key as a whole word. -/
def bareField (c : Cursor) : Option Match :=
  (fieldKey? c).bind fun (f, rest) =>
    if Cursor.atWordEnd ⟨f.key.getLast?, c.offset + f.key.size, rest⟩ then
      some ⟨.field f none, rest⟩
    else none

/-- The first rule that matches, in the order of the table above. -/
def first (memo : QuoteMemo) (c : Cursor) : Option Match × QuoteMemo :=
  match fieldPair memo c with
  | (some m, memo) => (some m, memo)
  | (none, memo) =>
    match connective c with
    | some m => (some m, memo)
    | none =>
      match quotation memo c with
      | (some m, memo) => (some m, memo)
      | (none, memo) => (bareField c, memo)

end Rule

/-- Text that is classified as less than it was probably meant to be. -/
inductive NearMiss where
  /-- A quote character whose quotation does not close. -/
  | openQuote (c : Char)
  /-- A connective in the wrong letter case. -/
  | miscased (word : Text)
  /-- A word before `=` that looks like a field key and is none. -/
  | unknownKey (word : Text)
  /-- A field key before `=` without a closed quotation. -/
  | missingValue (f : Field)
  deriving DecidableEq, Repr

namespace NearMiss

/-- The text it is about. -/
def text : NearMiss → Text
  | .openQuote c => [c]
  | .miscased w => w
  | .unknownKey w => w
  | .missingValue f => f.key

end NearMiss

/-- Whether a word has the form of a field key: two to four ASCII capitals. -/
def looksLikeKey (w : Text) : Bool :=
  2 ≤ w.length && w.length ≤ 4 && w.all Char.isUpper

/-- What the text at a place where no rule matches was probably meant to be. -/
def nearMiss? (c : Cursor) : Option NearMiss :=
  match c.rest with
  | [] => none
  | ch :: _ =>
    if isQuote ch then some (.openQuote ch)
    else if isWordChar ch && c.atWordStart then
      if Connective.isMiscased c.word then some (.miscased c.word)
      else if looksLikeKey c.word && (Field.ofKey? c.word).isNone
          && (c.rest.drop c.word.length).head? == some '=' then
        some (.unknownKey c.word)
      else none
    else none

/-- A matched field key that `=` follows although it got no value. -/
def Match.nearMiss? (m : Match) : Option NearMiss :=
  match m.token, m.rest with
  | .field f none, '=' :: _ => some (.missingValue f)
  | _, _ => none

end SearchMarkup
