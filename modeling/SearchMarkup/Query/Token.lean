/-
# Tokens of a boolean search query

A query is made of connectives, field keys, quotations and plain text between them:

| token | source text |
| --- | --- |
| `connective` | `AND`, `OR`, `NOT` |
| `field` without a value | `TI`, `AB`, `DP`, `URL` |
| `field` with a value | the key, `=`, a quotation |
| `quotation` | a quote character, the body, a quote character |
| `plain` | any text |

`Token.text` gives the source text back, so a list of tokens determines the query it
was read from.
-/

import SearchMarkup.Text.Basic

namespace SearchMarkup

/-- The characters that open or close a quotation: straight, left and right. -/
def quoteChars : List Char := ['"', '“', '”']

/-- Whether a character can open or close a quotation; any of them closes any other. -/
def isQuote (c : Char) : Bool := quoteChars.contains c

/-- The character that takes away the meaning of the one after it in a quotation. -/
def escapeMark : Char := '\\'

/-- A logical operator between search terms. -/
inductive Connective where
  | and
  | or
  | not
  deriving DecidableEq, Repr

namespace Connective

/-- All connectives, in the order they are tried. -/
def all : List Connective := [.and, .or, .not]

/-- The word that stands for a connective. -/
def word : Connective → Text
  | .and => ['A', 'N', 'D']
  | .or => ['O', 'R']
  | .not => ['N', 'O', 'T']

/-- The connective a whole word stands for; letter case matters. -/
def ofWord? (w : Text) : Option Connective := all.find? fun k => k.word == w

/-- A connective is known by its word. -/
theorem ofWord?_eq_some_iff {w : Text} {k : Connective} : ofWord? w = some k ↔ k.word = w := by
  constructor
  · intro h
    have hk := List.find?_some h
    exact beq_iff_eq.1 hk
  · rintro rfl
    cases k <;> rfl

/-- Whether a word would be a connective in upper case but is none as written. -/
def isMiscased (w : Text) : Bool :=
  (ofWord? w).isNone && all.any fun k => k.word == w.map Char.toUpper

end Connective

/-- A searchable field. -/
inductive Field where
  | title
  | abstract
  | published
  | url
  deriving DecidableEq, Repr

namespace Field

/-- All fields, in the order they are tried. -/
def all : List Field := [.title, .abstract, .published, .url]

/-- The key that stands for a field. -/
def key : Field → Text
  | .title => ['T', 'I']
  | .abstract => ['A', 'B']
  | .published => ['D', 'P']
  | .url => ['U', 'R', 'L']

/-- What a field holds, in words. -/
def description : Field → String
  | .title => "title"
  | .abstract => "abstract"
  | .published => "date published"
  | .url => "url"

/-- The field a whole word is the key of; letter case matters. -/
def ofKey? (w : Text) : Option Field := all.find? fun f => f.key == w

/-- A field is known by its key. -/
theorem ofKey?_eq_some_iff {w : Text} {f : Field} : ofKey? w = some f ↔ f.key = w := by
  constructor
  · intro h
    have hf := List.find?_some h
    exact beq_iff_eq.1 hf
  · rintro rfl
    cases f <;> rfl

end Field

/-- A stretch of text between two quote characters; the body keeps its escapes. -/
structure Quotation where
  opening : Char
  body : Text
  closing : Char
  deriving DecidableEq, Repr

namespace Quotation

/-- The source text. -/
def text (q : Quotation) : Text := q.opening :: q.body ++ [q.closing]

/-- A body with each escape mark dropped and the character after it kept as it is; a
mark at the very end stays. -/
def resolveEscapes : Text → Text
  | [] => []
  | [c] => [c]
  | c :: d :: t =>
    if c = escapeMark then d :: resolveEscapes t else c :: resolveEscapes (d :: t)

/-- The text the quotation stands for. -/
def unescaped (q : Quotation) : Text := resolveEscapes q.body

end Quotation

/-- A classified piece of a query. -/
inductive Token where
  /-- A logical operator. -/
  | connective (k : Connective)
  /-- A field key, with the quotation it is set to, if any. -/
  | field (f : Field) (value : Option Quotation)
  /-- A quotation that belongs to no field. -/
  | quotation (q : Quotation)
  /-- Anything else. -/
  | plain (t : Text)
  deriving DecidableEq, Repr

/-- The four kinds of token. -/
inductive TokenKind where
  | operator
  | fieldKey
  | quotedValue
  | plain
  deriving DecidableEq, Repr

namespace TokenKind

/-- All kinds. -/
def all : List TokenKind := [.operator, .fieldKey, .quotedValue, .plain]

/-- The name used in reports. -/
def name : TokenKind → String
  | .operator => "operator"
  | .fieldKey => "field_key"
  | .quotedValue => "quoted_value"
  | .plain => "plain"

end TokenKind

namespace Token

/-- The kind of a token. -/
def kind : Token → TokenKind
  | .connective _ => .operator
  | .field _ _ => .fieldKey
  | .quotation _ => .quotedValue
  | .plain _ => .plain

/-- The source text. -/
def text : Token → Text
  | .connective k => k.word
  | .field f none => f.key
  | .field f (some q) => f.key ++ '=' :: q.text
  | .quotation q => q.text
  | .plain t => t

/-- The quotation a token carries, as a field's value or on its own. -/
def quotation? : Token → Option Quotation
  | .field _ value => value
  | .quotation q => some q
  | _ => none

/-- Whether a token is a connective. -/
def isConnective : Token → Bool
  | .connective _ => true
  | _ => false

/-- Whether a token is a field, with a value or without. -/
def isField : Token → Bool
  | .field _ _ => true
  | _ => false

/-- Whether a token is a field together with its value. -/
def isFieldPair : Token → Bool
  | .field _ (some _) => true
  | _ => false

/-- Whether a token is plain text. -/
def isPlain : Token → Bool
  | .plain _ => true
  | _ => false

end Token

/-- How many tokens there are of each kind; a field with a value also counts as a
pair. -/
structure TokenCounts where
  total : Nat := 0
  operators : Nat := 0
  fieldKeys : Nat := 0
  fieldPairs : Nat := 0
  quotedValues : Nat := 0
  plain : Nat := 0
  deriving DecidableEq, Repr

namespace TokenCounts

/-- The counts after one more token. -/
def record (n : TokenCounts) (t : Token) : TokenCounts :=
  match t with
  | .connective _ => { n with total := n.total + 1, operators := n.operators + 1 }
  | .field _ none => { n with total := n.total + 1, fieldKeys := n.fieldKeys + 1 }
  | .field _ (some _) =>
    { n with
      total := n.total + 1, fieldKeys := n.fieldKeys + 1, fieldPairs := n.fieldPairs + 1 }
  | .quotation _ => { n with total := n.total + 1, quotedValues := n.quotedValues + 1 }
  | .plain _ => { n with total := n.total + 1, plain := n.plain + 1 }

/-- Every token is counted in the total. -/
theorem total_record (n : TokenCounts) (t : Token) : (n.record t).total = n.total + 1 := by
  unfold record
  split <;> rfl

/-- The counts of a list of tokens. -/
def ofTokens (ts : List Token) : TokenCounts := ts.foldl record {}

/-- **What is counted:** each count grows by the number of tokens it is about. -/
theorem foldl_record (n : TokenCounts) (ts : List Token) :
    ts.foldl record n =
      { total := n.total + ts.length
        operators := n.operators + ts.countP Token.isConnective
        fieldKeys := n.fieldKeys + ts.countP Token.isField
        fieldPairs := n.fieldPairs + ts.countP Token.isFieldPair
        quotedValues := n.quotedValues + ts.countP fun x => x.kind == .quotedValue
        plain := n.plain + ts.countP Token.isPlain } := by
  induction ts generalizing n with
  | nil => rfl
  | cons x ts ih =>
    have hrecord : n.record x =
        { total := n.total + 1
          operators := n.operators + if x.isConnective then 1 else 0
          fieldKeys := n.fieldKeys + if x.isField then 1 else 0
          fieldPairs := n.fieldPairs + if x.isFieldPair then 1 else 0
          quotedValues := n.quotedValues + if x.kind == .quotedValue then 1 else 0
          plain := n.plain + if x.isPlain then 1 else 0 } := by
      match x with
      | .connective _ => rfl
      | .field _ none => rfl
      | .field _ (some _) => rfl
      | .quotation _ => rfl
      | .plain _ => rfl
    rw [List.foldl_cons, ih, hrecord]
    simp only [List.countP_cons, List.length_cons, Nat.add_assoc, Nat.add_comm, Nat.add_left_comm]

/-- The count of one kind. -/
def ofKind (n : TokenCounts) : TokenKind → Nat
  | .operator => n.operators
  | .fieldKey => n.fieldKeys
  | .quotedValue => n.quotedValues
  | .plain => n.plain

/-- The number of tokens that are set off from plain text. -/
def highlighted (n : TokenCounts) : Nat := n.total - n.plain

end TokenCounts
end SearchMarkup
