/-
# Queries in JSON

Positions, spans, tokens and what is counted about them, with a reader for each value
that is read back: reading undoes writing.
-/

import SearchMarkup.Codec.Record
import SearchMarkup.Query.Lexer
import SearchMarkup.Session

namespace SearchMarkup

namespace Position

def toJson (p : Position) : Json :=
  .obj [("offset", .nat p.offset), ("line", .nat p.line.toNat), ("column", .nat p.column.toNat)]

def ofJson? (j : Json) : Option Position :=
  match j.record? ["offset", "line", "column"] with
  | some [some offset, some line, some column] => do
    return ⟨← offset.nat64?, ← line.word32?, ← column.word32?⟩
  | _ => none

end Position

namespace Span

def toJson (s : Span) : Json := .obj [("start", s.start.toJson), ("end", s.stop.toJson)]

def ofJson? (j : Json) : Option Span :=
  match j.record? ["start", "end"] with
  | some [some start, some stop] => do return ⟨← Position.ofJson? start, ← Position.ofJson? stop⟩
  | _ => none

end Span

namespace Located

def toJson {α : Type} (f : α → Json) (x : Located α) : Json :=
  .obj [("value", f x.value), ("span", x.span.toJson)]

def ofJson? {α : Type} (read : Json → Option α) (j : Json) : Option (Located α) :=
  match j.record? ["value", "span"] with
  | some [some value, some span] => do return ⟨← read value, ← Span.ofJson? span⟩
  | _ => none

end Located

namespace Connective

/-- The name of a connective in JSON. -/
def name : Connective → String
  | .and => "And"
  | .or => "Or"
  | .not => "Not"

def toJson (k : Connective) : Json := .str k.name

def ofJson? (j : Json) : Option Connective :=
  j.name?.bind fun name => all.find? fun k => k.name == name

end Connective

namespace Field

/-- The name of a field in JSON. -/
def name : Field → String
  | .title => "Title"
  | .abstract => "Abstract"
  | .published => "DatePublished"
  | .url => "Url"

def toJson (f : Field) : Json := .str f.name

def ofJson? (j : Json) : Option Field :=
  j.name?.bind fun name => all.find? fun f => f.name == name

end Field

namespace Quotation

def toJson (q : Quotation) : Json :=
  .obj [("open", .text [q.opening]), ("value", .text q.body), ("close", .text [q.closing])]

def ofJson? (j : Json) : Option Quotation :=
  match j.record? ["open", "value", "close"] with
  | some [some opening, some body, some closing] => do
    return ⟨← opening.char?, ← body.text?, ← closing.char?⟩
  | _ => none

end Quotation

namespace TokenKind

/-- The name of a kind in JSON. -/
def tag : TokenKind → String
  | .operator => "Operator"
  | .fieldKey => "FieldKey"
  | .quotedValue => "QuotedValue"
  | .plain => "Plain"

end TokenKind

namespace Token

/-- A token is an object whose one member is named for its kind. -/
def toJson (t : Token) : Json :=
  let content :=
    match t with
    | .connective k => k.toJson
    | .field f value => .obj [("key", f.toJson), ("value", .option Quotation.toJson value)]
    | .quotation q => q.toJson
    | .plain t => .text t
  .obj [(t.kind.tag, content)]

/-- A field and its value, which may be left out; always an object. -/
def fieldOfJson? (j : Json) : Option Token := do
  return .field (← Field.ofJson? (← j.get? "key"))
    (← Json.optional? Quotation.ofJson? (j.get? "value"))

def ofJson? : Json → Option Token
  | .obj [(tag, content)] =>
    match tag with
    | "Operator" => (Connective.ofJson? content).map .connective
    | "FieldKey" => fieldOfJson? content
    | "QuotedValue" => (Quotation.ofJson? content).map .quotation
    | "Plain" => content.text?.map .plain
    | _ => none
  | _ => none

end Token

namespace TokenSequence

def toJson (s : TokenSequence) : Json :=
  .obj [("tokens", .list (Located.toJson Token.toJson) s.tokens),
    ("source_len", .nat s.sourceSize)]

def ofJson? (j : Json) : Option TokenSequence :=
  match j.record? ["tokens", "source_len"] with
  | some [some tokens, some size] => do
    return ⟨← tokens.list? (Located.ofJson? Token.ofJson?), ← size.nat64?⟩
  | _ => none

end TokenSequence

def TokenCounts.toJson (n : TokenCounts) : Json :=
  .obj [("total", .nat n.total), ("operators", .nat n.operators),
    ("field_keys", .nat n.fieldKeys), ("field_pairs", .nat n.fieldPairs),
    ("quoted_values", .nat n.quotedValues), ("plain", .nat n.plain)]

def ScanMetrics.toJson (m : ScanMetrics) : Json :=
  .obj [("inputs_processed", .nat m.inputs), ("bytes_processed", .nat m.bytes),
    ("large_inputs", .nat m.largeInputs), ("token_counts", m.tokens.toJson),
    ("unterminated_quotes", .nat m.openQuotes), ("lowercase_operators", .nat m.miscased),
    ("unknown_field_keys", .nat m.unknownKeys),
    ("incomplete_field_values", .nat m.missingValues)]

namespace Revision

def toJson (r : Revision) : Json := .nat r.toNat

def ofJson? (j : Json) : Option Revision := j.nat64?.map UInt64.ofNat

end Revision

def Highlight.toJson (h : Highlight) : Json :=
  .obj [("revision", Revision.toJson h.revision), ("tokens", h.tokens.toJson)]

def SessionMetrics.toJson (m : SessionMetrics) : Json :=
  .obj [("revisions_issued", .nat m.issued.toNat), ("results_applied", .nat m.applied.toNat),
    ("stale_discarded", .nat m.stale.toNat), ("unknown_rejected", .nat m.unknown.toNat)]

end SearchMarkup
