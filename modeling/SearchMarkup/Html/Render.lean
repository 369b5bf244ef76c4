/-
# Rendering as HTML

A query becomes its own text with spans around what is classified: a connective, a
field key, and a quotation with or without its quote characters. Snippets become one
`p` element per paragraph, on lines of their own, with a span around each marked
segment.

Markup is a list of pieces first, then text; the pieces say which stretches of text
had to be escaped. Pieces of fixed markup hold nothing but what stands in this file.

Before the markup of a query is written, it is given room for twice the bytes that the
query is said to have. Nobody checks that number. Where it is that of a text at hand there
is room, and the markup is written (`renderQuery_eq_writeQuery`).
-/

import SearchMarkup.Html.Entity
import SearchMarkup.Journal.Event
import SearchMarkup.Marking.Segment
import SearchMarkup.Query.Sequence
import SearchMarkup.Settings
import SearchMarkup.Word

namespace SearchMarkup
namespace Html

/-- What a span in a query stands for. -/
inductive Role where
  | keyword
  | key
  | string
  deriving DecidableEq, Repr

namespace Role

/-- The role of a kind of token; plain text has none. -/
def ofKind? : TokenKind → Option Role
  | .operator => some .keyword
  | .fieldKey => some .key
  | .quotedValue => some .string
  | .plain => none

/-- The class names of a role. -/
def className : ClassStyle → Role → String
  | .prism, .keyword => "token keyword custom-keyword"
  | .prism, .key => "token key custom-key"
  | .prism, .string => "token string custom-string"
  | .plain, .keyword => "keyword"
  | .plain, .key => "key"
  | .plain, .string => "string"

end Role

/-- The class of a marked segment. -/
def markedClass : String := "highlight"

/-- The class of a paragraph. -/
def paragraphClass : String := "ellipsis-text"

/-- A piece of rendered output. -/
inductive Piece where
  /-- Text outside any span. -/
  | text (t : Text)
  /-- The sign between a field and its value. -/
  | equals
  /-- Text in a span of a class. -/
  | span (className : String) (t : Text)
  deriving DecidableEq, Repr

namespace Piece

/-- The text of a piece that goes through `escape`. -/
def escaped : Piece → Text
  | .text t => t
  | .equals => []
  | .span _ t => t

/-- An element of a class around markup. -/
def element (name className : String) (inner : Text) : Text :=
  ("<" ++ name ++ " class=\"" ++ className ++ "\">").toList ++ inner
    ++ ("</" ++ name ++ ">").toList

/-- The markup of a piece. -/
def markup : Piece → Text
  | .text t => escape t
  | .equals => ['=']
  | .span className t => element "span" className (escape t)

end Piece

/-- The pieces of a quotation. -/
def quotationPieces (s : RenderSettings) (q : Quotation) : List Piece :=
  let className := Role.string.className s.classStyle
  if s.quotesInside then [.span className q.text]
  else [.text [q.opening], .span className q.body, .text [q.closing]]

/-- The pieces of a token. -/
def tokenPieces (s : RenderSettings) : Token → List Piece
  | .connective k => [.span (Role.keyword.className s.classStyle) k.word]
  | .field f none => [.span (Role.key.className s.classStyle) f.key]
  | .field f (some q) =>
    .span (Role.key.className s.classStyle) f.key :: .equals :: quotationPieces s q
  | .quotation q => quotationPieces s q
  | .plain t => [.text t]

/-- The pieces of a query. -/
def queryPieces (s : RenderSettings) (tokens : TokenSequence) : List Piece :=
  tokens.values.flatMap (tokenPieces s)

/-- The piece of a segment. -/
def segmentPiece (s : Segment) : Piece :=
  if s.marked then .span markedClass s.text else .text s.text

/-- The markup of a query. -/
def queryMarkup (s : RenderSettings) (tokens : TokenSequence) : Text :=
  (queryPieces s tokens).flatMap Piece.markup

/-- The markup of a paragraph. -/
def paragraphMarkup (segments : List Segment) : Text :=
  Piece.element "p" paragraphClass (segments.flatMap fun s => (segmentPiece s).markup)

/-- The markup of paragraphs, a line feed between any two. -/
def paragraphsMarkup (paragraphs : List (List Segment)) : Text :=
  ['\n'].intercalate (paragraphs.map paragraphMarkup)

/-- How many pieces hold text that had to be escaped. -/
def escapedCount (pieces : List Piece) : Nat := pieces.countP fun p => needsEscape p.escaped

/-- The report of escaped text, if there was any. -/
def escapedEvents (message : String) (count : Nat) : List Event :=
  if count = 0 then [] else [(Event.debug .markupEscaped message).withCount "escaped" count]

/-- Writes the markup of a query and reports it. -/
def writeQuery (s : RenderSettings) (tokens : TokenSequence) : Logged Text :=
  let html := queryMarkup s tokens
  ⟨html, escapedEvents "Query text contained markup characters"
      (escapedCount (queryPieces s tokens)) ++
    [((Event.success .rendered "Query markup rendered").withCount "tokens"
      tokens.tokens.length).withCount "bytes" html.size]⟩

/-- The bytes that the markup of a query is given room for at first. No text has room for
more than `Limits.textSize`: to ask for it is a fault. -/
def markupRoom? (o : Overflow) (tokens : TokenSequence) : Option UInt64 :=
  (o.word? (tokens.sourceSize * 2)).filter fun room => room.toNat ≤ Limits.textSize

/-- Renders a query, if its markup can be given the room it asks for. -/
def renderQuery (o : Overflow) (s : RenderSettings) (tokens : TokenSequence) :
    Faulting Text := do
  let _ ← markupRoom? o tokens
  writeQuery s tokens

/-- Renders paragraphs and reports it. -/
def renderParagraphs (paragraphs : List (List Segment)) : Logged Text :=
  let html := paragraphsMarkup paragraphs
  ⟨html, escapedEvents "Snippet text contained markup characters"
      (escapedCount (paragraphs.flatten.map segmentPiece)) ++
    [((Event.success .rendered "Snippet markup rendered").withCount "paragraphs"
      paragraphs.length).withCount "bytes" html.size]⟩

/-! ## Room for markup -/

section

variable {o : Overflow} {s : RenderSettings} {tokens : TokenSequence}

/-- What is asked for is twice the size of the source, or what that wraps around to. -/
theorem isSome_markupRoom?_iff :
    (markupRoom? o tokens).isSome ↔
      (o = .faults → tokens.sourceSize * 2 ≤ Limits.textSize) ∧
        (o = .wraps → tokens.sourceSize * 2 % UInt64.size ≤ Limits.textSize) := by
  have hlimit : Limits.textSize < UInt64.size := by decide
  cases o with
  | wraps => simp [markupRoom?, Overflow.word?, Option.filter]
  | faults =>
    by_cases hfits : tokens.sourceSize * 2 < UInt64.size
    · simp [markupRoom?, Overflow.word?, Option.filter, hfits, Nat.mod_eq_of_lt]
    · have hmore : ¬ tokens.sourceSize * 2 ≤ Limits.textSize := by omega
      simp [markupRoom?, Overflow.word?, hfits, hmore]

/-- A query is rendered exactly if there is room, and what is rendered is its markup. -/
theorem value?_renderQuery :
    (renderQuery o s tokens).value? = (markupRoom? o tokens).map fun _ => queryMarkup s tokens := by
  rw [renderQuery, Faulting.value?_bind]
  cases markupRoom? o tokens <;> rfl

/-- For the tokens of a text at hand the markup is written, under either arithmetic. -/
theorem renderQuery_eq_writeQuery (h : tokens.sourceSize * 2 ≤ Limits.textSize) :
    renderQuery o s tokens = liftM (writeQuery s tokens) := by
  have hroom : (markupRoom? o tokens).isSome :=
    isSome_markupRoom?_iff.2 ⟨fun _ => h, fun _ => Nat.le_trans (Nat.mod_le ..) h⟩
  obtain ⟨room, hroom⟩ := Option.isSome_iff_exists.1 hroom
  rw [renderQuery, hroom]
  rfl

end

end Html
end SearchMarkup
