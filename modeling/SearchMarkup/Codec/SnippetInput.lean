/-
# Snippet input

Snippets come as a JSON text: an array of strings, or else a document. A document alone
may also be read straight from the text; then a value of the wrong kind is refused
where it stands, and members of other names are passed over unread.
-/

import SearchMarkup.Codec.Marking
import SearchMarkup.Json.Reader
import SearchMarkup.Text.Quoted

namespace SearchMarkup

/-- What can be given to be shown. -/
inductive SnippetInput where
  | items (ts : List Text)
  | document (d : SnippetDocument)
  deriving DecidableEq, Repr

namespace SnippetInput

def toJson : SnippetInput → Json
  | .items ts => .list Json.text ts
  | .document d => d.toJson

/-- The input of a value: the first form that fits. -/
def ofJson? (j : Json) : Option SnippetInput :=
  match j.list? Json.text? with
  | some ts => some (.items ts)
  | none => (SnippetDocument.ofJson? j).map .document

/-- The input of a JSON text. A text that is not JSON is refused where it goes wrong; a
value that is no input is refused as a whole, before anything that follows it. -/
def parse? (t : Text) : Except Json.Fault SnippetInput :=
  match Json.readValue Json.maxDepth t with
  | .error stop => .error (.ofStop t stop)
  | .ok (j, rest) =>
    match ofJson? j with
    | none => .error (.whole (.noFormFits "SnippetInput"))
    | some input =>
      match Json.expectEnd rest with
      | .error stop => .error (.ofStop t stop)
      | .ok () => .ok input

end SnippetInput

namespace SnippetDocument

open Json

/-- A kind of value as it is named in faults. -/
def kindName : Json → String
  | .null => "null"
  | .bool true => "boolean `true`"
  | .bool false => "boolean `false`"
  | .num (.float f) => "floating point `" ++ String.ofList (JsonNumber.float f).text ++ "`"
  | .num n => "integer `" ++ String.ofList n.text ++ "`"
  | .str s => "string " ++ String.ofList (Text.quote s.toList)
  | .arr _ => "sequence"
  | .obj _ => "map"

/-- Refuses the value at the front of a text, which is of another kind than expected. A
list or object is refused where it begins, any other value after its end. -/
def refuseKind {α : Type} (expected : String) (t : Text) : Except Stop α :=
  match t with
  | '[' :: _ => stopAt (.wrongKind (kindName (.arr [])) expected) t
  | '\x7b' :: _ => stopAt (.wrongKind (kindName (.obj [])) expected) t
  | _ => do
    let (value, rest) ← readValue 0 t
    stopAt (.wrongKind (kindName value) expected) rest

/-- Reads a string and nothing else. -/
def readText (t : Text) : Except Stop (Text × Text) :=
  match skipBlanks t with
  | [] => stopAt .endInValue []
  | '"' :: t => do
    let (s, t) ← readString t
    return (s.toList, t)
  | t => refuseKind "a string" t

/-- Reads a list of strings and nothing else. -/
def readTexts (t : Text) : Except Stop (List Text × Text) :=
  match skipBlanks t with
  | [] => stopAt .endInValue []
  | '[' :: t => readItems readText true (t.length + 1) t
  | t => refuseKind "a sequence" t

/-- Reads `null` or a value. -/
def readOptional {α : Type} (read : Text → Except Stop (α × Text)) (t : Text) :
    Except Stop (Option α × Text) :=
  match skipBlanks t with
  | 'n' :: t => do return (none, ← readLiteral ['u', 'l', 'l'] t)
  | t => do
    let (a, t) ← read t
    return (some a, t)

/-- Refuses a member that occurs again. The blanks after its name count as read, and so
does the end of the object if it follows them. -/
def refuseRepeated {α : Type} (name : String) (t : Text) : Except Stop α :=
  match skipBlanks t with
  | '\x7d' :: t => stopAt (.repeatedMember name) t
  | t => stopAt (.repeatedMember name) t

/-- Reads the members of a document, at most `fuel` of them, after those read so far. -/
def readDocumentMembers (first : Bool) (highlights : Option (Option (List Text)))
    (abstractText : Option (Option Text)) : Nat → Text → Except Stop (SnippetDocument × Text)
  | 0, t => stopAt .endInObject t
  | fuel + 1, t => do
    match ← nextMember first t with
    | (false, t) => return (⟨highlights.join, abstractText.join⟩, t)
    | (true, t) =>
      let (name, t) ← readString t
      if name = "HIGHLIGHTS" then
        if highlights.isSome then refuseRepeated name t
        else
          let (h, t) ← readOptional readTexts (← takeColon t)
          readDocumentMembers false (some h) abstractText fuel t
      else if name = "AB" then
        if abstractText.isSome then refuseRepeated name t
        else
          let (a, t) ← readOptional readText (← takeColon t)
          readDocumentMembers false highlights (some a) fuel t
      else
        let t ← skipValue (← takeColon t)
        readDocumentMembers false highlights abstractText fuel t

/-- Reads what a document given as an array may hold. -/
def readDocumentItems (t : Text) : Except Stop (SnippetDocument × Text) := do
  match ← nextItem true t with
  | (false, t) => return ({}, t)
  | (true, t) =>
    let (highlights, t) ← readOptional readTexts t
    match ← nextItem false t with
    | (false, t) => return (⟨highlights, none⟩, t)
    | (true, t) =>
      let (abstractText, t) ← readOptional readText t
      match skipBlanks t with
      | [] => stopAt .endInList []
      | ']' :: t => return (⟨highlights, abstractText⟩, t)
      | ',' :: t =>
        match skipBlanks t with
        | ']' :: t => stopOn .trailingComma (']' :: t)
        | t => stopOn .trailingCharacters t
      | t => stopOn .trailingCharacters t

/-- Reads a document. -/
def readDocument (t : Text) : Except Stop (SnippetDocument × Text) :=
  match skipBlanks t with
  | [] => stopAt .endInValue []
  | '[' :: t => readDocumentItems t
  | '\x7b' :: t => readDocumentMembers true none none (t.length + 1) t
  | t => refuseKind "struct SnippetDocument" t

/-- The document of a JSON text. -/
def parse? (t : Text) : Except Fault SnippetDocument :=
  Except.mapError (Fault.ofStop t) do
    let (d, rest) ← readDocument t
    expectEnd rest
    return d

end SnippetDocument
end SearchMarkup
