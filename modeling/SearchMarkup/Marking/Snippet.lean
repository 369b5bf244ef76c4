/-
# What is shown of a search result

A result shows its highlights, one paragraph each; without any, its abstract as one
unmarked paragraph, tags and all; without that, nothing.
-/

import SearchMarkup.Marking.Extractor

namespace SearchMarkup

/-- The fields of a search result that can be shown. -/
structure SnippetDocument where
  highlights : Option (List Text) := none
  abstractText : Option Text := none
  deriving DecidableEq, Repr

/-- Where the paragraphs shown come from. -/
inductive BodySource where
  | highlights
  | abstract
  | empty
  deriving DecidableEq, Repr

namespace BodySource

def name : BodySource → String
  | .highlights => "highlights"
  | .abstract => "abstract"
  | .empty => "empty"

end BodySource

/-- The paragraphs shown of a result, each a list of segments. -/
structure SnippetBody where
  source : BodySource
  paragraphs : List (List Segment)
  deriving DecidableEq, Repr

namespace SnippetBody

/-- What is shown of highlights and an abstract. -/
def select (x : Extractor) (highlights : List Text) (abstractText : Option Text) :
    Logged (SnippetBody × Extractor) :=
  match highlights, abstractText with
  | [], none => pure (⟨.empty, []⟩, x)
  | [], some t => pure (⟨.abstract, [[⟨false, t⟩]]⟩, x)
  | ts, _ => do
    let (paragraphs, x) ← x.extractAll ts
    return (⟨.highlights, paragraphs⟩, x)

/-- The number of marked segments. -/
def markedCount (b : SnippetBody) : Nat := b.paragraphs.flatten.countP Segment.marked

/-- Whether any segment is marked. -/
def hasMarks (b : SnippetBody) : Bool := b.paragraphs.any fun p => p.any Segment.marked

end SnippetBody

namespace SnippetDocument

/-- What is shown of a document. -/
def body (d : SnippetDocument) (x : Extractor) : Logged (SnippetBody × Extractor) :=
  SnippetBody.select x (d.highlights.getD []) d.abstractText

end SnippetDocument
end SearchMarkup
