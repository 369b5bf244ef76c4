/-
# Highlighting snippets

A snippet report holds the paragraphs shown of a search result, where they come from,
their markup and the number of marked segments. As text it has one line per segment, a
label and the segment's text in quotes with a tab between them; an empty line stands
between paragraphs.
-/

import SearchMarkup.Html.Render
import SearchMarkup.Marking.Snippet
import SearchMarkup.Report.Query

namespace SearchMarkup

/-- What is reported about a search result. -/
structure SnippetReport where
  body : SnippetBody
  html : Text
  markedSegments : Nat
  elapsed : Elapsed
  deriving DecidableEq, Repr

namespace SnippetReport

/-- The line of a segment. -/
def segmentLine (s : Segment) : Text :=
  (if s.marked then "marked" else "text").toList ++ '\t' :: Text.quote s.text ++ ['\n']

/-- The lines of a paragraph. -/
def paragraphText (segments : List Segment) : Text := segments.flatMap segmentLine

/-- The report as text, one line per segment. -/
def text (r : SnippetReport) : Text :=
  ['\n'].intercalate (r.body.paragraphs.map paragraphText)

end SnippetReport

/-- Renders what is shown of a result, and reports the run. -/
def reportBody (timing : Timing) (body : SnippetBody) : Logged SnippetReport := do
  let html ← Html.renderParagraphs body.paragraphs
  Logged.tell (timing.completed "Snippet pipeline completed"
    [("paragraphs", body.paragraphs.length), ("marked", body.markedCount)])
  return ⟨body, html, body.markedCount, timing.elapsed⟩

/-- Splits and renders snippets. -/
def highlightSnippets (s : Settings) (tags : MarkerTags) (timing : Timing) (items : List Text) :
    Logged SnippetReport := do
  let (body, _) ← SnippetBody.select { tags := tags, settings := s.marking } items none
  reportBody timing body

/-- Splits and renders what is shown of a document. -/
def highlightDocument (s : Settings) (tags : MarkerTags) (timing : Timing)
    (d : SnippetDocument) : Logged SnippetReport := do
  let (body, _) ← d.body { tags := tags, settings := s.marking }
  reportBody timing body

end SearchMarkup
