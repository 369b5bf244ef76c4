/-
# Reports in JSON

Query and snippet reports with all their members; the time taken comes last, in
milliseconds.
-/

import SearchMarkup.Codec.Marking
import SearchMarkup.Codec.Query
import SearchMarkup.Report.Snippet

namespace SearchMarkup

/-- The time in milliseconds as a number. -/
def Elapsed.toJson (e : Elapsed) : Json := .num (.float e.milliseconds)

def QueryReport.toJson (r : QueryReport) : Json :=
  .obj [("query", .text r.query), ("tokens", r.tokens.toJson), ("html", .text r.html),
    ("counts", r.counts.toJson), ("degraded", .nat r.degraded),
    ("duration_ms", r.elapsed.toJson)]

def SnippetReport.toJson (r : SnippetReport) : Json :=
  .obj [("source", .str r.body.source.name),
    ("paragraphs", .list (Json.list Segment.toJson) r.body.paragraphs),
    ("html", .text r.html), ("marked_segments", .nat r.markedSegments),
    ("duration_ms", r.elapsed.toJson)]

/-- A JSON text, indented or on one line. -/
def Json.layout (pretty : Bool) (j : Json) : Text := if pretty then j.pretty else j.compact

end SearchMarkup
