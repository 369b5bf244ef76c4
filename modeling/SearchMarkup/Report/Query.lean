/-
# Highlighting queries

A query report holds a query with its tokens, its markup, the counts of its tokens and
the number of near misses. As text it has one line per token: place, kind, and the
token's text in quotes, with a tab between any two.

A list of queries is scanned by one lexer; if timings are asked for, a final event says
how long it took.
-/

import SearchMarkup.Html.Render
import SearchMarkup.Query.Lexer
import SearchMarkup.Report.Elapsed
import SearchMarkup.Text.Quoted

namespace SearchMarkup

/-- What is reported about a query. -/
structure QueryReport where
  query : Text
  tokens : TokenSequence
  html : Text
  counts : TokenCounts
  degraded : Nat
  elapsed : Elapsed
  deriving DecidableEq, Repr

/-- How long a run takes, and whether to report it. -/
structure Timing where
  elapsed : Elapsed := {}
  reported : Bool := false
  deriving DecidableEq, Repr

namespace Timing

/-- The report that a run is complete, with the counts it ends with. -/
def completed (t : Timing) (message : String) (counts : List (String × Nat)) : List Event :=
  if t.reported then
    [counts.foldl (fun e (name, n) => e.withCount name n)
      ((Event.success .runCompleted message).withValue "duration_ms" t.elapsed.text)]
  else []

end Timing

namespace QueryReport

/-- The line of a token. -/
def tokenLine (t : Located Token) : Text :=
  t.span.display.toList ++ '\t' :: t.value.kind.name.toList ++ '\t' :: Text.quote t.value.text
    ++ ['\n']

/-- The report as text, one line per token. -/
def text (r : QueryReport) : Text := r.tokens.tokens.flatMap tokenLine

end QueryReport

/-- Scans and renders a query with a lexer. -/
def highlightWith (lexer : Lexer) (s : RenderSettings) (elapsed : Elapsed) (t : Text) :
    Logged (QueryReport × Lexer) := do
  let (tokens, scanned) ← lexer.tokenize t
  let html ← Html.writeQuery s tokens
  return ({ query := t
            tokens := tokens
            html := html
            counts := tokens.counts
            degraded := scanned.metrics.degraded - lexer.metrics.degraded
            elapsed := elapsed }, scanned)

/-- For a text at hand there is room for the markup, and that is what its tokens are rendered
as under either arithmetic. -/
theorem value?_renderQuery_tokenize (o : Overflow) (lexer : Lexer) (s : RenderSettings)
    (elapsed : Elapsed) {t : Text} (h : t.size * 2 ≤ Limits.textSize) :
    (Html.renderQuery o s (lexer.tokenize t).value.1).value? =
      some (highlightWith lexer s elapsed t).value.1.html := by
  have hsize : (lexer.tokenize t).value.1.sourceSize * 2 ≤ Limits.textSize := h
  rw [Html.renderQuery_eq_writeQuery hsize]
  rfl

/-- Scans and renders a query. -/
def highlightQuery (s : Settings) (elapsed : Elapsed) (t : Text) : Logged QueryReport := do
  let (report, _) ← highlightWith { settings := s.scan } s.render elapsed t
  return report

/-- Scans and renders queries with one lexer. -/
def highlightEach (lexer : Lexer) (s : RenderSettings) (elapsed : Elapsed) :
    List Text → Logged (List QueryReport × Lexer)
  | [] => pure ([], lexer)
  | t :: ts => do
    let (report, lexer) ← highlightWith lexer s elapsed t
    let (reports, lexer) ← highlightEach lexer s elapsed ts
    return (report :: reports, lexer)

/-- Scans and renders queries, and reports the run. -/
def highlightQueries (s : Settings) (timing : Timing) (ts : List Text) :
    Logged (List QueryReport) := do
  let (reports, lexer) ← highlightEach { settings := s.scan } s.render timing.elapsed ts
  Logged.tell (timing.completed "Query pipeline completed"
    [("queries", ts.length), ("degraded", lexer.metrics.degraded)])
  return reports

end SearchMarkup
