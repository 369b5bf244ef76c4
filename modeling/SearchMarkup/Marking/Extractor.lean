/-
# The marker extractor

An extractor splits snippets under a pair of tags, counts what it has seen, and
reports it.

| event | when |
| --- | --- |
| `largeItemList` | a list has more than `Limits.largeItemList` snippets |
| one per finding | if malformed tags are reported |
| `snippetsSplit` | after a list |
-/

import SearchMarkup.Journal.Event
import SearchMarkup.Marking.Segment

namespace SearchMarkup

/-- What an extractor has seen so far. -/
structure ExtractionMetrics where
  items : Nat := 0
  segments : Nat := 0
  marked : Nat := 0
  danglingOpens : Nat := 0
  strayCloses : Nat := 0
  deriving DecidableEq, Repr

namespace ExtractionMetrics

/-- Counts a finding. -/
def recordFinding (m : ExtractionMetrics) : TagFinding → ExtractionMetrics
  | .danglingOpen _ => { m with danglingOpens := m.danglingOpens + 1 }
  | .strayClose _ => { m with strayCloses := m.strayCloses + 1 }

/-- Counts a snippet that was split with a result. -/
def record (m : ExtractionMetrics) (x : Extraction) : ExtractionMetrics :=
  let m := x.findings.foldl recordFinding m
  { m with
    items := m.items + 1
    segments := m.segments + x.segments.length
    marked := m.marked + x.segments.countP Segment.marked }

end ExtractionMetrics

/-- The report of a finding. -/
def TagFinding.event : TagFinding → Event
  | .danglingOpen offset =>
    (Event.debug .danglingOpenTag "Open tag without close tag").withCount "offset" offset
  | .strayClose t =>
    (Event.debug .strayCloseTag "Close tag without open tag").withText "text" t

/-- Tags, settings, and what has been seen under them. The tags in the settings play no
part. -/
structure Extractor where
  tags : MarkerTags
  settings : MarkingSettings
  metrics : ExtractionMetrics := {}

namespace Extractor

/-- The segments of a snippet, and the extractor that has seen it too. -/
def extract (x : Extractor) (t : Text) : Logged (List Segment × Extractor) :=
  let found := Extraction.ofText x.tags t
  ⟨(found.segments, { x with metrics := x.metrics.record found }),
    if x.settings.reportMalformed then found.findings.map TagFinding.event else []⟩

/-- The segments of each snippet of a list, without the reports about the list. -/
def extractEach (x : Extractor) : List Text → Logged (List (List Segment) × Extractor)
  | [] => pure ([], x)
  | t :: ts => do
    let (segments, x) ← x.extract t
    let (rest, x) ← x.extractEach ts
    return (segments :: rest, x)

/-- The segments of each snippet of a list. -/
def extractAll (x : Extractor) (ts : List Text) : Logged (List (List Segment) × Extractor) := do
  if Limits.largeItemList < ts.length then
    Logged.tell [((Event.warning .largeItemList "Item list exceeds threshold").withCount "items"
      ts.length).withCount "threshold" Limits.largeItemList]
  let (paragraphs, x) ← x.extractEach ts
  Logged.tell [((Event.success .snippetsSplit "Marker segments extracted").withCount "items"
    ts.length).withCount "marked" x.metrics.marked]
  return (paragraphs, x)

end Extractor
end SearchMarkup
