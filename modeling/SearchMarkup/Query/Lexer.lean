/-
# The query lexer

A lexer scans queries under its settings, counts what it has seen, and reports it. The
tokens of a query depend on the query alone; the settings decide only what is counted
and reported.

| event | when |
| --- | --- |
| `largeQuery` | the query has more than `Limits.largeQuery` bytes |
| one per finding | if near misses are reported |
| `queryScanned` | always, at the end |
-/

import SearchMarkup.Journal.Event
import SearchMarkup.Query.Scan
import SearchMarkup.Settings

namespace SearchMarkup

/-- What a lexer has seen so far. -/
structure ScanMetrics where
  inputs : Nat := 0
  bytes : Nat := 0
  largeInputs : Nat := 0
  tokens : TokenCounts := {}
  openQuotes : Nat := 0
  miscased : Nat := 0
  unknownKeys : Nat := 0
  missingValues : Nat := 0
  deriving DecidableEq, Repr

namespace ScanMetrics

/-- Counts a query before it is scanned. -/
def recordInput (m : ScanMetrics) (size : Nat) : ScanMetrics :=
  { m with
    inputs := m.inputs + 1
    bytes := m.bytes + size
    largeInputs := if Limits.largeQuery < size then m.largeInputs + 1 else m.largeInputs }

/-- Counts a near miss. -/
def recordMiss (m : ScanMetrics) : NearMiss → ScanMetrics
  | .openQuote _ => { m with openQuotes := m.openQuotes + 1 }
  | .miscased _ => { m with miscased := m.miscased + 1 }
  | .unknownKey _ => { m with unknownKeys := m.unknownKeys + 1 }
  | .missingValue _ => { m with missingValues := m.missingValues + 1 }

/-- The number of near misses. -/
def degraded (m : ScanMetrics) : Nat :=
  m.openQuotes + m.miscased + m.unknownKeys + m.missingValues

/-- A near miss of any kind is one more. -/
theorem degraded_recordMiss (m : ScanMetrics) (n : NearMiss) :
    (m.recordMiss n).degraded = m.degraded + 1 := by
  cases n <;> simp only [recordMiss, degraded] <;> omega

/-- Near misses are counted on top of what was counted before. -/
theorem foldl_recordMiss (m : ScanMetrics) (l : List NearMiss) :
    l.foldl recordMiss m =
      { m with
        openQuotes := m.openQuotes + (l.foldl recordMiss {}).openQuotes
        miscased := m.miscased + (l.foldl recordMiss {}).miscased
        unknownKeys := m.unknownKeys + (l.foldl recordMiss {}).unknownKeys
        missingValues := m.missingValues + (l.foldl recordMiss {}).missingValues } := by
  induction l generalizing m with
  | nil => rfl
  | cons n l ih =>
    rw [List.foldl_cons, List.foldl_cons, ih (m.recordMiss n), ih (recordMiss {} n)]
    cases n <;> simp [recordMiss, Nat.add_assoc]

/-- Each near miss is counted once. -/
theorem degraded_foldl_recordMiss (m : ScanMetrics) (l : List NearMiss) :
    (l.foldl recordMiss m).degraded = m.degraded + l.length := by
  induction l generalizing m with
  | nil => rfl
  | cons n l ih =>
    rw [List.foldl_cons, ih, degraded_recordMiss, List.length_cons]
    omega

end ScanMetrics

/-- The code a near miss is reported under. -/
def NearMiss.code : NearMiss → Code
  | .openQuote _ => .openQuote
  | .miscased _ => .miscasedConnective
  | .unknownKey _ => .unknownKey
  | .missingValue _ => .missingValue

/-- Settings and what has been seen under them. -/
structure Lexer where
  settings : ScanSettings
  metrics : ScanMetrics := {}
  deriving DecidableEq, Repr

namespace Lexer

/-- The lexer with other settings; what it has seen stays. -/
def withSettings (x : Lexer) (s : ScanSettings) : Lexer := { x with settings := s }

/-- The lexer as if it had seen nothing. -/
def reset (x : Lexer) : Lexer := { x with metrics := {} }

/-- The metrics after one more query of a size, scanned with a result. -/
def observe (s : ScanSettings) (m : ScanMetrics) (size : Nat) (scan : Scan) : ScanMetrics :=
  let m := m.recordInput size
  let m := scan.findings.foldl (fun m f => m.recordMiss f.value) m
  if s.countTokens then
    { m with tokens := (scan.tokens.map Located.value).foldl TokenCounts.record m.tokens }
  else m

/-- What one more query adds to the metrics. -/
theorem observe_eq (s : ScanSettings) (m : ScanMetrics) (n : Nat) (scan : Scan) :
    let misses := (scan.findings.map Located.value).foldl ScanMetrics.recordMiss {}
    observe s m n scan =
      { inputs := m.inputs + 1
        bytes := m.bytes + n
        largeInputs := m.largeInputs + if Limits.largeQuery < n then 1 else 0
        tokens :=
          if s.countTokens then (scan.tokens.map Located.value).foldl TokenCounts.record m.tokens
          else m.tokens
        openQuotes := m.openQuotes + misses.openQuotes
        miscased := m.miscased + misses.miscased
        unknownKeys := m.unknownKeys + misses.unknownKeys
        missingValues := m.missingValues + misses.missingValues } := by
  intro misses
  have hfold : observe s m n scan =
      let m := (scan.findings.map Located.value).foldl ScanMetrics.recordMiss (m.recordInput n)
      if s.countTokens then
        { m with tokens := (scan.tokens.map Located.value).foldl TokenCounts.record m.tokens }
      else m := by
    rw [List.foldl_map]
    rfl
  rw [hfold, ScanMetrics.foldl_recordMiss]
  by_cases hcount : s.countTokens <;> by_cases hlarge : Limits.largeQuery < n <;>
    simp [hcount, hlarge, ScanMetrics.recordInput, misses]

/-- A query adds as many near misses as were found in it. -/
theorem degraded_observe (s : ScanSettings) (m : ScanMetrics) (n : Nat) (scan : Scan) :
    (observe s m n scan).degraded = m.degraded + scan.findings.length := by
  have hmisses := ScanMetrics.degraded_foldl_recordMiss {} (scan.findings.map Located.value)
  rw [List.length_map] at hmisses
  rw [observe_eq]
  simp only [ScanMetrics.degraded] at hmisses ⊢
  omega

/-- The report of a finding. -/
def findingEvent (s : ScanSettings) (f : Finding) : Event :=
  let e := (Event.debug f.value.code "Degraded classification").withText "text" f.value.text
  if s.reportSpans then e.withSpan f.span else e

/-- All reports about a query of a size, scanned with a result. -/
def reports (s : ScanSettings) (size : Nat) (scan : Scan) : List Event :=
  (if Limits.largeQuery < size then
    [((Event.warning .largeQuery "Query exceeds large query threshold").withCount "length"
      size).withCount "threshold" Limits.largeQuery]
  else [])
  ++ (if s.reportNearMisses then scan.findings.map (findingEvent s) else [])
  ++ [((Event.success .queryScanned "Query tokenized").withCount "length" size).withCount
      "tokens" scan.tokens.length]

/-- The tokens of a query, and the lexer that has seen it too. -/
def tokenize (x : Lexer) (t : Text) : Logged (TokenSequence × Lexer) :=
  let scan := Scan.ofText t
  ⟨(scan.sequence t, { x with metrics := observe x.settings x.metrics t.size scan }),
    reports x.settings t.size scan⟩

end Lexer
end SearchMarkup
