/-
# A lexer that is used again

A lexer is given queries one after another, and now and then other settings, or its
metrics are reset. Nothing of this shows in the tokens of a query: they are those a fresh
lexer gives, whatever its settings (`Lexer.answers_eq_map_use`). What a lexer does keep
is told by the queries since the last reset alone, each with the settings it was scanned
under (`Lexer.metrics_after`):

| metric | what it is |
| --- | --- |
| queries, bytes, large queries | their number, their bytes, the number of large ones |
| near misses of each kind | the sum of what a fresh lexer finds in each |
| tokens of each kind | the sum over those scanned while tokens were counted |

None of these numbers is greater than the number of queries or of their bytes, whichever is
greater (`ScanMetrics.le_of_mem_numbers_ofQueries`). So a word has room for each of them as
long as it has for these two.

A list of queries is scanned by one lexer, and the near misses of a query are what its
total grew by. Since the total is a sum, that is what a fresh lexer finds
(`highlightWith_untimed`).
-/

import SearchMarkup.Proofs.Query.ScanSteps
import SearchMarkup.Report.Query
import Mathlib

namespace SearchMarkup

/-- The counts of each kind in all of a list. -/
def TokenCounts.sum (l : List TokenCounts) : TokenCounts where
  total := (l.map total).sum
  operators := (l.map operators).sum
  fieldKeys := (l.map fieldKeys).sum
  fieldPairs := (l.map fieldPairs).sum
  quotedValues := (l.map quotedValues).sum
  plain := (l.map plain).sum

/-- Tokens are counted on top of what was counted before. -/
theorem TokenCounts.foldl_record_sum (l : List TokenCounts) (ts : List Token) :
    ts.foldl record (sum l) = sum (l ++ [ofTokens ts]) := by
  rw [ofTokens, foldl_record, foldl_record]
  simp [sum]

namespace Lexer

/-- A lexer that has seen nothing. -/
def fresh (s : ScanSettings) : Lexer := { settings := s }

/-- What a host can do with a lexer. -/
inductive Use where
  | tokenize (t : Text)
  | withSettings (s : ScanSettings)
  | reset
  deriving DecidableEq, Repr

/-- What a use gives, tokens if it asks for them, and the lexer after it. -/
def use (x : Lexer) : Use → Option TokenSequence × Lexer
  | .tokenize t => (some (x.tokenize t).value.1, (x.tokenize t).value.2)
  | .withSettings s => (none, x.withSettings s)
  | .reset => (none, x.reset)

/-- What uses give one by one. -/
def answers (x : Lexer) : List Use → List (Option TokenSequence)
  | [] => []
  | u :: l => (x.use u).1 :: (x.use u).2.answers l

/-- The lexer after uses one by one. -/
def after (x : Lexer) (l : List Use) : Lexer := l.foldl (fun x u => (x.use u).2) x

/-- The queries since the last reset, each with the settings it was scanned under; `s` are
the settings before the first use. -/
def sinceReset (s : ScanSettings) : List Use → List (ScanSettings × Text)
  | [] => []
  | .tokenize t :: l => if .reset ∈ l then sinceReset s l else (s, t) :: sinceReset s l
  | .withSettings s' :: l => sinceReset s' l
  | .reset :: l => sinceReset s l

end Lexer

/-- What the metrics say of queries scanned under settings: sums of what a fresh lexer with
the settings `s` says of each. -/
def ScanMetrics.ofQueries (s : ScanSettings) (qs : List (ScanSettings × Text)) : ScanMetrics where
  inputs := qs.length
  bytes := (qs.map fun q => q.2.size).sum
  largeInputs := qs.countP fun q => Limits.largeQuery < q.2.size
  tokens := .sum ((qs.filter fun q => q.1.countTokens).map fun q =>
    ((Lexer.fresh s).tokenize q.2).value.1.counts)
  openQuotes := (qs.map fun q => ((Lexer.fresh s).tokenize q.2).value.2.metrics.openQuotes).sum
  miscased := (qs.map fun q => ((Lexer.fresh s).tokenize q.2).value.2.metrics.miscased).sum
  unknownKeys := (qs.map fun q => ((Lexer.fresh s).tokenize q.2).value.2.metrics.unknownKeys).sum
  missingValues :=
    (qs.map fun q => ((Lexer.fresh s).tokenize q.2).value.2.metrics.missingValues).sum

/-! ## How far the counts go -/

/-- All the counts, as numbers. -/
def TokenCounts.numbers (c : TokenCounts) : List Nat :=
  [c.total, c.operators, c.fieldKeys, c.fieldPairs, c.quotedValues, c.plain]

/-- No more tokens of a kind are counted than there are tokens. -/
theorem TokenCounts.le_total_of_mem_numbers {ts : List Token} {n : Nat}
    (h : n ∈ (ofTokens ts).numbers) : n ≤ ts.length := by
  simp only [ofTokens, foldl_record, numbers, Nat.zero_add, List.mem_cons, List.not_mem_nil,
    or_false] at h
  rcases h with rfl | rfl | rfl | rfl | rfl | rfl
  · exact Nat.le_refl _
  all_goals exact List.countP_le_length

/-- All that the metrics say, as numbers, and the number of near misses of any kind. -/
def ScanMetrics.numbers (m : ScanMetrics) : List Nat :=
  [m.inputs, m.bytes, m.largeInputs, m.openQuotes, m.miscased, m.unknownKeys, m.missingValues,
    m.degraded] ++ m.tokens.numbers

/-- Of queries no more is summed up than of all of them, each by at least as much. -/
theorem sum_map_filter_le {α : Type} {l : List α} {p : α → Bool} {f g : α → Nat}
    (h : ∀ x, f x ≤ g x) : ((l.filter p).map f).sum ≤ (l.map g).sum :=
  (List.filter_sublist.map f).sum_le_sum (fun _ _ => Nat.zero_le _) |>.trans
    (List.sum_le_sum fun x _ => h x)

/-- A query has no more near misses than bytes. -/
theorem ScanMetrics.degraded_ofQueries_le (s : ScanSettings) (qs : List (ScanSettings × Text)) :
    (ofQueries s qs).degraded ≤ (qs.map fun q => q.2.size).sum := by
  induction qs with
  | nil => exact Nat.le_refl 0
  | cons q qs ih =>
    have hone : ((Lexer.fresh s).tokenize q.2).value.2.metrics.degraded ≤ q.2.size := by
      have hsum : ((Lexer.fresh s).tokenize q.2).value.2.metrics.degraded =
          0 + (Scan.ofText q.2).findings.length := Lexer.degraded_observe ..
      rw [hsum, Nat.zero_add]
      exact Scan.length_findings_ofText_le q.2
    simp only [ofQueries, degraded, List.map_cons, List.sum_cons] at ih hone ⊢
    omega

/-- **No count is greater than the number of queries or of their bytes.** -/
theorem ScanMetrics.le_of_mem_numbers_ofQueries (s : ScanSettings)
    (qs : List (ScanSettings × Text)) {n : Nat} (h : n ∈ (ofQueries s qs).numbers) :
    n ≤ max qs.length (qs.map fun q => q.2.size).sum := by
  have hmisses := degraded_ofQueries_le s qs
  have hlarge : (ofQueries s qs).largeInputs ≤ qs.length := List.countP_le_length
  have htokens (f : TokenCounts → Nat) (hf : ∀ c : TokenCounts, f c ∈ c.numbers) :
      ((qs.filter fun q => q.1.countTokens).map fun q =>
        f ((Lexer.fresh s).tokenize q.2).value.1.counts).sum ≤ (qs.map fun q => q.2.size).sum := by
    refine sum_map_filter_le fun q => ?_
    refine (TokenCounts.le_total_of_mem_numbers (hf _)).trans ?_
    exact (List.length_map ..).trans_le (Scan.length_tokens_ofText_le q.2)
  rcases List.mem_append.1 h with h | h
  · simp only [List.mem_cons, List.not_mem_nil, or_false] at h
    have hinputs : (ofQueries s qs).inputs = qs.length := rfl
    have hbytes : (ofQueries s qs).bytes = (qs.map fun q => q.2.size).sum := rfl
    rw [degraded] at hmisses h
    omega
  · refine Nat.le_trans ?_ (Nat.le_max_right ..)
    simp only [ofQueries, TokenCounts.sum, TokenCounts.numbers, List.map_map, List.mem_cons,
      List.not_mem_nil, or_false] at h
    rcases h with rfl | rfl | rfl | rfl | rfl | rfl
    · exact htokens TokenCounts.total fun c => by simp [TokenCounts.numbers]
    · exact htokens TokenCounts.operators fun c => by simp [TokenCounts.numbers]
    · exact htokens TokenCounts.fieldKeys fun c => by simp [TokenCounts.numbers]
    · exact htokens TokenCounts.fieldPairs fun c => by simp [TokenCounts.numbers]
    · exact htokens TokenCounts.quotedValues fun c => by simp [TokenCounts.numbers]
    · exact htokens TokenCounts.plain fun c => by simp [TokenCounts.numbers]

namespace Lexer

/-- **One more query adds to the sums.** -/
theorem observe_ofQueries (s s' : ScanSettings) (qs : List (ScanSettings × Text)) (t : Text) :
    observe s' (.ofQueries s qs) t.size (Scan.ofText t) = .ofQueries s (qs ++ [(s', t)]) := by
  have hfresh : ((fresh s).tokenize t).value.2.metrics = observe s {} t.size (Scan.ofText t) := rfl
  have hcounts : TokenCounts.ofTokens ((Scan.ofText t).tokens.map Located.value) =
      ((fresh s).tokenize t).value.1.counts := rfl
  rw [observe_eq] at hfresh ⊢
  by_cases hcount : s'.countTokens <;>
    simp [ScanMetrics.ofQueries, hfresh, hcount, TokenCounts.foldl_record_sum, hcounts,
      List.countP_append, List.countP_singleton]

/-- **What a lexer keeps are sums over the queries since the last reset.** -/
theorem metrics_after (s : ScanSettings) (qs : List (ScanSettings × Text)) (l : List Use)
    (s' : ScanSettings) :
    (after ⟨s', .ofQueries s qs⟩ l).metrics =
      .ofQueries s ((if .reset ∈ l then [] else qs) ++ sinceReset s' l) := by
  induction l generalizing qs s' with
  | nil => simp [after, sinceReset]
  | cons u l ih =>
    cases u with
    | tokenize t =>
      have hafter : after ⟨s', .ofQueries s qs⟩ (.tokenize t :: l) =
          after ⟨s', .ofQueries s (qs ++ [(s', t)])⟩ l := by
        rw [← observe_ofQueries]
        rfl
      rw [hafter, ih]
      by_cases hreset : Use.reset ∈ l <;> simp [sinceReset, hreset]
    | withSettings s₁ =>
      have hafter : after ⟨s', .ofQueries s qs⟩ (.withSettings s₁ :: l) =
          after ⟨s₁, .ofQueries s qs⟩ l := rfl
      rw [hafter, ih]
      simp [sinceReset]
    | reset =>
      have hafter : after ⟨s', .ofQueries s qs⟩ (.reset :: l) =
          after ⟨s', .ofQueries s []⟩ l := rfl
      rw [hafter, ih]
      simp [sinceReset]

/-- **Every answer is that of a fresh lexer,** whatever the settings of either. -/
theorem answers_eq_map_use (x : Lexer) (l : List Use) (s : ScanSettings) :
    x.answers l = l.map fun u => ((fresh s).use u).1 := by
  induction l generalizing x with
  | nil => rfl
  | cons u l ih =>
    have hu : (x.use u).1 = ((fresh s).use u).1 := by cases u <;> rfl
    rw [answers, ih, hu, List.map_cons]

end Lexer

/-- A report but for the time it took. -/
def QueryReport.untimed (r : QueryReport) : QueryReport := { r with elapsed := {} }

/-- **A report does not depend on what the lexer has seen,** nor on its settings. -/
theorem highlightWith_untimed (x y : Lexer) (s : RenderSettings) (e e' : Elapsed) (t : Text) :
    (highlightWith x s e t).value.1.untimed = (highlightWith y s e' t).value.1.untimed := by
  have hdegraded (z : Lexer) : (z.tokenize t).value.2.metrics.degraded - z.metrics.degraded =
      (Scan.ofText t).findings.length := by
    have hsum : (z.tokenize t).value.2.metrics.degraded =
        z.metrics.degraded + (Scan.ofText t).findings.length := Lexer.degraded_observe ..
    omega
  have htokens : (x.tokenize t).value.1 = (y.tokenize t).value.1 := rfl
  simp only [highlightWith, Logged.value_bind, Logged.value_pure, QueryReport.untimed, hdegraded,
    htokens]

/-- So queries that share a lexer are reported as each is alone. -/
theorem highlightEach_untimed (x y : Lexer) (s : RenderSettings) (e e' : Elapsed)
    (ts : List Text) :
    (highlightEach x s e ts).value.1.map QueryReport.untimed =
      ts.map fun t => (highlightWith y s e' t).value.1.untimed := by
  induction ts generalizing x with
  | nil => rfl
  | cons t ts ih =>
    have hcons : (highlightEach x s e (t :: ts)).value.1 =
        (highlightWith x s e t).value.1 ::
          (highlightEach (highlightWith x s e t).value.2 s e ts).value.1 := rfl
    rw [hcons, List.map_cons, List.map_cons, ih, highlightWith_untimed x y s e e']

/-- **A lexer keeps nothing of the queries it has seen but its metrics.** Each answer is that
of a fresh lexer, the metrics are sums over the queries since the last reset, none of which is
greater than the number of these or of their bytes, and queries scanned by one lexer are
reported as each is alone, but for the time it took. -/
theorem Lexer.uses_afresh (s s' : ScanSettings) (l : List Use) :
    (fresh s').answers l = l.map (fun u => ((fresh s).use u).1) ∧
      ((fresh s').after l).metrics = .ofQueries s (sinceReset s' l) ∧
      (∀ n ∈ ((fresh s').after l).metrics.numbers,
        n ≤ max (sinceReset s' l).length ((sinceReset s' l).map fun q => q.2.size).sum) ∧
      ∀ (config : Settings) (timing : Timing) (elapsed : Elapsed) (ts : List Text),
        (highlightQueries config timing ts).value.map QueryReport.untimed =
          ts.map fun t => (highlightQuery config elapsed t).value.untimed := by
  have hmetrics : ((fresh s').after l).metrics = .ofQueries s (sinceReset s' l) := by
    have hafter := metrics_after s [] l s'
    rwa [ite_self, List.nil_append] at hafter
  refine ⟨answers_eq_map_use _ l s, hmetrics, fun n hn => ?_, fun config timing elapsed ts => ?_⟩
  · rw [hmetrics] at hn
    exact ScanMetrics.le_of_mem_numbers_ofQueries s _ hn
  · exact highlightEach_untimed (fresh config.scan) (fresh config.scan) config.render
      timing.elapsed elapsed ts

end SearchMarkup
