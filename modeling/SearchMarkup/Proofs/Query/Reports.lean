/-
# What a lexer reports of near misses

A lexer reports each near miss when it comes upon it, before it goes on.  The span of the
report is made of the place of the lexer and of a text: what the rule matched if a rule
matched there, and otherwise what the near miss is about.

| near miss | is about |
| --- | --- |
| an open quote | the quote character |
| a miscased connective, an unknown key | the word that begins there |
| a missing value | the key, which is what the rule matched |

In each case that text stands at the place (`Finding.StandsIn`), so it is what the query
has under the span.  A match is not empty and a character is passed otherwise, so no two
near misses are reported at one place, and the later one stands further right
(`Scan.pairwise_start_findings`).

The settings decide whether near misses are reported and whether their spans are
(`filter_reports`), but not what is counted.
-/

import SearchMarkup.Application
import SearchMarkup.Proofs.Query.OffsetRules
import SearchMarkup.Proofs.Query.ScanSteps
import SearchMarkup.Query.Lexer
import Mathlib

namespace SearchMarkup

/-- The codes that near misses are reported under. -/
def NearMiss.codes : List Code := [.openQuote, .miscasedConnective, .unknownKey, .missingValue]

/-- Whether an event is the report of a near miss. -/
def Event.isNearMiss (e : Event) : Bool := decide (e.code ∈ NearMiss.codes)

/-- The event without a span. -/
def Event.withoutSpan (e : Event) : Event := { e with span := none }

/-! ## Where findings stand -/

/-- What a finding is about stands in the text `t` that follows `a`, under its span. -/
def Finding.StandsIn (a t : Text) (f : Finding) : Prop :=
  ∃ b c, t = b ++ (f.value.text ++ c) ∧ f.span = .after (a ++ b) f.value.text

namespace Finding.StandsIn

variable {a s t : Text} {f : Finding}

/-- A finding stands where its text does. -/
theorem of_prefix {miss : NearMiss} (a : Text) (h : miss.text <+: t) :
    StandsIn a t ⟨miss, .after a miss.text⟩ := by
  obtain ⟨c, hc⟩ := h
  exact ⟨[], c, hc.symm, by rw [List.append_nil]⟩

/-- What stands in a text stands in a longer one. -/
theorem append (h : StandsIn (a ++ s) t f) : StandsIn a (s ++ t) f := by
  obtain ⟨b, c, rfl, hspan⟩ := h
  exact ⟨s ++ b, c, by rw [List.append_assoc], by rw [hspan, List.append_assoc]⟩

/-- The text of a finding is what the span cuts out. -/
theorem slice?_eq (h : StandsIn a t f) : f.span.slice? (a ++ t) = some f.value.text := by
  obtain ⟨b, c, rfl, hspan⟩ := h
  refine Text.slice?_eq_some_iff.2 ⟨a ++ b, c, by simp, ?_, ?_⟩ <;>
    simp [hspan, Span.after, Nat.add_assoc]

/-- A finding starts no further left than the text it stands in. -/
theorem size_le_start (h : StandsIn a t f) : a.size ≤ f.span.start.offset := by
  obtain ⟨b, c, -, hspan⟩ := h
  simp [hspan, Span.after]

end Finding.StandsIn

namespace Scan

variable {a u rest : Text} {f : Finding}

/-- What is found before a match and after it is about the match, or comes later. -/
theorem mem_findings_consMatch {m : Match} {later : Scan}
    (h : f ∈ (consMatch a u m later).findings) :
    (∃ miss, m.nearMiss? = some miss ∧ f = ⟨miss, .after (a ++ u) miss.text⟩) ∨
      f ∈ later.findings := by
  rcases List.mem_append.1 h with h | h
  · obtain ⟨miss, hmiss, rfl⟩ := Option.map_eq_some_iff.1 (Option.mem_toList.1 h)
    exact .inl ⟨miss, hmiss, by rw [Match.text_of_nearMiss? hmiss]⟩
  · exact .inr h

/-- What is found from a character on is about that character, or comes later. -/
theorem mem_findings_consMiss {b : Text} {later : Scan} (h : f ∈ (consMiss a b later).findings) :
    (∃ miss, nearMiss? (.between a b) = some miss ∧ f = ⟨miss, .after a miss.text⟩) ∨
      f ∈ later.findings := by
  rcases List.mem_append.1 h with h | h
  · obtain ⟨miss, hmiss, rfl⟩ := Option.map_eq_some_iff.1 (Option.mem_toList.1 h)
    exact .inl ⟨miss, hmiss, rfl⟩
  · exact .inr h

/-- **What is found stands in the text,** under the span of the finding. -/
theorem standsIn_of_mem_findings (h : f ∈ (resume a u rest).findings) :
    f.StandsIn (a ++ u) rest := by
  fun_induction resume a u rest with
  | case1 a u => cases h
  | case2 a u c t m hm ih =>
    obtain ⟨hrest, -⟩ := Rule.rest_eq_of_best hm
    rw [hrest]
    rcases mem_findings_consMatch h with ⟨miss, hmiss, rfl⟩ | h
    · refine Finding.StandsIn.of_prefix (a ++ u) ?_
      rw [Match.text_of_nearMiss? hmiss]
      exact List.prefix_append ..
    · have hlater := ih h
      rw [List.append_nil] at hlater
      exact hlater.append
  | case3 a u c t hnone ih =>
    rcases mem_findings_consMiss h with ⟨miss, hmiss, rfl⟩ | h
    · exact Finding.StandsIn.of_prefix (a ++ u) (text_prefix_of_nearMiss? hmiss)
    · have hlater := ih h
      rw [← List.append_assoc] at hlater
      exact hlater.append (s := [c])

/-- Findings after a stretch of text that is not empty start further right. -/
theorem start_lt_of_mem_findings {s : Text} (hs : s ≠ [])
    (h : f ∈ (resume (a ++ s) u rest).findings) : a.size < f.span.start.offset := by
  have hle := (standsIn_of_mem_findings h).size_le_start
  have hpos : s.size ≠ 0 := mt Text.size_eq_zero.1 hs
  rw [Text.size_append, Text.size_append] at hle
  omega

/-- **Findings come from left to right,** no two at one place. -/
theorem pairwise_start_findings (a u rest : Text) :
    (resume a u rest).findings.Pairwise fun f g => f.span.start.offset < g.span.start.offset := by
  have hone (x : Option Finding) : x.toList.Pairwise fun f g =>
      f.span.start.offset < g.span.start.offset := by
    cases x with
    | none => exact .nil
    | some f => exact List.pairwise_singleton _ f
  fun_induction resume a u rest with
  | case1 a u => exact .nil
  | case2 a u c t m hm ih =>
    refine List.pairwise_append.2 ⟨hone _, ih, fun f hf g hg => ?_⟩
    obtain ⟨miss, -, rfl⟩ := Option.map_eq_some_iff.1 (Option.mem_toList.1 hf)
    have hlt := start_lt_of_mem_findings (Rule.rest_eq_of_best hm).2 hg
    simpa [Span.after] using hlt
  | case3 a u c t hnone ih =>
    refine List.pairwise_append.2 ⟨hone _, ih, fun f hf g hg => ?_⟩
    obtain ⟨miss, -, rfl⟩ := Option.map_eq_some_iff.1 (Option.mem_toList.1 hf)
    have hle := (standsIn_of_mem_findings hg).size_le_start
    have hpos := c.utf8Size_pos
    simp only [Span.after, Position.offset_after, Text.size_append, Text.size_cons] at hle ⊢
    omega

end Scan

/-! ## What is counted -/

/-- **Each near miss is counted under its code.** -/
theorem ScanMetrics.foldl_recordMiss_codes (m : ScanMetrics) (l : List NearMiss) :
    l.foldl recordMiss m =
      { m with
        openQuotes := m.openQuotes + l.countP (·.code == .openQuote)
        miscased := m.miscased + l.countP (·.code == .miscasedConnective)
        unknownKeys := m.unknownKeys + l.countP (·.code == .unknownKey)
        missingValues := m.missingValues + l.countP (·.code == .missingValue) } := by
  induction l generalizing m with
  | nil => rfl
  | cons n l ih =>
    rw [List.foldl_cons, ih]
    cases n <;>
      simp [recordMiss, NearMiss.code, Code.openQuote, Code.miscasedConnective, Code.unknownKey,
        Code.missingValue, Nat.add_assoc, Nat.add_comm 1]

namespace Lexer

/-! ## The reports of near misses -/

variable {s : ScanSettings} {f : Finding}

/-- A finding is reported under its own code. -/
@[simp] theorem code_findingEvent : (findingEvent s f).code = f.value.code := by
  unfold findingEvent
  cases s.reportSpans <;> rfl

/-- Findings are details. -/
@[simp] theorem level_findingEvent : (findingEvent s f).level = .debug := by
  unfold findingEvent
  cases s.reportSpans <;> rfl

/-- A report quotes what it is about. -/
@[simp] theorem context_findingEvent :
    (findingEvent s f).context = [("text", String.ofList f.value.text)] := by
  unfold findingEvent
  cases s.reportSpans <;> rfl

/-- A report has the span of its finding if spans are asked for. -/
theorem span_findingEvent :
    (findingEvent s f).span = if s.reportSpans then some f.span else none := by
  unfold findingEvent
  cases s.reportSpans <;> rfl

/-- **Without spans the report is the same but for its span.** -/
theorem findingEvent_withoutSpan (count report spans : Bool) (f : Finding) :
    findingEvent ⟨count, report, false⟩ f =
      (findingEvent ⟨count, report, spans⟩ f).withoutSpan := by
  cases spans <;> rfl

/-- The report of a finding counts as one of a near miss. -/
theorem isNearMiss_findingEvent : (findingEvent s f).isNearMiss = true := by
  rw [Event.isNearMiss, code_findingEvent]
  cases f.value <;> rfl

/-- **Of the reports about a query, those of near misses are those of its findings,** if any are
asked for. -/
theorem filter_reports (s : ScanSettings) (size : Nat) (scan : Scan) :
    (reports s size scan).filter Event.isNearMiss =
      if s.reportNearMisses then scan.findings.map (findingEvent s) else [] := by
  have hother {e : Event} (h : e.code ∉ NearMiss.codes) : e.isNearMiss = false :=
    decide_eq_false h
  have hlarge : Code.largeQuery ∉ NearMiss.codes := by decide
  have hscanned : Code.queryScanned ∉ NearMiss.codes := by decide
  have hall : ∀ e ∈ scan.findings.map (findingEvent s), e.isNearMiss = true := by
    intro e he
    obtain ⟨f, -, rfl⟩ := List.mem_map.1 he
    exact isNearMiss_findingEvent
  have hmisses := List.filter_eq_self.2 hall
  unfold reports
  split <;> split <;> simp [hmisses, hother, hlarge, hscanned]

/-- **What a lexer reports of near misses,** as far as it gets past a journal kept at debugging.
The reports come from left to right, each with the span of its text, and the metrics grow by
their number under each code.  They are the same without spans if those are not asked for, and
there are none if no reports are; neither changes the tokens or the metrics. -/
theorem tokenize_reports {p : Application} (hp : p.journal.map Journal.kept = some .debug)
    (m : ScanMetrics) (count : Bool) (t : Text) :
    let scanned (report spans : Bool) := (⟨⟨count, report, spans⟩, m⟩ : Lexer).tokenize t
    let told (report spans : Bool) :=
      (p.admitted (scanned report spans).events).filter Event.isNearMiss
    let es := told true true
    let m' := (scanned true true).value.2.metrics
    es.Pairwise (fun e e' => ∃ s s', e.span = some s ∧ e'.span = some s' ∧
        s.start.offset < s'.start.offset) ∧
      (∀ e ∈ es, e.level = .debug ∧ ∃ s u, e.span = some s ∧ s.slice? t = some u ∧
        e.context = [("text", String.ofList u)]) ∧
      (m'.openQuotes = m.openQuotes + es.countP (·.code == .openQuote) ∧
        m'.miscased = m.miscased + es.countP (·.code == .miscasedConnective) ∧
        m'.unknownKeys = m.unknownKeys + es.countP (·.code == .unknownKey) ∧
        m'.missingValues = m.missingValues + es.countP (·.code == .missingValue)) ∧
      told true false = es.map Event.withoutSpan ∧
      (∀ spans, told false spans = []) ∧
      ∀ report spans, (scanned report spans).value.1 = (scanned true true).value.1 ∧
        (scanned report spans).value.2.metrics = m' := by
  intro scanned told es m'
  have htold (report spans : Bool) : told report spans = if report then
      (Scan.ofText t).findings.map (findingEvent ⟨count, report, spans⟩) else [] := by
    dsimp only [told]
    rw [Application.admitted_of_kept hp]
    exact filter_reports _ _ _
  have hes : es = (Scan.ofText t).findings.map (findingEvent ⟨count, true, true⟩) := htold true true
  have hcount (c : Code) : es.countP (·.code == c) =
      ((Scan.ofText t).findings.map Located.value).countP (·.code == c) := by
    rw [hes, List.countP_map, List.countP_map]
    exact List.countP_congr fun f _ => by simp
  have hmetrics : m' = observe ⟨count, true, true⟩ m t.size (Scan.ofText t) := rfl
  refine ⟨?_, ?_, ?_, ?_, fun spans => htold false spans, fun report spans => ⟨rfl, rfl⟩⟩
  · rw [hes, List.pairwise_map, Scan.ofText_eq_resume]
    refine (Scan.pairwise_start_findings [] [] t).imp fun {f g} hlt => ?_
    exact ⟨f.span, g.span, span_findingEvent, span_findingEvent, hlt⟩
  · intro e he
    rw [hes] at he
    obtain ⟨f, hf, rfl⟩ := List.mem_map.1 he
    rw [Scan.ofText_eq_resume] at hf
    have hslice := (Scan.standsIn_of_mem_findings hf).slice?_eq
    exact ⟨level_findingEvent, f.span, f.value.text, span_findingEvent, hslice,
      context_findingEvent⟩
  · rw [hmetrics, observe_eq, ScanMetrics.foldl_recordMiss_codes]
    simp only [hcount, Nat.zero_add, and_self]
  · rw [hes, htold, if_pos rfl, List.map_map]
    exact List.map_congr_left fun f _ => findingEvent_withoutSpan count true true f

set_option maxRecDepth 2000 in
/-- Three kinds of near misses, after a quote character of three bytes. -/
theorem tokenize_reports_three_kinds :
    let p : Application := { journal := some (.buffered .debug) }
    let t : Text := ['“', 'o', 'r', '=', 'T', 'I', '=']
    let x : Lexer := ⟨⟨false, true, true⟩, { miscased := 3 }⟩
    let es := (p.admitted (x.tokenize t).events).filter Event.isNearMiss
    p.journal.map Journal.kept = some .debug ∧
      es.map (fun e => (e.code, e.span.map fun s => (s.start.offset, s.stop.offset))) =
        [("L001", some (0, 3)), ("L002", some (3, 5)), ("L004", some (6, 8))] ∧
      (∀ e ∈ es, e.level = .debug ∧ ∃ s u, e.span = some s ∧ s.slice? t = some u ∧
        e.context = [("text", String.ofList u)]) ∧
      (x.tokenize t).value.2.metrics.miscased = 4 := by
  intro p t x es
  have hp : p.journal.map Journal.kept = some .debug := rfl
  have hfindings : (Scan.ofText t).findings =
      [⟨.openQuote '“', ⟨⟨0, 1, 1⟩, ⟨3, 1, 2⟩⟩⟩, ⟨.miscased ['o', 'r'], ⟨⟨3, 1, 2⟩, ⟨5, 1, 4⟩⟩⟩,
        ⟨.missingValue .title, ⟨⟨6, 1, 5⟩, ⟨8, 1, 7⟩⟩⟩] := by cbv
  have hes : es = (Scan.ofText t).findings.map (findingEvent x.settings) := by
    dsimp only [es]
    rw [Application.admitted_of_kept hp]
    exact filter_reports x.settings t.size (Scan.ofText t)
  obtain ⟨-, htext, ⟨-, hmiscased, -, -⟩, -⟩ := tokenize_reports hp x.metrics false t
  have hgrown : (x.tokenize t).value.2.metrics.miscased =
      3 + es.countP (·.code == .miscasedConnective) := hmiscased
  rw [hfindings] at hes
  refine ⟨hp, ?_, htext, hgrown.trans ?_⟩
  · rw [hes]
    rfl
  · rw [hes]
    rfl

end Lexer
end SearchMarkup
