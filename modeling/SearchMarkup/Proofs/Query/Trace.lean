/-
# The trace of a scan

What a scan does at a place depends on the character before the place and on the text
after it, and on nothing else. The *trace* of a text lists what it does, one step after
another: it makes the token that fits, or puts one character aside as plain text
(`Step.Made`), and it may notice a near miss. A trace knows neither positions nor the
plain text still growing; the tokens of a scan are those of its trace with touching plain
text joined (`values_ofText`), and the findings are the near misses (`misses_ofText`).

A trace can be cut between any two steps: `trace_eq_append` says that what follows is the
trace of the text that follows. What a lexer counts of a query is counted off its trace
(`Lexer.misses_tokenize`).
-/

import SearchMarkup.Proofs.Query.Fitting
import SearchMarkup.Proofs.Query.Classification
import SearchMarkup.Proofs.Query.PlainRuns

namespace SearchMarkup

/-- The character before what follows a text, given the one before the text. -/
def Text.lastOr (before : Option Char) (t : Text) : Option Char := t.getLast?.or before

@[simp] theorem Text.lastOr_nil (before : Option Char) : lastOr before [] = before := rfl

/-- The character before a place is the last one read. -/
@[simp] theorem Text.lastOr_getLast? (s t : Text) : lastOr s.getLast? t = (s ++ t).getLast? :=
  List.getLast?_append.symm

/-- It may be found in parts. -/
@[simp] theorem Text.lastOr_append (before : Option Char) (s t : Text) :
    lastOr before (s ++ t) = lastOr (lastOr before s) t := by
  simp [lastOr, List.getLast?_append, Option.or_assoc]

/-- What was before the first character of a text does not matter behind it. -/
theorem Text.lastOr_cons (before : Option Char) (c : Char) (t : Text) :
    lastOr before (c :: t) = lastOr (some c) t := lastOr_append before [c] t

/-- Behind a character stands that character. -/
theorem Text.lastOr_concat (before : Option Char) (t : Text) (c : Char) :
    lastOr before (t ++ [c]) = some c := lastOr_append before t [c]

/-- The place before a text, given the character before it. -/
def Cursor.facing (before : Option Char) (rest : Text) : Cursor := ⟨before, 0, rest⟩

/-- How many bytes stand before a place makes no difference to the rules there. -/
theorem Rule.best_between (a b : Text) : best (.between a b) = best (.facing a.getLast? b) := by
  refine Option.ext fun m => ?_
  rw [best_eq_some_iff, best_eq_some_iff]
  rfl

/-- A token that fits is not empty. -/
theorem Token.Fits.text_ne_nil {before : Option Char} {x : Token} {r : Text}
    (h : x.Fits before r) : x.text ≠ [] := by
  match x, h with
  | .connective k, _ => exact k.word_ne_nil
  | .field f v, _ =>
    rw [text_field]
    exact List.append_ne_nil_of_left_ne_nil f.key_ne_nil _
  | .quotation q, _ => exact List.cons_ne_nil _ _

/-- What a scan makes of the text at one place: a token, and a near miss if there is one. -/
structure Step where
  token : Token
  miss : Option NearMiss
  deriving DecidableEq, Repr

/-- The steps of a scan of the text that follows a character. -/
def trace (before : Option Char) : Text → List Step
  | [] => []
  | c :: t =>
    match _h : Rule.best (.facing before (c :: t)) with
    | some m => ⟨m.token, m.nearMiss?⟩ :: trace (Text.lastOr before m.token.text) m.rest
    | none => ⟨.plain [c], nearMiss? (.facing before (c :: t))⟩ :: trace (some c) t
  termination_by rest => rest.length
  decreasing_by
    · obtain ⟨hrest, hfits⟩ := Rule.best_eq_some_iff.1 _h
      have hlength := congrArg List.length hrest
      have hpos := List.length_pos_iff.2 hfits.text_ne_nil
      simp only [Cursor.facing, List.length_append] at hlength
      omega
    · simp

/-- A step is made between a character and the text after it. -/
inductive Step.Made (before : Option Char) : Step → Text → Prop
  /-- A token fits, and is made. -/
  | found {x : Token} {r : Text} (h : x.Fits before r) :
    Made before ⟨x, Match.nearMiss? ⟨x, r⟩⟩ r
  /-- No token fits, and a character is passed. -/
  | passed {c : Char} {r : Text} (h : ∀ (x : Token) r', c :: r = x.text ++ r' → ¬x.Fits before r') :
    Made before ⟨.plain [c], nearMiss? (.facing before (c :: r))⟩ r

/-- The texts of steps, joined. -/
def Step.texts (S : List Step) : Text := S.flatMap fun s => s.token.text

@[simp] theorem Step.texts_nil : texts [] = [] := rfl

/-- The texts of steps come one after another. -/
@[simp] theorem Step.texts_cons (s : Step) (S : List Step) :
    texts (s :: S) = s.token.text ++ texts S := rfl

variable {before : Option Char} {t : Text} {s : Step} {S S' : List Step}

/-- Where a rule matches, the trace begins with the match. -/
theorem trace_of_best {m : Match} (h : Rule.best (.facing before t) = some m) :
    trace before t = ⟨m.token, m.nearMiss?⟩ :: trace (Text.lastOr before m.token.text) m.rest := by
  fun_cases trace before t with
  | case1 =>
    obtain ⟨hrest, hfits⟩ := Rule.best_eq_some_iff.1 h
    exact absurd (List.append_eq_nil_iff.1 hrest.symm).1 hfits.text_ne_nil
  | case2 c t m' hm' =>
    obtain rfl := Option.some.inj (hm'.symm.trans h)
    rfl
  | case3 c t hnone =>
    rw [hnone] at h
    cases h

/-- Where no rule matches, the trace begins with the next character. -/
theorem trace_of_best_eq_none {c : Char} (h : Rule.best (.facing before (c :: t)) = none) :
    trace before (c :: t) =
      ⟨.plain [c], nearMiss? (.facing before (c :: t))⟩ :: trace (some c) t := by
  rw [trace]
  split
  · next m hm =>
    rw [h] at hm
    cases hm
  · rfl

/-- **A trace begins with the step made at the place.** -/
theorem trace_eq_cons_iff : trace before t = s :: S ↔
    ∃ r, t = s.token.text ++ r ∧ s.Made before r ∧
      trace (Text.lastOr before s.token.text) r = S := by
  constructor
  · fun_cases trace before t with
    | case1 => exact nofun
    | case2 c t m hm =>
      rintro ⟨rfl, rfl⟩
      obtain ⟨hrest, hfits⟩ := Rule.best_eq_some_iff.1 hm
      exact ⟨m.rest, hrest, .found hfits, rfl⟩
    | case3 c t hnone =>
      rintro ⟨rfl, rfl⟩
      exact ⟨t, rfl, .passed (Rule.best_eq_none_iff_fits.1 hnone), rfl⟩
  · rintro ⟨r, rfl, hmade, rfl⟩
    cases hmade with
    | @found x r h => exact trace_of_best (m := ⟨x, r⟩) (Rule.best_eq_some_iff.2 ⟨rfl, h⟩)
    | passed h => exact trace_of_best_eq_none (Rule.best_eq_none_iff_fits.2 h)

/-- Only the empty text has no steps. -/
theorem trace_eq_nil_iff : trace before t = [] ↔ t = [] := by
  fun_cases trace before t with
  | case1 => simp
  | case2 c t m hm => simp
  | case3 c t hnone => simp

/-- **What follows a part of a trace is the trace of the text that follows.** -/
theorem trace_eq_append (h : trace before t = S ++ S') :
    ∃ r, t = Step.texts S ++ r ∧ trace (Text.lastOr before (Step.texts S)) r = S' := by
  induction S generalizing before t with
  | nil => exact ⟨t, rfl, h⟩
  | cons s S ih =>
    obtain ⟨r, rfl, -, hr⟩ := trace_eq_cons_iff.1 h
    obtain ⟨r', rfl, hr'⟩ := ih hr
    exact ⟨r', by simp, by simpa using hr'⟩

/-- The steps of a trace make up the text. -/
theorem texts_trace (before : Option Char) (t : Text) : Step.texts (trace before t) = t := by
  obtain ⟨r, hr, hnil⟩ := trace_eq_append (List.append_nil (trace before t)).symm
  rw [trace_eq_nil_iff.1 hnil, List.append_nil] at hr
  exact hr.symm

/-- A token made by a step fits the place, unless it is plain. -/
theorem Step.Made.fits {r : Text} (h : s.Made before r) (hplain : s.token.isPlain = false) :
    s.token.Fits before r := by
  cases h with
  | found h => exact h
  | passed h => cases hplain

/-- A token that is not plain is made by one step, after the steps for the tokens before
it. -/
theorem exists_step_of_joined {x : Token} {l l' : List Token} (hplain : x.isPlain = false)
    (h : Token.joined ((trace before t).map Step.token) = l ++ x :: l') :
    ∃ S miss R b, t = Step.texts S ++ (x.text ++ b) ∧ trace before t = S ++ ⟨x, miss⟩ :: R ∧
      Token.joined (S.map Step.token) = l ∧ x.Fits (Text.lastOr before (Step.texts S)) b := by
  obtain ⟨xs, ys, hsteps, hxs, -⟩ := Token.exists_of_joined_eq hplain h
  obtain ⟨S, R, htrace, rfl, hR⟩ := List.map_eq_append_iff.1 hsteps
  obtain ⟨⟨y, miss⟩, R, rfl, rfl, rfl⟩ := List.map_eq_cons_iff.1 hR
  obtain ⟨r, rfl, hrest⟩ := trace_eq_append htrace
  obtain ⟨b, rfl, hmade, -⟩ := trace_eq_cons_iff.1 hrest
  exact ⟨S, miss, R, b, rfl, htrace, hxs, hmade.fits hplain⟩

/-! ## The tokens of a scan are those of its trace -/

namespace Scan

/-- A match puts its token behind the plain text before it. -/
theorem values_consMatch (a u : Text) (m : Match) (later : Scan) :
    (consMatch a u m later).tokens.map Located.value =
      (PlainRun.token a u).map Located.value ++ m.token :: later.tokens.map Located.value := by
  simp [consMatch]

/-- A match puts its near miss in front, if it is one. -/
theorem misses_consMatch (a u : Text) (m : Match) (later : Scan) :
    (consMatch a u m later).findings.map Located.value =
      m.nearMiss?.toList ++ later.findings.map Located.value := by
  cases h : m.nearMiss? <;> simp [consMatch, h]

/-- So does a character that no rule claims. -/
theorem misses_consMiss (a b : Text) (later : Scan) :
    (consMiss a b later).findings.map Located.value =
      (nearMiss? (.facing a.getLast? b)).toList ++ later.findings.map Located.value := by
  -- a near miss is not about the number of bytes read
  have hmiss : nearMiss? (.between a b) = nearMiss? (.facing a.getLast? b) := rfl
  cases h : nearMiss? (.facing a.getLast? b) <;> simp [consMiss, hmiss, h]

/-- The tokens of a scan are those of its steps, with touching plain text joined. -/
theorem values_resume (a u rest : Text) : (resume a u rest).tokens.map Located.value =
    ((PlainRun.token a u).map Located.value).foldr Token.join
      (Token.joined ((trace (a ++ u).getLast? rest).map Step.token)) := by
  fun_induction resume a u rest with
  | case1 a u =>
    by_cases hu : u = [] <;> simp [trace, PlainRun.token, Token.joined, Token.join, hu]
  | case2 a u c t m hm ih =>
    have hplain := Rule.isPlain_of_best hm
    rw [trace_of_best ((Rule.best_between ..).symm.trans hm), values_consMatch, ih,
      Text.lastOr_getLast?, List.append_nil]
    by_cases hu : u = [] <;>
      simp [Token.joined, PlainRun.token, Token.join_of_not_plain hplain,
        Token.join_cons_of_not_plain hplain, hu]
  | case3 a u c t hnone ih =>
    rw [trace_of_best_eq_none ((Rule.best_between ..).symm.trans hnone)]
    have hlast : (a ++ (u ++ [c])).getLast? = some c := by simp
    rw [tokens_consMiss, ih, hlast]
    by_cases hu : u = [] <;> simp [Token.joined, PlainRun.token, Token.join_plain_join, hu]

/-- The near misses of a scan are those of its steps. -/
theorem misses_resume (a u rest : Text) : (resume a u rest).findings.map Located.value =
    (trace (a ++ u).getLast? rest).filterMap Step.miss := by
  fun_induction resume a u rest with
  | case1 a u => simp [trace]
  | case2 a u c t m hm ih =>
    rw [trace_of_best ((Rule.best_between ..).symm.trans hm), misses_consMatch, ih,
      Text.lastOr_getLast?, List.append_nil]
    cases m.nearMiss? <;> simp
  | case3 a u c t hnone ih =>
    have hlast : (a ++ (u ++ [c])).getLast? = some c := by simp
    rw [trace_of_best_eq_none ((Rule.best_between ..).symm.trans hnone), misses_consMiss, ih, hlast]
    cases nearMiss? (.facing (a ++ u).getLast? (c :: t)) <;> simp

/-- **The tokens of a scan are those of its trace.** -/
theorem values_ofText (t : Text) : (ofText t).tokens.map Located.value =
    Token.joined ((trace none t).map Step.token) := by
  rw [ofText_eq_resume]
  exact values_resume [] [] t

/-- **A token of a scan fits its place,** unless it is plain. -/
theorem fits_of_mem {t : Text} {x : Token} (hx : x ∈ (ofText t).tokens.map Located.value)
    (hplain : x.isPlain = false) : ∃ a b, t = a ++ (x.text ++ b) ∧ x.Fits a.getLast? b := by
  obtain ⟨l, l', hl⟩ := List.append_of_mem hx
  rw [values_ofText] at hl
  obtain ⟨S, -, -, b, ht, -, -, hfits⟩ := exists_step_of_joined hplain hl
  exact ⟨Step.texts S, b, ht, by simpa [Text.lastOr] using hfits⟩

/-- **The findings of a scan are the near misses of its trace.** -/
theorem misses_ofText (t : Text) : (ofText t).findings.map Located.value =
    (trace none t).filterMap Step.miss := by
  rw [ofText_eq_resume]
  exact misses_resume [] [] t

end Scan

namespace Lexer

/-- What a fresh lexer counts is determined by the near misses. -/
theorem misses_tokenize (x : Lexer) (t : Text) :
    let m := (x.reset.tokenize t).value.2.metrics
    let n := ((trace none t).filterMap Step.miss).foldl ScanMetrics.recordMiss {}
    m.openQuotes = n.openQuotes ∧ m.miscased = n.miscased ∧ m.unknownKeys = n.unknownKeys ∧
      m.missingValues = n.missingValues := by
  intro m n
  have hmetrics : m = observe x.settings {} t.size (Scan.ofText t) := rfl
  rw [hmetrics, observe_eq, Scan.misses_ofText]
  simp [n]

/-- A fresh lexer counts each near miss once. -/
theorem degraded_tokenize (x : Lexer) (t : Text) :
    (x.reset.tokenize t).value.2.metrics.degraded =
      ((trace none t).filterMap Step.miss).length := by
  have hmetrics : (x.reset.tokenize t).value.2.metrics =
      observe x.settings {} t.size (Scan.ofText t) := rfl
  rw [hmetrics, degraded_observe, ← Scan.misses_ofText, List.length_map]
  exact Nat.zero_add _

end Lexer
end SearchMarkup
