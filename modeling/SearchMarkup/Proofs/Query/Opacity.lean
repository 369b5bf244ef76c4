/-
# Quotations are opaque

What stands between the quote characters of a quotation decides nothing but the body of
its token. Another body (`Quotation.IsBody`) may stand there, and the query is classified
as before around it (`Lexer.tokenize_withBody`):

| steps | do not look into the body because |
| --- | --- |
| before the quotation | they look ahead at one word, or at `=` and a closed quotation |
| that make the token | the body closes at the same quote character |
| after the quotation | they know of it only that a quote character stands before them |

A quote character passed before the quotation would be another matter, but there is none:
it would have found the closing quote (`Step.unquoted_of_isClosed`).
-/

import Mathlib
import SearchMarkup.Proofs.Query.Seam

namespace SearchMarkup

/-- A quotation with another body. -/
def Quotation.withBody (w : Text) (q : Quotation) : Quotation := { q with body := w }

/-- A token with another body in its quotation, if it has one. -/
def Token.withBody (w : Text) : Token → Token
  | .field f (some q) => .field f (some (q.withBody w))
  | .quotation q => .quotation (q.withBody w)
  | x => x

variable {before : Option Char} {x : Token} {q : Quotation} {w r : Text}

/-- With another body that can stand between quotes, a quotation is still closed. -/
theorem Quotation.IsClosed.withBody (h : q.IsClosed) (hw : IsBody w) : (q.withBody w).IsClosed :=
  ⟨h.opening, hw, h.closing⟩

/-- A token that carries a quotation ends with it. -/
theorem Token.exists_text_eq_append (hq : x.quotation? = some q) :
    ∃ p, x.text = p ++ q.text ∧ ∀ w, (x.withBody w).text = p ++ (q.withBody w).text := by
  match x, hq with
  | .field f (some q), rfl =>
    exact ⟨f.key ++ ['='], by simp [text], fun w => by simp [withBody, text]⟩
  | .quotation q, rfl => exact ⟨[], rfl, fun w => rfl⟩

/-- What follows a token that carries a quotation has the closing quote before it. -/
theorem Token.lastOr_text (hq : x.quotation? = some q) (before : Option Char) :
    Text.lastOr before x.text = some q.closing := by
  obtain ⟨p, hp, -⟩ := exists_text_eq_append hq
  have hconcat : x.text = p ++ q.opening :: q.body ++ [q.closing] := by
    simp [hp, Quotation.text]
  rw [hconcat, Text.lastOr, List.getLast?_concat]
  rfl

/-- The quotation of a token has the body it was given. -/
theorem Token.quotation?_withBody (hq : x.quotation? = some q) (w : Text) :
    (x.withBody w).quotation? = some (q.withBody w) := by
  match x, hq with
  | .field f (some q), rfl => rfl
  | .quotation q, rfl => rfl

/-- A token still fits with another body in its quotation. -/
theorem Token.Fits.withBody (h : x.Fits before r) (hq : x.quotation? = some q)
    (hw : Quotation.IsBody w) : (x.withBody w).Fits before r := by
  match x, hq with
  | .field f (some q), rfl => exact ⟨h.1, h.2.withBody hw⟩
  | .quotation q, rfl => exact Quotation.IsClosed.withBody h hw

/-- A token that carries a quotation is no near miss. -/
theorem Match.nearMiss?_of_quotation? (hq : x.quotation? = some q) (r : Text) :
    Match.nearMiss? ⟨x, r⟩ = none := by
  match x, hq with
  | .field f (some q), rfl => rfl
  | .quotation q, rfl => rfl

/-- Before a token that carries a quotation, its body does not matter. -/
theorem Token.Fits.seam {a : Text} (h : x.Fits a.getLast? r) (hq : x.quotation? = some q)
    (w : Text) : Seam a (x.text ++ r) ((x.withBody w).text ++ r) := by
  match x, hq with
  | .field f (some q), rfl =>
    obtain ⟨c, k, hk⟩ := List.exists_cons_of_ne_nil f.key_ne_nil
    have hc : isWordChar c = true := isWordChar_of_mem_key (f := f) (by simp [hk])
    have hequals : c ≠ '=' := by
      rintro rfl
      exact absurd hc (by decide)
    have hquote : isQuote c = false := by
      by_contra hquote
      rw [isWordChar_of_isQuote (by simpa using hquote)] at hc
      cases hc
    have hhead (q : Quotation) : ((Token.field f (some q)).text ++ r).head? = some c := by
      simp [text, hk]
    refine ⟨fun hword => ?_, ⟨?_, ?_⟩, fun h => ?_⟩
    · rw [h.1] at hword
      cases hword
    · simpa [hhead] using hequals
    · simpa [Token.withBody, hhead] using hequals
    · simp [Token.withBody, hhead, hquote] at h
  | .quotation q, rfl =>
    have hopening := Quotation.IsClosed.opening h
    exact {
      word _ := ⟨isWordChar_of_isQuote hopening, isWordChar_of_isQuote hopening⟩
      equals := ⟨fun heq => ne_equals_of_isQuote hopening (Option.some.inj heq),
        fun heq => ne_equals_of_isQuote hopening (Option.some.inj heq)⟩
      quote _ := ⟨q, r, rfl, h⟩ }

/-! ## No quote character is passed before a quotation -/

variable {S R : List Step}

/-- A quote character at which no token fits has no closing quote after it. -/
theorem splitAtClosing?_eq_none_of_not_fits {c : Char} {t : Text} (hc : isQuote c = true)
    (h : ∀ (x : Token) r, c :: t = x.text ++ r → ¬x.Fits before r) :
    splitAtClosing? false t = none := by
  rw [Option.eq_none_iff_forall_ne_some]
  rintro ⟨body, closing, rest⟩ hsplit
  obtain ⟨rfl, hclosing, hbody⟩ := splitAtClosing?_eq_some_iff.1 hsplit
  exact h (.quotation ⟨c, body, closing⟩) rest (by simp [Token.text, Quotation.text])
    ⟨hc, hbody, hclosing⟩

/-- Before a closed quotation no quote character is passed. -/
theorem Step.unquoted_of_isClosed {p : Text} (hq : q.IsClosed)
    (h : trace before (Step.texts S ++ (p ++ q.text ++ r)) = S ++ R) : Step.Unquoted S := by
  induction S generalizing before with
  | nil => exact nofun
  | cons s S ih =>
    obtain ⟨t, ht, hmade, hrest⟩ := trace_eq_cons_iff.1 h
    rw [texts_cons, List.append_assoc] at ht
    obtain rfl := List.append_cancel_left ht
    refine List.forall_mem_cons.2 ⟨fun u hu c hc => ?_, ih hrest⟩
    generalize hz : Step.texts S ++ (p ++ q.text ++ r) = z at hmade
    cases hmade with
    | found hfits =>
      subst hu
      exact hfits.elim
    | @passed d z hnone =>
      obtain rfl : [d] = u := by simpa using hu
      obtain rfl := List.mem_singleton.1 hc
      by_contra hquote
      have hopen := splitAtClosing?_eq_none_of_not_fits (by simpa using hquote) hnone
      -- the search that failed came past the quotation, which closes
      rw [← hz, List.append_assoc p, q.text_append, ← List.append_assoc] at hopen
      have hsplit := hq.splitAtClosing?_eq r
      rw [splitAtClosing?_eq_none_of_append hq.opening hopen] at hsplit
      cases hsplit

/-! ## Another body -/

/-- **A token with another body takes the place of the token,** and nothing else changes. -/
theorem trace_withBody {b : Text} {miss : Option NearMiss} (hq : x.quotation? = some q)
    (h : trace none (Step.texts S ++ (x.text ++ b)) = S ++ ⟨x, miss⟩ :: R)
    (hw : Quotation.IsBody w) :
    trace none (Step.texts S ++ ((x.withBody w).text ++ b)) = S ++ ⟨x.withBody w, miss⟩ :: R := by
  obtain ⟨r, hr, hrest⟩ := trace_eq_append h
  obtain rfl := List.append_cancel_left hr
  obtain ⟨r, hr, hmade, hlater⟩ := trace_eq_cons_iff.1 hrest
  obtain rfl := List.append_cancel_left hr
  cases hmade with
  | passed => cases hq
  | found hfits =>
    have hunquoted : Step.Unquoted S := by
      obtain ⟨p, hp, -⟩ := Token.exists_text_eq_append hq
      rw [hp] at h
      exact Step.unquoted_of_isClosed (hfits.isClosed hq) h
    have hseam : Seam (Step.texts S) (x.text ++ b) ((x.withBody w).text ++ b) :=
      Token.Fits.seam (by simpa [Text.lastOr] using hfits) hq w
    have hq' := Token.quotation?_withBody hq w
    have hbest := (Rule.best_eq_some_iff (c := .facing (Text.lastOr none (Step.texts S))
      ((x.withBody w).text ++ b)) (m := ⟨x.withBody w, b⟩)).2 ⟨rfl, hfits.withBody hq hw⟩
    rw [Token.lastOr_text hq] at hlater
    rw [trace_append_of_seam h hseam hunquoted, trace_of_best hbest, Token.lastOr_text hq',
      Match.nearMiss?_of_quotation? hq, Match.nearMiss?_of_quotation? hq']
    -- the closing quote is the same
    exact congrArg (fun later => S ++ ⟨x.withBody w, none⟩ :: later) hlater

/-! ## The tokens around it -/

/-- A token of a tiling stands after the texts of those before it. -/
theorem Tiles.span_eq {a t : Text} {y : Located Token} {l l' : List (Located Token)}
    (h : Tiles a t (l ++ y :: l')) :
    y.span = .after (a ++ (l.map Located.value).flatMap Token.text) y.value.text := by
  induction l generalizing a t with
  | nil => simpa using h.1
  | cons x l ih =>
    obtain ⟨-, rest, -, hrest⟩ := h
    simpa using ih hrest

/-- A token that is not plain is made by one step, after the steps for the tokens before
it. -/
theorem Scan.exists_trace_eq {t : Text} {i : Nat} {y : Located Token}
    (hy : (ofText t).tokens[i]? = some y) (hplain : y.value.isPlain = false) :
    ∃ S miss R b, t = Step.texts S ++ (y.value.text ++ b) ∧
      trace none t = S ++ ⟨y.value, miss⟩ :: R ∧
      (Token.joined (S.map Step.token)).length = i ∧
      y.span = .after (Step.texts S) y.value.text := by
  obtain ⟨hlt, hget⟩ := List.getElem?_eq_some_iff.1 hy
  obtain ⟨l, l', hl, rfl⟩ : ∃ l l', (ofText t).tokens = l ++ y :: l' ∧ l.length = i := by
    refine ⟨(ofText t).tokens.take i, (ofText t).tokens.drop (i + 1), ?_,
      List.length_take_of_le (Nat.le_of_lt hlt)⟩
    rw [← hget, ← List.drop_eq_getElem_cons hlt, List.take_append_drop]
  have hvalues := values_ofText t
  have htiles := tiles_ofText t
  rw [hl] at htiles
  rw [hl, List.map_append, List.map_cons] at hvalues
  obtain ⟨S, miss, R, b, ht, htrace, hxs, -⟩ := exists_step_of_joined hplain hvalues.symm
  refine ⟨S, miss, R, b, ht, htrace, by simp [hxs], ?_⟩
  rw [htiles.span_eq, ← hxs, Token.flatMap_text_joined, List.nil_append, Step.texts,
    List.flatMap_map]

namespace Lexer

/-- Queries with the same near misses are counted alike by a fresh lexer. -/
theorem metrics_reset_congr (x : Lexer) {t u : Text}
    (h : (trace none u).filterMap Step.miss = (trace none t).filterMap Step.miss) :
    let m := (x.reset.tokenize t).value.2.metrics
    let n := (x.reset.tokenize u).value.2.metrics
    n.openQuotes = m.openQuotes ∧ n.miscased = m.miscased ∧ n.unknownKeys = m.unknownKeys ∧
      n.missingValues = m.missingValues := by
  have ht := misses_tokenize x t
  have hu := misses_tokenize x u
  rw [h] at hu
  exact ⟨hu.1.trans ht.1.symm, hu.2.1.trans ht.2.1.symm, hu.2.2.1.trans ht.2.2.1.symm,
    hu.2.2.2.trans ht.2.2.2.symm⟩

/-- **Quotations are opaque.** -/
theorem tokenize_withBody (x : Lexer) (t : Text) (i : Nat) (y : Located Token) (q : Quotation)
    (hy : (x.tokenize t).value.1.tokens[i]? = some y) (hq : y.value.quotation? = some q) :
    ∃ a b, t = a ++ q.text ++ b ∧ (a ++ q.text).size = y.span.stop.offset ∧
      ∀ w, Quotation.IsBody w →
        let u := a ++ (q.withBody w).text ++ b
        (x.tokenize u).value.1.values = (x.tokenize t).value.1.values.set i (y.value.withBody w) ∧
          let m := (x.reset.tokenize t).value.2.metrics
          let n := (x.reset.tokenize u).value.2.metrics
          n.openQuotes = m.openQuotes ∧ n.miscased = m.miscased ∧
            n.unknownKeys = m.unknownKeys ∧ n.missingValues = m.missingValues := by
  have hplain := Token.isPlain_of_quotation? hq
  obtain ⟨S, miss, R, b, rfl, htrace, rfl, hspan⟩ := Scan.exists_trace_eq hy hplain
  obtain ⟨p, hp, hp'⟩ := Token.exists_text_eq_append hq
  refine ⟨Step.texts S ++ p, b, by simp [hp], ?_, fun w hw => ?_⟩
  · rw [hspan, List.append_assoc, ← hp]
    exact (Position.offset_after _).symm
  · have hu : Step.texts S ++ p ++ (q.withBody w).text ++ b =
        Step.texts S ++ ((y.value.withBody w).text ++ b) := by simp [hp']
    have htrace' := trace_withBody hq htrace hw
    have hplain' := Token.isPlain_of_quotation? (Token.quotation?_withBody hq w)
    have hvalues (t : Text) :
        (x.tokenize t).value.1.values = Token.joined ((trace none t).map Step.token) :=
      Scan.values_ofText t
    intro u
    rw [show u = _ from hu]
    constructor
    · rw [hvalues, hvalues, htrace, htrace', List.map_append, List.map_append, List.map_cons,
        List.map_cons, Token.joined_append_cons hplain, Token.joined_append_cons hplain']
      simp
    · refine metrics_reset_congr x ?_
      rw [htrace, htrace', List.filterMap_append, List.filterMap_append, List.filterMap_cons,
        List.filterMap_cons]

/-- In `NOT TI="a" or` the body may be ` AND \"`, which is no connective there. -/
theorem tokenize_withBody_escaped_quote :
    let x : Lexer := ⟨⟨true, true, true⟩, {}⟩
    let q : Quotation := ⟨'"', ['a'], '"'⟩
    let w : Text := [' ', 'A', 'N', 'D', ' ', '\\', '"']
    let t : Text := ['N', 'O', 'T', ' ', 'T', 'I', '='] ++ q.text ++ [' ', 'o', 'r']
    let u : Text := ['N', 'O', 'T', ' ', 'T', 'I', '='] ++ (q.withBody w).text ++ [' ', 'o', 'r']
    (x.tokenize t).value.1.tokens[2]? =
        some ⟨.field .title (some q), ⟨⟨4, 1, 5⟩, ⟨10, 1, 11⟩⟩⟩ ∧
      Quotation.IsBody w ∧
      (x.tokenize u).value.1.values = [.connective .not, .plain [' '],
        .field .title (some (q.withBody w)), .plain [' ', 'o', 'r']] ∧
      (x.reset.tokenize u).value.2.metrics.miscased = 1 := by
  intro x q w t u
  have hy : (x.tokenize t).value.1.tokens[2]? =
      some ⟨.field .title (some q), ⟨⟨4, 1, 5⟩, ⟨10, 1, 11⟩⟩⟩ := by cbv
  have hw : Quotation.IsBody w :=
    (splitAtClosing?_eq_some_iff.1
      (by decide : splitAtClosing? false (w ++ ['"']) = some (w, '"', []))).2.2
  obtain ⟨a, b, ht, hsize, h⟩ := tokenize_withBody x t 2 _ q hy rfl
  obtain ⟨ha, rfl⟩ := Text.append_inj_of_size ht.symm hsize
  obtain rfl := List.append_cancel_right ha
  obtain ⟨hvalues, -, hmiscased, -⟩ := h w hw
  exact ⟨hy, hw, hvalues.trans (by cbv), hmiscased.trans (by cbv)⟩

end Lexer
end SearchMarkup
