/-
# Writing a text into a quotation

A text is written into a quotation with a mark in front of each mark and of each quote
character, and read back by dropping each mark that takes a character away:

| | looks for | what a mark does |
| --- | --- | --- |
| `splitAtClosing?` | a quote character | takes the next character away |
| `Quotation.unescaped` | marks, and drops them | keeps the next character |

Both walk the marks in pairs, so the search passes what was written and stops at the
quote character after it (`splitAtClosing?_escape`), and what is read back is the text
(`resolveEscapes_escape`). A mark left over at the end of a body would keep its place;
but the closing quote of a scanned quotation is not taken away, so no mark is left over
in its body (`resolve?_eq_some_of_isBody`).
-/

import SearchMarkup.Proofs.Query.Trace

namespace SearchMarkup
namespace Quotation

/-- A text as it is written between quote characters. -/
def escape (s : Text) : Text :=
  s.flatMap fun c => if c = escapeMark ∨ isQuote c = true then [escapeMark, c] else [c]

/-- The text a body stands for, unless a mark at its end is left over. -/
def resolve? : Text → Option Text
  | [] => some []
  | [c] => if c = escapeMark then none else some [c]
  | c :: d :: t =>
    if c = escapeMark then (resolve? t).map (d :: ·) else (resolve? (d :: t)).map (c :: ·)

variable {c d : Char} {s t w : Text}

/-- A quote character and an escape mark get a mark. -/
theorem escape_cons_of_special (h : c = escapeMark ∨ isQuote c = true) (s : Text) :
    escape (c :: s) = escapeMark :: c :: escape s := by
  simp [escape, h]

/-- Any other character stays. -/
theorem escape_cons_of_ordinary (h : ¬(c = escapeMark ∨ isQuote c = true)) (s : Text) :
    escape (c :: s) = c :: escape s := by
  simp [escape, h]

/-- A mark gives way to the character after it. -/
theorem resolveEscapes_mark (d : Char) (t : Text) :
    resolveEscapes (escapeMark :: d :: t) = d :: resolveEscapes t := by
  rw [resolveEscapes, if_pos rfl]

/-- Any other character stays. -/
theorem resolveEscapes_cons (h : c ≠ escapeMark) (t : Text) :
    resolveEscapes (c :: t) = c :: resolveEscapes t := by
  cases t with
  | nil => rfl
  | cons d t => rw [resolveEscapes, if_neg h]

/-- **What was written is read back.** -/
theorem resolveEscapes_escape (s : Text) : resolveEscapes (escape s) = s := by
  induction s with
  | nil => rfl
  | cons c s ih =>
    by_cases hc : c = escapeMark ∨ isQuote c = true
    · rw [escape_cons_of_special hc, resolveEscapes_mark, ih]
    · rw [escape_cons_of_ordinary hc, resolveEscapes_cons fun h => hc (.inl h), ih]

/-- **The search for the closing quote passes what was written.** -/
theorem splitAtClosing?_escape (s r : Text) (hq : isQuote c = true) :
    splitAtClosing? false (escape s ++ c :: r) = some (escape s, c, r) := by
  induction s with
  | nil => simp [escape, splitAtClosing?, hq]
  | cons d s ih =>
    by_cases hd : d = escapeMark ∨ isQuote d = true
    · have hmark : isQuote escapeMark = false := by decide
      -- the mark takes `d` away, and the search goes on as before it
      simp [escape_cons_of_special hd, splitAtClosing?, hmark, ih]
    · obtain ⟨hmark, hquote⟩ := not_or.1 hd
      have hmark : (d == escapeMark) = false := by simpa using hmark
      simp [escape_cons_of_ordinary hd, splitAtClosing?, hmark, hquote, ih]

/-- What is escaped can stand between quotes. -/
theorem isBody_escape (s : Text) : IsBody (escape s) :=
  (splitAtClosing?_eq_some_iff.1 (splitAtClosing?_escape s [] (by decide : isQuote '"' = true))).2.2

/-- A mark is left over in a body when the character after the body would be taken away. -/
theorem resolve?_eq (w : Text) :
    resolve? w = if isEscaped false w = true then none else some (resolveEscapes w) := by
  have hmark : (escapeMark == escapeMark) = true := by decide
  fun_induction resolve? w with
  | case1 => rfl
  | case2 => rfl
  | case3 c hc => simp [hc, resolveEscapes]
  | case4 d t ih =>
    rw [ih, resolveEscapes_mark, isEscaped_cons, isEscaped_cons]
    by_cases ht : isEscaped false t = true <;> simp [ht]
  | case5 c d t hc ih =>
    have hne : (c == escapeMark) = false := by simpa using hc
    have hstep : isEscaped false (c :: d :: t) = isEscaped false (d :: t) := by
      rw [isEscaped_cons, hne, Bool.and_false]
    rw [ih, resolveEscapes_cons hc, hstep]
    by_cases ht : isEscaped false (d :: t) = true
    · rw [if_pos ht, if_pos ht, Option.map_none]
    · rw [if_neg ht, if_neg ht, Option.map_some]

/-- No mark is left over in the body of a quotation. -/
theorem resolve?_eq_some_of_isBody (h : IsBody w) : resolve? w = some (resolveEscapes w) := by
  have hcomplete := h.complete
  rw [resolve?_eq, if_neg]
  rw [isEscaped_iff]
  omega

/-- A mark that ends a body is taken away by those in front of it. -/
theorem IsBody.markRun_of_concat (h : IsBody (w ++ [escapeMark])) : markRun w % 2 = 1 := by
  have hcomplete := h.complete
  rw [markRun_concat, if_pos rfl] at hcomplete
  omega

end Quotation

/-- Where a whole text is one token that fits, the scan makes that token. -/
theorem Scan.values_of_fits {x : Token} (h : x.Fits none []) :
    (ofText x.text).tokens.map Located.value = [x] := by
  have hbest : Rule.best (.facing none x.text) = some ⟨x, []⟩ :=
    Rule.best_eq_some_iff.2 ⟨(List.append_nil x.text).symm, h⟩
  have hplain := Rule.isPlain_of_best hbest
  rw [values_ofText, trace_of_best hbest, trace_eq_nil_iff.2 rfl, List.map_cons, List.map_nil,
    Token.joined_cons, Token.joined_nil, Token.join_of_not_plain hplain]

namespace Lexer

open Quotation (escape resolve?)

/-- **The scan and the reading of a quotation agree on its escapes.**  Any text can be
written into a quotation, which is then one token alone and as the value of any field, and
stands for the text.  And no quotation of any query ends in a mark that is left over. -/
theorem tokenize_escape (x : Lexer) :
    (∀ (s : Text) (o c : Char), isQuote o = true → isQuote c = true →
      let q : Quotation := ⟨o, escape s, c⟩
      (x.tokenize q.text).value.1.values = [.quotation q] ∧
        (∀ f : Field, (x.tokenize (f.key ++ '=' :: q.text)).value.1.values =
          [.field f (some q)]) ∧
        q.unescaped = s) ∧
    ∀ (t : Text) (y : Token) (q : Quotation), y ∈ (x.tokenize t).value.1.values →
      y.quotation? = some q →
        (∀ w, q.body = w ++ [escapeMark] → markRun w % 2 = 1) ∧
          resolve? q.body = some q.unescaped := by
  constructor
  · intro s o c ho hc q
    have hq : q.IsClosed := ⟨ho, Quotation.isBody_escape s, hc⟩
    refine ⟨?_, fun f => ?_, Quotation.resolveEscapes_escape s⟩
    · exact Scan.values_of_fits (x := .quotation q) hq
    · exact Scan.values_of_fits (x := .field f (some q)) ⟨rfl, hq⟩
  · intro t y q hy hq
    obtain ⟨a, b, -, hfits⟩ := Scan.fits_of_mem hy (Token.isPlain_of_quotation? hq)
    have hbody := (hfits.isClosed hq).body
    exact ⟨fun w hw => Quotation.IsBody.markRun_of_concat (hw ▸ hbody),
      Quotation.resolve?_eq_some_of_isBody hbody⟩

/-- The text `\"a\` is written as `\\\"a\\`, whose last mark is taken away by the one in
front of it. -/
theorem tokenize_escape_last_mark :
    let x : Lexer := ⟨⟨true, true, true⟩, {}⟩
    let s : Text := ['\\', '"', 'a', '\\']
    let w : Text := ['\\', '\\', '\\', '"', 'a', '\\']
    let q : Quotation := ⟨'“', w ++ ['\\'], '"'⟩
    isQuote '“' = true ∧ isQuote '"' = true ∧ escape s = q.body ∧
      (x.tokenize ('U' :: 'R' :: 'L' :: '=' :: q.text)).value.1.values = [.field .url (some q)] ∧
      q.unescaped = s ∧ markRun w % 2 = 1 ∧ resolve? q.body = some s := by
  intro x s w q
  have hopen : isQuote '“' = true := by decide
  have hclose : isQuote '"' = true := by decide
  have hbody : escape s = q.body := by decide
  obtain ⟨hwritten, hscanned⟩ := tokenize_escape x
  obtain ⟨-, hfield, hread⟩ := hwritten s '“' '"' hopen hclose
  rw [hbody] at hfield hread
  have hurl := hfield .url
  obtain ⟨hmark, hresolve⟩ := hscanned _ _ q (hurl ▸ List.mem_singleton_self _) rfl
  exact ⟨hopen, hclose, hbody, hurl, hread, hmark w rfl, hresolve.trans (congrArg some hread)⟩

end Lexer
end SearchMarkup
