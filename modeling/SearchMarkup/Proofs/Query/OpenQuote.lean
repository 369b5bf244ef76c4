/-
# Open quotes

A quote character is *free* when no mark takes it away, that is, when an even run of marks
stands in front of it (`FreeQuote`). A quotation closes at the first free quote character
after the one it opens at (`Quotation.ClosesAt`), and does not close if there is none; the
search finds just that (`scanQuotation_closes`).

So a quote character that is left in plain text is the last that could have opened
anything. No free one follows it, hence all that follow have an odd run of marks in front of
them, and none of those opens a quotation either:

| after a quote character in plain text | because |
| --- | --- |
| no token carries a quotation | it would close at a free quote character |
| every quote character is in plain text | the tokens left are words, which have none |

The run of marks in front of a quote character ends at any other character, so it makes no
difference whether it is counted from the beginning of the text or from the open quote
(`markRun_append_cons`).
-/

import SearchMarkup.Proofs.Query.Opacity

namespace SearchMarkup

variable {a b s t u v : Text} {c o q : Char} {n p : Nat}

/-- A run of marks does not reach past another character. -/
theorem markRun_append_cons (hc : c ≠ escapeMark) (a u : Text) :
    markRun (a ++ c :: u) = markRun u := by
  induction u using List.reverseRecOn with
  | nil => rw [markRun_concat, if_neg hc]; rfl
  | append_singleton u d ih =>
    rw [← List.cons_append, ← List.append_assoc, markRun_concat, markRun_concat, ih]

/-- There are no more escape marks at the end of a text than characters in it. -/
theorem markRun_le_length (t : Text) : markRun t ≤ t.length := by
  rw [← List.length_reverse]
  exact (List.takeWhile_prefix _).length_le

/-- The escape mark is no quote character. -/
theorem ne_escapeMark_of_isQuote (h : isQuote c = true) : c ≠ escapeMark := by
  rintro rfl
  exact absurd h (by decide)

/-- **The search fails when every quote character is taken away.** -/
theorem splitAtClosing?_eq_none_iff_isEscaped {e : Bool} :
    splitAtClosing? e t = none ↔
      ∀ u c v, t = u ++ c :: v → isQuote c = true → isEscaped e u = true := by
  induction t generalizing e with
  | nil => simp [splitAtClosing?]
  | cons d t ih =>
    rw [splitAtClosing?]
    by_cases hd : (!e && isQuote d) = true
    · rw [if_pos hd]
      obtain ⟨he, hdq⟩ : e = false ∧ isQuote d = true := by simpa using hd
      refine iff_of_false (Option.some_ne_none _) fun h => ?_
      have hescaped : e = true := h [] d t rfl hdq
      rw [he] at hescaped
      cases hescaped
    · rw [if_neg hd, Option.map_eq_none_iff, ih]
      constructor
      · intro h u c v huv hc
        cases u with
        | nil =>
          obtain ⟨rfl, -⟩ := List.cons.inj huv
          simpa [hc] using hd
        | cons x u =>
          obtain ⟨rfl, hv⟩ := List.cons.inj huv
          exact h u c v hv hc
      · intro h u c v huv hc
        exact h (d :: u) c v (by rw [huv]; rfl) hc

/-- No closing quote is found just when each quote character has an odd number of escape marks
before it. -/
theorem splitAtClosing?_eq_none_iff :
    splitAtClosing? false t = none ↔
      ∀ u c v, t = u ++ c :: v → isQuote c = true → markRun u % 2 = 1 := by
  simp only [splitAtClosing?_eq_none_iff_isEscaped, isEscaped_iff]

/-! ## Where a quotation closes -/

/-- A quote character stands at a byte of a text, and no mark takes it away. -/
def FreeQuote (t : Text) (n : Nat) (q : Char) : Prop :=
  ∃ a b, t = a ++ q :: b ∧ a.size = n ∧ isQuote q = true ∧ markRun a % 2 = 0

/-- A quotation that opens at the byte `p` of a text closes at the byte `n`. -/
structure Quotation.ClosesAt (q : Quotation) (t : Text) (p n : Nat) : Prop where
  opening : t.slice? p (p + q.opening.utf8Size) = some [q.opening]
  body : t.slice? (p + q.opening.utf8Size) n = some q.body
  lt : p < n
  closing : FreeQuote t n q.closing
  first : ∀ m d, p < m → m < n → ¬FreeQuote t m d

/-- After a quote character, whether another is free does not depend on what stands before
it. -/
theorem freeQuote_append_cons_iff (ho : isQuote o = true) :
    a.size < n ∧ FreeQuote (a ++ o :: s) n q ↔
      ∃ u v, s = u ++ q :: v ∧ n = (a ++ o :: u).size ∧ isQuote q = true ∧ markRun u % 2 = 0 := by
  constructor
  · rintro ⟨hlt, b, v, ht, rfl, hq, hrun⟩
    obtain ⟨m, rfl, hm⟩ := Text.exists_append_of_size_le ht (Nat.le_of_lt hlt)
    cases m with
    | nil => simp at hlt
    | cons x u =>
      obtain ⟨rfl, rfl⟩ := List.cons.inj hm
      rw [markRun_append_cons (ne_escapeMark_of_isQuote ho)] at hrun
      exact ⟨u, v, rfl, rfl, hq, hrun⟩
  · rintro ⟨u, v, rfl, rfl, hq, hrun⟩
    refine ⟨?_, a ++ o :: u, v, by simp, rfl, hq, ?_⟩
    · have := o.utf8Size_pos
      rw [Text.size_append, Text.size_cons]
      omega
    · rwa [markRun_append_cons (ne_escapeMark_of_isQuote ho)]

/-- **A quotation closes at the first free quote character after its opening.** -/
theorem exists_closesAt_iff {x : Quotation} {rest : Text} (ho : isQuote o = true) :
    (∃ n, x.ClosesAt (a ++ o :: s) a.size n ∧
        (Cursor.at? (a ++ o :: s) (n + x.closing.utf8Size)).map Cursor.rest = some rest) ↔
      o :: s = x.text ++ rest ∧ x.IsClosed := by
  have hslice (u v : Text) :
      (a ++ o :: (u ++ v)).slice? (a.size + o.utf8Size) (a ++ o :: u).size = some u := by
    simpa [Nat.add_assoc] using Text.slice?_append (a ++ [o]) u v
  have hplace (u v : Text) (d : Char) : Cursor.at? (a ++ o :: (u ++ d :: v))
      ((a ++ o :: u).size + d.utf8Size) = some (.between (a ++ o :: u ++ [d]) v) := by
    simpa [Nat.add_assoc] using Cursor.at?_size (a ++ o :: u ++ [d]) v
  constructor
  · rintro ⟨n, ⟨hopening, hbody, hlt, hclosing, hfirst⟩, hrest⟩
    obtain ⟨u, v, rfl, rfl, hq, hrun⟩ := (freeQuote_append_cons_iff ho).1 ⟨hlt, hclosing⟩
    obtain ⟨a', b, ht, hsize, -⟩ := Text.slice?_eq_some_iff.1 hopening
    rw [List.append_assoc] at ht
    obtain ⟨rfl, hcons⟩ := Text.append_inj_of_size ht hsize.symm
    obtain ⟨rfl, rfl⟩ := List.cons.inj hcons
    obtain rfl : u = x.body := Option.some.inj ((hslice u (x.closing :: v)).symm.trans hbody)
    obtain rfl : v = rest := by
      rw [hplace] at hrest
      exact Option.some.inj hrest
    refine ⟨(x.text_append v).symm, ho, ⟨fun u c w hu hc => ?_, hrun⟩, hq⟩
    -- a free quote character in the body would come first
    by_contra hfree
    have hcut : x.body ++ x.closing :: v = u ++ c :: (w ++ x.closing :: v) := by simp [hu]
    obtain ⟨hafter, hat⟩ := (freeQuote_append_cons_iff (a := a) ho).2
      ⟨u, _, hcut, rfl, hc, by omega⟩
    have hpos := c.utf8Size_pos
    refine hfirst _ c hafter ?_ hat
    rw [hu]
    simp only [Text.size_append, Text.size_cons]
    omega
  · rintro ⟨hs, hq⟩
    rw [Quotation.text_append] at hs
    obtain ⟨rfl, rfl⟩ := List.cons.inj hs
    obtain ⟨hlt, hat⟩ := (freeQuote_append_cons_iff (a := a) ho).2
      ⟨x.body, rest, rfl, rfl, hq.closing, hq.body.complete⟩
    refine ⟨(a ++ x.opening :: x.body).size, ⟨?_, hslice .., hlt, hat, ?_⟩, ?_⟩
    · exact Text.slice?_eq_some_iff.2 ⟨a, x.body ++ x.closing :: rest, by simp, rfl, by simp⟩
    · rintro m d hm hmn hfree
      obtain ⟨u, v, huv, rfl, hd, hrun⟩ := (freeQuote_append_cons_iff ho).1 ⟨hm, hfree⟩
      simp only [Text.size_append, Text.size_cons] at hmn
      obtain ⟨w, hw, hw'⟩ := Text.exists_append_of_size_le huv.symm (by omega)
      cases w with
      | nil =>
        rw [hw, List.append_nil] at hmn
        omega
      | cons e w =>
        obtain ⟨rfl, -⟩ := List.cons.inj hw'
        have hescaped := hq.body.escaped u d w hw hd
        omega
    · rw [hplace]
      rfl

/-- **A quotation opens at every quote character after which a free one comes, and closes at
the first of these.** -/
theorem scanQuotation_closes (t : Text) (p : Nat) (c : Cursor) (hc : Cursor.at? t p = some c)
    (hquote : c.rest.head?.any isQuote = true) :
    ((scanQuotation {} c).1.isSome = true ↔ ∃ n q, p < n ∧ FreeQuote t n q) ∧
      (∀ x rest, (scanQuotation {} c).1 = some (x, rest) ↔ ∃ n, x.ClosesAt t p n ∧
        (Cursor.at? t (n + x.closing.utf8Size)).map Cursor.rest = some rest) ∧
      (scanQuotation {} c).2 = if (scanQuotation {} c).1.isSome then {} else ⟨some p⟩ := by
  obtain ⟨a, b, rfl, rfl, rfl⟩ := Cursor.at?_eq_some_iff.1 hc
  obtain ⟨o, s, rfl⟩ : ∃ o s, b = o :: s := by
    cases b with
    | nil => cases hquote
    | cons o s => exact ⟨o, s, rfl⟩
  have ho : isQuote o = true := hquote
  refine ⟨?_, fun x rest => ?_, ?_⟩
  · rw [Option.isSome_iff_ne_none, ne_eq, fst_scanQuotation_eq_none_iff ho,
      splitAtClosing?_eq_none_iff]
    simp only [freeQuote_append_cons_iff ho]
    constructor
    · intro hclosed
      by_contra hnone
      refine hclosed fun u d v hs hd => ?_
      by_contra hrun
      exact hnone ⟨_, d, u, v, hs, rfl, hd, by omega⟩
    · rintro ⟨n, d, u, v, hs, -, hd, hrun⟩ hopen
      have hescaped := hopen u d v hs hd
      omega
  · rw [exists_closesAt_iff ho]
    exact fst_scanQuotation_eq_some_iff
  · have hfresh : ({} : QuoteMemo).knowsOpen a.size = false := rfl
    cases hs : splitAtClosing? false s <;> simp [scanQuotation, ho, hfresh, hs, QuoteMemo.record]

/-- Of the quote characters after the one at byte 1, the first has one mark in front of it, the
second two. -/
theorem scanQuotation_closes_after_two_marks :
    let t : Text := ['x', '“', 'a', '\\', '"', '\\', '\\', '”', '"']
    let c : Cursor := ⟨some 'x', 1, ['“', 'a', '\\', '"', '\\', '\\', '”', '"']⟩
    let x : Quotation := ⟨'“', ['a', '\\', '"', '\\', '\\'], '”'⟩
    Cursor.at? t 1 = some c ∧ c.rest.head?.any isQuote = true ∧
      (∃ n q, 1 < n ∧ FreeQuote t n q) ∧ (∃ n, x.ClosesAt t 1 n ∧
        (Cursor.at? t (n + x.closing.utf8Size)).map Cursor.rest = some ['"']) ∧
      (scanQuotation {} c).2 = {} := by
  intro t c x
  have hc : Cursor.at? t 1 = some c := by decide
  have hquote : c.rest.head?.any isQuote = true := by decide
  obtain ⟨hsome, hfound, hmemo⟩ := scanQuotation_closes t 1 c hc hquote
  have hscan : (scanQuotation {} c).1 = some (x, ['"']) := by decide
  exact ⟨hc, hquote, hsome.1 (by rw [hscan]; rfl), (hfound x ['"']).1 hscan,
    hmemo.trans (by rw [hscan]; rfl)⟩

/-! ## What follows a quote character in plain text -/

variable {y z : Located Token}

/-- A token of a scan stands in the text under its span, and fits there unless it is plain. -/
theorem Scan.fits_under_span (hz : z ∈ (ofText t).tokens) (hplain : z.value.isPlain = false) :
    ∃ b r, t = b ++ (z.value.text ++ r) ∧ z.span = .after b z.value.text ∧
      z.value.Fits b.getLast? r := by
  obtain ⟨b, r, ht, hspan⟩ := (tiles_ofText t).exists_eq_append hz
  rw [List.append_assoc] at ht
  subst ht
  have hagrees := (classified_ofText _).agrees z hz
  rw [Agrees, if_neg (by simp [hplain])] at hagrees
  obtain ⟨c, m, hc, hbest, hvalue, -⟩ := hagrees
  have hstart : z.span.start.offset = b.size := by simp [hspan, Span.after]
  rw [hstart, Cursor.at?_size] at hc
  obtain rfl := Option.some.inj hc
  obtain ⟨hrest, hfits⟩ := Rule.best_eq_some_iff.1 hbest
  rw [hvalue] at hrest hfits
  rw [← List.append_cancel_left hrest] at hfits
  exact ⟨b, r, rfl, by simpa using hspan, hfits⟩

/-- **A quotation that opens at a quote character in plain text would not close.** -/
theorem Scan.splitAtClosing?_eq_none_of_plain (ho : isQuote o = true)
    (hy : y ∈ (ofText (a ++ o :: s)).tokens) (hplain : y.value.isPlain = true)
    (hcovers : y.span.covers a.size = true) : splitAtClosing? false s = none := by
  have hagrees := (classified_ofText _).agrees y hy
  rw [Agrees, if_pos hplain] at hagrees
  have hnone := Rule.best_eq_none_iff.2 (hagrees.2 a.size _ hcovers (Cursor.at?_size a (o :: s)))
  exact splitAtClosing?_eq_none_of_not_fits ho (Rule.best_eq_none_iff_fits.1 hnone)

/-- After a quote character whose quotation does not close no token carries a quotation. -/
theorem Scan.quotation?_eq_none_of_open (hopen : splitAtClosing? false s = none)
    (hz : z ∈ (ofText (a ++ o :: s)).tokens) (hlt : a.size < z.span.start.offset) :
    z.value.quotation? = none := by
  rw [Option.eq_none_iff_forall_ne_some]
  intro q hq
  obtain ⟨b, r, ht, hspan, hfits⟩ := fits_under_span hz (Token.isPlain_of_quotation? hq)
  rw [hspan, Span.after, Position.offset_after] at hlt
  obtain ⟨m, rfl, hm⟩ := Text.exists_append_of_size_le ht (Nat.le_of_lt hlt)
  cases m with
  | nil => simp at hlt
  | cons d m =>
    obtain ⟨-, hm⟩ := List.cons.inj hm
    -- the search that failed came past the quotation, which closes
    obtain ⟨p, hp, -⟩ := Token.exists_text_eq_append hq
    have hclosed := hfits.isClosed hq
    have hs : s = m ++ p ++ q.opening :: (q.body ++ q.closing :: r) := by
      simp [hm, hp, q.text_append]
    rw [hs] at hopen
    have hnone := splitAtClosing?_eq_none_of_append hclosed.opening hopen
    rw [hclosed.splitAtClosing?_eq r] at hnone
    cases hnone

/-- A token that fits and carries no quotation has no quote character in it. -/
theorem Token.Fits.not_mem_text {before : Option Char} {x : Token} {r : Text}
    (h : x.Fits before r) (hx : x.quotation? = none) (hq : isQuote q = true) : q ∉ x.text := by
  have hword {w : Text} (hw : ∀ c ∈ w, isWordChar c = true) : q ∉ w := by
    intro hmem
    have hchar := hw q hmem
    rw [isWordChar_of_isQuote hq] at hchar
    cases hchar
  match x, h, hx with
  | .connective k, _, _ => exact hword fun _ => isWordChar_of_mem_word
  | .field f none, _, _ => exact hword fun _ => isWordChar_of_mem_key

namespace Lexer

/-- **A quote character in plain text ends all quoting.** No token that begins after it carries
a quotation, and every quote character after it is in plain text too, with an odd run of
marks in front of it that begins after it. -/
theorem tokenize_after_open_quote (x : Lexer) (a s : Text) (o : Char) (y : Located Token) :
    let l := (x.tokenize (a ++ o :: s)).value.1.tokens
    isQuote o = true → y ∈ l → y.value.isPlain = true → y.span.covers a.size = true →
      (∀ z ∈ l, a.size < z.span.start.offset → z.value.quotation? = none) ∧
        ∀ u c v, s = u ++ c :: v → isQuote c = true →
          (∃ z ∈ l, z.value.isPlain = true ∧ z.span.covers (a ++ o :: u).size = true) ∧
            markRun (a ++ o :: u) % 2 = 1 ∧ markRun (a ++ o :: u) ≤ u.length := by
  intro l ho hy hplain hcovers
  have htiles : Tiles [] (a ++ o :: s) l := Scan.tiles_ofText _
  have hopen := Scan.splitAtClosing?_eq_none_of_plain ho hy hplain hcovers
  have hlater : ∀ z ∈ l, a.size < z.span.start.offset → z.value.quotation? = none :=
    fun z hz hlt => Scan.quotation?_eq_none_of_open hopen hz hlt
  refine ⟨hlater, fun u c v hs hc => ⟨?_, ?_, ?_⟩⟩
  · have hcut : a ++ o :: s = a ++ o :: u ++ c :: v := by simp [hs]
    rw [hcut] at htiles
    obtain ⟨z, hz, hzc, hmem⟩ := htiles.exists_covers
    refine ⟨z, hz, ?_, hzc⟩
    by_cases hstart : a.size < z.span.start.offset
    · by_contra hzp
      obtain ⟨b, r, -, -, hfits⟩ := Scan.fits_under_span hz (by simpa using hzp)
      exact hfits.not_mem_text (hlater z hz hstart) hc hmem
    · -- the token that holds the open quote holds this one too
      have hzo : z.span.covers a.size = true := by
        have hpos := o.utf8Size_pos
        rw [Span.covers_iff] at hzc ⊢
        simp only [List.nil_append, Text.size_append, Text.size_cons] at hzc
        omega
      rw [htiles.eq_of_covers hz hy hzo hcovers]
      exact hplain
  · rw [markRun_append_cons (ne_escapeMark_of_isQuote ho)]
    exact splitAtClosing?_eq_none_iff.1 hopen u c v hs hc
  · rw [markRun_append_cons (ne_escapeMark_of_isQuote ho)]
    exact markRun_le_length u

/-- In `" NOT \"` the first quote character stays open, and the second is in plain text with a
mark in front of it. -/
theorem tokenize_after_open_quote_marked :
    let x : Lexer := ⟨⟨true, true, true⟩, {}⟩
    let u : Text := [' ', 'N', 'O', 'T', ' ', '\\']
    let y : Located Token := ⟨.plain ['"', ' '], ⟨⟨0, 1, 1⟩, ⟨2, 1, 3⟩⟩⟩
    let l := (x.tokenize ([] ++ '"' :: (u ++ ['"']))).value.1.tokens
    isQuote '"' = true ∧ y ∈ l ∧ y.value.isPlain = true ∧ y.span.covers 0 = true ∧
      (∀ z ∈ l, 0 < z.span.start.offset → z.value.quotation? = none) ∧
      (∃ z ∈ l, z.value.isPlain = true ∧ z.span.covers 7 = true) ∧
      markRun ('"' :: u) % 2 = 1 := by
  intro x u y l
  have hquote : isQuote '"' = true := by decide
  have hfirst : (x.tokenize ([] ++ '"' :: (u ++ ['"']))).value.1.tokens[0]? =
      some ⟨.plain ['"', ' '], ⟨⟨0, 1, 1⟩, ⟨2, 1, 3⟩⟩⟩ := by cbv
  have hy : y ∈ l := List.mem_of_getElem? hfirst
  obtain ⟨hlater, hquotes⟩ :=
    tokenize_after_open_quote x [] (u ++ ['"']) '"' y hquote hy rfl (by decide)
  obtain ⟨hplain, hrun, -⟩ := hquotes u '"' [] rfl hquote
  exact ⟨hquote, hy, rfl, by decide, hlater, hplain, hrun⟩

end Lexer
end SearchMarkup
