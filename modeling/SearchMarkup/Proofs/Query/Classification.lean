/-
# The one classification of a query

What the rules say of a query can be said without a scan. A list of tokens is
*classified* when

| | |
| --- | --- |
| a token that is not plain | is what the first rule to match at its place makes, in full |
| plain text | is not empty, and no rule matches at any place in it |
| two plain tokens | are never neighbours |

Every text has exactly one classified list of tokens that covers it, the one that the
scan yields. For existence, no rule matches in the plain text that the scan has put
aside (`Scan.classified_resume`). For uniqueness, two lists that agree up to a place
agree on the next token: where a rule matches it is the match, and elsewhere it is
plain and ends at the next place where a rule matches or the text ends
(`Classified.value_eq`).
-/

import SearchMarkup.Proofs.Query.Tiling

namespace SearchMarkup

/-- The number of bytes that a match at a place takes. -/
def Match.size (m : Match) (c : Cursor) : Nat := c.rest.size - m.rest.size

/-- A token of a text agrees with the rules. -/
def Agrees (t : Text) (x : Located Token) : Prop :=
  if x.value.isPlain = true then
    x.value.text ≠ [] ∧ ∀ n c, x.span.covers n = true → Cursor.at? t n = some c →
      ∀ r ∈ Rule.candidates c, r = none
  else
    ∃ c m, Cursor.at? t x.span.start.offset = some c ∧ Rule.best c = some m ∧
      m.token = x.value ∧ x.span.start.offset + m.size c = x.span.stop.offset

/-- Tokens of a text are classified as the rules say. -/
structure Classified (t : Text) (l : List (Located Token)) : Prop where
  agrees : ∀ x ∈ l, Agrees t x
  separated : l.IsChain fun x y => ¬(x.value.isPlain = true ∧ y.value.isPlain = true)

namespace Rule

/-- No rule makes plain text. -/
theorem isPlain_of_best {c : Cursor} {m : Match} (h : best c = some m) :
    m.token.isPlain = false := by
  obtain ⟨r, hr, rfl⟩ := List.exists_of_findSome?_eq_some h
  simp only [candidates, List.mem_cons, List.not_mem_nil, or_false] at hr
  rcases hr with hr | hr | hr | hr
  · exact isPlain_of_fieldPair hr.symm
  · exact isPlain_of_connective hr.symm
  · exact isPlain_of_quotation hr.symm
  · exact isPlain_of_bareField hr.symm

end Rule

/-- A token that is plain is its text. -/
theorem Token.eq_plain_of_isPlain {x : Token} (h : x.isPlain = true) : x = .plain x.text := by
  cases x with
  | plain => rfl
  | _ => cases h

namespace Agrees

variable {a t : Text} {x : Located Token}

/-- What agreeing with the rules says at the place where the token begins. -/
theorem cases_at (h : Agrees (a ++ t) x) (hstart : x.span.start.offset = a.size) :
    (x.value.isPlain = true ∧ x.value.text ≠ [] ∧ ∀ n c, x.span.covers n = true →
        Cursor.at? (a ++ t) n = some c → Rule.best c = none) ∨
      (x.value.isPlain = false ∧
        ∃ m, Rule.best (.between a t) = some m ∧ m.token = x.value) := by
  unfold Agrees at h
  split at h
  · next hplain =>
    exact Or.inl ⟨hplain, h.1, fun n c hn hc => Rule.best_eq_none_iff.2 (h.2 n c hn hc)⟩
  · next hplain =>
    obtain ⟨c, m, hc, hm, hv, -⟩ := h
    rw [hstart, Cursor.at?_size, Option.some.injEq] at hc
    exact Or.inr ⟨by simpa using hplain, m, hc ▸ hm, hv⟩

/-- A token that agrees with the rules is not empty. -/
theorem text_ne_nil (h : Agrees (a ++ t) x) (hstart : x.span.start.offset = a.size) :
    x.value.text ≠ [] := by
  rcases h.cases_at hstart with ⟨-, hne, -⟩ | ⟨-, m, hm, hv⟩
  · exact hne
  · rw [← hv]
    exact (Rule.rest_eq_of_best hm).2

/-- No rule matches at any place within plain text. -/
theorem best_eq_none {b d rest : Text} (h : Agrees (a ++ t) x)
    (hplain : x.value.isPlain = true) (hstart : x.span.start.offset = a.size)
    (hstop : x.span.stop.offset = (a ++ x.value.text).size) (hx : x.value.text = b ++ d)
    (hd : d ≠ []) (ht : t = b ++ d ++ rest) :
    Rule.best (.between (a ++ b) (d ++ rest)) = none := by
  rcases h.cases_at hstart with ⟨-, -, hnone⟩ | ⟨hn, -⟩
  · have hsize := mt Text.size_eq_zero.1 hd
    refine hnone (a ++ b).size _ ?_ ?_
    · rw [hx, Text.size_append, Text.size_append] at hstop
      rw [Span.covers_iff, Text.size_append]
      omega
    · have hsplit : a ++ t = a ++ b ++ (d ++ rest) := by simp [ht]
      rw [hsplit]
      exact Cursor.at?_size ..
  · rw [hplain] at hn
    cases hn

end Agrees

namespace Classified

variable {a t : Text} {i j : Nat} {x y : Located Token} {xs ys l l' : List (Located Token)}

/-- What is said of all tokens is said of the later ones. -/
theorem tail (h : Classified t (x :: xs)) : Classified t xs :=
  ⟨fun y hy => h.agrees y (List.mem_cons_of_mem x hy), h.separated.of_cons⟩

open TokenSequence (faultFrom? faultFrom?_nil_eq_none_iff faultFrom?_cons_eq_none_iff)

/-- Plain text goes on to the end of any plain text that begins where it does. -/
theorem eq_nil_of_plain {d rest : Text} (hl : Classified (a ++ t) (x :: xs))
    (hc : faultFrom? (a ++ t) i a.size (x :: xs) = none) (hx : x.value.isPlain = true)
    (hy : Agrees (a ++ t) y) (hyp : y.value.isPlain = true)
    (hstart : y.span.start.offset = a.size)
    (hstop : y.span.stop.offset = (a ++ y.value.text).size)
    (hd : y.value.text = x.value.text ++ d) (ht : t = x.value.text ++ d ++ rest) : d = [] := by
  obtain ⟨-, -, rest', hrest, hxs⟩ := faultFrom?_cons_eq_none_iff.1 hc
  rw [ht, List.append_assoc] at hrest
  obtain rfl := List.append_cancel_left hrest
  cases xs with
  | nil =>
    exact (List.append_eq_nil_iff.1 (faultFrom?_nil_eq_none_iff.1 hxs)).1
  | cons z zs =>
    obtain ⟨hz, -, -⟩ := faultFrom?_cons_eq_none_iff.1 hxs
    have hagrees : Agrees (a ++ x.value.text ++ (d ++ rest)) z := by
      have := hl.tail.agrees z (List.mem_cons_self ..)
      simpa [ht] using this
    have hsep := (List.isChain_cons_cons.1 hl.separated).1
    rcases hagrees.cases_at hz with ⟨hzp, -⟩ | ⟨-, m, hm, -⟩
    · exact absurd ⟨hx, hzp⟩ hsep
    · by_cases hne : d = []
      · exact hne
      · rw [hy.best_eq_none hyp hstart hstop hd hne ht] at hm
        cases hm

/-- **The next token is determined by the place.** -/
theorem value_eq (hl : Classified (a ++ t) (x :: xs)) (hl' : Classified (a ++ t) (y :: ys))
    (hc : faultFrom? (a ++ t) i a.size (x :: xs) = none)
    (hc' : faultFrom? (a ++ t) j a.size (y :: ys) = none) : x.value = y.value := by
  obtain ⟨hx, hxstop, rest, hrest, -⟩ := faultFrom?_cons_eq_none_iff.1 hc
  obtain ⟨hy, hystop, rest', hrest', -⟩ := faultFrom?_cons_eq_none_iff.1 hc'
  have hax := hl.agrees x (List.mem_cons_self ..)
  have hay := hl'.agrees y (List.mem_cons_self ..)
  rcases hax.cases_at hx with ⟨hxp, hxne, -⟩ | ⟨-, m, hm, hxv⟩
  · rcases hay.cases_at hy with ⟨hyp, -, -⟩ | ⟨-, m, hm, -⟩
    · have htext : x.value.text = y.value.text := by
        rcases List.append_eq_append_iff.1 (hrest.symm.trans hrest') with
          ⟨d, hd, hr⟩ | ⟨d, hd, hr⟩
        · have ht : t = x.value.text ++ d ++ rest' := by simp [hrest, hr]
          rw [hd, hl.eq_nil_of_plain hc hxp hay hyp hy hystop hd ht, List.append_nil]
        · have ht : t = y.value.text ++ d ++ rest := by simp [hrest', hr]
          rw [hd, hl'.eq_nil_of_plain hc' hyp hax hxp hx hxstop hd ht, List.append_nil]
      rw [Token.eq_plain_of_isPlain hxp, Token.eq_plain_of_isPlain hyp, htext]
    · have hnone := hax.best_eq_none hxp hx hxstop (List.nil_append _).symm hxne hrest
      rw [List.append_nil, ← hrest, hm] at hnone
      cases hnone
  · rcases hay.cases_at hy with ⟨hyp, hyne, -⟩ | ⟨-, m', hm', hyv⟩
    · have hnone := hay.best_eq_none hyp hy hystop (List.nil_append _).symm hyne hrest'
      rw [List.append_nil, ← hrest', hm] at hnone
      cases hnone
    · obtain rfl : m = m' := Option.some.inj (hm.symm.trans hm')
      exact hxv.symm.trans hyv

/-- **Two classifications of what follows a place are one,** byte for byte. -/
theorem map_bytes_eq (hl : Classified (a ++ t) l) (hl' : Classified (a ++ t) l')
    (hc : faultFrom? (a ++ t) i a.size l = none)
    (hc' : faultFrom? (a ++ t) j a.size l' = none) :
    l.map Located.bytes = l'.map Located.bytes := by
  induction l generalizing a t i j l' with
  | nil =>
    obtain rfl := faultFrom?_nil_eq_none_iff.1 hc
    cases l' with
    | nil => rfl
    | cons y ys =>
      obtain ⟨hy, -, rest, hrest, -⟩ := faultFrom?_cons_eq_none_iff.1 hc'
      have hne := (hl'.agrees y (List.mem_cons_self ..)).text_ne_nil hy
      exact absurd (List.append_eq_nil_iff.1 hrest.symm).1 hne
  | cons x xs ih =>
    obtain ⟨hx, hxstop, rest, rfl, hxs⟩ := faultFrom?_cons_eq_none_iff.1 hc
    cases l' with
    | nil =>
      have hnil := faultFrom?_nil_eq_none_iff.1 hc'
      have hne := (hl.agrees x (List.mem_cons_self ..)).text_ne_nil hx
      exact absurd (List.append_eq_nil_iff.1 hnil).1 hne
    | cons y ys =>
      have hv := hl.value_eq hl' hc hc'
      obtain ⟨hy, hystop, rest', hrest, hys⟩ := faultFrom?_cons_eq_none_iff.1 hc'
      rw [← hv] at hystop hrest hys
      obtain rfl := List.append_cancel_left hrest
      have hbytes : x.bytes = y.bytes := by
        simp only [Located.bytes, hv, hx, hy, hxstop, hystop]
      rw [← List.append_assoc] at hl hl'
      rw [List.map_cons, List.map_cons, hbytes, ih hl.tail hl'.tail hxs hys]

/-- Being classified is a matter of values and bytes. -/
theorem of_map_bytes_eq (h : Classified t l) (hb : l.map Located.bytes = l'.map Located.bytes) :
    Classified t l' := by
  constructor
  · intro y hy
    have hmem : y.bytes ∈ l.map Located.bytes := hb ▸ List.mem_map_of_mem hy
    obtain ⟨x, hx, hxy⟩ := List.mem_map.1 hmem
    simp only [Located.bytes, Prod.mk.injEq] at hxy
    have hagrees := h.agrees x hx
    simpa only [Agrees, Span.covers, hxy.1, hxy.2.1, hxy.2.2] using hagrees
  · -- the classes of neighbours are read off the values alone
    have hmap (l : List (Located Token)) := List.isChain_map (l := l)
      (R := fun x y : Token => ¬(x.isPlain = true ∧ y.isPlain = true)) Located.value
    have hsep := (hmap l).2 h.separated
    rw [← Located.map_fst_bytes, hb, Located.map_fst_bytes] at hsep
    exact (hmap l').1 hsep

/-- A match, with the plain text before it and all that follows, is classified if what
follows is. -/
theorem cons_of_best {b u : Text} {m : Match} (hm : Rule.best (.between (a ++ u) b) = some m)
    (hu : ∀ x ∈ PlainRun.token a u, Agrees (a ++ u ++ b) x)
    (hl : Classified (a ++ u ++ b) l) :
    Classified (a ++ u ++ b)
      (PlainRun.token a u ++ ⟨m.token, .after (a ++ u) m.token.text⟩ :: l) := by
  obtain ⟨hb, -⟩ := Rule.rest_eq_of_best hm
  have hplain := Rule.isPlain_of_best hm
  have hagrees : Agrees (a ++ u ++ b) ⟨m.token, .after (a ++ u) m.token.text⟩ := by
    rw [Agrees, if_neg (by simp [hplain])]
    refine ⟨.between (a ++ u) b, m, ?_, hm, rfl, ?_⟩
    · simpa [Span.after] using Cursor.at?_size (a ++ u) b
    · rw [Match.size, Cursor.rest_between, hb]
      simp [Span.after, Nat.add_assoc]
  have hsep : (⟨m.token, .after (a ++ u) m.token.text⟩ :: l).IsChain
      fun x y => ¬(x.value.isPlain = true ∧ y.value.isPlain = true) := by
    cases l with
    | nil => exact .singleton _
    | cons x xs => exact .cons_cons (by simp [hplain]) hl.separated
  constructor
  · intro x hx
    rcases List.mem_append.1 hx with hx | hx
    · exact hu x hx
    · rcases List.mem_cons.1 hx with rfl | hx
      · exact hagrees
      · exact hl.agrees x hx
  · by_cases hne : u = []
    · simpa [PlainRun.token, hne] using hsep
    · rw [PlainRun.token, if_neg hne]
      exact .cons_cons (by simp [hplain]) hsep

end Classified

namespace Scan

/-- No rule matches at any place of the plain text `u` that follows `a`. -/
def Unclaimed (a u rest : Text) : Prop :=
  ∀ b c, u = b ++ c → c ≠ [] → Rule.best (.between (a ++ b) (c ++ rest)) = none

/-- No rule claims what is empty. -/
theorem unclaimed_nil (a rest : Text) : Unclaimed a [] rest :=
  fun _ _ h hc => absurd (List.append_eq_nil_iff.1 h.symm).2 hc

/-- One more character is unclaimed if no rule matches at it. -/
theorem Unclaimed.concat {a u t : Text} {c : Char} (h : Unclaimed a u (c :: t))
    (hc : Rule.best (.between (a ++ u) (c :: t)) = none) : Unclaimed a (u ++ [c]) t := by
  intro b d hbd hd
  obtain ⟨d', x, rfl⟩ := (List.eq_nil_or_concat d).resolve_left hd
  rw [List.concat_eq_append, ← List.append_assoc] at hbd
  obtain ⟨rfl, hx⟩ := List.append_inj' hbd rfl
  obtain rfl : c = x := by simpa using hx
  by_cases hd' : d' = []
  · subst hd'
    simpa using hc
  · simpa using h b d' rfl hd'

/-- Unclaimed text agrees with the rules as plain text. -/
theorem agrees_of_unclaimed {a u rest : Text} (h : Unclaimed a u rest) :
    ∀ x ∈ PlainRun.token a u, Agrees (a ++ u ++ rest) x := by
  intro x hx
  obtain ⟨hu, rfl⟩ := PlainRun.mem_token.1 hx
  rw [Agrees, if_pos (by rfl)]
  refine ⟨hu, fun n c hn hc => Rule.best_eq_none_iff.1 ?_⟩
  obtain ⟨b, d, hsplit, rfl, rfl⟩ := Cursor.at?_eq_some_iff.1 hc
  rw [Span.covers_iff] at hn
  simp only [Span.after, Position.offset_after] at hn
  have hlast : a ++ u ++ rest = b ++ d := hsplit
  rw [List.append_assoc] at hsplit
  obtain ⟨v, rfl, hv⟩ := Text.exists_append_of_size_le hsplit hn.1
  obtain ⟨w, hw, rfl⟩ := Text.exists_append_of_size_le hlast.symm (Nat.le_of_lt hn.2)
  rw [List.append_assoc] at hw
  have huw := List.append_cancel_left hw
  refine h v w huw ?_
  rintro rfl
  rw [huw, List.append_nil] at hn
  omega

/-- **The tokens of a scan are classified,** if no rule matches in the plain text put
aside. -/
theorem classified_resume {a u rest : Text} (h : Unclaimed a u rest) :
    Classified (a ++ u ++ rest) (resume a u rest).tokens := by
  fun_induction resume a u rest with
  | case1 a u =>
    refine ⟨agrees_of_unclaimed h, ?_⟩
    by_cases hu : u = [] <;> simp [PlainRun.token, hu]
  | case2 a u c t m hm ih =>
    obtain ⟨hb, -⟩ := Rule.rest_eq_of_best hm
    have hlater := ih (unclaimed_nil _ _)
    refine Classified.cons_of_best hm (agrees_of_unclaimed h) ?_
    rw [hb]
    simpa using hlater
  | case3 a u c t hc ih =>
    have hlater := ih (h.concat hc)
    simpa using hlater

/-- The tokens of a text are classified as the rules say. -/
theorem classified_ofText (t : Text) : Classified t (ofText t).tokens := by
  rw [ofText_eq_resume]
  exact classified_resume (unclaimed_nil [] t)

end Scan

namespace Lexer

open TokenSequence (faultFrom?_eq_none_of_tiles)

/-- **A query has one classification.** -/
theorem tokens_unique (x : Lexer) (t : Text) (l : List (Located Token)) :
    (Tiles [] t l ∧ Classified t l ↔ l = (x.tokenize t).value.1.tokens) ∧
      ((⟨l, t.size⟩ : TokenSequence).coverageFault? t = none ∧ Classified t l ↔
        l.map Located.bytes = (x.tokenize t).value.1.tokens.map Located.bytes) := by
  have htiles := Scan.tiles_ofText t
  have hcovers := faultFrom?_eq_none_of_tiles htiles 0
  have hclass := Scan.classified_ofText t
  refine ⟨⟨fun ⟨hl, hlc⟩ => ?_, ?_⟩, ⟨fun ⟨hl, hlc⟩ => ?_, fun hb => ⟨?_, ?_⟩⟩⟩
  · have hb := Classified.map_bytes_eq (a := []) hlc hclass (faultFrom?_eq_none_of_tiles hl 0)
      hcovers
    have hv : l.map Located.value = (Scan.ofText t).tokens.map Located.value := by
      rw [← Located.map_fst_bytes, hb, Located.map_fst_bytes]
    exact hl.eq_of_map_value_eq htiles hv
  · rintro rfl
    exact ⟨htiles, hclass⟩
  · exact Classified.map_bytes_eq (a := []) hlc hclass hl hcovers
  · exact (TokenSequence.faultFrom?_congr hb t 0 0).trans hcovers
  · exact hclass.of_map_bytes_eq hb.symm

end Lexer
end SearchMarkup
