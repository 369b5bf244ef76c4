/-
# The token at an offset

The token at an offset is found by halving, which counts the tokens that end at or before it.
The count answers the question only if the ends are in order: then some first tokens end at or
before the offset and all others after it, and each step keeps the border between them within
its bounds (`endedBefore_eq`).

The ends of a cover are in order, although its tokens may be empty: a token has a text, so it
ends no earlier than it begins, and the next one begins there.  An offset before the end of a
cover therefore tells its tokens apart (`Covers.exists_covers`),

| tokens | |
| --- | --- |
| the first ones | end at or before the offset |
| the one after them | covers it, be it inside a character |
| the others | begin after it |

and whoever goes through the tokens finds the same one.
-/

import SearchMarkup.Proofs.Query.Tiling

namespace SearchMarkup

/-- A span with a text ends no earlier than it begins. -/
theorem Span.start_le_stop_of_slice? {s : Span} {source t : Text}
    (h : s.slice? source = some t) : s.start.offset ≤ s.stop.offset := by
  obtain ⟨a, b, -, hstart, hstop⟩ := Text.slice?_eq_some_iff.1 h
  omega

namespace TokenSequence

variable {source : Text} {start stop n : Nat} {x : Located Token} {l r : List (Located Token)}

/-! ## The halving -/

/-- **The halving finds the border** between the tokens that end at or before an offset and
those that end after it, if the border is within the bounds. -/
theorem endedBefore_eq {tokens : Array (Located Token)} {base size border : Nat}
    (hends : ∀ i (h : i < tokens.size), tokens[i].span.stop.offset ≤ n ↔ i < border)
    (hbase : base ≤ border) (hborder : border ≤ base + size)
    (hsize : base + size ≤ tokens.size) : endedBefore tokens n base size = border := by
  fun_induction endedBefore tokens n base size with
  | case1 base => omega
  | case2 base h hle =>
    have := (hends base h).1 hle
    omega
  | case3 base h hlt =>
    have := mt (hends base h).2 hlt
    omega
  | case4 base h => omega
  | case5 base size half middle base' ih =>
    have hmiddle : middle < tokens.size := by omega
    -- the border stays within the half that is kept
    have hkept : base' ≤ border ∧ border ≤ base' + (size + 2 - half) ∧ base' ≤ middle := by
      unfold base'
      rw [dif_pos hmiddle]
      have := hends middle hmiddle
      split <;> omega
    exact ih (by omega) (by omega) (by omega)

/-- Tokens that end on the two sides of an offset are told apart. -/
theorem endedBefore_append (hl : ∀ y ∈ l, y.span.stop.offset ≤ n)
    (hr : ∀ y ∈ r, n < y.span.stop.offset) :
    endedBefore (l ++ r).toArray n 0 (l ++ r).length = l.length := by
  refine endedBefore_eq (fun i h => ?_) (Nat.zero_le _) (by simp) (by simp)
  rw [List.getElem_toArray]
  constructor
  · intro hle
    by_contra hge
    rw [List.getElem_append_right (Nat.le_of_not_lt hge)] at hle
    exact Nat.not_le_of_lt (hr _ (List.getElem_mem _)) hle
  · intro hlt
    rw [List.getElem_append_left hlt]
    exact hl _ (List.getElem_mem _)

/-! ## In a cover -/

/-- No token of a cover begins before it. -/
theorem Covers.start_le (h : Covers source start l stop) (hx : x ∈ l) :
    start ≤ x.span.start.offset := by
  induction l generalizing start with
  | nil => cases hx
  | cons y ys ih =>
    obtain ⟨rfl, htext, hys⟩ := covers_cons_iff.1 h
    rcases List.mem_cons.1 hx with rfl | hx
    · rfl
    · exact (Span.start_le_stop_of_slice? htext).trans (ih hys hx)

/-- **An offset in a cover is in one of its tokens:** those before it have ended, and those
after it have not begun. -/
theorem Covers.exists_covers (h : Covers source start l stop) (hstart : start ≤ n)
    (hstop : n < stop) : ∃ l₁ x l₂, l = l₁ ++ x :: l₂ ∧ x.span.covers n = true ∧
      (∀ y ∈ l₁, y.span.stop.offset ≤ n) ∧ ∀ y ∈ l₂, n < y.span.start.offset := by
  induction l generalizing start with
  | nil =>
    have := covers_nil_iff.1 h
    omega
  | cons x xs ih =>
    obtain ⟨rfl, -, hxs⟩ := covers_cons_iff.1 h
    by_cases hn : x.span.stop.offset ≤ n
    · obtain ⟨l₁, y, l₂, rfl, hy, hl₁, hl₂⟩ := ih hxs hn
      exact ⟨x :: l₁, y, l₂, rfl, hy, List.forall_mem_cons.2 ⟨hn, hl₁⟩, hl₂⟩
    · rw [Nat.not_le] at hn
      exact ⟨[], x, xs, rfl, Span.covers_iff.2 ⟨hstart, hn⟩, nofun,
        fun y hy => hn.trans_le (hxs.start_le hy)⟩

variable {s : TokenSequence}

/-- **In a cover the halving finds the token that covers the offset,** and no other does. -/
theorem Covers.tokenAt?_eq (h : Covers source 0 s.tokens s.sourceSize) (hn : n < s.sourceSize) :
    ∃ l₁ x l₂, s.tokens = l₁ ++ x :: l₂ ∧ s.tokenAt? n = some x ∧ x.span.covers n = true ∧
      ∀ y ∈ l₁ ++ l₂, y.span.covers n = false := by
  obtain ⟨l₁, x, l₂, hs, hx, hl₁, hl₂⟩ := h.exists_covers (Nat.zero_le n) hn
  have hafter : ∀ y ∈ x :: l₂, n < y.span.stop.offset := by
    refine List.forall_mem_cons.2 ⟨(Span.covers_iff.1 hx).2, fun y hy => ?_⟩
    exact (hl₂ y hy).trans_le (Span.start_le_stop_of_slice? (h.texts y (by simp [hs, hy])))
  refine ⟨l₁, x, l₂, hs, ?_, hx, fun y hy => ?_⟩
  · rw [tokenAt?, if_neg (Nat.not_lt_of_lt hn), if_neg (Nat.ne_of_lt hn), hs,
      endedBefore_append hl₁ hafter, List.getElem?_append_right (Nat.le_refl _), Nat.sub_self,
      List.getElem?_cons_zero]
  · rw [← Bool.not_eq_true, Span.covers_iff]
    rcases List.mem_append.1 hy with hy | hy
    · have := hl₁ y hy
      omega
    · have := hl₂ y hy
      omega

/-- Going through the tokens finds the only one that covers an offset. -/
theorem find?_covers_eq (hx : x.span.covers n = true)
    (hl : ∀ y ∈ l ++ r, y.span.covers n = false) :
    (l ++ x :: r).find? (fun y => y.span.covers n) = some x := by
  refine List.find?_eq_some_iff_append.2 ⟨hx, l, r, rfl, fun y hy => ?_⟩
  rw [hl y (List.mem_append_left r hy), Bool.not_false]

/-- At the end of the source stands the last token. -/
theorem tokenAt?_sourceSize : s.tokenAt? s.sourceSize = s.tokens.getLast? := by
  rw [tokenAt?, if_neg (Nat.lt_irrefl _), if_pos rfl]

/-- **The halving finds what going through the tokens finds.**  This is so for every sequence
that covers its source, its tokens may be empty: before the end of the source it is the one
token that covers the offset, at the end the last token, and past the end nothing.  The tokens of
a query are such a sequence, and unless the query is empty, each offset up to its end has a
token. -/
theorem tokenAt?_exact :
    (∀ (s : TokenSequence) (source : Text), s.coverageFault? source = none →
      s.sourceSize = source.size → ∀ n,
        (n < s.sourceSize → s.tokenAt? n = s.tokens.find? (fun y => y.span.covers n) ∧
          ∃ l x r, s.tokens = l ++ x :: r ∧ s.tokenAt? n = some x ∧ x.span.covers n = true ∧
            ∀ y ∈ l ++ r, y.span.covers n = false) ∧
        (n = s.sourceSize → s.tokenAt? n = s.tokens.getLast?) ∧
        (s.sourceSize < n → s.tokenAt? n = none)) ∧
      ∀ (x : Lexer) (t : Text), let s := (x.tokenize t).value.1
        s.coverageFault? t = none ∧ s.sourceSize = t.size ∧
          (t ≠ [] → ∀ n, n ≤ t.size → (s.tokenAt? n).isSome) := by
  refine ⟨fun s source hs hsize n => ⟨fun hn => ?_, fun hn => ?_, fun hn => if_pos hn⟩,
    fun x t => ?_⟩
  · have hcovers := coverageFault?_eq_none_iff.1 hs
    rw [← hsize] at hcovers
    obtain ⟨l, x, r, htokens, hfound, hx, hothers⟩ := hcovers.tokenAt?_eq hn
    exact ⟨by rw [hfound, htokens, find?_covers_eq hx hothers],
      l, x, r, htokens, hfound, hx, hothers⟩
  · rw [hn, tokenAt?_sourceSize]
  · intro s
    have hcovers : Covers t 0 s.tokens s.sourceSize := covers_of_tiles (Scan.tiles_ofText t)
    refine ⟨coverageFault?_eq_none_iff.2 hcovers, rfl, fun ht n hn => ?_⟩
    rcases Nat.lt_or_eq_of_le hn with hn | rfl
    · obtain ⟨l, x, r, -, hfound, -⟩ := hcovers.tokenAt?_eq hn
      rw [hfound, Option.isSome_some]
    · have htokens : s.tokens ≠ [] := by
        intro hnil
        rw [hnil] at hcovers
        exact ht (Text.size_eq_zero.1 (covers_nil_iff.1 hcovers).symm)
      rw [show s.tokenAt? t.size = s.tokens.getLast? from tokenAt?_sourceSize]
      exact Option.isSome_iff_ne_none.2 (mt List.getLast?_eq_none_iff.1 htokens)

/-- In `ü,` with an empty token before the comma and one at the end, the second byte of `ü` is in
`ü`, the byte after it in the comma, and the end belongs to the last token. -/
theorem tokenAt?_between_empty_tokens :
    let umlaut : Located Token := ⟨.plain ['ü'], ⟨⟨0, 1, 1⟩, ⟨2, 1, 2⟩⟩⟩
    let empty : Located Token := ⟨.plain [], ⟨⟨2, 1, 2⟩, ⟨2, 1, 2⟩⟩⟩
    let comma : Located Token := ⟨.plain [','], ⟨⟨2, 1, 2⟩, ⟨3, 1, 3⟩⟩⟩
    let rest : Located Token := ⟨.plain [], ⟨⟨3, 1, 3⟩, ⟨3, 1, 3⟩⟩⟩
    let s : TokenSequence := ⟨[umlaut, empty, comma, rest], 3⟩
    s.coverageFault? ['ü', ','] = none ∧ s.sourceSize = Text.size ['ü', ','] ∧
      s.tokenAt? 1 = some umlaut ∧ s.tokenAt? 2 = some comma ∧ s.tokenAt? 3 = some rest ∧
      s.tokenAt? 4 = none := by
  intro umlaut empty comma rest s
  have hcovers : s.coverageFault? ['ü', ','] = none := by decide
  have hfound := tokenAt?_exact.1 s ['ü', ','] hcovers rfl
  exact ⟨hcovers, rfl, ((hfound 1).1 (by decide)).1, ((hfound 2).1 (by decide)).1,
    (hfound 3).2.1 rfl, (hfound 4).2.2 (by decide)⟩

end TokenSequence
end SearchMarkup
