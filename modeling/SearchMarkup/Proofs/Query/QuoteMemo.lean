/-
# What a failed search for a closing quote shows

A search fails only when every quote character after the opening one is escaped. A
quotation that opens at such a character is searched in the state the failed search
was in there, so it does not close either (`splitAtClosing?_eq_none_of_append`). A
memo that remembers the place of a failure is therefore *sound*: no quotation closes
that it takes to be open.

| search | is transparent |
| --- | --- |
| `scanQuotation` | `transparent_scanQuotation` |
| `Rule.fieldPair` | `Rule.transparent_fieldPair` |
| `Rule.quotation` | `Rule.transparent_quotation` |
| `Rule.first` | `Rule.first_of_sound` |

A search is *transparent* when every sound memo gives it the answer of the empty memo
and stays sound. So memos can be left out of all that is said about rules, and
`Rule.best` is the match of the first rule that matches.

Any number of searches at any places of a text may share one memo, in any order
(`QuoteCall.answers_of_sound`).
-/

import SearchMarkup.Proofs.Query.Place
import SearchMarkup.Query.Scan

namespace SearchMarkup

/-- **A failed search settles every later one:** no quotation closes that opens at a
quote character passed on the way. -/
theorem splitAtClosing?_eq_none_of_append {escaped : Bool} {a b : Text} {q : Char}
    (hq : isQuote q = true) (h : splitAtClosing? escaped (a ++ q :: b) = none) :
    splitAtClosing? false b = none := by
  induction a generalizing escaped with
  | nil =>
    rw [List.nil_append, splitAtClosing?] at h
    cases escaped with
    | false => simp [hq] at h
    -- the escape is used up at `q`, so both searches go on in the same state
    | true => simpa using h
  | cons c a ih =>
    rw [List.cons_append, splitAtClosing?] at h
    split at h
    · cases h
    · exact ih (Option.map_eq_none_iff.1 h)

namespace QuoteMemo

/-- A memo is sound for a text when no quotation closes that it takes to be open. -/
def Sound (t : Text) (memo : QuoteMemo) : Prop :=
  ∀ (a b : Text) (q : Char), t = a ++ q :: b → isQuote q = true →
    memo.knowsOpen a.size = true → splitAtClosing? false b = none

/-- Where nothing is remembered, nothing wrong is. -/
theorem sound_empty (t : Text) : Sound t {} :=
  fun _ _ _ _ _ h => by simp [knowsOpen] at h

/-- A failure may be remembered. -/
theorem Sound.record {a b : Text} {q : Char} {memo : QuoteMemo}
    (h : memo.Sound (a ++ q :: b)) (hn : splitAtClosing? false b = none) :
    (memo.record a.size).Sound (a ++ q :: b) := by
  intro a' b' q' ht hq' hk
  cases hm : memo.openFrom with
  | some first =>
    exact h a' b' q' ht hq' (by simpa [knowsOpen, QuoteMemo.record, hm] using hk)
  | none =>
    have hle : a.size ≤ a'.size := by simpa [knowsOpen, QuoteMemo.record, hm] using hk
    obtain ⟨m, -, hm⟩ := Text.exists_append_of_size_le ht hle
    cases m with
    | nil =>
      obtain ⟨-, rfl⟩ := List.cons.inj hm
      exact hn
    | cons c m =>
      obtain ⟨-, rfl⟩ := List.cons.inj hm
      exact splitAtClosing?_eq_none_of_append hq' hn

/-- A search is transparent in a text when a sound memo changes none of its answers and
stays sound. -/
def Transparent {α : Type} (t : Text) (search : QuoteMemo → α × QuoteMemo) : Prop :=
  ∀ memo, memo.Sound t → (search memo).1 = (search {}).1 ∧ (search memo).2.Sound t

/-- An answer may be put in another form. -/
theorem Transparent.map {α β : Type} {t : Text} {search : QuoteMemo → α × QuoteMemo}
    (h : Transparent t search) (f : α → β) :
    Transparent t fun memo => (f (search memo).1, (search memo).2) :=
  fun memo hm => ⟨congrArg f (h memo hm).1, (h memo hm).2⟩

/-- What looks at no memo is transparent. -/
theorem transparent_const {α : Type} (t : Text) (x : α) :
    Transparent t fun memo => (x, memo) :=
  fun _ hm => ⟨rfl, hm⟩

end QuoteMemo

open QuoteMemo

/-- **The search for a quotation is transparent.** -/
theorem transparent_scanQuotation (a b : Text) :
    Transparent (a ++ b) fun memo => scanQuotation memo (.between a b) := by
  intro memo hm
  cases b with
  | nil => exact ⟨rfl, hm⟩
  | cons q b =>
    have hfresh : ({} : QuoteMemo).knowsOpen a.size = false := rfl
    by_cases hq : isQuote q = true
    · cases hs : splitAtClosing? false b with
      | some found =>
        have hk : memo.knowsOpen a.size = false :=
          Bool.eq_false_iff.2 fun hk => by simp [hm a b q rfl hq hk] at hs
        simp [scanQuotation, hq, hk, hs, hfresh, hm]
      | none =>
        by_cases hk : memo.knowsOpen a.size = true
        · simp [scanQuotation, hq, hk, hs, hfresh, hm]
        · simp [scanQuotation, hq, hk, hs, hfresh, hm.record hs]
    · simp [scanQuotation, hq, hm]

namespace Rule

/-- The search of a field pair begins two places on: after the key and after `=`. -/
theorem fieldPair_cases (a b : Text) :
    (∀ memo, fieldPair memo (.between a b) = (none, memo)) ∨
      ∃ f rest, b = f.key ++ '=' :: rest ∧ ∀ memo, fieldPair memo (.between a b) =
        ((scanQuotation memo (.between (a ++ f.key ++ ['=']) rest)).1.map
          fun (q, rest) => ⟨.field f (some q), rest⟩,
        (scanQuotation memo (.between (a ++ f.key ++ ['=']) rest)).2) := by
  unfold fieldPair
  split
  · next f rest h =>
    refine Or.inr ⟨f, rest, rest_eq_of_fieldKey? h, fun memo => ?_⟩
    have hsize : (a ++ f.key ++ ['=']).size = a.size + f.key.size + 1 := by simp; rfl
    simp only [Cursor.between, hsize, List.getLast?_concat]
  · exact Or.inl fun _ => rfl

/-- The rule for a key with a value does not depend on what is remembered. -/
theorem transparent_fieldPair (a b : Text) :
    Transparent (a ++ b) fun memo => fieldPair memo (.between a b) := by
  rcases fieldPair_cases a b with h | ⟨f, rest, rfl, h⟩
  · simp only [h]
    exact transparent_const _ _
  · simp only [h]
    have hsplit : a ++ (f.key ++ '=' :: rest) = a ++ f.key ++ ['='] ++ rest := by simp
    rw [hsplit]
    exact (transparent_scanQuotation (a ++ f.key ++ ['=']) rest).map _

/-- Nor does the rule for a quotation. -/
theorem transparent_quotation (a b : Text) :
    Transparent (a ++ b) fun memo => quotation memo (.between a b) :=
  (transparent_scanQuotation a b).map _

/-- What the four rules find at a place, in the order they are tried, each with nothing
remembered. -/
def candidates (c : Cursor) : List (Option Match) :=
  [(fieldPair {} c).1, connective c, (quotation {} c).1, bareField c]

/-- The match of the first rule that matches. -/
def best (c : Cursor) : Option Match := (candidates c).findSome? id

/-- There is no match just when no rule gives one. -/
theorem best_eq_none_iff {c : Cursor} : best c = none ↔ ∀ r ∈ candidates c, r = none :=
  List.findSome?_eq_none_iff

/-- **What is remembered changes no match.** -/
theorem first_of_sound {a b : Text} {memo : QuoteMemo} (hm : memo.Sound (a ++ b)) :
    (first memo (.between a b)).1 = best (.between a b) ∧
      (first memo (.between a b)).2.Sound (a ++ b) := by
  obtain ⟨hp, hps⟩ := transparent_fieldPair a b memo hm
  dsimp only at hp hps
  unfold first
  split
  · next m memo₁ h₁ =>
    rw [h₁] at hp hps
    exact ⟨by simp [best, candidates, ← hp], hps⟩
  · next memo₁ h₁ =>
    rw [h₁] at hp hps
    split
    · next m h₂ => exact ⟨by simp [best, candidates, ← hp, h₂], hps⟩
    · next h₂ =>
      obtain ⟨hq, hqs⟩ := transparent_quotation a b memo₁ hps
      dsimp only at hq hqs
      split
      · next m memo₂ h₃ =>
        rw [h₃] at hq hqs
        exact ⟨by simp [best, candidates, ← hp, h₂, ← hq], hqs⟩
      · next memo₂ h₃ =>
        rw [h₃] at hq hqs
        exact ⟨by simp [best, candidates, ← hp, h₂, ← hq], hqs⟩

end Rule

/-- With nothing remembered, a search fails only at the end of the text. -/
theorem fst_scanQuotation_eq_none_iff {a b : Text} {q : Char} (hq : isQuote q = true) :
    (scanQuotation {} (.between a (q :: b))).1 = none ↔ splitAtClosing? false b = none := by
  have hk : ({} : QuoteMemo).knowsOpen a.size = false := rfl
  cases hs : splitAtClosing? false b <;>
    simp [scanQuotation, hq, hs, hk]

/-- Without a memo, a quotation that does not close leaves no later one to close. -/
theorem scanQuotation_eq_none_of_lt {t : Text} {p q : Nat} {c d : Cursor}
    (hc : Cursor.at? t p = some c) (hd : Cursor.at? t q = some d) (hlt : p < q)
    (hqc : c.rest.head?.any isQuote = true) (hqd : d.rest.head?.any isQuote = true)
    (h : (scanQuotation {} c).1 = none) : (scanQuotation {} d).1 = none := by
  obtain ⟨a, b, rfl, rfl, rfl⟩ := Cursor.at?_eq_some_iff.1 hc
  obtain ⟨a', b', ht, rfl, rfl⟩ := Cursor.at?_eq_some_iff.1 hd
  obtain ⟨m, rfl, rfl⟩ := Text.exists_append_of_size_le ht (by omega)
  cases m with
  | nil => simp at hlt
  | cons x m =>
    cases b' with
    | nil => rfl
    | cons y b' =>
      have hx : isQuote x = true := by simpa using hqc
      have hy : isQuote y = true := by simpa using hqd
      have hopen := (fst_scanQuotation_eq_none_iff hx).1 h
      exact (fst_scanQuotation_eq_none_iff hy).2 (splitAtClosing?_eq_none_of_append hy hopen)

/-- The searches that look at a memo. -/
inductive QuoteSearch where
  | scan
  | fieldPair
  | quotation
  deriving DecidableEq, Repr

/-- What such a search finds, if the text has the place at all. -/
inductive QuoteAnswer where
  | noPlace
  | scanned (found : Option (Quotation × Text))
  | matched (found : Option Match)
  deriving DecidableEq, Repr

/-- A search at a byte offset. -/
structure QuoteCall where
  search : QuoteSearch
  offset : Nat
  deriving DecidableEq, Repr

namespace QuoteCall

/-- The answer to one call, and the memo after it. -/
def answer (t : Text) (x : QuoteCall) (memo : QuoteMemo) : QuoteAnswer × QuoteMemo :=
  match Cursor.at? t x.offset with
  | none => (.noPlace, memo)
  | some c =>
    match x.search with
    | .scan => (scanQuotation memo c).map .scanned id
    | .fieldPair => (Rule.fieldPair memo c).map .matched id
    | .quotation => (Rule.quotation memo c).map .matched id

/-- The answers to calls that share a memo, each with what the calls before it left. -/
def answers (t : Text) (memo : QuoteMemo) : List QuoteCall → List QuoteAnswer
  | [] => []
  | x :: xs => (x.answer t memo).1 :: answers t (x.answer t memo).2 xs

/-- No call depends on what is remembered. -/
theorem transparent_answer (t : Text) (x : QuoteCall) : Transparent t (x.answer t) := by
  unfold answer
  cases hc : Cursor.at? t x.offset with
  | none => exact transparent_const t _
  | some c =>
    obtain ⟨a, b, rfl, -, rfl⟩ := Cursor.at?_eq_some_iff.1 hc
    cases hx : x.search with
    | scan => exact (transparent_scanQuotation a b).map _
    | fieldPair => exact (Rule.transparent_fieldPair a b).map _
    | quotation => exact (Rule.transparent_quotation a b).map _

/-- So calls one after another answer as each would alone. -/
theorem answers_of_sound {t : Text} {memo : QuoteMemo} (hm : memo.Sound t)
    (xs : List QuoteCall) : answers t memo xs = xs.map fun x => (x.answer t {}).1 := by
  induction xs generalizing memo with
  | nil => rfl
  | cons x xs ih =>
    obtain ⟨hx, hs⟩ := transparent_answer t x memo hm
    rw [answers, hx, ih hs, List.map_cons]

/-- **A shared memo changes no answer.** Whatever is searched, where and in which order,
each call answers as if nothing had been remembered; and where the quotation at one
quote character does not close, none at a later one does. -/
theorem answers_eq_map_fresh (t : Text) (xs : List QuoteCall) :
    (answers t {} xs = xs.map fun x => (x.answer t {}).1) ∧
      ∀ p q c d, Cursor.at? t p = some c → Cursor.at? t q = some d → p < q →
        c.rest.head?.any isQuote = true → d.rest.head?.any isQuote = true →
        (scanQuotation {} c).1 = none → (scanQuotation {} d).1 = none :=
  ⟨answers_of_sound (sound_empty t) xs,
    fun _ _ _ _ hc hd hlt hqc hqd => scanQuotation_eq_none_of_lt hc hd hlt hqc hqd⟩

/-- In `a "b \" c` the quotation at byte 2 does not close, nor does the one at byte 6. -/
theorem scanQuotation_escaped_quote :
    let t := ['a', ' ', '"', 'b', ' ', '\\', '"', ' ', 'c']
    let c : Cursor := ⟨some ' ', 2, ['"', 'b', ' ', '\\', '"', ' ', 'c']⟩
    let d : Cursor := ⟨some '\\', 6, ['"', ' ', 'c']⟩
    Cursor.at? t 2 = some c ∧ Cursor.at? t 6 = some d ∧ c.rest.head?.any isQuote = true ∧
      d.rest.head?.any isQuote = true ∧ (scanQuotation {} c).1 = none ∧
      (scanQuotation {} d).1 = none :=
  ⟨by decide, by decide, by decide, by decide, by decide,
    (answers_eq_map_fresh ['a', ' ', '"', 'b', ' ', '\\', '"', ' ', 'c'] []).2 2 6
      ⟨some ' ', 2, ['"', 'b', ' ', '\\', '"', ' ', 'c']⟩ ⟨some '\\', 6, ['"', ' ', 'c']⟩
      (by decide) (by decide) (by decide) (by decide) (by decide) (by decide)⟩

end QuoteCall
end SearchMarkup
