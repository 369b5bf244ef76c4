/-
# What the search for closing quotes costs

A search fails at the end of the text, and its place is remembered.  That place need not have
been reached by the scan: it can be the one after a field key and `=`.  Between the two stand
only the letters of the key and the sign, so a failure is never remembered of a place behind a
quote character that is still to come (`QuoteMemo.Settles`).

| an attempt | its loop | is remembered after it |
| --- | --- | --- |
| at no quote character, or not before a failure | is not entered | what was before |
| that finds a quotation | goes through its body and closing quote | what was before |
| in vain | goes to the end of the text | the place |

Hence no loop is entered after the first failure (`Attempts.isSpared`).  A quotation that is
found ends the token made in that turn (`Rule.tried_firstRecorded`), before which the scan does
not go back.  So the loops of a scan go through no more characters than the text has.
-/

import SearchMarkup.Proofs.Query.ScanSteps
import SearchMarkup.Query.Attempts
import Mathlib.Data.List.Pairwise

namespace SearchMarkup

/-! ## What an attempt comes to -/

namespace QuoteMemo

/-- A failure is remembered of no place behind a quote character that is still to come in the
text `b` after `a`. -/
def Settles (memo : QuoteMemo) (a b : Text) : Prop :=
  ∀ n, memo.openFrom = some n → ∀ u q v, b = u ++ q :: v → isQuote q = true → n ≤ (a ++ u).size

/-- Where nothing is remembered, nothing is of a place that is still to come. -/
theorem settles_of_none {memo : QuoteMemo} (h : memo.openFrom = none) (a b : Text) :
    memo.Settles a b := fun _ hn => nomatch h.symm.trans hn

/-- Further on there are fewer quote characters to come. -/
theorem Settles.after {memo : QuoteMemo} {a s b : Text} (h : memo.Settles a (s ++ b)) :
    memo.Settles (a ++ s) b := by
  rintro n hn u q v rfl hq
  rw [List.append_assoc]
  exact h n hn (s ++ u) q v (by rw [List.append_assoc]) hq

/-- A failure may be remembered of a place that no quote character stands before. -/
theorem settles_size {a u : Text} (hu : ∀ c ∈ u, isQuote c = false) (v : Text) :
    (⟨some (a ++ u).size⟩ : QuoteMemo).Settles a (u ++ v) := by
  rintro n hn u' q v' hb hq
  obtain rfl : (a ++ u).size = n := Option.some.inj hn
  rcases List.append_eq_append_iff.1 hb with ⟨w, rfl, -⟩ | ⟨w, rfl, hw⟩
  · rw [← List.append_assoc, Text.size_append _ w]
    exact Nat.le_add_right ..
  · cases w with
    | nil => simp
    | cons c w =>
      obtain ⟨rfl, -⟩ := List.cons.inj hw
      exact nomatch (hu q (by simp)).symm.trans hq

end QuoteMemo

namespace Attempt

/-- What can become of an attempt at the place between `a` and `b`. -/
inductive Outcome (memo : QuoteMemo) (a b : Text) : Attempt → Prop where
  /-- Its loop is not entered. -/
  | spared (h : ∀ n, memo.openFrom = some n → b.head?.any isQuote = true → n ≤ a.size) :
    Outcome memo a b ⟨.between a b, memo, none, none, memo⟩
  /-- It finds a quotation. -/
  | closed {q : Quotation} {rest : Text} (hmemo : memo.openFrom = none)
      (hb : b = q.text ++ rest) :
    Outcome memo a b
      ⟨.between a b, memo, some (q.body ++ [q.closing]), some (q, rest), memo⟩
  /-- It goes to the end of the text in vain. -/
  | vain {opening : Char} {w : Text} (hmemo : memo.openFrom = none) (hb : b = opening :: w) :
    Outcome memo a b ⟨.between a b, memo, some w, none, ⟨some a.size⟩⟩

/-- **With a failure remembered, no loop is entered.** -/
theorem outcome_make {memo : QuoteMemo} {a b : Text} (h : memo.Settles a b) :
    Outcome memo a b (make memo (.between a b)) := by
  have hbehind : ∀ n, memo.openFrom = some n → b.head?.any isQuote = true → n ≤ a.size := by
    intro n hn hq
    cases b with
    | nil => cases hq
    | cons q v => simpa using h n hn [] q v rfl hq
  cases b with
  | nil => exact .spared hbehind
  | cons opening t =>
    rw [make, Cursor.rest_between, Cursor.offset_between]
    dsimp only
    split
    · exact .spared hbehind
    · next hask =>
      obtain ⟨hq, hk⟩ : isQuote opening = true ∧ memo.knowsOpen a.size = false := by
        simpa using hask
      have hmemo : memo.openFrom = none := by
        cases hn : memo.openFrom with
        | none => rfl
        | some n => simp [QuoteMemo.knowsOpen, hn, hbehind n hn hq] at hk
      have hfound := walkToClosing_fst false t
      have hwalked := walkToClosing_snd false t
      rw [← hfound] at hwalked
      generalize walkToClosing false t = result at hfound hwalked ⊢
      rcases result with ⟨_ | ⟨body, closing, rest⟩, walked⟩
      · obtain rfl : walked = t := hwalked
        have hrecord : memo.record a.size = ⟨some a.size⟩ := by rw [QuoteMemo.record, hmemo]; rfl
        rw [hrecord]
        exact .vain hmemo rfl
      · obtain rfl : walked = body ++ [closing] := hwalked
        have hb : opening :: t = (⟨opening, body, closing⟩ : Quotation).text ++ rest := by
          rw [eq_append_of_splitAtClosing? hfound.symm]
          simp [Quotation.text]
        exact .closed hmemo hb

/-- The loop of an attempt is not entered, since a failure is remembered of a place that is not
behind its own. -/
structure IsSpared (x : Attempt) (n : Nat) : Prop where
  memo : x.memo.openFrom = some n
  behind : x.place.rest.head?.any isQuote = true → n ≤ x.place.offset
  walked : x.walked = none
  found : x.found = none

/-- Whether an attempt goes through its loop and finds nothing. -/
def isVain (x : Attempt) : Bool := x.walked.isSome && x.found.isNone

/-- What two attempts find, they find apart, the first one's before the second one's. -/
def Before (x y : Attempt) : Prop :=
  ∀ p r q s, x.found = some (p, r) → y.found = some (q, s) →
    x.place.offset + p.text.size ≤ y.place.offset

/-- The characters that the loops of attempts go through. -/
def walk (xs : List Attempt) : Text := xs.flatMap fun x => x.walked.getD []

@[simp] theorem walk_nil : walk [] = [] := rfl

@[simp] theorem walk_cons (x : Attempt) (xs : List Attempt) :
    walk (x :: xs) = x.walked.getD [] ++ walk xs := rfl

/-- The loops of two runs of attempts go on one after the other. -/
@[simp] theorem walk_append (xs ys : List Attempt) : walk (xs ++ ys) = walk xs ++ walk ys :=
  List.flatMap_append

namespace Outcome

variable {memo : QuoteMemo} {a b : Text} {x : Attempt}

/-- A failure remembered spares the loop, and stays remembered. -/
theorem isSpared {n : Nat} (h : Outcome memo a b x) (hn : memo.openFrom = some n) :
    x.IsSpared n ∧ x.left = memo := by
  cases h with
  | spared h => exact ⟨⟨hn, h n hn, rfl, rfl⟩, rfl⟩
  | closed hmemo => exact nomatch hmemo.symm.trans hn
  | vain hmemo => exact nomatch hmemo.symm.trans hn

/-- An attempt in vain is remembered, and was not before. -/
theorem left_of_isVain (h : Outcome memo a b x) (hx : x.isVain = true) :
    memo.openFrom = none ∧ ∃ n, x.left.openFrom = some n := by
  cases h with
  | spared => cases hx
  | closed => cases hx
  | vain hmemo => exact ⟨hmemo, a.size, rfl⟩

/-- A loop that finds nothing goes to the end of the text. -/
theorem walked_of_isVain {w : Text} (h : Outcome memo a b x) (hx : x.found = none)
    (hw : x.walked = some w) : w = x.place.rest.tail := by
  cases h with
  | spared => cases hw
  | closed => cases hx
  | vain _ hb =>
    obtain rfl := Option.some.inj hw
    rw [Cursor.rest_between, hb, List.tail_cons]

end Outcome
end Attempt

/-! ## Attempts one after another -/

/-- Attempts one after another at places of a text `b` that follows `a`, each with what the one
before it left. -/
inductive Attempts (a b : Text) : QuoteMemo → List Attempt → QuoteMemo → Prop where
  | nil {memo : QuoteMemo} : Attempts a b memo [] memo
  | cons {memo memo' : QuoteMemo} {u v : Text} {xs : List Attempt} (hb : b = u ++ v)
      (hs : memo.Settles (a ++ u) v)
      (later : Attempts a b (Attempt.make memo (.between (a ++ u) v)).left xs memo') :
    Attempts a b memo (.make memo (.between (a ++ u) v) :: xs) memo'

namespace Attempts

variable {a b s : Text} {memo memo' memo'' : QuoteMemo} {xs ys : List Attempt}

/-- Attempts go on with what the ones before them left to be remembered. -/
theorem append (h : Attempts a b memo xs memo') (h' : Attempts a b memo' ys memo'') :
    Attempts a b memo (xs ++ ys) memo'' := by
  induction h with
  | nil => exact h'
  | cons hb hs _ ih => exact .cons hb hs (ih h')

/-- What is made further on is made after `a` too. -/
theorem of_after (h : Attempts (a ++ s) b memo xs memo') : Attempts a (s ++ b) memo xs memo' := by
  induction h with
  | nil => exact .nil
  | @cons memo memo' u v xs hb hs _ ih =>
    rw [List.append_assoc] at hs ih ⊢
    exact .cons (by rw [hb, List.append_assoc]) hs ih

/-- **Once a failure is remembered, every later attempt is spared,** and the memo stays. -/
theorem isSpared {n : Nat} (h : Attempts a b memo xs memo') (hn : memo.openFrom = some n) :
    (∀ x ∈ xs, x.IsSpared n) ∧ memo' = memo := by
  induction h with
  | nil => exact ⟨fun x hx => absurd hx List.not_mem_nil, rfl⟩
  | cons hb hs _ ih =>
    obtain ⟨hx, hleft⟩ := (Attempt.outcome_make hs).isSpared hn
    rw [hleft] at ih
    obtain ⟨hxs, hmemo⟩ := ih hn
    exact ⟨List.forall_mem_cons.2 ⟨hx, hxs⟩, hmemo⟩

/-- Once a failure is remembered, no loop goes through anything. -/
theorem walk_eq_nil {n : Nat} (h : Attempts a b memo xs memo') (hn : memo.openFrom = some n) :
    Attempt.walk xs = [] :=
  List.flatMap_eq_nil_iff.2 fun x hx => by rw [((h.isSpared hn).1 x hx).walked]; rfl

/-- Every attempt after a failure is spared. -/
theorem pairwise_isSpared (h : Attempts a b memo xs memo') :
    xs.Pairwise fun x y => ∀ n, x.left.openFrom = some n → y.IsSpared n := by
  induction h with
  | nil => exact .nil
  | cons _ _ later ih =>
    exact List.pairwise_cons.2 ⟨fun y hy n hn => (later.isSpared hn).1 y hy, ih⟩

/-- **At most one attempt is in vain.** -/
theorem countP_isVain_le (h : Attempts a b memo xs memo') : xs.countP Attempt.isVain ≤ 1 := by
  induction h with
  | nil => exact Nat.zero_le 1
  | @cons memo memo' u v xs _ hs later ih =>
    by_cases hx : (Attempt.make memo (.between (a ++ u) v)).isVain = true
    · obtain ⟨-, n, hn⟩ := (Attempt.outcome_make hs).left_of_isVain hx
      have hnone : xs.countP Attempt.isVain = 0 := by
        refine List.countP_eq_zero.2 fun y hy => ?_
        rw [Attempt.isVain, ((later.isSpared hn).1 y hy).walked]
        exact Bool.false_ne_true
      have hone := List.countP_cons_of_pos (l := xs) hx
      omega
    · rwa [List.countP_cons_of_neg hx]

/-- Each attempt is made with what the one before it left. -/
theorem memo_eq {l l' : List Attempt} {x : Attempt} (h : Attempts a b memo xs memo')
    (hxs : xs = l ++ x :: l') : x.memo = (l.getLast?.map Attempt.left).getD memo := by
  induction h generalizing l with
  | nil => simp at hxs
  | cons _ _ _ ih =>
    cases l with
    | nil =>
      obtain ⟨rfl, -⟩ := List.cons.inj hxs
      exact Attempt.memo_make ..
    | cons y l =>
      obtain ⟨rfl, hl⟩ := List.cons.inj hxs
      rw [ih hl, List.getLast?_cons]
      cases l.getLast? <;> rfl

/-- Every attempt is made at a place of the text, with nothing remembered of one still to come. -/
theorem exists_of_mem (h : Attempts a b memo xs memo') {x : Attempt} (hx : x ∈ xs) :
    ∃ memo u v, b = u ++ v ∧ memo.Settles (a ++ u) v ∧
      x = .make memo (.between (a ++ u) v) := by
  induction h with
  | nil => exact absurd hx List.not_mem_nil
  | cons hb hs _ ih =>
    rcases List.mem_cons.1 hx with rfl | hx
    · exact ⟨_, _, _, hb, hs, rfl⟩
    · exact ih hx

end Attempts
/-! ## The attempts of the rules -/

/-- What the rules that have been tried after `a` match, and their attempts on the way: only the
last finds a quotation, which ends the match; and the loops went through no more than the match,
or through no more than the text in vain. -/
structure Tried (memo : QuoteMemo) (a b : Text) (r : Option Match) (memo' : QuoteMemo)
    (xs : List Attempt) : Prop where
  attempts : Attempts a b memo xs memo'
  settles : memo'.Settles a b
  ends : ∀ x ∈ xs, ∀ q rest, x.found = some (q, rest) →
    ∃ m u, r = some m ∧ m.token.text = u ++ q.text ∧ x.place.offset = (a ++ u).size
  last : xs.Pairwise fun x _ => x.found = none
  walk : (Attempt.walk xs).length ≤ r.elim 0 (fun m => m.token.text.length) ∨
    (∃ n, memo'.openFrom = some n) ∧ (Attempt.walk xs).length ≤ b.length

namespace Tried

variable {memo memo' memo'' : QuoteMemo} {a b : Text} {r : Option Match} {xs ys : List Attempt}

/-- A rule that asks for no quotation. -/
theorem of_no_attempt (h : memo.Settles a b) (r : Option Match) : Tried memo a b r memo [] where
  attempts := .nil
  settles := h
  ends := fun _ hx => absurd hx List.not_mem_nil
  last := .nil
  walk := .inl (Nat.zero_le _)

/-- A rule that asks for the quotation after a text without quote characters. -/
theorem of_attempt {u v : Text} {f : Quotation × Text → Match} (h : memo.Settles a (u ++ v))
    (hu : ∀ c ∈ u, isQuote c = false) (hf : ∀ q rest, (f (q, rest)).token.text = u ++ q.text) :
    let x := Attempt.make memo (.between (a ++ u) v)
    Tried memo a (u ++ v) (x.found.map f) x.left [x] := by
  intro x
  have hattempts : Attempts a (u ++ v) memo [x] x.left := .cons rfl h.after .nil
  have hx : x.Outcome memo (a ++ u) v := Attempt.outcome_make h.after
  clear_value x
  refine ⟨hattempts, ?_, ?_, List.pairwise_singleton .., ?_⟩
  · cases hx with
    | spared => exact h
    | closed => exact h
    | vain => exact QuoteMemo.settles_size hu v
  · intro y hy q rest hq
    obtain rfl := List.mem_singleton.1 hy
    refine ⟨f (q, rest), u, by rw [hq]; rfl, hf q rest, ?_⟩
    cases hx <;> rfl
  · cases hx with
    | spared => exact .inl (Nat.zero_le _)
    | @closed q rest =>
      left
      simp only [Attempt.walk_cons, Attempt.walk_nil, Option.map_some, Option.elim_some, hf,
        Option.getD_some, Quotation.text, List.length_append, List.length_cons, List.length_nil]
      omega
    | @vain opening w _ hb =>
      refine .inr ⟨⟨_, rfl⟩, ?_⟩
      simp only [Attempt.walk_cons, Attempt.walk_nil, Option.getD_some, hb, List.length_append,
        List.length_cons, List.length_nil]
      omega

/-- Rules that match nothing, and the rules tried after them. -/
theorem orElse (h : Tried memo a b none memo' xs) (h' : Tried memo' a b r memo'' ys) :
    Tried memo a b r memo'' (xs ++ ys) := by
  have hnone : ∀ x ∈ xs, x.found = none := by
    intro x hx
    cases hf : x.found with
    | none => rfl
    | some found =>
      obtain ⟨m, u, hm, -⟩ := h.ends x hx found.1 found.2 hf
      cases hm
  refine ⟨h.attempts.append h'.attempts, h'.settles, ?_, ?_, ?_⟩
  · intro x hx q rest hq
    rcases List.mem_append.1 hx with hx | hx
    · exact nomatch (hnone x hx).symm.trans hq
    · exact h'.ends x hx q rest hq
  · exact List.pairwise_append.2 ⟨h.last, h'.last, fun x hx _ _ => hnone x hx⟩
  · rw [Attempt.walk_append, List.length_append]
    rcases h.walk with hzero | ⟨⟨n, hn⟩, hle⟩
    · have hzero : (Attempt.walk xs).length ≤ 0 := hzero
      rw [Nat.le_zero.1 hzero, Nat.zero_add]
      exact h'.walk
    · refine .inr ⟨⟨n, ?_⟩, ?_⟩
      · rw [(h'.attempts.isSpared hn).2, hn]
      · rwa [h'.attempts.walk_eq_nil hn]

end Tried

namespace Rule

variable {memo : QuoteMemo} {a b : Text}

/-- Neither a key nor the sign behind it has a quote character. -/
theorem isQuote_of_mem_key {f : Field} {c : Char} (h : c ∈ f.key ++ ['=']) :
    isQuote c = false := by
  have hkeys : (f.key ++ ['=']).all (fun c => !isQuote c) = true := by cases f <;> decide
  simpa using List.all_eq_true.1 hkeys c h

/-- The rule for a key with a value makes at most one attempt, behind the key. -/
theorem tried_fieldPairRecorded (h : memo.Settles a b) :
    let x := fieldPairRecorded memo (.between a b)
    Tried memo a b x.1 x.2.1 x.2.2 := by
  unfold fieldPairRecorded
  split
  · next f rest hkey =>
    have hb : b = f.key ++ ['='] ++ rest := by
      rw [List.append_assoc]
      exact rest_eq_of_fieldKey? hkey
    subst hb
    have hplace : (⟨some '=', a.size + f.key.size + 1, rest⟩ : Cursor) =
        .between (a ++ (f.key ++ ['='])) rest := by
      rw [Cursor.between, ← List.append_assoc, List.getLast?_concat]
      simp
      rfl
    rw [Cursor.offset_between, hplace]
    exact Tried.of_attempt h (fun c => isQuote_of_mem_key) fun q rest => by simp [Token.text]
  · exact .of_no_attempt h none

/-- The rule for a quotation makes one, where the scan stands. -/
theorem tried_quotationRecorded (h : memo.Settles a b) :
    let x := quotationRecorded memo (.between a b)
    Tried memo a b x.1 x.2.1 x.2.2 := by
  have hat := Tried.of_attempt (u := []) (f := fun p => ⟨.quotation p.1, p.2⟩) h
    (fun c hc => absurd hc List.not_mem_nil) fun q rest => rfl
  rw [List.append_nil] at hat
  exact hat

/-- **The attempts of one turn.** -/
theorem tried_firstRecorded (h : memo.Settles a b) :
    let x := firstRecorded memo (.between a b)
    Tried memo a b x.1 x.2.1 x.2.2 := by
  have hpair := tried_fieldPairRecorded h
  unfold firstRecorded
  generalize fieldPairRecorded memo (.between a b) = pair at hpair ⊢
  obtain ⟨_ | m, memo', xs⟩ := pair
  · dsimp only at hpair ⊢
    cases connective (.between a b) with
    | some m => simpa using hpair.orElse (.of_no_attempt hpair.settles (some m))
    | none =>
      have hquotation := tried_quotationRecorded hpair.settles
      generalize quotationRecorded memo' (.between a b) = quotation at hquotation ⊢
      obtain ⟨_ | m, memo'', ys⟩ := quotation
      · have hboth := hpair.orElse hquotation
        simpa using hboth.orElse (.of_no_attempt hboth.settles (bareField (.between a b)))
      · exact hpair.orElse hquotation
  · exact hpair

/-- After `AB=` a search fails ahead of the scan, and the one at the key is spared. -/
example : (firstRecorded {} (.start ['A', 'B', '=', '"', 'x'])).2.2.map
    (fun x => (x.place.offset, x.walked, x.left.openFrom)) =
      [(3, some ['x'], some 3), (0, none, some 3)] := by decide

end Rule
/-! ## The attempts of a scan -/

namespace Turn

/-- The attempts of turns, in their order. -/
def allAttempts (turns : List Turn) : List Attempt := turns.flatMap attempts

@[simp] theorem allAttempts_nil : allAttempts [] = [] := rfl

/-- The attempts of turns are made turn by turn. -/
@[simp] theorem allAttempts_cons (x : Turn) (turns : List Turn) :
    allAttempts (x :: turns) = x.attempts ++ allAttempts turns := rfl

/-- Whatever quotation is found in a turn, the token made in that turn ends in it. -/
def Ends (x : Turn) : Prop :=
  ∀ y ∈ x.attempts, ∀ q rest, y.found = some (q, rest) → ∃ made, x.made = some made ∧
    q.text <:+ made.value.text ∧ made.span.start.offset ≤ y.place.offset ∧
      y.place.offset + q.text.size = made.span.stop.offset

/-- A turn is taken at a place of a text: its attempts are those of the rules there, and the
token it makes is their match and begins there. -/
structure TakenAt (t : Text) (c : Cursor) (x : Turn) : Prop where
  place : Cursor.at? t c.offset = some c
  tried : ∃ memo, (Rule.firstRecorded memo c).2.2 = x.attempts ∧
    (Rule.firstRecorded memo c).1.map Match.token = x.made.map Located.value
  start : ∀ made, x.made = some made → made.span.start.offset = c.offset

/-- Turns are taken at places of the text `b` that follows `a`, from left to right. -/
def Along (a b : Text) (turns : List Turn) : Prop :=
  ∃ places : List Cursor, (∀ c ∈ places, a.size ≤ c.offset) ∧
    (places.Pairwise fun c d => c.offset < d.offset) ∧
      List.Forall₂ (TakenAt (a ++ b)) places turns

/-- One more turn in front, and the stretch of text that it takes. -/
theorem Along.cons {a s b : Text} {x : Turn} {turns : List Turn} (hs : s ≠ [])
    (hx : x.TakenAt (a ++ (s ++ b)) (.between a (s ++ b))) (later : Along (a ++ s) b turns) :
    Along a (s ++ b) (x :: turns) := by
  obtain ⟨places, hle, hpairwise, hturns⟩ := later
  have hpos : s.size ≠ 0 := mt Text.size_eq_zero.1 hs
  rw [Text.size_append] at hle
  rw [List.append_assoc] at hturns
  refine ⟨.between a (s ++ b) :: places, List.forall_mem_cons.2 ⟨Nat.le_refl _, fun c hc => ?_⟩,
    List.pairwise_cons.2 ⟨fun c hc => ?_, hpairwise⟩, .cons hx hturns⟩
  · exact Nat.le_trans (Nat.le_add_right ..) (hle c hc)
  · have hlater := hle c hc
    rw [Cursor.offset_between]
    omega

end Turn

/-- What is said of the turns of a scan of the text `b` that follows `a`. -/
structure Searched (memo : QuoteMemo) (a b : Text) (turns : List Turn) : Prop where
  attempts : ∃ memo', Attempts a b memo (Turn.allAttempts turns) memo'
  ends : ∀ x ∈ turns, x.Ends
  before : (Turn.allAttempts turns).Pairwise Attempt.Before
  walk : (Attempt.walk (Turn.allAttempts turns)).length ≤ b.length

namespace Searched

variable {memo memo' : QuoteMemo} {a s b : Text} {r : Option Match} {xs : List Attempt}
  {made : Option (Located Token)} {turns : List Turn}

/-- **One more turn in front.**  It takes `s`: the text of the token that it makes, or any text
if it makes none. -/
theorem cons (h : Tried memo a (s ++ b) r memo' xs)
    (hr : ∀ m, r = some m → m.token.text = s ∧ made = some ⟨m.token, .after a s⟩)
    (later : Searched memo' (a ++ s) b turns) :
    Searched memo a (s ++ b) (⟨xs, made⟩ :: turns) := by
  obtain ⟨memo'', hlater⟩ := later.attempts
  have hends : ∀ x ∈ xs, ∀ q rest, x.found = some (q, rest) →
      ∃ m u, made = some ⟨m, .after a s⟩ ∧ m.text = s ∧ s = u ++ q.text ∧
        x.place.offset = (a ++ u).size := by
    intro x hx q rest hq
    obtain ⟨m, u, hm, htext, hplace⟩ := h.ends x hx q rest hq
    obtain ⟨hs, hmade⟩ := hr m hm
    exact ⟨m.token, u, hmade, hs, hs.symm.trans htext, hplace⟩
  refine ⟨⟨memo'', h.attempts.append hlater.of_after⟩, List.forall_mem_cons.2 ⟨?_, later.ends⟩,
    List.pairwise_append.2 ⟨h.last.imp ?_, later.before, ?_⟩, ?_⟩
  · intro x hx q rest hq
    obtain ⟨m, u, hmade, hm, hs, hplace⟩ := hends x hx q rest hq
    refine ⟨_, hmade, ⟨u, (hm.trans hs).symm⟩, ?_, ?_⟩
    · simp only [Span.after, Position.offset_after, hplace, Text.size_append]
      omega
    · simp only [Span.after, Position.offset_after, hplace, hs, Text.size_append]
      omega
  · intro x y hnone p r q s hp
    exact absurd (hp.symm.trans hnone) (Option.some_ne_none _)
  · -- what is found in this turn ends where the later turns begin
    intro x hx y hy p r q s' hp hq
    obtain ⟨m, u, -, -, hs, hplace⟩ := hends x hx p r hp
    obtain ⟨_, u', v, -, -, rfl⟩ := hlater.exists_of_mem hy
    have hplace' : (Attempt.make ‹_› (.between (a ++ s ++ u') v)).place.offset =
        (a ++ s ++ u').size := by
      rw [Attempt.place_make]
      rfl
    rw [hplace, hplace', hs]
    simp only [Text.size_append]
    omega
  · have hlater' := later.walk
    rw [Turn.allAttempts_cons, Attempt.walk_append, List.length_append, List.length_append]
    dsimp only
    rcases h.walk with hle | ⟨⟨n, hn⟩, hle⟩
    · have hs : r.elim 0 (fun m => m.token.text.length) ≤ s.length := by
        cases r with
        | none => exact Nat.zero_le _
        | some m => exact Nat.le_of_eq (congrArg List.length (hr m rfl).1)
      omega
    · rw [hlater.walk_eq_nil hn, List.length_nil]
      simpa using hle

end Searched

namespace Scan

/-- **The turns of a scan,** whatever is remembered when it begins. -/
theorem searched_scanFromRecorded {memo : QuoteMemo} {run : Option PlainRun} {here : Position}
    {before : Option Char} {rest : Text} : ∀ a, here = .after a → before = a.getLast? →
      memo.Settles a rest →
        Searched memo a rest (scanFromRecorded memo run here before rest).2 := by
  -- what has been read grows with every turn, so it stays general
  fun_induction scanFromRecorded memo run here before rest with
  | case1 memo run here before =>
    rintro a - - -
    exact ⟨⟨memo, .nil⟩, fun x hx => absurd hx List.not_mem_nil, .nil, Nat.le_refl _⟩
  | case2 memo run here before c t m memo' xs hm span later ih =>
    rintro a rfl rfl hs
    have htried := Rule.tried_firstRecorded hs
    rw [Cursor.mk_after] at hm
    rw [hm] at htried
    obtain ⟨hrest, hne⟩ := Rule.rest_eq_of_first
      ((Rule.firstRecorded_eq memo (.between a (c :: t))).trans (by rw [hm]))
    rw [Cursor.rest_between] at hrest
    have hlast : (a ++ m.token.text).getLast? = m.token.text.getLast? := by
      rw [List.getLast?_append, List.getLast?_eq_some_getLast hne, Option.some_or]
    rw [hrest] at htried ⊢
    refine .cons htried (fun m' hm' => ?_) (ih (a ++ m.token.text) ?_ hlast.symm ?_)
    · obtain rfl := Option.some.inj hm'
      exact ⟨rfl, by rw [Span.after, ← Position.advanceBy_after]⟩
    · exact Position.advanceBy_after ..
    · exact htried.settles.after
  | case3 memo run here before c t memo' xs hm later ih =>
    rintro a rfl rfl hs
    have htried := Rule.tried_firstRecorded hs
    rw [Cursor.mk_after] at hm
    rw [hm] at htried
    refine .cons (s := [c]) htried (fun m hm => absurd hm.symm (Option.some_ne_none m))
      (ih (a ++ [c]) ?_ ?_ ?_)
    · exact Position.advance_after ..
    · rw [List.getLast?_concat]
    · exact QuoteMemo.Settles.after htried.settles

/-- **The turns of a scan are taken along the text.** -/
theorem along_scanFromRecorded {memo : QuoteMemo} {run : Option PlainRun} {here : Position}
    {before : Option Char} {rest : Text} : ∀ a, here = .after a → before = a.getLast? →
      Turn.Along a rest (scanFromRecorded memo run here before rest).2 := by
  fun_induction scanFromRecorded memo run here before rest with
  | case1 memo run here before =>
    rintro a - -
    exact ⟨[], fun c hc => absurd hc List.not_mem_nil, .nil, .nil⟩
  | case2 memo run here before c t m memo' xs hm span later ih =>
    rintro a rfl rfl
    rw [Cursor.mk_after] at hm
    obtain ⟨hrest, hne⟩ := Rule.rest_eq_of_first
      ((Rule.firstRecorded_eq memo (.between a (c :: t))).trans (by rw [hm]))
    rw [Cursor.rest_between] at hrest
    have hlast : (a ++ m.token.text).getLast? = m.token.text.getLast? := by
      rw [List.getLast?_append, List.getLast?_eq_some_getLast hne, Option.some_or]
    have hlater := ih (a ++ m.token.text) (Position.advanceBy_after ..) hlast.symm
    rw [hrest] at hm ⊢
    refine .cons hne ⟨Cursor.at?_size .., ⟨memo, ?_⟩, fun made hmade => ?_⟩ hlater
    · rw [hm]
      exact ⟨rfl, rfl⟩
    · obtain rfl := Option.some.inj hmade
      exact Position.offset_after a
  | case3 memo run here before c t memo' xs hm later ih =>
    rintro a rfl rfl
    rw [Cursor.mk_after] at hm
    have hlater := ih (a ++ [c]) (Position.advance_after ..) List.getLast?_concat.symm
    refine .cons (List.cons_ne_nil c []) ⟨Cursor.at?_size .., ⟨memo, ?_⟩, fun made hmade => ?_⟩
      hlater
    · rw [List.singleton_append, hm]
      exact ⟨rfl, rfl⟩
    · exact absurd hmade.symm (Option.some_ne_none made)

/-- **What the turns of a scan make are the tokens that are not plain,** in their order. -/
theorem filterMap_made_scanFromRecorded (memo : QuoteMemo) (run : Option PlainRun)
    (here : Position) (before : Option Char) (rest : Text) :
    (scanFromRecorded memo run here before rest).2.filterMap Turn.made =
      (scanFromRecorded memo run here before rest).1.tokens.filter fun y => !y.value.isPlain := by
  have hclose (run : Option PlainRun) (here : Position) :
      (PlainRun.close run here).filter (fun y => !y.value.isPlain) = [] := by
    cases run <;> rfl
  fun_induction scanFromRecorded memo run here before rest with
  | case1 memo run here before => exact (hclose run here).symm
  | case2 memo run here before c t m memo' xs hm span later ih =>
    have hplain : m.token.isPlain = false := Rule.isPlain_of_first
      ((Rule.firstRecorded_eq memo ⟨before, here.offset, c :: t⟩).trans (by rw [hm]))
    dsimp only
    rw [List.filterMap_cons_some (f := Turn.made) rfl, ih, List.filter_append, hclose,
      List.nil_append, List.filter_cons_of_pos (by rw [hplain]; rfl)]
  | case3 memo run here before c t memo' xs hm later ih =>
    dsimp only
    rw [List.filterMap_cons_none (f := Turn.made) rfl, ih]
    cases nearMiss? ⟨before, here.offset, c :: t⟩ <;> rfl

/-- **The search for closing quotes takes linear time.**  The scan of a text asks for quotations
at places of the text, each time with what the time before left to be remembered, and the answer
is that of `scanQuotation`.  It asks where the rules do: its turns are taken at places further and
further to the right, and make the tokens that are not plain.  Once a failure is remembered, every
later attempt finds it remembered, is made behind its place if at a quote character, and does not
enter its loop.  At most one attempt is in vain, and its loop goes to the end of the text.
Whatever quotation is found ends the token made in that turn, and no two of them overlap.  So all
loops together go through no more characters than the text has. -/
theorem attempts_recorded (t : Text) :
    let turns := (recorded t).2
    let attempts := Turn.allAttempts turns
    (recorded t).1 = ofText t ∧
      turns.filterMap Turn.made = (ofText t).tokens.filter (fun y => !y.value.isPlain) ∧
      (∃ places : List Cursor, (places.Pairwise fun c d => c.offset < d.offset) ∧
        List.Forall₂ (Turn.TakenAt t) places turns) ∧
      (∀ x ∈ attempts, Cursor.at? t x.place.offset = some x.place ∧
        scanQuotation x.memo x.place = (x.found, x.left)) ∧
      (∀ l x l', attempts = l ++ x :: l' → x.memo = (l.getLast?.map Attempt.left).getD {}) ∧
      (attempts.Pairwise fun x y => ∀ n, x.left.openFrom = some n → y.IsSpared n) ∧
      attempts.countP Attempt.isVain ≤ 1 ∧
      (∀ x ∈ attempts, x.found = none → ∀ w, x.walked = some w → w = x.place.rest.tail) ∧
      (∀ x ∈ turns, x.Ends) ∧
      attempts.Pairwise Attempt.Before ∧
      (Attempt.walk attempts).length ≤ t.length := by
  intro turns attempts
  have hsearched : Searched {} [] t turns :=
    searched_scanFromRecorded [] rfl rfl (QuoteMemo.settles_of_none rfl _ _)
  obtain ⟨memo', hattempts⟩ := hsearched.attempts
  have hscan : (recorded t).1 = ofText t := scanFromRecorded_fst ..
  have hmade := filterMap_made_scanFromRecorded {} none Position.start none t
  obtain ⟨places, -, hplaces⟩ : Turn.Along [] t turns := along_scanFromRecorded [] rfl rfl
  refine ⟨hscan, hscan ▸ hmade, ⟨places, hplaces⟩, fun x hx => ?_, fun _ _ _ => hattempts.memo_eq,
    hattempts.pairwise_isSpared, hattempts.countP_isVain_le, fun x hx hfound w hw => ?_,
    hsearched.ends, hsearched.before, hsearched.walk⟩
  · obtain ⟨memo, u, v, rfl, -, rfl⟩ := hattempts.exists_of_mem hx
    refine ⟨?_, ?_⟩
    · rw [Attempt.place_make]
      exact Cursor.at?_size u v
    · rw [Attempt.answer_make, Attempt.memo_make, Attempt.place_make]
  · obtain ⟨memo, u, v, rfl, hs, rfl⟩ := hattempts.exists_of_mem hx
    exact (Attempt.outcome_make hs).walked_of_isVain hfound hw

end Scan
end SearchMarkup
