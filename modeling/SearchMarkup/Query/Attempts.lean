/-
# The scan with its searches for closing quotes on record

The rules ask for a quotation at most twice in a turn of a scan: after a field key and `=`, and
at the place of the scan itself.  Each request is an `Attempt`, which keeps where it was made,
what was remembered then, which characters the loop of the search went through, and what came
of it.

| on record | comes to |
| --- | --- |
| `walkToClosing` | `splitAtClosing?` |
| `Attempt.make` | `scanQuotation` |
| `Rule.firstRecorded` | `Rule.first` |
| `Scan.scanFromRecorded` | `Scan.scanFrom` |
-/

import SearchMarkup.Query.Scan

namespace SearchMarkup

/-- The search for a closing quote, and the characters that its loop goes through. -/
def walkToClosing (escaped : Bool) : Text → Option (Text × Char × Text) × Text
  | [] => (none, [])
  | c :: t =>
    if !escaped && isQuote c then (some ([], c, t), [c])
    else
      let (found, walked) := walkToClosing (!escaped && c == escapeMark) t
      (found.map fun (body, q, rest) => (c :: body, q, rest), c :: walked)

/-- The walk finds what the search finds. -/
theorem walkToClosing_fst (escaped : Bool) (t : Text) :
    (walkToClosing escaped t).1 = splitAtClosing? escaped t := by
  fun_induction walkToClosing escaped t with
  | case1 => rfl
  | case2 e c t h => rw [splitAtClosing?, if_pos h]
  | case3 e c t h found walked hwalk ih =>
    rw [splitAtClosing?, if_neg h, ← ih, hwalk]

/-- The loop stops at the closing quote, and without one at the end of the text. -/
theorem walkToClosing_snd (escaped : Bool) (t : Text) :
    (walkToClosing escaped t).2 =
      (splitAtClosing? escaped t).elim t fun (body, q, _) => body ++ [q] := by
  fun_induction walkToClosing escaped t with
  | case1 => rfl
  | case2 e c t h => rw [splitAtClosing?, if_pos h]; rfl
  | case3 e c t h found walked hwalk ih =>
    rw [hwalk] at ih
    dsimp only at ih
    rw [splitAtClosing?, if_neg h, ih]
    cases splitAtClosing? (!e && c == escapeMark) t <;> rfl

/-- A request for the quotation that opens at a place, and what became of it. -/
structure Attempt where
  place : Cursor
  /-- What was remembered when it was made. -/
  memo : QuoteMemo
  /-- The characters that its loop went through, if the loop was entered. -/
  walked : Option Text
  /-- The quotation, with the text after it. -/
  found : Option (Quotation × Text)
  /-- What is remembered after it. -/
  left : QuoteMemo
  deriving DecidableEq, Repr

namespace Attempt

/-- The attempt at a place. -/
def make (memo : QuoteMemo) (c : Cursor) : Attempt :=
  match c.rest with
  | [] => ⟨c, memo, none, none, memo⟩
  | opening :: t =>
    if !isQuote opening || memo.knowsOpen c.offset then ⟨c, memo, none, none, memo⟩
    else
      match walkToClosing false t with
      | (some (body, closing, rest), walked) =>
        ⟨c, memo, some walked, some (⟨opening, body, closing⟩, rest), memo⟩
      | (none, walked) => ⟨c, memo, some walked, none, memo.record c.offset⟩

/-- An attempt comes to what the search for a quotation comes to. -/
theorem answer_make (memo : QuoteMemo) (c : Cursor) :
    ((make memo c).found, (make memo c).left) = scanQuotation memo c := by
  obtain ⟨before, offset, _ | ⟨opening, t⟩⟩ := c
  · rfl
  · unfold make scanQuotation
    dsimp only
    split
    · rfl
    · rw [← walkToClosing_fst]
      rcases walkToClosing false t with ⟨_ | ⟨body, closing, rest⟩, walked⟩ <;> rfl

/-- An attempt is made at its place, with what is remembered then. -/
theorem make_eq (memo : QuoteMemo) (c : Cursor) :
    (make memo c).place = c ∧ (make memo c).memo = memo := by
  unfold make
  split
  · exact ⟨rfl, rfl⟩
  · split
    · exact ⟨rfl, rfl⟩
    · split <;> exact ⟨rfl, rfl⟩

/-- An attempt keeps where it was made. -/
@[simp] theorem place_make (memo : QuoteMemo) (c : Cursor) : (make memo c).place = c :=
  (make_eq memo c).1

/-- An attempt keeps what was remembered when it was made. -/
@[simp] theorem memo_make (memo : QuoteMemo) (c : Cursor) : (make memo c).memo = memo :=
  (make_eq memo c).2

end Attempt

namespace Rule

/-- `fieldPair`, with its attempts. -/
def fieldPairRecorded (memo : QuoteMemo) (c : Cursor) :
    Option Match × QuoteMemo × List Attempt :=
  match fieldKey? c with
  | some (f, '=' :: rest) =>
    let x := Attempt.make memo ⟨some '=', c.offset + f.key.size + 1, rest⟩
    (x.found.map fun (q, rest) => ⟨.field f (some q), rest⟩, x.left, [x])
  | _ => (none, memo, [])

/-- `quotation`, with its attempt. -/
def quotationRecorded (memo : QuoteMemo) (c : Cursor) :
    Option Match × QuoteMemo × List Attempt :=
  let x := Attempt.make memo c
  (x.found.map fun (q, rest) => ⟨.quotation q, rest⟩, x.left, [x])

/-- `first`, with the attempts of all the rules that are tried, in their order. -/
def firstRecorded (memo : QuoteMemo) (c : Cursor) : Option Match × QuoteMemo × List Attempt :=
  match fieldPairRecorded memo c with
  | (some m, memo, xs) => (some m, memo, xs)
  | (none, memo, xs) =>
    match connective c with
    | some m => (some m, memo, xs)
    | none =>
      match quotationRecorded memo c with
      | (some m, memo, ys) => (some m, memo, xs ++ ys)
      | (none, memo, ys) => (bareField c, memo, xs ++ ys)

/-- With its attempts, the rule for a key and a value matches the same. -/
theorem fieldPairRecorded_eq (memo : QuoteMemo) (c : Cursor) :
    fieldPair memo c = ((fieldPairRecorded memo c).1, (fieldPairRecorded memo c).2.1) := by
  by_cases hkey : ∃ f rest, fieldKey? c = some (f, '=' :: rest)
  · obtain ⟨f, rest, hkey⟩ := hkey
    unfold fieldPair fieldPairRecorded
    generalize fieldKey? c = k at hkey
    subst hkey
    exact congrArg (fun r : Option (Quotation × Text) × QuoteMemo =>
      (r.1.map fun x => (⟨.field f (some x.1), x.2⟩ : Match), r.2))
      (Attempt.answer_make memo ⟨some '=', c.offset + f.key.size + 1, rest⟩).symm
  · have hpair : fieldPair memo c = (none, memo) := by
      unfold fieldPair
      split
      · next f rest hfound => exact absurd ⟨f, rest, hfound⟩ hkey
      · rfl
    have hrecorded : fieldPairRecorded memo c = (none, memo, []) := by
      unfold fieldPairRecorded
      split
      · next f rest hfound => exact absurd ⟨f, rest, hfound⟩ hkey
      · rfl
    rw [hpair, hrecorded]

/-- With its attempt, the rule for a quotation matches the same. -/
theorem quotationRecorded_eq (memo : QuoteMemo) (c : Cursor) :
    quotation memo c = ((quotationRecorded memo c).1, (quotationRecorded memo c).2.1) := by
  rw [quotation, ← Attempt.answer_make]
  rfl

/-- **The rules on record match what the rules match.** -/
theorem firstRecorded_eq (memo : QuoteMemo) (c : Cursor) :
    first memo c = ((firstRecorded memo c).1, (firstRecorded memo c).2.1) := by
  unfold first firstRecorded
  rw [fieldPairRecorded_eq]
  rcases fieldPairRecorded memo c with ⟨_ | m, memo', xs⟩
  · dsimp only
    cases connective c with
    | some m => rfl
    | none =>
      dsimp only
      rw [quotationRecorded_eq]
      rcases quotationRecorded memo' c with ⟨_ | m, memo'', ys⟩ <;> rfl
  · rfl

end Rule

/-- A turn of a scan: the attempts made in it, and the token made of a match. -/
structure Turn where
  attempts : List Attempt
  made : Option (Located Token)
  deriving DecidableEq, Repr

namespace Scan

/-- `scanFrom`, with its turns. -/
def scanFromRecorded (memo : QuoteMemo) (run : Option PlainRun) (here : Position)
    (before : Option Char) (rest : Text) : Scan × List Turn :=
  match rest with
  | [] => (⟨PlainRun.close run here, []⟩, [])
  | c :: t =>
    match _h : Rule.firstRecorded memo ⟨before, here.offset, c :: t⟩ with
    | (some m, memo, attempts) =>
      let span : Span := ⟨here, here.advanceBy m.token.text⟩
      let later := scanFromRecorded memo none span.stop m.token.text.getLast? m.rest
      ({ tokens := PlainRun.close run here ++ ⟨m.token, span⟩ :: later.1.tokens
         findings :=
          match m.nearMiss? with
          | none => later.1.findings
          | some miss => ⟨miss, span⟩ :: later.1.findings },
        ⟨attempts, some ⟨m.token, span⟩⟩ :: later.2)
    | (none, memo, attempts) =>
      let later := scanFromRecorded memo (PlainRun.extend run here c) (here.advance c) c t
      (match nearMiss? ⟨before, here.offset, c :: t⟩ with
        | none => later.1
        | some miss =>
          { later.1 with
            findings := ⟨miss, ⟨here, here.advanceBy miss.text⟩⟩ :: later.1.findings },
        ⟨attempts, none⟩ :: later.2)
  termination_by rest.length
  decreasing_by
    · exact Rule.length_rest_lt_of_first ((Rule.firstRecorded_eq ..).trans (by rw [_h]))
    · simp

/-- **A scan on record comes to what the scan comes to.** -/
theorem scanFromRecorded_fst (memo : QuoteMemo) (run : Option PlainRun) (here : Position)
    (before : Option Char) (rest : Text) :
    (scanFromRecorded memo run here before rest).1 = scanFrom memo run here before rest := by
  fun_induction scanFromRecorded memo run here before rest with
  | case1 => rw [scanFrom]
  | case2 memo run here before c t m memo' xs h span later ih =>
    have hfirst := (Rule.firstRecorded_eq memo ⟨before, here.offset, c :: t⟩).trans (by rw [h])
    symm
    rw [scanFrom]
    split
    · next m' memo'' h' =>
      obtain ⟨hm, rfl⟩ := Prod.mk.inj (h'.symm.trans hfirst)
      obtain rfl := Option.some.inj hm
      cases m'.nearMiss? <;> dsimp only <;> rw [← ih]
    · next memo'' h' =>
      obtain ⟨hm, -⟩ := Prod.mk.inj (h'.symm.trans hfirst)
      exact absurd hm.symm (Option.some_ne_none m)
  | case3 memo run here before c t memo' xs h later ih =>
    have hfirst := (Rule.firstRecorded_eq memo ⟨before, here.offset, c :: t⟩).trans (by rw [h])
    symm
    rw [scanFrom]
    split
    · next m' memo'' h' =>
      obtain ⟨hm, -⟩ := Prod.mk.inj (h'.symm.trans hfirst)
      exact absurd hm (Option.some_ne_none m')
    · next memo'' h' =>
      obtain ⟨-, rfl⟩ := Prod.mk.inj (h'.symm.trans hfirst)
      cases nearMiss? ⟨before, here.offset, c :: t⟩ <;> dsimp only <;> rw [← ih]

/-- The turns of the scan of a text, and what it yields. -/
def recorded (t : Text) : Scan × List Turn := scanFromRecorded {} none Position.start none t

end Scan
end SearchMarkup
