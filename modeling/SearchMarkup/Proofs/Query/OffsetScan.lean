/-
# The scan by byte offsets comes to an end

Between two turns a scan by offsets stands at a place of its text: it has read `a`, whose
tokens are settled, and the plain text `u` (`State.after`).  A turn then does one of three
things:

| at the place | the turn | lemma |
| --- | --- | --- |
| nothing follows | ends the scan | `step_nil` |
| a rule matches | settles `u` and the match, and goes on after it | `step_of_best` |
| no rule matches | adds a character to `u` | `step_of_best_eq_none` |

No cut fails in any of them, since `Proofs.Query.OffsetRules` places every match, and the
span of a token ends after it starts.  A match takes at least one byte, so the bytes still
to come get fewer; the run is therefore the induction on `Scan.resume`, and what comes out
is what the scan of the text is (`runs_after_iff`).

A position is told in numbers, and a text can be too long for them.  Where they wrap around
nothing is asked of the text.  Where one that does not fit its word is a fault, a text of
fewer than `2 ^ 32 - 1` characters never gets there (`Position.advanceBy?_after`), and in a
longer one the two scans agree up to the first such number (`guards_step`).
-/

import SearchMarkup.Proofs.Query.OffsetRules
import SearchMarkup.Proofs.Query.ScanSteps
import Mathlib.Data.List.Induction

namespace SearchMarkup

/-- A character takes at most four bytes. -/
theorem Text.size_le (t : Text) : t.size ≤ 4 * t.length := by
  induction t with
  | nil => exact Nat.le_refl 0
  | cons c t ih =>
    have := c.utf8Size_le_four
    rw [size_cons, List.length_cons]
    omega

namespace Position

/-- Each character adds at most one to the line and to the column. -/
theorem toNat_after_le (a : Text) :
    (after a).line.toNat ≤ a.length + 1 ∧ (after a).column.toNat ≤ a.length + 1 := by
  induction a using List.reverseRecOn with
  | nil => exact ⟨Nat.le_refl 1, Nat.le_refl 1⟩
  | append_singleton a c ih =>
    obtain ⟨hline, hcolumn⟩ := ih
    have hadd (n : UInt32) : (n + 1).toNat ≤ n.toNat + 1 := by
      rw [UInt32.toNat_add]
      exact Nat.mod_le ..
    have hline' := hadd (after a).line
    have hcolumn' := hadd (after a).column
    rw [← advance_after, advance, List.length_append, List.length_singleton]
    split
    · exact ⟨by dsimp only; omega, by dsimp only; rw [UInt32.toNat_one]; omega⟩
    · exact ⟨by dsimp only; omega, by dsimp only; omega⟩

/-- Near the start, the place after one more character can be told. -/
theorem advance?_after {a : Text} {c : Char} (h : a.length + 2 < Nat.pow 2 32) :
    (after a).advance? c = some (after (a ++ [c])) := by
  obtain ⟨hline, hcolumn⟩ := toNat_after_le a
  have hcounter : ((after a).counter c).toNat ≤ a.length + 1 := by
    rw [counter]
    split
    · exact hline
    · exact hcolumn
  have hoffset : (after a).offset + c.utf8Size < Nat.pow 2 64 := by
    have hsize := a.size_le
    have hc := c.utf8Size_le_four
    have hpow : 4 * Nat.pow 2 32 ≤ Nat.pow 2 64 := by decide
    rw [offset_after]
    omega
  rw [advance?, if_pos ⟨hoffset, by omega⟩, advance_after]

/-- Near the start, the place after a further stretch of text can be told. -/
theorem advanceBy?_after {a s : Text} (h : (a ++ s).length + 1 < Nat.pow 2 32) :
    (after a).advanceBy? s = some (after (a ++ s)) := by
  induction s generalizing a with
  | nil => rw [advanceBy?, List.append_nil]
  | cons c s ih =>
    have hnext : ((a ++ [c]) ++ s).length + 1 < Nat.pow 2 32 := by simpa using h
    have hc : a.length + 2 < Nat.pow 2 32 := by
      rw [List.length_append, List.length_cons] at h
      omega
    rw [advanceBy?, advance?_after hc, Option.bind_some, ih hnext, List.append_assoc,
      List.singleton_append]

/-- The span from a place to one that comes after it. -/
theorem upTo_after (a s : Text) : (after a).upTo (after (a ++ s)) = .ok (Span.after a s) := by
  rw [upTo, if_pos]
  · rfl
  · rw [offset_after, offset_after, Text.size_append]
    exact Nat.le_add_right ..

end Position

namespace Offsets

/-- A text is short enough for the numbers of its places, where that matters. -/
def Fits (o : Overflow) (t : Text) : Prop := o = .faults → t.length + 1 < Nat.pow 2 32

/-- Where numbers wrap around, every text is short enough. -/
theorem fits_wraps (t : Text) : Fits .wraps t := nofun

/-- In a text that is short enough, the place after a part of it has its numbers. -/
theorem Fits.goOn {o : Overflow} {t a s b : Text} (h : Fits o t) (ht : t = a ++ (s ++ b)) :
    (Position.after a).goOn o s = .ok (.after (a ++ s)) := by
  cases o with
  | wraps => rw [Position.goOn, Position.advanceBy_after]
  | faults =>
    have hlen : (a ++ s).length + 1 < Nat.pow 2 32 := by
      have hfit := h rfl
      rw [ht, ← List.append_assoc, List.length_append] at hfit
      omega
    rw [Position.goOn, Position.advanceBy?_after hlen]

/-- A question is answered, and the answer is as said. -/
def Answers {α : Type} (x : Except OffsetFault α) (P : α → Prop) : Prop := ∃ y, x = .ok y ∧ P y

/-- At a byte of a text each rule answers, and what it finds stands there. -/
structure RulesAnswer (t : Text) (n : Nat) (memo : QuoteMemo) : Prop where
  fieldPair : Answers (Offsets.fieldPair t n memo) fun x => ∀ h ∈ x.1, h.StandsAt t n
  connective : Answers (Offsets.connective t n) fun x => ∀ h ∈ x, h.StandsAt t n
  quotation : Answers (Offsets.quotation t n memo) fun x => ∀ h ∈ x.1, h.StandsAt t n
  bareField : Answers (Offsets.bareField t n) fun x => ∀ h ∈ x, h.StandsAt t n ∧
    Answers (Offsets.missingValue? t n h) fun y => ∀ miss ∈ y, miss.StandsAt t n
  nearMiss : Answers (Offsets.nearMiss? t n) fun y => ∀ miss ∈ y, miss.StandsAt t n

/-- **At a place each rule answers**, whatever is remembered. -/
theorem rulesAnswer {t : Text} {n : Nat} (hn : t.IsPlace n) (memo : QuoteMemo) :
    RulesAnswer t n memo := by
  obtain ⟨a, b, rfl, rfl⟩ := hn
  constructor
  · refine ⟨_, fieldPair_eq memo a b, fun h hh => ?_⟩
    obtain ⟨m, hm, rfl⟩ := Option.map_eq_some_iff.1 hh
    exact m.standsAt a (Rule.rest_eq_of_fieldPair hm) (Rule.text_ne_nil_of_fieldPair hm)
  · refine ⟨_, connective_eq a b, fun h hh => ?_⟩
    obtain ⟨m, hm, rfl⟩ := Option.map_eq_some_iff.1 hh
    exact m.standsAt a (Rule.rest_eq_of_connective hm) (Rule.text_ne_nil_of_connective hm)
  · refine ⟨_, quotation_eq memo a b, fun h hh => ?_⟩
    obtain ⟨m, hm, rfl⟩ := Option.map_eq_some_iff.1 hh
    exact m.standsAt a (Rule.rest_eq_of_quotation hm) (Rule.text_ne_nil_of_quotation hm)
  · refine ⟨_, bareField_eq a b, fun h hh => ?_⟩
    obtain ⟨m, hm, rfl⟩ := Option.map_eq_some_iff.1 hh
    have hrest : b = m.token.text ++ m.rest := Rule.rest_eq_of_bareField hm
    refine ⟨m.standsAt a hrest (Rule.text_ne_nil_of_bareField hm),
      _, missingValue?_eq hrest, fun miss hmiss => NearMiss.standsAt a ⟨m.rest, ?_⟩⟩
    rw [Match.text_of_nearMiss? hmiss, ← hrest]
  · exact ⟨_, nearMiss?_eq a b, fun miss hmiss =>
      NearMiss.standsAt a (text_prefix_of_nearMiss? hmiss)⟩

/-! ## A turn -/

/-- The state of a scan that has read `a`, whose tokens are settled, and the plain text
`u`. -/
def State.after (a u : Text) (memo : QuoteMemo) (tokens : List (Located Token))
    (findings : List Finding) : State where
  offset := (a ++ u).size
  here := .after (a ++ u)
  plainStart := if u = [] then none else some (a.size, .after a)
  memo := memo
  tokens := tokens
  findings := findings

section Turns

variable {o : Overflow} {t a u b : Text} {c : Char} {m : Match} {memo : QuoteMemo}
  {T : List (Located Token)} {F : List Finding}

/-- The scan stands where what has been read ends. -/
@[simp] theorem State.offset_after : (State.after a u memo T F).offset = (a ++ u).size := rfl

/-- So does its position. -/
@[simp] theorem State.here_after : (State.after a u memo T F).here = .after (a ++ u) := rfl

/-- It remembers what it is given to. -/
@[simp] theorem State.memo_after : (State.after a u memo T F).memo = memo := rfl

/-- The plain text is settled. -/
theorem State.flush_after (ht : t = a ++ (u ++ b)) :
    (State.after a u memo T F).flush t =
      .ok (.after (a ++ u) [] memo (T ++ PlainRun.token a u) F) := by
  by_cases hu : u = []
  · subst hu
    simp [State.flush, State.after]
  · have hpart : t.part a.size (a.size + u.size) = .ok u := by rw [ht, Text.part_size]
    simp [State.flush, State.after, State.push, hu, hpart, Position.upTo_after,
      PlainRun.token, Span.after]

/-- A near miss at the place is noted with the stretch `s` that it is about. -/
theorem State.report_after {x : Option NearMiss} {stop : Except OffsetFault Position}
    {s : NearMiss → Text} (h : ∀ miss ∈ x, stop = .ok (.after (a ++ u ++ s miss))) :
    (State.after a u memo T F).report x stop =
      .ok (.after a u memo T
        (F ++ (x.map fun miss => ⟨miss, Span.after (a ++ u) (s miss)⟩).toList)) := by
  cases x with
  | none => simp [State.report]
  | some miss =>
    rw [State.report, h miss rfl, OffsetFault.ok_bind]
    show (do let span ← (Position.after (a ++ u)).upTo (.after (a ++ u ++ s miss)); _) = _
    rw [Position.upTo_after]
    rfl

/-- What a match covers becomes a token. -/
theorem State.take_after (ho : Fits o t) (ht : t = a ++ (m.token.text ++ b)) :
    (State.after a [] memo T F).take o t m.hit =
      .ok (.after (a ++ m.token.text) [] memo (T ++ [⟨m.token, .after a m.token.text⟩]) F) := by
  have hpart : t.part a.size (a.size + m.token.text.size) = .ok m.token.text := by
    rw [ht, Text.part_size]
  simp [State.take, State.after, State.push, Match.hit, hpart, ho.goOn ht, Position.upTo_after]

/-- A character joins the plain text. -/
theorem State.extend_after (ho : Fits o t) (ht : t = a ++ u ++ c :: b) :
    (State.after a u memo T F).extend o c = .ok (.after a (u ++ [c]) memo T F) := by
  have hgo : (Position.after (a ++ u)).goOn o [c] = .ok (.after (a ++ u ++ [c])) := ho.goOn ht
  by_cases hu : u = []
  · subst hu
    simp_all [State.extend, State.after]
  · simp [State.extend, State.after, hgo, hu, Nat.add_assoc]

/-- **At the end of the text** there is no turn. -/
theorem step_nil : step o (a ++ u) (.after a u memo T F) = .ok none := by
  have honwards : (a ++ u).onwards (a ++ u).size = .ok [] := by
    simpa using Text.onwards_size (a ++ u) []
  rw [step, State.after, honwards]
  rfl

/-- **Where a rule matches**, a turn settles the plain text and the match. -/
theorem step_of_best (ho : Fits o (a ++ u ++ b)) (hm : memo.Sound (a ++ u ++ b))
    (h : Rule.best (.between (a ++ u) b) = some m) :
    ∃ memo', memo'.Sound (a ++ u ++ b) ∧ step o (a ++ u ++ b) (.after a u memo T F) =
      .ok (some (.after (a ++ u ++ m.token.text) [] memo'
        (T ++ PlainRun.token a u ++ [⟨m.token, .after (a ++ u) m.token.text⟩])
        (F ++ (m.nearMiss?.map fun miss =>
          ⟨miss, Span.after (a ++ u) m.token.text⟩).toList))) := by
  obtain ⟨hfirst, hsound⟩ := Rule.first_of_sound hm
  obtain ⟨hb, hne⟩ := Rule.rest_eq_of_best h
  have ht : a ++ u ++ b = a ++ u ++ (m.token.text ++ m.rest) := by rw [← hb]
  have hhead : b.head? = some (m.token.text.head hne) := by
    rw [hb, List.head?_append, List.head?_eq_some_head hne, Option.some_or]
  have hpart : (a ++ u ++ b).part (a ++ u).size ((a ++ u).size + m.hit.size) =
      .ok m.token.text := by
    rw [ht]
    exact Text.part_size ..
  refine ⟨_, hsound, ?_⟩
  simp only [step, State.offset_after, State.memo_after, State.here_after, Text.onwards_size,
    first_eq, hfirst, h, hhead, Option.map_some, OffsetFault.ok_bind, missingValue?_eq hb, hpart,
    ho.goOn ht]
  show (State.after a u (Rule.first memo (.between (a ++ u) b)).2 T F).report _ _ >>= _ = _
  rw [State.report_after (s := fun _ => m.token.text) fun _ _ => rfl, OffsetFault.ok_bind,
    State.flush_after (by rw [← List.append_assoc]), OffsetFault.ok_bind, State.take_after ho ht]
  rfl

/-- **Where no rule matches**, a turn adds a character to the plain text. -/
theorem step_of_best_eq_none (ho : Fits o (a ++ u ++ c :: b)) (hm : memo.Sound (a ++ u ++ c :: b))
    (h : Rule.best (.between (a ++ u) (c :: b)) = none) :
    ∃ memo', memo'.Sound (a ++ u ++ c :: b) ∧
      step o (a ++ u ++ c :: b) (.after a u memo T F) =
        .ok (some (.after a (u ++ [c]) memo' T
          (F ++ ((SearchMarkup.nearMiss? (.between (a ++ u) (c :: b))).map fun miss =>
            ⟨miss, Span.after (a ++ u) miss.text⟩).toList))) := by
  obtain ⟨hfirst, hsound⟩ := Rule.first_of_sound hm
  have hstop : ∀ miss ∈ SearchMarkup.nearMiss? (.between (a ++ u) (c :: b)),
      (Position.after (a ++ u)).goOn o
          (((SearchMarkup.nearMiss? (.between (a ++ u) (c :: b))).map NearMiss.text).getD []) =
        .ok (.after (a ++ u ++ miss.text)) := by
    intro miss hmiss
    obtain ⟨rest, hrest⟩ := text_prefix_of_nearMiss? hmiss
    rw [Option.mem_def.1 hmiss]
    exact ho.goOn (congrArg (a ++ u ++ ·) hrest.symm)
  refine ⟨_, hsound, ?_⟩
  simp only [step, State.offset_after, State.memo_after, State.here_after, Text.onwards_size,
    first_eq, hfirst, h, List.head?_cons, Option.map_none, OffsetFault.ok_bind, nearMiss?_eq]
  show (State.after a u (Rule.first memo (.between (a ++ u) (c :: b))).2 T F).report _ _ >>= _ = _
  rw [State.report_after hstop, OffsetFault.ok_bind, State.extend_after ho rfl]
  rfl

end Turns

/-! ## The run -/

section Runs

variable {o : Overflow} {t a u rest : Text} {s s' : State} {memo : QuoteMemo}
  {T : List (Located Token)} {F : List Finding} {r : Except OffsetFault Scan}

/-- A fault in a turn is what comes out. -/
theorem runs_iff_of_step_error {e : OffsetFault} (h : step o t s = .error e) :
    Runs o t s r ↔ r = .error e := by
  constructor
  · intro hr
    cases hr with
    | fault hf => rw [Except.error.inj (hf.symm.trans h)]
    | done hd => exact nomatch hd.symm.trans h
    | turn hs => exact nomatch hs.symm.trans h
  · rintro rfl
    exact .fault h

/-- Without a further turn, what it has yielded comes out. -/
theorem runs_iff_of_step_none (h : step o t s = .ok none) : Runs o t s r ↔ r = finish t s := by
  constructor
  · intro hr
    cases hr with
    | fault hf => exact nomatch hf.symm.trans h
    | done => rfl
    | turn hs => exact nomatch hs.symm.trans h
  · rintro rfl
    exact .done h

/-- After a turn, what comes out is what comes out of the rest. -/
theorem runs_iff_of_step_some (h : step o t s = .ok (some s')) :
    Runs o t s r ↔ Runs o t s' r := by
  constructor
  · intro hr
    cases hr with
    | fault hf => exact nomatch hf.symm.trans h
    | done hd => exact nomatch hd.symm.trans h
    | turn hs later =>
      obtain rfl := Option.some.inj (Except.ok.inj (hs.symm.trans h))
      exact later
  · exact .turn h

/-- What is left when the text is over. -/
theorem finish_after :
    finish (a ++ u) (.after a u memo T F) = .ok ⟨T ++ PlainRun.token a u, F⟩ := by
  rw [finish, State.flush_after (b := []) (by rw [List.append_nil])]
  rfl

/-- **What comes out of a scan is the scan of the text**, and it does come out. -/
theorem runs_after_iff (ho : Fits o (a ++ u ++ rest)) (hm : memo.Sound (a ++ u ++ rest)) :
    Runs o (a ++ u ++ rest) (.after a u memo T F) r ↔
      r = .ok ⟨T ++ (Scan.resume a u rest).tokens, F ++ (Scan.resume a u rest).findings⟩ := by
  fun_induction Scan.resume a u rest generalizing memo T F with
  | case1 a u =>
    rw [List.append_nil, runs_iff_of_step_none step_nil, finish_after, List.append_nil]
  | case2 a u c b m h ih =>
    obtain ⟨memo', hm', hstep⟩ := step_of_best ho hm h
    obtain ⟨hb, -⟩ := Rule.rest_eq_of_best h
    have ht : a ++ u ++ c :: b = a ++ u ++ m.token.text ++ [] ++ m.rest := by rw [hb]; simp
    rw [runs_iff_of_step_some hstep, ht, ih (ht ▸ ho) (ht ▸ hm')]
    simp [Scan.consMatch]
  | case3 a u c b h ih =>
    obtain ⟨memo', hm', hstep⟩ := step_of_best_eq_none ho hm h
    have ht : a ++ u ++ c :: b = a ++ (u ++ [c]) ++ b := by simp
    rw [runs_iff_of_step_some hstep, ht, ih (ht ▸ ho) (ht ▸ hm')]
    simp [Scan.consMiss]

/-- The scan of a text that is short enough yields its tokens and findings. -/
theorem runs_start_iff (ho : Fits o t) : Runs o t {} r ↔ r = .ok (Scan.ofText t) := by
  rw [Scan.ofText_eq_resume]
  exact runs_after_iff (a := []) (u := []) (T := []) (F := []) ho (QuoteMemo.sound_empty t)

/-- A state tells what has been read of a text, and remembers nothing wrong of it. -/
def State.IsOf (t : Text) (s : State) : Prop :=
  ∃ a u b memo T F, t = a ++ u ++ b ∧ memo.Sound t ∧ s = .after a u memo T F

/-- Before anything is read, nothing wrong is remembered. -/
theorem State.isOf_start (t : Text) : ({} : State).IsOf t :=
  ⟨[], [], t, {}, [], [], rfl, QuoteMemo.sound_empty t, rfl⟩

/-- A scan stands at a place of the text. -/
theorem State.IsOf.isPlace (h : s.IsOf t) : t.IsPlace s.offset := by
  obtain ⟨a, u, b, memo, T, F, rfl, -, rfl⟩ := h
  exact ⟨a ++ u, b, rfl, rfl⟩

/-- **A turn goes on to a later place**, unless the text is over. -/
theorem State.IsOf.step (ho : Fits o t) (h : s.IsOf t) :
    (s.offset = t.size ∧ step o t s = .ok none) ∨
      ∃ s', step o t s = .ok (some s') ∧ s.offset < s'.offset ∧ s'.IsOf t := by
  obtain ⟨a, u, b, memo, T, F, rfl, hm, rfl⟩ := h
  cases b with
  | nil => exact .inl (by rw [List.append_nil]; exact ⟨rfl, step_nil⟩)
  | cons c b =>
    right
    cases h : Rule.best (.between (a ++ u) (c :: b)) with
    | some m =>
      obtain ⟨memo', hm', hstep⟩ := step_of_best ho hm h
      obtain ⟨hb, hne⟩ := Rule.rest_eq_of_best h
      refine ⟨_, hstep, ?_, a ++ u ++ m.token.text, [], m.rest, memo', _, _, ?_, hm', rfl⟩
      · have hpos := Nat.pos_of_ne_zero (mt Text.size_eq_zero.1 hne)
        simp only [State.offset_after, List.append_nil, Text.size_append]
        omega
      · rw [hb, List.append_nil, List.append_assoc _ m.token.text]
    | none =>
      obtain ⟨memo', hm', hstep⟩ := step_of_best_eq_none ho hm h
      refine ⟨_, hstep, ?_, a, u ++ [c], b, memo', _, _, by simp, hm', rfl⟩
      have hpos := c.utf8Size_pos
      simp only [State.offset_after, Text.size_append, Text.size_cons, Text.size_nil]
      omega

/-! ## Texts too long for their numbers -/

/-- A search whose numbers may not wrap around comes to the same, unless one of them does not
fit its word. -/
def Guards {α : Type} (x y : Except OffsetFault α) : Prop := x = y ∨ ∃ p, x = .error (.word p)

/-- Without numbers nothing can fail to fit. -/
theorem Guards.refl {α : Type} (x : Except OffsetFault α) : Guards x x := .inl rfl

/-- Searches one after the other. -/
theorem Guards.bind {α β : Type} {x y : Except OffsetFault α} {f g : α → Except OffsetFault β}
    (hx : Guards x y) (hf : ∀ z, Guards (f z) (g z)) : Guards (x >>= f) (y >>= g) := by
  rcases hx with rfl | ⟨p, rfl⟩
  · cases x with
    | error e => exact .inl rfl
    | ok z => exact hf z
  · exact .inr ⟨p, rfl⟩

/-- Going on to a place guards its numbers. -/
theorem guards_goOn (o : Overflow) (p : Position) (u : Text) :
    Guards (p.goOn o u) (p.goOn .wraps u) := by
  cases o with
  | wraps => exact .refl _
  | faults =>
    rw [Position.goOn, Position.goOn]
    cases hq : p.advanceBy? u with
    | none => exact .inr ⟨p, rfl⟩
    | some q => exact .inl (congrArg Except.ok (Position.eq_advanceBy_of_advanceBy? hq))

/-- Reporting a near miss guards the place where it ends. -/
theorem guards_report {stop stop' : Except OffsetFault Position} (s : State)
    (x : Option NearMiss) (h : Guards stop stop') :
    Guards (s.report x stop) (s.report x stop') := by
  cases x with
  | none => exact .refl _
  | some miss => exact .bind h fun _ => .refl _

/-- Taking a match guards the place behind it. -/
theorem guards_take (o : Overflow) (t : Text) (s : State) (h : Hit) :
    Guards (s.take o t h) (s.take .wraps t h) :=
  .bind (.refl _) fun u => .bind (guards_goOn o s.here u) fun _ => .refl _

/-- Passing a character guards the place behind it. -/
theorem guards_extend (o : Overflow) (s : State) (c : Char) :
    Guards (s.extend o c) (s.extend .wraps c) :=
  .bind (guards_goOn o s.here [c]) fun _ => .refl _

/-- **Only a number can fault in a turn.** -/
theorem guards_step (o : Overflow) (t : Text) (s : State) :
    Guards (step o t s) (step .wraps t s) := by
  refine .bind (.refl _) fun rest => ?_
  cases rest.head? with
  | none => exact .refl _
  | some c =>
    refine .bind (.refl _) fun found => ?_
    obtain ⟨found, memo⟩ := found
    cases found with
    | some h =>
      refine .bind (.refl _) fun miss => .bind (guards_report _ miss ?_) fun s' =>
        .bind (.refl _) fun s' => .bind (guards_take o t s' h) fun _ => .refl _
      exact .bind (.refl _) fun u => guards_goOn o s.here u
    | none =>
      refine .bind (.refl _) fun miss => .bind (guards_report _ miss (guards_goOn o _ _)) fun s' =>
        .bind (guards_extend o s' c) fun _ => .refl _

/-- A turn without a fault is the same where numbers wrap around. -/
theorem step_wraps_eq (h : step o t s = .ok (some s')) : step .wraps t s = .ok (some s') := by
  rcases guards_step o t s with heq | ⟨p, hp⟩
  · rw [← heq, h]
  · exact nomatch h.symm.trans hp

/-- What a scan passes through tells what it has read. -/
theorem Passes.isOf (h : Passes o t s) : s.IsOf t := by
  induction h with
  | start => exact State.isOf_start t
  | turn _ hstep ih =>
    have hwraps := step_wraps_eq hstep
    rcases ih.step (fits_wraps t) with ⟨-, hnone⟩ | ⟨s', hsome, -, hs'⟩
    · exact nomatch hwraps.symm.trans hnone
    · obtain rfl := Option.some.inj (Except.ok.inj (hwraps.symm.trans hsome))
      exact hs'

/-- A scan whose numbers may not wrap around ends where the other does, or at a number. -/
theorem exists_runs (o : Overflow) (h : Runs .wraps t s r) : ∃ r', Guards r' r ∧ Runs o t s r' := by
  induction h with
  | @fault s e h =>
    rcases guards_step o t s with heq | ⟨p, hp⟩
    · exact ⟨_, .refl _, .fault (heq.trans h)⟩
    · exact ⟨_, .inr ⟨p, rfl⟩, .fault hp⟩
  | @done s h =>
    rcases guards_step o t s with heq | ⟨p, hp⟩
    · exact ⟨_, .refl _, .done (heq.trans h)⟩
    · exact ⟨_, .inr ⟨p, rfl⟩, .fault hp⟩
  | @turn s s' r h _ ih =>
    rcases guards_step o t s with heq | ⟨p, hp⟩
    · obtain ⟨r', hr', hruns⟩ := ih
      exact ⟨r', hr', .turn (heq.trans h) hruns⟩
    · exact ⟨_, .inr ⟨p, rfl⟩, .fault hp⟩

/-- At most one thing comes out of a scan. -/
theorem Runs.unique {r' : Except OffsetFault Scan} (h : Runs o t s r) (h' : Runs o t s r') :
    r' = r := by
  induction h with
  | fault h => exact (runs_iff_of_step_error h).1 h'
  | done h => exact (runs_iff_of_step_none h).1 h'
  | turn h _ ih => exact ih ((runs_iff_of_step_some h).1 h')

/-- **A search by offsets never cuts a text where it has no place.** At every place of every
text each rule answers, whatever is remembered: what it finds takes at least one byte, ends
at a place of the text and is the text of the token found, and a near miss is about what
follows the place.  So a scan goes on from place to later place until the text is over, and
yields the scan of the text.

Where numbers wrap around this is so for every text.  Where one that does not fit its word
is a fault, it is so for every text of fewer than `2 ^ 32 - 1` characters, and in a longer
one nothing else can fault. -/
theorem scan_never_faults (t : Text) :
    (∀ n memo, t.IsPlace n → RulesAnswer t n memo) ∧
      ∀ o, (∀ s, Passes o t s → t.IsPlace s.offset ∧
          ((s.offset = t.size ∧ step o t s = .ok none) ∨
            (∃ s', step o t s = .ok (some s') ∧ s.offset < s'.offset ∧ t.IsPlace s'.offset) ∨
            ¬Fits o t ∧ ∃ p, step o t s = .error (.word p))) ∧
        ∃ r, (∀ r', Runs o t {} r' ↔ r' = r) ∧
          (r = .ok (Scan.ofText t) ∨ ¬Fits o t ∧ ∃ p, r = .error (.word p)) := by
  refine ⟨fun n memo hn => rulesAnswer hn memo, fun o => ⟨fun s hs => ?_, ?_⟩⟩
  · have hof := hs.isOf
    refine ⟨hof.isPlace, ?_⟩
    rcases guards_step o t s with heq | ⟨p, hp⟩
    · rw [heq]
      rcases hof.step (fits_wraps t) with hend | ⟨s', hstep, hlt, hs'⟩
      · exact .inl hend
      · exact .inr (.inl ⟨s', hstep, hlt, hs'.isPlace⟩)
    · refine .inr (.inr ⟨fun ho => ?_, p, hp⟩)
      rcases hof.step ho with ⟨-, hnone⟩ | ⟨s', hsome, -⟩
      · exact nomatch hp.symm.trans hnone
      · exact nomatch hp.symm.trans hsome
  · obtain ⟨r, hr, hruns⟩ := exists_runs o ((runs_start_iff (fits_wraps t)).2 rfl)
    refine ⟨r, fun r' => ⟨hruns.unique, fun h => h ▸ hruns⟩, ?_⟩
    rcases hr with hok | ⟨p, rfl⟩
    · exact .inl hok
    · refine .inr ⟨fun ho => ?_, p, rfl⟩
      exact nomatch (runs_start_iff ho).1 hruns

/-- In `é TI=“ü”` a field pair begins at byte 3 and ends where the text does, and a scan
whose numbers may not wrap around comes to its end. -/
theorem scan_never_faults_pair_at_end :
    let t : Text := ['é', ' ', 'T', 'I', '=', '“', 'ü', '”']
    t.IsPlace 3 ∧ RulesAnswer t 3 {} ∧
      fieldPair t 3 {} = .ok (some ⟨.field .title (some ⟨'“', ['ü'], '”'⟩), 11⟩, {}) ∧
      Fits .faults t ∧ Passes .faults t {} ∧
      (∃ s', step .faults t {} = .ok (some s') ∧ 0 < s'.offset ∧ t.IsPlace s'.offset) ∧
      Runs .faults t {} (.ok (Scan.ofText t)) := by
  intro t
  have hplace : t.IsPlace 3 := ⟨['é', ' '], ['T', 'I', '=', '“', 'ü', '”'], rfl, rfl⟩
  have hfits : Fits .faults t := fun _ => by decide
  obtain ⟨hrules, hscan⟩ := scan_never_faults t
  obtain ⟨hpasses, r, hruns, hr⟩ := hscan .faults
  refine ⟨hplace, hrules 3 {} hplace, by decide, hfits, .start, ?_, ?_⟩
  · obtain ⟨-, ⟨hend, -⟩ | hturn | ⟨hlong, -⟩⟩ := hpasses {} .start
    · exact absurd hend (by decide)
    · exact hturn
    · exact absurd hfits hlong
  · rcases hr with rfl | ⟨hlong, -⟩
    · exact (hruns _).2 rfl
    · exact absurd hfits hlong

end Runs

end Offsets
end SearchMarkup
