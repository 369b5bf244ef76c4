/-
# Which highlights a session shows

A host issues revisions, computes highlights for them and delivers these in any order,
late, several times or never. What can be seen of that is a *history*: the revisions
issued and the highlights shown, in the order in which it happened.

| action | adds to the history |
| --- | --- |
| `begin` | a revision |
| `onInput` | a revision, and the highlight of it |
| `complete` | nothing |
| `apply` | the highlight delivered, or nothing if that is refused |

`Accounts` ties a history to the state of the session: the revisions are 1, 2, 3, … up to
the latest, each highlight was shown under the revision that was the newest then, their
revisions increase, and the last one is the current one. What an action can do is told once
(`acts_of_act`). Every action keeps the account (`Accounts.act`), so it holds after every run
(`accounts_run`).
-/

import SearchMarkup.Session
import Mathlib.Data.List.Basic

namespace SearchMarkup
namespace Session

/-- What a host can do with a session. -/
inductive Action where
  | begin
  | onInput (t : Text)
  | complete (r : Revision) (t : Text)
  /-- A result is delivered, whatever its revision. -/
  | apply (h : Highlight)
  deriving DecidableEq, Repr

/-- What can be seen of an action. -/
inductive Notice where
  | issued (r : Revision)
  | shown (h : Highlight)
  deriving DecidableEq, Repr

/-- What is seen of an action, and the session after it; nothing after a fault. -/
def act (o : Overflow) (s : Session) : Action → Option (List Notice × Session)
  | .begin => (s.begin o).map fun p => ([.issued p.1], p.2)
  | .onInput t => (s.onInput o t).value?.map fun p => ([.issued p.1.revision, .shown p.1], p.2)
  | .complete r t => some ([], (s.complete r t).value.2)
  | .apply h => (s.apply o h).value?.map fun p => (if p.1 then [.shown h] else [], p.2)

/-- What an action does where it does not fault. -/
inductive Acts (o : Overflow) (s : Session) : Action → List Notice → Session → Prop where
  | begin {r : Revision} {s' : Session} (hbegin : s.begin o = some (r, s')) :
    Acts o s .begin [.issued r] s'
  | onInput {t : Text} {r : Revision} {s₁ s' : Session} (hbegin : s.begin o = some (r, s₁))
    (hinstall : ((s₁.complete r t).value.2.install o (s₁.complete r t).value.1).value? = some s') :
    Acts o s (.onInput t) [.issued r, .shown (s₁.complete r t).value.1] s'
  | complete (r : Revision) (t : Text) : Acts o s (.complete r t) [] (s.complete r t).value.2
  | apply {h : Highlight} {accepted : Bool} {s' : Session}
    (happly : (s.apply o h).value? = some (accepted, s')) :
    Acts o s (.apply h) (if accepted then [.shown h] else []) s'

/-- **What an action can do.** -/
theorem acts_of_act {o : Overflow} {s s' : Session} {a : Action} {seen : List Notice}
    (hact : s.act o a = some (seen, s')) : Acts o s a seen s' := by
  cases a with
  | begin =>
    obtain ⟨p, hbegin, heq⟩ := Option.map_eq_some_iff.1 hact
    obtain ⟨rfl, rfl⟩ := Prod.mk.inj heq
    exact .begin hbegin
  | onInput t =>
    obtain ⟨p, hinput, heq⟩ := Option.map_eq_some_iff.1 hact
    obtain ⟨rfl, rfl⟩ := Prod.mk.inj heq
    obtain ⟨r, s₁, hbegin, hcomplete, hinstall⟩ := onInput_eq_some_iff.1 hinput
    rw [← hcomplete] at hinstall ⊢
    exact .onInput hbegin hinstall
  | complete r t =>
    obtain ⟨rfl, rfl⟩ := Prod.mk.inj (Option.some.inj hact)
    exact .complete r t
  | apply h =>
    obtain ⟨p, happly, heq⟩ := Option.map_eq_some_iff.1 hact
    obtain ⟨rfl, rfl⟩ := Prod.mk.inj heq
    exact .apply happly

/-- What is seen of one action after another, and the session after them, if none of them
faults. -/
def run (o : Overflow) (s : Session) : List Action → Option (List Notice × Session)
  | [] => some ([], s)
  | a :: as => do
    let (seen, s) ← s.act o a
    let (later, s) ← s.run o as
    return (seen ++ later, s)

/-- A run is what is seen of its first action and of the run after it. -/
theorem run_cons_eq_some_iff {o : Overflow} {s s' : Session} {a : Action} {as : List Action}
    {seen : List Notice} :
    s.run o (a :: as) = some (seen, s') ↔
      ∃ first s₁ later, s.act o a = some (first, s₁) ∧ s₁.run o as = some (later, s') ∧
        seen = first ++ later := by
  simp only [run, Option.pure_def, Option.bind_eq_bind, Option.bind_eq_some_iff, Option.some.injEq,
    Prod.mk.injEq]
  constructor
  · rintro ⟨⟨first, s₁⟩, hact, ⟨later, s₂⟩, hrun, rfl, rfl⟩
    exact ⟨first, s₁, later, hact, hrun, rfl⟩
  · rintro ⟨first, s₁, later, hact, hrun, rfl⟩
    exact ⟨(first, s₁), hact, (later, s'), hrun, rfl, rfl⟩

/-- The revisions issued in a history. -/
def issuedIn (history : List Notice) : List Revision :=
  history.filterMap fun
    | .issued r => some r
    | .shown _ => none

/-- The highlights shown in a history. -/
def shownIn (history : List Notice) : List Highlight :=
  history.filterMap fun
    | .issued _ => none
    | .shown h => some h

/-- A revision that is issued comes last. -/
@[simp] theorem issuedIn_concat_issued (history : List Notice) (r : Revision) :
    issuedIn (history ++ [.issued r]) = issuedIn history ++ [r] := List.filterMap_append

/-- Showing a highlight issues no revision. -/
@[simp] theorem issuedIn_concat_shown (history : List Notice) (h : Highlight) :
    issuedIn (history ++ [.shown h]) = issuedIn history :=
  List.filterMap_append.trans (List.append_nil _)

/-- Issuing a revision shows no highlight. -/
@[simp] theorem shownIn_concat_issued (history : List Notice) (r : Revision) :
    shownIn (history ++ [.issued r]) = shownIn history :=
  List.filterMap_append.trans (List.append_nil _)

/-- A highlight that is shown comes last. -/
@[simp] theorem shownIn_concat_shown (history : List Notice) (h : Highlight) :
    shownIn (history ++ [.shown h]) = shownIn history ++ [h] := List.filterMap_append

/-- The highlights shown are those that were noticed. -/
theorem mem_shownIn {history : List Notice} {h : Highlight} :
    h ∈ shownIn history ↔ .shown h ∈ history := by
  rw [shownIn, List.mem_filterMap]
  constructor
  · rintro ⟨x, hx, hsome⟩
    cases x with
    | issued r => cases hsome
    | shown g =>
      obtain rfl := Option.some.inj hsome
      exact hx
  · exact fun hmem => ⟨.shown h, hmem, rfl⟩

/-- A history with one more notice is cut before that notice or before an earlier one. -/
theorem eq_or_eq_of_concat {history past later : List Notice} {x y : Notice}
    (h : history ++ [x] = past ++ y :: later) :
    (past = history ∧ y = x) ∨ ∃ rest, history = past ++ y :: rest := by
  rcases List.eq_nil_or_concat later with rfl | ⟨rest, z, rfl⟩
  · obtain ⟨rfl, hxy⟩ := List.append_inj' h rfl
    exact .inl ⟨rfl, (List.singleton_inj.1 hxy).symm⟩
  · rw [List.concat_eq_append, ← List.cons_append, ← List.append_assoc] at h
    exact .inr ⟨rest, (List.append_inj' h rfl).1⟩

/-- A history accounts for the state of a session: no revision has come round again. -/
structure Accounts (history : List Notice) (s : Session) : Prop where
  issued : (issuedIn history).map UInt64.toNat = List.range' 1 s.latest.toNat
  current : s.current = (shownIn history).getLast?
  newest : ∀ past h later, history = past ++ .shown h :: later →
    (issuedIn past).getLast? = some h.revision
  increasing : (shownIn history).Pairwise fun g h => g.revision < h.revision

/-- Nothing happened to a session that has just been started. -/
theorem accounts_start (x : ScanSettings) : Accounts [] (start x) where
  issued := rfl
  current := rfl
  newest := fun past h later hsplit => by simp at hsplit
  increasing := .nil

/-- What a session does with a result: it was never issued, or it is stale or shown
already, or else it is shown. Each time a count grows, if a word is left for it. -/
theorem apply_cases (o : Overflow) (s : Session) (h : Highlight) :
    ((h.revision = 0 ∨ s.latest < h.revision) ∧
      (s.apply o h).value? = (o.next? s.metrics.unknown).map fun n =>
        (false, { s with metrics := { s.metrics with unknown := n } })) ∨
    ((0 < h.revision ∧ h.revision ≤ s.latest ∧
        (h.revision < s.latest ∨ s.current.map Highlight.revision = some h.revision)) ∧
      (s.apply o h).value? = (o.next? s.metrics.stale).map fun n =>
        (false, { s with metrics := { s.metrics with stale := n } })) ∨
    ((0 < h.revision ∧ h.revision = s.latest ∧
        s.current.map Highlight.revision ≠ some h.revision) ∧
      (s.apply o h).value? = (o.next? s.metrics.applied).map fun n =>
        (true, { s with current := some h, metrics := { s.metrics with applied := n } })) := by
  by_cases hunknown : h.revision = 0 ∨ s.latest < h.revision
  · refine .inl ⟨hunknown, ?_⟩
    simp only [apply, if_pos hunknown]
    exact Faulting.value?_tell_return ..
  · obtain ⟨hne, hle⟩ := not_or.1 hunknown
    have hpos : 0 < h.revision := UInt64.pos_iff_ne_zero.2 hne
    have hle : h.revision ≤ s.latest := UInt64.not_lt.1 hle
    by_cases hstale : h.revision < s.latest ∨ s.current.map Highlight.revision = some h.revision
    · refine .inr (.inl ⟨⟨hpos, hle, hstale⟩, ?_⟩)
      simp only [apply, if_neg hunknown, if_pos hstale]
      exact Faulting.value?_tell_return ..
    · obtain ⟨hge, hnew⟩ := not_or.1 hstale
      refine .inr (.inr ⟨⟨hpos, UInt64.le_antisymm hle (UInt64.not_lt.1 hge), hnew⟩, ?_⟩)
      simp only [apply, if_neg hunknown, if_neg hstale, Faulting.value?_bind, value?_install]
      cases o.next? s.metrics.applied <;> rfl

namespace Accounts

variable {o : Overflow} {history seen : List Notice} {s s' : Session} {r : Revision}

/-- Only the latest revision and the current highlight are accounted for. -/
theorem congr (hs : Accounts history s) (hlatest : s'.latest = s.latest)
    (hcurrent : s'.current = s.current) : Accounts history s' where
  issued := by rw [hs.issued, hlatest]
  current := by rw [hcurrent, hs.current]
  newest := hs.newest
  increasing := hs.increasing

/-- As many revisions were issued as the latest one says. -/
theorem length_issuedIn (hs : Accounts history s) :
    (issuedIn history).length = s.latest.toNat := by
  rw [← List.length_map UInt64.toNat, hs.issued, List.length_range']

/-- The revisions issued are those from 1 to the latest. -/
theorem mem_issuedIn (hs : Accounts history s) : r ∈ issuedIn history ↔ 0 < r ∧ r ≤ s.latest := by
  have hinj : Function.Injective UInt64.toNat := fun _ _ => UInt64.toNat_inj.1
  rw [← List.mem_map_of_injective hinj, hs.issued, List.mem_range'_1, UInt64.lt_iff_toNat_lt,
    UInt64.le_iff_toNat_le, Nat.add_comm, Nat.lt_succ_iff]
  rfl

/-- The revisions issued go up. -/
theorem pairwise_issuedIn (hs : Accounts history s) : (issuedIn history).Pairwise (· < ·) := by
  have hinc : ((issuedIn history).map UInt64.toNat).Pairwise (· < ·) :=
    hs.issued ▸ List.pairwise_lt_range'
  exact (List.pairwise_map.1 hinc).imp UInt64.lt_iff_toNat_lt.2

/-- The latest revision is the one issued last. -/
theorem getLast?_issuedIn (hs : Accounts history s) :
    (issuedIn history).getLast? = some r ↔ 0 < r ∧ r = s.latest := by
  have hlast : (issuedIn history).getLast?.map UInt64.toNat =
      if s.latest.toNat = 0 then none else some s.latest.toNat := by
    rw [← List.getLast?_map, hs.issued, List.getLast?_range', Nat.add_sub_cancel_left]
  have hsome : (issuedIn history).getLast? = some r ↔
      (issuedIn history).getLast?.map UInt64.toNat = some r.toNat := by
    rw [Option.map_eq_some_iff]
    exact ⟨fun h => ⟨r, h, rfl⟩, fun ⟨q, hq, heq⟩ => UInt64.toNat_inj.1 heq ▸ hq⟩
  rw [hsome, hlast, UInt64.lt_iff_toNat_lt]
  by_cases hnone : s.latest.toNat = 0
  · rw [if_pos hnone]
    refine iff_of_false (fun h => by cases h) fun ⟨hpos, heq⟩ => ?_
    exact Nat.ne_of_gt hpos (heq ▸ hnone)
  · rw [if_neg hnone, Option.some.injEq, UInt64.toNat_inj]
    exact ⟨fun heq => ⟨heq ▸ Nat.pos_of_ne_zero hnone, heq.symm⟩, fun ⟨_, heq⟩ => heq.symm⟩

/-- The shown revisions go up to that of the current highlight. -/
theorem revision_le {g h : Highlight} (hs : Accounts history s) (hg : g ∈ shownIn history)
    (hh : s.current = some h) : g.revision ≤ h.revision := by
  rw [hs.current] at hh
  obtain ⟨gs, hgs⟩ := List.getLast?_eq_some_iff.1 hh
  rw [hgs] at hg
  rcases List.mem_append.1 hg with hg | hg
  · have hinc := hs.increasing
    rw [hgs, List.pairwise_append] at hinc
    exact UInt64.le_of_lt (hinc.2.2 g hg h (List.mem_singleton_self h))
  · exact UInt64.le_of_eq (congrArg Highlight.revision (List.mem_singleton.1 hg))

/-- What is shown was issued before, and not after the latest revision. -/
theorem pos_and_le_latest {h : Highlight} (hs : Accounts history s) (hh : h ∈ shownIn history) :
    0 < h.revision ∧ h.revision ≤ s.latest := by
  obtain ⟨past, later, rfl⟩ := List.append_of_mem (mem_shownIn.1 hh)
  have hpast : h.revision ∈ issuedIn past := List.mem_of_getLast? (hs.newest past h later rfl)
  rw [← hs.mem_issuedIn, issuedIn, List.filterMap_append]
  exact List.mem_append_left _ hpast

/-- What was issued before a highlight was shown goes up to its revision. -/
theorem le_of_mem_issuedIn {past later : List Notice} {h : Highlight}
    (hs : Accounts history s) (hsplit : history = past ++ .shown h :: later)
    (hr : r ∈ issuedIn past) : r ≤ h.revision := by
  obtain ⟨rs, hrs⟩ := List.getLast?_eq_some_iff.1 (hs.newest past h later hsplit)
  have hinc := hs.pairwise_issuedIn
  rw [hsplit, issuedIn, List.filterMap_append, List.pairwise_append] at hinc
  have hpast : (rs ++ [h.revision]).Pairwise (· < ·) := hrs ▸ hinc.1
  rw [hrs] at hr
  rcases List.mem_append.1 hr with hr | hr
  · exact UInt64.le_of_lt ((List.pairwise_append.1 hpast).2.2 r hr _ (List.mem_singleton_self _))
  · exact UInt64.le_of_eq (List.mem_singleton.1 hr)

/-- The next revision is issued, and it has not wrapped around. -/
theorem issue (hs : Accounts history s) (hlatest : s'.latest.toNat = s.latest.toNat + 1)
    (hcurrent : s'.current = s.current) : Accounts (history ++ [.issued s'.latest]) s' where
  issued := by
    rw [issuedIn_concat_issued, List.map_append, hs.issued, hlatest, List.range'_1_concat,
      Nat.add_comm 1, ← hlatest]
    rfl
  current := by rw [shownIn_concat_issued, hcurrent, hs.current]
  newest := by
    intro past h later hsplit
    rcases eq_or_eq_of_concat hsplit with ⟨-, hne⟩ | ⟨rest, hrest⟩
    · cases hne
    · exact hs.newest past h rest hrest
  increasing := by
    rw [shownIn_concat_issued]
    exact hs.increasing

/-- A highlight of the latest revision is shown for the first time. -/
theorem display {h : Highlight} (hs : Accounts history s) (hpos : 0 < h.revision)
    (hrevision : h.revision = s.latest)
    (hnew : s.current.map Highlight.revision ≠ some h.revision)
    (hlatest : s'.latest = s.latest) (hcurrent : s'.current = some h) :
    Accounts (history ++ [.shown h]) s' where
  issued := by rw [issuedIn_concat_shown, hs.issued, hlatest]
  current := by rw [shownIn_concat_shown, hcurrent, List.getLast?_concat]
  newest := by
    intro past g later hsplit
    rcases eq_or_eq_of_concat hsplit with ⟨rfl, heq⟩ | ⟨rest, hrest⟩
    · obtain rfl := Notice.shown.inj heq
      exact hs.getLast?_issuedIn.2 ⟨hpos, hrevision⟩
    · exact hs.newest past g rest hrest
  increasing := by
    rw [shownIn_concat_shown, List.pairwise_append]
    refine ⟨hs.increasing, List.pairwise_singleton _ h, fun g hg h' hh' => ?_⟩
    obtain rfl := List.mem_singleton.1 hh'
    -- what was shown goes up to the current highlight, whose revision is another one
    have hne := List.ne_nil_of_mem hg
    have hlast := List.getLast_mem hne
    have hcur : s.current = some ((shownIn history).getLast hne) := by
      rw [hs.current, List.getLast?_eq_some_getLast hne]
    have hle : ((shownIn history).getLast hne).revision ≤ h'.revision :=
      hrevision ▸ (hs.pos_and_le_latest hlast).2
    have hdiff : ((shownIn history).getLast hne).revision ≠ h'.revision := fun heq =>
      hnew (by rw [hcur, Option.map_some, heq])
    exact UInt64.lt_of_le_of_lt (hs.revision_le hg hcur) (UInt64.lt_of_le_of_ne hle hdiff)

/-- A revision that `begin` gives is accounted for, unless it wrapped around. -/
theorem begin (hs : Accounts history s) (hbegin : s.begin o = some (r, s'))
    (hfew : o = .wraps → (issuedIn (history ++ [.issued r])).length < UInt64.size) :
    Accounts (history ++ [.issued r]) s' ∧ s.latest < r := by
  have hnext : r.toNat = s.latest.toNat + 1 := by
    refine Overflow.toNat_of_next? (begin_eq_some_iff.1 hbegin).1 fun ho => ?_
    have hlength := hfew ho
    rwa [issuedIn_concat_issued, List.length_append, hs.length_issuedIn] at hlength
  obtain rfl := latest_of_begin hbegin
  exact ⟨hs.issue hnext (current_of_begin hbegin),
    UInt64.lt_iff_toNat_lt.2 (hnext ▸ Nat.lt_succ_self _)⟩

/-- No highlight that is shown has a revision above the latest. -/
theorem not_current_of_lt (hs : Accounts history s) (hr : s.latest < r) :
    s.current.map Highlight.revision ≠ some r := by
  intro hsome
  obtain ⟨h, hh, rfl⟩ := Option.map_eq_some_iff.1 hsome
  have hle := (hs.pos_and_le_latest (List.mem_of_getLast? (hs.current ▸ hh))).2
  exact UInt64.not_lt.2 hle hr

/-- **An action keeps the account,** as long as no revision wraps around. -/
theorem act {a : Action} (hs : Accounts history s) (hact : s.act o a = some (seen, s'))
    (hfew : o = .wraps → (issuedIn (history ++ seen)).length < UInt64.size) :
    Accounts (history ++ seen) s' := by
  cases acts_of_act hact with
  | begin hbegin => exact (hs.begin hbegin hfew).1
  | @onInput t r s₁ s' hbegin hinstall =>
    rw [value?_install] at hinstall
    obtain ⟨n, -, rfl⟩ := Option.map_eq_some_iff.1 hinstall
    have hsplit : history ++ [.issued r, .shown (s₁.complete r t).value.1] =
        history ++ [.issued r] ++ [.shown (s₁.complete r t).value.1] :=
      List.append_cons ..
    rw [hsplit] at hfew ⊢
    rw [issuedIn_concat_shown] at hfew
    obtain ⟨hissued, hlt⟩ := hs.begin hbegin hfew
    refine hissued.display (UInt64.lt_of_le_of_lt UInt64.zero_le hlt)
      (latest_of_begin hbegin).symm ?_ rfl rfl
    exact current_of_begin hbegin ▸ hs.not_current_of_lt hlt
  | complete r t => exact (List.append_nil history).symm ▸ hs.congr rfl rfl
  | @apply h accepted s' happly =>
    rcases s.apply_cases o h with ⟨-, heq⟩ | ⟨-, heq⟩ | ⟨⟨hpos, hrevision, hnew⟩, heq⟩
    · obtain ⟨n, -, hn⟩ := Option.map_eq_some_iff.1 (heq ▸ happly)
      obtain ⟨rfl, rfl⟩ := Prod.mk.inj hn
      exact (List.append_nil history).symm ▸ hs.congr rfl rfl
    · obtain ⟨n, -, hn⟩ := Option.map_eq_some_iff.1 (heq ▸ happly)
      obtain ⟨rfl, rfl⟩ := Prod.mk.inj hn
      exact (List.append_nil history).symm ▸ hs.congr rfl rfl
    · obtain ⟨n, -, hn⟩ := Option.map_eq_some_iff.1 (heq ▸ happly)
      obtain ⟨rfl, rfl⟩ := Prod.mk.inj hn
      exact hs.display hpos hrevision hnew rfl rfl

end Accounts

/-- What is seen of a run accounts for the session after it, as long as no revision wraps
around. -/
theorem accounts_run {o : Overflow} {history seen : List Notice} {s s' : Session}
    {as : List Action} (hs : Accounts history s) (h : s.run o as = some (seen, s'))
    (hfew : o = .wraps → (issuedIn (history ++ seen)).length < UInt64.size) :
    Accounts (history ++ seen) s' := by
  induction as generalizing history seen s with
  | nil =>
    obtain ⟨rfl, rfl⟩ := Prod.mk.inj (Option.some.inj h)
    exact (List.append_nil history).symm ▸ hs
  | cons a as ih =>
    obtain ⟨first, s₁, later, hact, hrun, rfl⟩ := run_cons_eq_some_iff.1 h
    rw [← List.append_assoc] at hfew ⊢
    refine ih (hs.act hact fun ho => ?_) hrun hfew
    -- what was issued before the rest of the run is no more than what was issued in all
    have hlength := hfew ho
    rw [issuedIn, List.filterMap_append, List.length_append] at hlength
    exact Nat.lt_of_le_of_lt (Nat.le_add_right ..) hlength

/-- **A slow or repeated result never takes the place of a newer one or of itself.**  In
every run of a fresh session the highlights that become current have ever greater
revisions, none of them twice, and each of these was the newest one issued when its
highlight was shown. Where words wrap around, this is so until they do. -/
theorem shown_increasing (o : Overflow) (x : ScanSettings) (as : List Action)
    {history : List Notice} {s : Session} (hrun : (start x).run o as = some (history, s))
    (hfew : o = .wraps → (issuedIn history).length < UInt64.size) :
    ((shownIn history).map Highlight.revision).Pairwise (· < ·) ∧
      ((shownIn history).map Highlight.revision).Nodup ∧
      (∀ past h later, history = past ++ .shown h :: later →
        (issuedIn past).getLast? = some h.revision ∧ ∀ r ∈ issuedIn past, r ≤ h.revision) ∧
      s.current = (shownIn history).getLast? := by
  have haccounts := accounts_run (accounts_start x) hrun hfew
  rw [List.nil_append] at haccounts
  have hincreasing := List.pairwise_map.2 haccounts.increasing
  refine ⟨hincreasing, hincreasing.imp UInt64.ne_of_lt, fun past h later hsplit => ⟨?_, ?_⟩,
    haccounts.current⟩
  · exact haccounts.newest past h later hsplit
  · exact fun r hr => haccounts.le_of_mem_issuedIn hsplit hr

/-- `AN` and `AND` were typed, and the result for `AND` comes before the one for `AN`, and
once more after it. -/
theorem shown_increasing_late_and_twice :
    let late : Highlight := ⟨1, [⟨.plain ['A', 'N'], ⟨0, 1, 1⟩, ⟨2, 1, 3⟩⟩], 2⟩
    let newest : Highlight := ⟨2, [⟨.connective .and, ⟨0, 1, 1⟩, ⟨3, 1, 4⟩⟩], 3⟩
    let as : List Action :=
      [.begin, .begin, .apply newest, .apply late, .apply newest, .begin, .apply ⟨3, [], 0⟩]
    let history : List Notice :=
      [.issued 1, .issued 2, .shown newest, .issued 3, .shown ⟨3, [], 0⟩]
    let s : Session :=
      { lexer := { settings := ⟨true, true, true⟩ }
        latest := 3
        current := some ⟨3, [], 0⟩
        superseded := [1, 2]
        metrics := ⟨3, 2, 2, 0⟩ }
    (start ⟨true, true, true⟩).run .wraps as = some (history, s) ∧
      (Overflow.wraps = .wraps → (issuedIn history).length < UInt64.size) ∧
      ((shownIn history).map Highlight.revision).Pairwise (· < ·) ∧
      s.current = (shownIn history).getLast? := by
  intro late newest as history s
  have hrun : (start ⟨true, true, true⟩).run .wraps as = some (history, s) := by decide
  have hfew : Overflow.wraps = .wraps → (issuedIn history).length < UInt64.size :=
    fun _ => by decide
  obtain ⟨hincreasing, -, -, hcurrent⟩ := shown_increasing .wraps _ as hrun hfew
  exact ⟨hrun, hfew, hincreasing, hcurrent⟩

end Session
end SearchMarkup
