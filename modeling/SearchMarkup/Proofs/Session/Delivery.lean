/-
# Highlights delivered in any order

Highlights that are computed elsewhere come back in an order nobody controls.  What each
delivery answers depends on that order, the session after all of them does not, as long as
the highlights of the latest revision are one and the same.

A delivery changes neither the latest revision nor the history.  So a highlight that is
not of the latest revision is refused wherever it stands, and its refusal counts as the
same: it can trade places with any other delivery (`receive_refuse`).  Two of the latest
revision can trade places because they are equal.  So any two deliveries can
(`receive_comm`), and every permutation is a sequence of such trades.

A count that has no word left is a fault where arithmetic is checked.  In which order a
count grows to that point makes no difference either.
-/

import SearchMarkup.Proofs.Session.Shown

namespace SearchMarkup
namespace Session

variable {o : Overflow} {s : Session} {g h : Highlight} {r : Revision}

/-- The session after a result is delivered. -/
def receive (o : Overflow) (s : Session) (h : Highlight) : Option Session :=
  (s.apply o h).value?.map Prod.snd

/-- The session after results are delivered one by one. -/
def deliver (o : Overflow) (s : Session) (hs : List Highlight) : Option Session :=
  hs.foldlM (receive o) s

/-- A delivered result is shown: it is of the latest revision, and that is not shown yet. -/
def Accepts (s : Session) (h : Highlight) : Prop :=
  s.isLatest h.revision ∧ s.current.map Highlight.revision ≠ some h.revision

instance : Decidable (s.Accepts h) := inferInstanceAs (Decidable (_ ∧ _))

/-- One result more is counted as refused: as unknown if its revision was never issued, as
stale otherwise. -/
def refuse (o : Overflow) (s : Session) (r : Revision) : Option Session :=
  if r = 0 ∨ s.latest < r then
    (o.next? s.metrics.unknown).map fun n =>
      { s with metrics := { s.metrics with unknown := n } }
  else
    (o.next? s.metrics.stale).map fun n => { s with metrics := { s.metrics with stale := n } }

/-- Results are delivered one after the other. -/
theorem deliver_cons (o : Overflow) (s : Session) (h : Highlight) (hs : List Highlight) :
    s.deliver o (h :: hs) = (s.receive o h).bind fun s => s.deliver o hs := List.foldlM_cons

/-- The latest revision is not 0. -/
theorem isLatest_iff : s.isLatest r ↔ r ≠ 0 ∧ r = s.latest := by simp [isLatest]

/-- **A delivered result is shown or refused.** -/
theorem apply_eq (o : Overflow) (s : Session) (h : Highlight) :
    (s.apply o h).value? =
      if s.Accepts h then (s.install o h).value?.map (true, ·)
      else (s.refuse o h.revision).map (false, ·) := by
  rcases s.apply_cases o h with
    ⟨hunknown, heq⟩ | ⟨⟨hpos, hle, hstale⟩, heq⟩ | ⟨⟨hpos, hlatest, hnew⟩, heq⟩
  · have hnot : ¬ s.Accepts h := fun hacc => by
      obtain ⟨hne, hlatest⟩ := isLatest_iff.1 hacc.1
      exact hunknown.elim hne fun hlt => UInt64.ne_of_lt hlt hlatest.symm
    rw [heq, if_neg hnot, refuse, if_pos hunknown, Option.map_map]
    rfl
  · have hnot : ¬ s.Accepts h := fun hacc =>
      hstale.elim (fun hlt => UInt64.ne_of_lt hlt (isLatest_iff.1 hacc.1).2) hacc.2
    have hissued : ¬ (h.revision = 0 ∨ s.latest < h.revision) :=
      not_or.2 ⟨UInt64.pos_iff_ne_zero.1 hpos, UInt64.not_lt.2 hle⟩
    rw [heq, if_neg hnot, refuse, if_neg hissued, Option.map_map]
    rfl
  · have hacc : s.Accepts h := ⟨isLatest_iff.2 ⟨UInt64.pos_iff_ne_zero.1 hpos, hlatest⟩, hnew⟩
    rw [heq, if_pos hacc, value?_install, Option.map_map]
    rfl

/-- The session after a delivery shows the highlight, or has refused it. -/
theorem receive_eq (o : Overflow) (s : Session) (h : Highlight) :
    s.receive o h = if s.Accepts h then (s.install o h).value? else s.refuse o h.revision := by
  rw [receive, apply_eq]
  by_cases hacc : s.Accepts h
  · rw [if_pos hacc, if_pos hacc, Option.map_map]
    exact Option.map_id'
  · rw [if_neg hacc, if_neg hacc, Option.map_map]
    exact Option.map_id'

/-- A result of another revision than the latest is refused. -/
theorem receive_of_not_isLatest (hh : ¬ s.isLatest h.revision) :
    s.receive o h = s.refuse o h.revision := by
  rw [receive_eq, if_neg fun hacc => hh hacc.1]

/-- A refusal touches the counts only. -/
theorem refuse_eq_some {s' : Session} (h : s.refuse o r = some s') :
    s'.latest = s.latest ∧ s'.current = s.current := by
  unfold refuse at h
  split at h
  all_goals
    obtain ⟨n, -, rfl⟩ := Option.map_eq_some_iff.1 h
    exact ⟨rfl, rfl⟩

/-- A delivery issues no revision. -/
theorem latest_of_receive {s' : Session} (hs : s.receive o h = some s') :
    s'.latest = s.latest := by
  rw [receive_eq] at hs
  split at hs
  · rw [value?_install] at hs
    obtain ⟨n, -, rfl⟩ := Option.map_eq_some_iff.1 hs
    rfl
  · exact (refuse_eq_some hs).1

/-- The latest revision stays the latest when a result is delivered. -/
theorem isLatest_of_receive {s' : Session} (hs : s.receive o h = some s') (r : Revision) :
    s'.isLatest r = s.isLatest r := by
  rw [isLatest, isLatest, latest_of_receive hs]

/-- Two refusals trade places. -/
theorem refuse_comm (o : Overflow) (s : Session) (q r : Revision) :
    ((s.refuse o q).bind fun s => s.refuse o r) = (s.refuse o r).bind fun s => s.refuse o q := by
  by_cases hq : q = 0 ∨ s.latest < q <;> by_cases hr : r = 0 ∨ s.latest < r <;>
    cases hunknown : o.next? s.metrics.unknown <;> cases hstale : o.next? s.metrics.stale <;>
    simp [refuse, hq, hr, hunknown, hstale]

/-- A refusal and the showing of a highlight trade places. -/
theorem install_refuse (o : Overflow) (s : Session) (r : Revision) (h : Highlight) :
    ((s.refuse o r).bind fun s => (s.install o h).value?) =
      (s.install o h).value?.bind fun s => s.refuse o r := by
  by_cases hr : r = 0 ∨ s.latest < r <;> cases happlied : o.next? s.metrics.applied <;>
    cases hunknown : o.next? s.metrics.unknown <;> cases hstale : o.next? s.metrics.stale <;>
    simp [refuse, hr, happlied, hunknown, hstale]

/-- A refusal and a delivery trade places: what is accepted does not depend on the counts. -/
theorem receive_refuse (o : Overflow) (s : Session) (r : Revision) (h : Highlight) :
    ((s.refuse o r).bind fun s => s.receive o h) =
      (s.receive o h).bind fun s => s.refuse o r := by
  have hacc : ∀ s', s.refuse o r = some s' →
      s'.receive o h = if s.Accepts h then (s'.install o h).value? else s'.refuse o h.revision := by
    intro s' hs'
    obtain ⟨hlatest, hcurrent⟩ := refuse_eq_some hs'
    have hiff : s'.Accepts h ↔ s.Accepts h := by
      rw [Accepts, Accepts, isLatest_iff, isLatest_iff, hlatest, hcurrent]
    rw [receive_eq]
    exact if_congr hiff rfl rfl
  have hleft : ((s.refuse o r).bind fun s => s.receive o h) =
      (s.refuse o r).bind fun s' =>
        if s.Accepts h then (s'.install o h).value? else s'.refuse o h.revision :=
    Option.bind_congr hacc
  rw [hleft, receive_eq]
  by_cases hs : s.Accepts h
  · simp only [if_pos hs]
    exact install_refuse o s r h
  · simp only [if_neg hs]
    exact refuse_comm o s r h.revision

/-- A highlight that is not of the latest revision trades places with any other. -/
theorem receive_comm_of_not_isLatest (hg : ¬ s.isLatest g.revision) (h : Highlight) :
    ((s.receive o g).bind fun s => s.receive o h) =
      (s.receive o h).bind fun s => s.receive o g := by
  have hright : ((s.receive o h).bind fun s => s.receive o g) =
      (s.receive o h).bind fun s => s.refuse o g.revision := by
    refine Option.bind_congr fun s' hs' => receive_of_not_isLatest ?_
    rwa [isLatest_of_receive hs']
  rw [receive_of_not_isLatest hg, receive_refuse, hright]

/-- **Two deliveries trade places** if they do not bring two highlights of the latest
revision. -/
theorem receive_comm (hsame : s.isLatest g.revision → s.isLatest h.revision →
    g.tokens = h.tokens) :
    ((s.receive o g).bind fun s => s.receive o h) =
      (s.receive o h).bind fun s => s.receive o g := by
  by_cases hg : s.isLatest g.revision
  · by_cases hh : s.isLatest h.revision
    · have hrevision : g.revision = h.revision :=
        (isLatest_iff.1 hg).2.trans (isLatest_iff.1 hh).2.symm
      have heq : g = h := by
        cases g
        cases h
        exact congrArg₂ Highlight.mk hrevision (hsame hg hh)
      rw [heq]
    · exact (receive_comm_of_not_isLatest hh g).symm
  · exact receive_comm_of_not_isLatest hg h

/-- **The order of delivery does not matter.**  Whatever state a session is in, if those
of the highlights that are of the latest revision have the same tokens, it ends in the
same state when they are delivered in another order: the same latest revision and
history, the same current highlight and the same counts. If a count has no word left for
them, it has none in any order. -/
theorem deliver_perm (o : Overflow) (s : Session) {hs hs' : List Highlight} (hperm : hs.Perm hs')
    (hsame : ∀ g ∈ hs, ∀ h ∈ hs, s.isLatest g.revision → s.isLatest h.revision →
      g.tokens = h.tokens) : s.deliver o hs = s.deliver o hs' := by
  induction hperm generalizing s with
  | nil => rfl
  | cons h _ ih =>
    rw [deliver_cons, deliver_cons]
    refine Option.bind_congr fun s' hs' => ih _ fun g hg g' hg' => ?_
    rw [isLatest_of_receive hs', isLatest_of_receive hs']
    exact hsame g (List.mem_cons_of_mem h hg) g' (List.mem_cons_of_mem h hg')
  | swap g h hs =>
    have hcomm : ((s.receive o h).bind fun s => s.receive o g) =
        (s.receive o g).bind fun s => s.receive o h :=
      receive_comm (hsame h (by simp) g (by simp))
    simp only [deliver_cons]
    rw [← Option.bind_assoc, ← Option.bind_assoc, hcomm]
  | trans hperm _ ih ih' =>
    have hsame' := fun g hg h hh => hsame g (hperm.mem_iff.2 hg) h (hperm.mem_iff.2 hh)
    exact (ih s hsame).trans (ih' s hsame')

/-- `AN` and `AND` were typed.  `AND` is delivered twice, `AN` late, and there is a result
of a revision that was never issued. -/
theorem deliver_perm_late_and_twice :
    let s : Session :=
      { lexer := { settings := ⟨true, true, true⟩ }
        latest := 2
        superseded := [1]
        metrics := ⟨2, 0, 0, 0⟩ }
    let late : Highlight := ⟨1, [⟨.plain ['A', 'N'], ⟨0, 1, 1⟩, ⟨2, 1, 3⟩⟩], 2⟩
    let newest : Highlight := ⟨2, [⟨.connective .and, ⟨0, 1, 1⟩, ⟨3, 1, 4⟩⟩], 3⟩
    let unknown : Highlight := ⟨3, [], 0⟩
    let hs := [newest, unknown, late, newest]
    let hs' := [late, newest, newest, unknown]
    (start ⟨true, true, true⟩).run .faults [.begin, .begin] = some ([.issued 1, .issued 2], s) ∧
      hs.Perm hs' ∧
      (∀ g ∈ hs, ∀ h ∈ hs, s.isLatest g.revision → s.isLatest h.revision →
        g.tokens = h.tokens) ∧
      s.deliver .faults hs = s.deliver .faults hs' ∧
      s.deliver .faults hs =
        some { s with current := some newest, metrics := ⟨2, 1, 2, 1⟩ } := by
  intro s late newest unknown hs hs'
  have hperm : hs.Perm hs' := by decide
  have hsame : ∀ g ∈ hs, ∀ h ∈ hs, s.isLatest g.revision → s.isLatest h.revision →
      g.tokens = h.tokens := by decide
  exact ⟨by decide, hperm, hsame, deliver_perm .faults s hperm hsame, by decide⟩

end Session
end SearchMarkup
