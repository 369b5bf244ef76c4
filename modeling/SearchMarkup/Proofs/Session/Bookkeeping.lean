/-
# What a session's fields say of each other

A session keeps the same story in several fields.  Whatever a host calls, in whatever
order, they agree (`Consistent`), and so the latest revision and the current highlight
tell most of the rest:

| field | what it is |
| --- | --- |
| revisions issued | the latest revision |
| history | the 16 revisions before the latest, or all of them if they are fewer |
| highlights shown | at most the revision of the current one, 0 if there is none |
| highlights shown or refused | the number of results that came in |

A highlight is shown only under a revision above that of the one before it, so the number
of them cannot pass the current revision; that is what an installation needs and keeps
(`Consistent.install`).  The history slides by one with each revision
(`superseding_succ`), except with the first, before which there is none.

Where words wrap around, all this holds until as many revisions were issued as there are
words.  Results may go on to come in after that many of them: the counts then add up to
their number as words do.
-/

import SearchMarkup.Proofs.Session.Delivery
import Mathlib.Data.List.Intervals

namespace SearchMarkup
namespace Session

/-- What a host can call: an action, or the question whether a revision is the latest. -/
inductive Call where
  | act (a : Action)
  | isLatest (r : Revision)
  deriving DecidableEq, Repr

namespace Call

/-- Whether a call issues a revision. -/
def issues : Call → Bool
  | .act .begin | .act (.onInput _) => true
  | .act (.complete _ _) | .act (.apply _) | .isLatest _ => false

/-- Whether a call brings a result. -/
def delivers : Call → Bool
  | .act (.onInput _) | .act (.apply _) => true
  | .act .begin | .act (.complete _ _) | .isLatest _ => false

end Call

/-- The session after a call; a question leaves it as it is. -/
def call (o : Overflow) (s : Session) : Call → Option Session
  | .act a => (s.act o a).map Prod.snd
  | .isLatest _ => some s

/-- The session after calls one by one. -/
def calls (o : Overflow) (s : Session) (cs : List Call) : Option Session := cs.foldlM (call o) s

/-- Calls are made one after the other. -/
theorem calls_cons (o : Overflow) (s : Session) (c : Call) (cs : List Call) :
    s.calls o (c :: cs) = (s.call o c).bind fun s => s.calls o cs := List.foldlM_cons

/-- The revisions that a latest one superseded, as far as they are remembered. -/
def superseding (latest : Nat) : List Nat :=
  List.Ico (max 1 (latest - Limits.supersededHistory)) latest

/-- The history slides: one more revision enters, and the oldest leaves once it is full. -/
theorem superseding_succ {n : Nat} (hn : n ≠ 0) :
    (if (superseding n).length = Limits.supersededHistory then (superseding n).drop 1
      else superseding n) ++ [n] = superseding (n + 1) := by
  have hcap : Limits.supersededHistory = 16 := rfl
  have hpos : 0 < n := Nat.pos_of_ne_zero hn
  simp only [superseding, List.Ico.length, hcap]
  by_cases hfull : n - max 1 (n - 16) = 16
  · have hlt : max 1 (n - 16) < n := by omega
    have hnext : max 1 (n + 1 - 16) = max 1 (n - 16) + 1 := by omega
    rw [if_pos hfull, List.Ico.eq_cons hlt, List.drop_one, List.tail_cons, hnext,
      List.Ico.succ_top hlt]
  · have hle : max 1 (n - 16) ≤ n := by omega
    have hnext : max 1 (n + 1 - 16) = max 1 (n - 16) := by omega
    rw [if_neg hfull, hnext, List.Ico.succ_top hle]

/-- A history of words slides as that of their numbers. -/
theorem map_remember {history : List Revision} {r : Revision}
    (hhistory : history.map UInt64.toNat = superseding r.toNat) (hr : r.toNat ≠ 0) :
    (remember history r).map UInt64.toNat = superseding (r.toNat + 1) := by
  have hlength : history.length = (superseding r.toNat).length := by
    rw [← hhistory, List.length_map]
  rw [← superseding_succ hr, ← hhistory, List.length_map, remember, List.map_append,
    apply_ite (List.map UInt64.toNat), List.map_drop]
  rfl

/-- The revision of the highlight that is shown, 0 if there is none. -/
def shownRevision (s : Session) : Revision := s.current.elim 0 Highlight.revision

/-- A highlight that is shown has the revision that is shown. -/
theorem shownRevision_eq {s : Session} {h : Highlight} (hh : s.current = some h) :
    s.shownRevision = h.revision := by
  rw [shownRevision, hh]
  rfl

/-- A result of another revision than the current highlight's is of another than the one
shown; 0, which stands for none, is no revision of a result. -/
theorem shownRevision_ne {s : Session} {r : Revision} (hne : r ≠ 0)
    (hnew : s.current.map Highlight.revision ≠ some r) : s.shownRevision ≠ r := by
  cases hcurrent : s.current with
  | none =>
    rw [shownRevision, hcurrent]
    exact hne.symm
  | some h =>
    rw [shownRevision_eq hcurrent]
    rw [hcurrent, Option.map_some] at hnew
    exact fun heq => hnew (congrArg some heq)

/-- The fields of a session agree, after `k` revisions were issued and `n` results came in.
The counts of results add up to `n` as words; as numbers they do until words wrap around. -/
structure Consistent (o : Overflow) (k n : Nat) (s : Session) : Prop where
  latest : s.latest.toNat = k
  issued : s.metrics.issued = s.latest
  superseded : s.superseded.map UInt64.toNat = superseding k
  applied_le : s.metrics.applied ≤ s.shownRevision
  shown_le : s.shownRevision ≤ s.latest
  shown_iff : s.current.isSome ↔ 0 < s.metrics.applied
  sum : s.metrics.applied + s.metrics.stale + s.metrics.unknown = UInt64.ofNat n
  counted : (o = .wraps → n < UInt64.size) →
    s.metrics.applied.toNat + s.metrics.stale.toNat + s.metrics.unknown.toNat = n

/-- Nothing was issued and nothing came in. -/
theorem consistent_start (o : Overflow) (x : ScanSettings) : Consistent o 0 0 (start x) where
  latest := rfl
  issued := rfl
  superseded := rfl
  applied_le := UInt64.le_refl 0
  shown_le := UInt64.le_refl 0
  shown_iff := by simp [start]
  sum := rfl
  counted := fun _ => rfl

namespace Consistent

variable {o : Overflow} {k n : Nat} {s s' : Session} {r : Revision} {h : Highlight}

/-- A revision is issued, and it has not wrapped around. -/
theorem begin (hs : Consistent o k n s) (hbegin : s.begin o = some (r, s'))
    (hfew : o = .wraps → k + 1 < UInt64.size) : Consistent o (k + 1) n s' ∧ s.latest < r := by
  obtain ⟨hr, m, hm, rfl⟩ := begin_eq_some_iff.1 hbegin
  have hnext : r.toNat = k + 1 :=
    hs.latest ▸ Overflow.toNat_of_next? hr fun ho => hs.latest.symm ▸ hfew ho
  have hlt : s.latest < r := UInt64.lt_iff_toNat_lt.2 (by rw [hnext, hs.latest]; omega)
  refine ⟨⟨hnext, ?_, ?_, hs.applied_le, ?_, hs.shown_iff, hs.sum, hs.counted⟩, hlt⟩
  · rw [hs.issued, hr] at hm
    exact (Option.some.inj hm).symm
  · by_cases hfirst : s.latest = 0
    · have hk : k = 0 := by rw [← hs.latest, hfirst]; rfl
      simp only [if_pos hfirst, hs.superseded, hk]
      rfl
    · have hne : s.latest.toNat ≠ 0 := fun hzero => hfirst (UInt64.toNat_inj.1 hzero)
      simp only [if_neg hfirst]
      rw [map_remember (hs.latest.symm ▸ hs.superseded) hne, hs.latest]
  · exact UInt64.le_trans hs.shown_le (UInt64.le_of_lt hlt)

/-- Computing a highlight changes the lexer only. -/
theorem complete (hs : Consistent o k n s) (r : Revision) (t : Text) :
    Consistent o k n (s.complete r t).value.2 := { hs with }

/-- No result is counted that did not come in. -/
theorem count_le (hs : Consistent o k n s) (hroom : o = .wraps → n < UInt64.size) :
    s.metrics.applied.toNat ≤ n ∧ s.metrics.stale.toNat ≤ n ∧ s.metrics.unknown.toNat ≤ n := by
  have hcounted := hs.counted hroom
  omega

/-- With one result more the counts add up to one more. -/
theorem sum_add_one (hs : Consistent o k n s) :
    s.metrics.applied + s.metrics.stale + s.metrics.unknown + 1 = UInt64.ofNat (n + 1) := by
  rw [hs.sum, ← UInt64.ofNat_one, ← UInt64.ofNat_add]

/-- Fewer highlights were shown than a revision says that is newer than the one shown. -/
theorem applied_lt (hs : Consistent o k n s) (hnewer : s.shownRevision < r) :
    s.metrics.applied.toNat < r.toNat :=
  UInt64.lt_iff_toNat_lt.1 (UInt64.lt_of_le_of_lt hs.applied_le hnewer)

/-- What is shown is older than a revision just issued. -/
theorem shown_lt (hs : Consistent o k n s) (hbegin : s.begin o = some (r, s'))
    (hlt : s.latest < r) : s'.shownRevision < r := by
  have hshown : s'.shownRevision = s.shownRevision :=
    congrArg (Option.elim · 0 Highlight.revision) (current_of_begin hbegin)
  rw [hshown]
  exact UInt64.lt_of_le_of_lt hs.shown_le hlt

/-- A highlight is shown that is newer than the current one. -/
theorem install (hs : Consistent o k n s) (hinstall : (s.install o h).value? = some s')
    (hnewer : s.shownRevision < h.revision) (hle : h.revision ≤ s.latest) :
    Consistent o k (n + 1) s' := by
  rw [value?_install] at hinstall
  obtain ⟨m, hm, rfl⟩ := Option.map_eq_some_iff.1 hinstall
  -- so the count of highlights shown has a word left
  have hfew := hs.applied_lt hnewer
  have hnext : m.toNat = s.metrics.applied.toNat + 1 :=
    Overflow.toNat_of_next? hm fun _ => Nat.lt_of_le_of_lt hfew h.revision.toNat_lt
  refine ⟨hs.latest, hs.issued, hs.superseded, ?_, hle, ?_, ?_, fun hroom => ?_⟩
  · exact UInt64.le_iff_toNat_le.2 (hnext ▸ hfew)
  · exact ⟨fun _ => UInt64.lt_iff_toNat_lt.2 (hnext ▸ Nat.succ_pos _), fun _ => rfl⟩
  · have hsum : s.metrics.applied + 1 + s.metrics.stale + s.metrics.unknown =
        s.metrics.applied + s.metrics.stale + s.metrics.unknown + 1 := by ac_rfl
    rw [Overflow.eq_of_next? hm]
    exact hsum.trans hs.sum_add_one
  · have hcounted := hs.counted fun ho => Nat.lt_of_succ_lt (hroom ho)
    simp only [hnext]
    omega

/-- A result is refused. -/
theorem refuse (hs : Consistent o k n s) (hrefuse : s.refuse o r = some s') :
    Consistent o k (n + 1) s' := by
  have hlast (hroom : o = .wraps → n + 1 < UInt64.size) : o = .wraps → n < UInt64.size :=
    fun ho => Nat.lt_of_succ_lt (hroom ho)
  unfold Session.refuse at hrefuse
  split at hrefuse
  · obtain ⟨m, hm, rfl⟩ := Option.map_eq_some_iff.1 hrefuse
    refine { hs with sum := ?_, counted := fun hroom => ?_ }
    · have hsum : s.metrics.applied + s.metrics.stale + (s.metrics.unknown + 1) =
          s.metrics.applied + s.metrics.stale + s.metrics.unknown + 1 := by ac_rfl
      rw [Overflow.eq_of_next? hm]
      exact hsum.trans hs.sum_add_one
    · obtain ⟨-, -, hunknown⟩ := hs.count_le (hlast hroom)
      have hnext := Overflow.toNat_of_next?_of_le hm hunknown hroom
      have hcounted := hs.counted (hlast hroom)
      simp only [hnext]
      omega
  · obtain ⟨m, hm, rfl⟩ := Option.map_eq_some_iff.1 hrefuse
    refine { hs with sum := ?_, counted := fun hroom => ?_ }
    · have hsum : s.metrics.applied + (s.metrics.stale + 1) + s.metrics.unknown =
          s.metrics.applied + s.metrics.stale + s.metrics.unknown + 1 := by ac_rfl
      rw [Overflow.eq_of_next? hm]
      exact hsum.trans hs.sum_add_one
    · obtain ⟨-, hstale, -⟩ := hs.count_le (hlast hroom)
      have hnext := Overflow.toNat_of_next?_of_le hm hstale hroom
      have hcounted := hs.counted (hlast hroom)
      simp only [hnext]
      omega

/-- A result comes in.  If it is accepted, it is of the latest revision and the current
highlight is of another, which is then an older one. -/
theorem receive (hs : Consistent o k n s) (hreceive : s.receive o h = some s') :
    Consistent o k (n + 1) s' := by
  rw [receive_eq] at hreceive
  by_cases hacc : s.Accepts h
  · rw [if_pos hacc] at hreceive
    obtain ⟨hpos, hlatest⟩ := isLatest_iff.1 hacc.1
    have hnewer : s.shownRevision < h.revision :=
      UInt64.lt_of_le_of_ne (hlatest ▸ hs.shown_le) (shownRevision_ne hpos hacc.2)
    exact hs.install hreceive hnewer (UInt64.le_of_eq hlatest)
  · rw [if_neg hacc] at hreceive
    exact hs.refuse hreceive

/-- **A call keeps the fields consistent,** as long as no revision wraps around. -/
theorem call {c : Call} (hs : Consistent o k n s) (hcall : s.call o c = some s')
    (hfew : o = .wraps → k + (if c.issues then 1 else 0) < UInt64.size) :
    Consistent o (k + if c.issues then 1 else 0) (n + if c.delivers then 1 else 0) s' := by
  cases c with
  | isLatest r =>
    obtain rfl := Option.some.inj hcall
    exact hs
  | act a =>
    obtain ⟨⟨seen, s₁⟩, hact, rfl⟩ := Option.map_eq_some_iff.1 hcall
    cases acts_of_act hact with
    | begin hbegin => exact (hs.begin hbegin hfew).1
    | @onInput t r s₂ s₃ hbegin hinstall =>
      obtain ⟨hissued, hlt⟩ := hs.begin hbegin hfew
      have hnewer : s₂.shownRevision < r := hs.shown_lt hbegin hlt
      exact (hissued.complete r t).install hinstall hnewer
        (UInt64.le_of_eq (latest_of_begin hbegin).symm)
    | complete r t => exact hs.complete r t
    | apply happly => exact hs.receive (Option.map_eq_some_iff.2 ⟨_, happly, rfl⟩)

end Consistent

/-- Calls keep the fields consistent, as long as no revision wraps around. -/
theorem consistent_calls {o : Overflow} {k n : Nat} {s s' : Session} {cs : List Call}
    (hs : Consistent o k n s) (hcalls : s.calls o cs = some s')
    (hfew : o = .wraps → k + cs.countP Call.issues < UInt64.size) :
    Consistent o (k + cs.countP Call.issues) (n + cs.countP Call.delivers) s' := by
  induction cs generalizing k n s with
  | nil =>
    obtain rfl := Option.some.inj hcalls
    exact hs
  | cons c cs ih =>
    rw [calls_cons] at hcalls
    obtain ⟨s₁, hcall, hrest⟩ := Option.bind_eq_some_iff.1 hcalls
    rw [List.countP_cons, Nat.add_comm (cs.countP _), ← Nat.add_assoc] at hfew ⊢
    rw [List.countP_cons, Nat.add_comm (cs.countP Call.delivers), ← Nat.add_assoc]
    exact ih (hs.call hcall fun ho => Nat.lt_of_le_of_lt (Nat.le_add_right ..) (hfew ho)) hrest hfew

/-! ## Runs that the words have room for -/

section

variable {o : Overflow} {k n : Nat} {s : Session}

/-- A revision is issued if one is left, for the count of them goes along with it. -/
theorem exists_begin (hissued : o = .faults → s.metrics.issued = s.latest)
    (hroom : o = .faults → s.latest.toNat + 1 < UInt64.size) :
    ∃ s', s.begin o = some (s.latest + 1, s') := by
  have hlatest := Overflow.next?_eq_some hroom
  have hcount := Overflow.next?_eq_some (w := s.metrics.issued) fun ho => hissued ho ▸ hroom ho
  exact ⟨_, begin_eq_some_iff.2 ⟨hlatest, _, hcount, rfl⟩⟩

/-- A highlight is shown if the count of those that were has room. -/
theorem exists_install (h : Highlight)
    (hroom : o = .faults → s.metrics.applied.toNat + 1 < UInt64.size) :
    ∃ s', (s.install o h).value? = some s' := by
  rw [value?_install, Overflow.next?_eq_some hroom]
  exact ⟨_, rfl⟩

/-- A result comes in if the counts have room. -/
theorem exists_receive (h : Highlight)
    (hroom : o = .faults → s.metrics.applied.toNat + 1 < UInt64.size ∧
      s.metrics.stale.toNat + 1 < UInt64.size ∧ s.metrics.unknown.toNat + 1 < UInt64.size) :
    ∃ s', s.receive o h = some s' := by
  rw [receive_eq]
  split
  · exact exists_install h fun ho => (hroom ho).1
  · unfold Session.refuse
    split
    · rw [Overflow.next?_eq_some fun ho => (hroom ho).2.2]
      exact ⟨_, rfl⟩
    · rw [Overflow.next?_eq_some fun ho => (hroom ho).2.1]
      exact ⟨_, rfl⟩

/-- A call does not fault if the words have room for one more of its kind. -/
theorem exists_call (c : Call) (hs : o = .faults → Consistent o k n s)
    (hroom : o = .faults → k + (if c.issues then 1 else 0) < UInt64.size ∧
      n + (if c.delivers then 1 else 0) < UInt64.size) : ∃ s', s.call o c = some s' := by
  have hcounts (ho : o = .faults) :=
    (hs ho).count_le fun hwraps => absurd hwraps (Overflow.ne_wraps_of_faults ho)
  cases c with
  | isLatest r => exact ⟨s, rfl⟩
  | act a =>
    cases a with
    | begin =>
      obtain ⟨s', hbegin⟩ := exists_begin (s := s) (fun ho => (hs ho).issued)
        fun ho => (hs ho).latest.symm ▸ (hroom ho).1
      exact ⟨s', by rw [Session.call, act, hbegin]; rfl⟩
    | onInput t =>
      obtain ⟨s₁, hbegin⟩ := exists_begin (s := s) (fun ho => (hs ho).issued)
        fun ho => (hs ho).latest.symm ▸ (hroom ho).1
      have happlied : s₁.metrics.applied = s.metrics.applied := applied_of_begin hbegin
      obtain ⟨s₂, hinstall⟩ := exists_install (o := o) (s := (s₁.complete (s.latest + 1) t).value.2)
        (s₁.complete (s.latest + 1) t).value.1 fun ho =>
          Nat.lt_of_le_of_lt (Nat.succ_le_succ (happlied ▸ (hcounts ho).1)) (hroom ho).2
      have hinput := onInput_eq_some_iff.2 ⟨_, s₁, hbegin, rfl, hinstall⟩
      exact ⟨s₂, by rw [Session.call, act, hinput]; rfl⟩
    | complete r t => exact ⟨_, rfl⟩
    | apply h =>
      obtain ⟨s', hreceive⟩ := exists_receive (o := o) (s := s) h fun ho => by
        have hlt : n + 1 < UInt64.size := (hroom ho).2
        obtain ⟨happlied, hstale, hunknown⟩ := hcounts ho
        omega
      obtain ⟨p, hp, rfl⟩ := Option.map_eq_some_iff.1 hreceive
      exact ⟨p.2, by rw [Session.call, act, hp]; rfl⟩

end

/-- **A run faults for want of words only:** where arithmetic is checked, and as many
revisions were issued or results came in as there are words. -/
theorem exists_calls {o : Overflow} {k n : Nat} {s : Session} (cs : List Call)
    (hs : o = .faults → Consistent o k n s)
    (hroom : o = .faults → k + cs.countP Call.issues < UInt64.size ∧
      n + cs.countP Call.delivers < UInt64.size) : ∃ s', s.calls o cs = some s' := by
  induction cs generalizing k n s with
  | nil => exact ⟨s, rfl⟩
  | cons c cs ih =>
    simp only [List.countP_cons] at hroom
    obtain ⟨s₁, hcall⟩ := exists_call c hs fun ho => by
      obtain ⟨hissues, hdelivers⟩ := hroom ho
      omega
    have hrest := ih (k := k + if c.issues then 1 else 0) (n := n + if c.delivers then 1 else 0)
      (s := s₁)
      (fun ho => (hs ho).call hcall fun hw => absurd hw (Overflow.ne_wraps_of_faults ho))
      fun ho => by
        obtain ⟨hissues, hdelivers⟩ := hroom ho
        omega
    rwa [calls_cons, hcall]

/-- **The fields of a session agree after every run,** and so after each of its steps.
As many revisions were issued as the latest says; the history holds the 16 revisions
before it in order, or all if they are fewer; no more highlights were shown than revisions
issued, and each result that came in was either shown or refused; and a highlight is
current exactly if one was shown, under an issued revision. Where words wrap around, this
is so until the revisions do; where arithmetic is checked, a run can only fault for want of
words. -/
theorem fields_agree (o : Overflow) (x : ScanSettings) (cs : List Call)
    (hfew : o = .wraps → cs.countP Call.issues < UInt64.size) :
    ((o = .faults →
        cs.countP Call.issues < UInt64.size ∧ cs.countP Call.delivers < UInt64.size) →
      ∃ s, (start x).calls o cs = some s) ∧
    ∀ s, (start x).calls o cs = some s →
      s.latest.toNat = cs.countP Call.issues ∧ s.metrics.issued = s.latest ∧
      s.superseded.map UInt64.toNat =
        List.Ico (max 1 (s.latest.toNat - 16)) s.latest.toNat ∧
      s.metrics.applied ≤ s.metrics.issued ∧
      s.metrics.applied + s.metrics.stale + s.metrics.unknown =
        UInt64.ofNat (cs.countP Call.delivers) ∧
      ((o = .wraps → cs.countP Call.delivers < UInt64.size) →
        s.metrics.applied.toNat + s.metrics.stale.toNat + s.metrics.unknown.toNat =
          cs.countP Call.delivers) ∧
      (∀ h, s.current = some h → 1 ≤ h.revision ∧ h.revision ≤ s.latest) ∧
      (s.current.isSome ↔ 0 < s.metrics.applied) := by
  refine ⟨fun hroom => ?_, fun s hcalls => ?_⟩
  · refine exists_calls cs (fun _ => consistent_start o x) ?_
    rwa [Nat.zero_add, Nat.zero_add]
  have hs := consistent_calls (consistent_start o x) hcalls (by rwa [Nat.zero_add])
  rw [Nat.zero_add, Nat.zero_add] at hs
  refine ⟨hs.latest, hs.issued, ?_, ?_, hs.sum, hs.counted, fun h hh => ?_, hs.shown_iff⟩
  · rw [hs.latest]
    exact hs.superseded
  · exact hs.issued ▸ UInt64.le_trans hs.applied_le hs.shown_le
  · have happlied : 0 < s.metrics.applied := hs.shown_iff.1 (by rw [hh]; rfl)
    have hone : (1 : UInt64) ≤ s.metrics.applied :=
      UInt64.le_iff_toNat_le.2 (UInt64.lt_iff_toNat_lt.1 happlied)
    rw [← shownRevision_eq hh]
    exact ⟨UInt64.le_trans hone hs.applied_le, hs.shown_le⟩

/-- A result is shown after another input, and shown once more. -/
theorem fields_agree_late_and_twice :
    let h : Highlight := ⟨2, [], 0⟩
    let cs : List Call :=
      [.act .begin, .act .begin, .act (.apply h), .isLatest 2, .act (.apply h), .act .begin,
        .act (.apply h), .act (.apply ⟨0, [], 0⟩)]
    let s : Session :=
      { lexer := { settings := ⟨true, true, true⟩ }
        latest := 3
        current := some h
        superseded := [1, 2]
        metrics := ⟨3, 1, 2, 1⟩ }
    (start ⟨true, true, true⟩).calls .wraps cs = some s ∧
      (Overflow.wraps = .wraps → cs.countP Call.issues < UInt64.size) ∧
      s.latest.toNat = cs.countP Call.issues ∧
      s.metrics.applied + s.metrics.stale + s.metrics.unknown =
        UInt64.ofNat (cs.countP Call.delivers) := by
  intro h cs s
  have hcalls : (start ⟨true, true, true⟩).calls .wraps cs = some s := by decide
  have hfew : Overflow.wraps = .wraps → cs.countP Call.issues < UInt64.size := fun _ => by decide
  obtain ⟨-, hagree⟩ := fields_agree .wraps ⟨true, true, true⟩ cs hfew
  obtain ⟨hlatest, -, -, -, hsum, -, -, -⟩ := hagree s hcalls
  exact ⟨hcalls, hfew, hlatest, hsum⟩

end Session
end SearchMarkup
