/-
# The leftmost occurrence of a text

`Text.Leftmost p t a b` says that `p` stands in `t` between `a` and `b` and nowhere
further left. There is at most one such place, `Text.splitAtFirst?` finds it, and it
finds nothing exactly when `p` does not occur.

A text is *unbordered* when no part of it but the whole both begins and ends it. An
unbordered `p` cannot begin inside `a` and end inside the `p` after it, so in `a ++ p ++ b`
it is leftmost after `a` unless it occurs in `a` (`Leftmost.of_isUnbordered`).
-/

import SearchMarkup.Text.Basic

namespace SearchMarkup
namespace Text

/-- `p` stands in `t` between `a` and `b`, and nowhere further left. -/
structure Leftmost (p t a b : Text) : Prop where
  eq_append : t = a ++ p ++ b
  length_le : ∀ a' b', t = a' ++ p ++ b' → a.length ≤ a'.length

variable {p t a b a' b' : Text}

/-- There is one leftmost occurrence. -/
theorem Leftmost.unique (h : Leftmost p t a b) (h' : Leftmost p t a' b') : a = a' ∧ b = b' := by
  have hlen := Nat.le_antisymm (h.length_le a' b' h'.eq_append) (h'.length_le a b h.eq_append)
  have heq := h.eq_append.symm.trans h'.eq_append
  rw [List.append_assoc, List.append_assoc] at heq
  obtain ⟨rfl, hpb⟩ := List.append_inj heq hlen
  exact ⟨rfl, List.append_cancel_left hpb⟩

/-- A leftmost occurrence is one. -/
theorem Leftmost.isInfix (h : Leftmost p t a b) : p <:+: t :=
  ⟨a, b, h.eq_append.symm⟩

/-- A text does not occur in what leads up to its leftmost occurrence. -/
theorem Leftmost.not_isInfix_left (h : Leftmost p t a b) (hp : p ≠ []) : ¬p <:+: a := by
  rintro ⟨a', s, rfl⟩
  have hlen := h.length_le a' (s ++ p ++ b) (by simp [h.eq_append])
  have hpos := List.length_pos_iff.2 hp
  simp only [List.length_append] at hlen
  omega

/-- Whatever does not occur after the leftmost `p` occurs after no other `p` either. -/
theorem Leftmost.not_isInfix {q : Text} (h : Leftmost p t a b) (hq : ¬q <:+: b)
    (ht : t = a' ++ p ++ b') : ¬q <:+: b' := by
  intro hb'
  have hlen := h.length_le a' b' ht
  rcases List.append_eq_append_iff.1 (h.eq_append.symm.trans ht) with ⟨s, -, rfl⟩ | ⟨s, hs, rfl⟩
  · exact hq (hb'.trans (List.suffix_append s b').isInfix)
  · have hnil : s = [] := by
      have := congrArg List.length hs
      simp only [List.length_append] at this
      exact List.eq_nil_of_length_eq_zero (by omega)
    rw [hnil] at hb'
    exact hq hb'

/-- Nothing follows a text that does not lead. -/
theorem afterLeading?_eq_none_iff : afterLeading? p t = none ↔ ∀ r, t ≠ p ++ r := by
  rw [Option.eq_none_iff_forall_ne_some]
  exact forall_congr' fun r => not_congr afterLeading?_eq_some_iff

/-- What is found is the leftmost occurrence. -/
theorem leftmost_of_splitAtFirst? (h : splitAtFirst? p t = some (a, b)) : Leftmost p t a b := by
  refine ⟨eq_append_of_splitAtFirst? h, ?_⟩
  induction t generalizing a b with
  | nil =>
    obtain ⟨r, -, hr⟩ := Option.map_eq_some_iff.1 h
    obtain ⟨rfl, -⟩ := Prod.mk.inj hr
    exact fun _ _ _ => Nat.zero_le _
  | cons c t ih =>
    rw [splitAtFirst?] at h
    split at h
    · obtain ⟨rfl, -⟩ := Prod.mk.inj (Option.some.inj h)
      exact fun _ _ _ => Nat.zero_le _
    · next hn =>
      obtain ⟨⟨a₁, b₁⟩, h₁, heq⟩ := Option.map_eq_some_iff.1 h
      obtain ⟨rfl, rfl⟩ := Prod.mk.inj heq
      intro a' b' ht
      cases a' with
      | nil => exact absurd ht (afterLeading?_eq_none_iff.1 hn b')
      | cons d a' =>
        obtain ⟨-, ht⟩ := List.cons.inj ht
        exact Nat.succ_le_succ (ih h₁ a' b' ht)

/-- **Nothing is found exactly when nothing is there.** -/
theorem splitAtFirst?_eq_none_iff : splitAtFirst? p t = none ↔ ¬p <:+: t := by
  constructor
  · intro h
    induction t with
    | nil =>
      have hn := afterLeading?_eq_none_iff.1 (Option.map_eq_none_iff.1 h) []
      rw [List.append_nil] at hn
      rw [List.infix_nil]
      exact Ne.symm hn
    | cons c t ih =>
      rw [splitAtFirst?] at h
      split at h
      · cases h
      · next hn =>
        rw [List.infix_cons_iff]
        rintro (⟨r, hr⟩ | ht)
        · exact afterLeading?_eq_none_iff.1 hn r hr.symm
        · exact ih (Option.map_eq_none_iff.1 h) ht
  · intro h
    cases hs : splitAtFirst? p t with
    | none => rfl
    | some found => exact absurd (leftmost_of_splitAtFirst? hs).isInfix h

/-- **What is found is the leftmost occurrence.** -/
theorem splitAtFirst?_eq_some_iff : splitAtFirst? p t = some (a, b) ↔ Leftmost p t a b := by
  refine ⟨leftmost_of_splitAtFirst?, fun h => ?_⟩
  cases hs : splitAtFirst? p t with
  | none => exact absurd h.isInfix (splitAtFirst?_eq_none_iff.1 hs)
  | some found =>
    obtain ⟨ha, hb⟩ := (leftmost_of_splitAtFirst? hs).unique h
    rw [← ha, ← hb]

/-- A text contains those that occur in it. -/
theorem contains_iff : t.contains p = true ↔ p <:+: t := by
  rw [contains, Option.isSome_iff_ne_none, ne_eq, splitAtFirst?_eq_none_iff]
  exact Decidable.not_not

/-! ## Unbordered texts -/

/-- No part of a text but the whole both begins and ends it. -/
def IsUnbordered (p : Text) : Prop := ∀ q, q ≠ [] → q <+: p → q <:+ p → q = p

/-- A text is unbordered if none of its beginnings but the empty one is an end of it. -/
theorem isUnbordered_iff_take : IsUnbordered p ↔ ∀ n < p.length, p.take n <:+ p → n = 0 := by
  constructor
  · intro h n hn hs
    rcases Nat.eq_zero_or_pos n with h0 | hpos
    · exact h0
    · have hlen : (p.take n).length = n := List.length_take_of_le (Nat.le_of_lt hn)
      have heq := h _ (List.ne_nil_of_length_pos (by omega)) (List.take_prefix n p) hs
      rw [heq] at hlen
      omega
  · intro h q hne hp hs
    rcases Nat.lt_or_ge q.length p.length with hlt | hge
    · rw [List.prefix_iff_eq_take.1 hp] at hs
      exact absurd (List.eq_nil_of_length_eq_zero (h _ hlt hs)) hne
    · exact hp.eq_of_length_le hge

instance : DecidablePred IsUnbordered := fun _ => decidable_of_iff _ isUnbordered_iff_take.symm

/-- **An unbordered text does not begin before its place and end within it.** -/
theorem Leftmost.of_isUnbordered (hp : IsUnbordered p) (ha : ¬p <:+: a) :
    Leftmost p (a ++ p ++ b) a b := by
  refine ⟨rfl, fun a' b' h => Nat.le_of_not_lt fun hlt => ?_⟩
  -- An occurrence further left begins inside `a`, at some `s` before the end of `a`.
  obtain ⟨s, rfl, hs⟩ : ∃ s, a = a' ++ s ∧ p ++ b' = s ++ (p ++ b) := by
    rw [List.append_assoc, List.append_assoc] at h
    rcases List.append_eq_append_iff.1 h with ⟨s, rfl, -⟩ | h
    · rw [List.length_append] at hlt
      omega
    · exact h
  have hne : s ≠ [] := by
    rintro rfl
    simp at hlt
  rcases List.append_eq_append_iff.1 hs with ⟨r, rfl, -⟩ | ⟨q, hq, hqb⟩
  · exact absurd ⟨a', r, by simp⟩ ha
  · -- It ends within `p`, so what it shares with `p` both ends and begins `p`.
    have hprefix : q <+: p :=
      List.prefix_of_prefix_length_le ⟨b', hqb.symm⟩ ⟨b, rfl⟩ (by simp [hq])
    have hpq : q ≠ p := by
      rintro rfl
      exact hne (List.append_left_eq_self.1 hq.symm)
    have hnil : q = [] := by
      rcases q with _ | ⟨c, q⟩
      · rfl
      · exact absurd (hp _ (List.cons_ne_nil c q) hprefix ⟨s, hq.symm⟩) hpq
    rw [hnil, List.append_nil] at hq
    exact absurd ⟨a', [], by simp [hq]⟩ ha

end Text
end SearchMarkup
