/-
# How events are built

An event begins with a message, as one of five kinds (`Event.begun`), and then spans and named
values are added to it one by one (`Event.addAll`).

| part of the event | is |
| --- | --- |
| level, code, message | as it began |
| values | of each name the one added last |

The values stand in the order of their names, since each is put where its name belongs
(`Event.mem_insertValue`).
-/

import SearchMarkup.Journal.Event
import Mathlib.Data.List.Induction
import Mathlib.Data.String.Basic

namespace SearchMarkup
namespace Event

/-- The events that a message can begin. -/
def begun (code : Code) (message : String) : List Event :=
  [error code message, warning code message, info message, success code message,
    debug code message]

/-- What is added to an event. -/
inductive Addition where
  | span (s : Span)
  | value (name value : String)
  deriving DecidableEq, Repr

/-- The event with one more addition. -/
def add (e : Event) : Addition → Event
  | .span s => e.withSpan s
  | .value name value => e.withValue name value

/-- The event with additions one by one. -/
def addAll (e : Event) (xs : List Addition) : Event := xs.foldl add e

/-- The value that an addition gives a name. -/
def Addition.value? (name : String) : Addition → Option String
  | .span _ => none
  | .value n v => if n = name then some v else none

/-- The value that was added last under a name. -/
def lastValue? (name : String) (xs : List Addition) : Option String :=
  xs.reverse.findSome? (Addition.value? name)

variable {code : Code} {message : String} {e : Event}

/-- Additions are made one after another. -/
theorem addAll_concat (e : Event) (xs : List Addition) (x : Addition) :
    e.addAll (xs ++ [x]) = (e.addAll xs).add x := by
  rw [addAll, List.foldl_append]
  rfl

/-- A later value of a name takes the place of an earlier one. -/
theorem lastValue?_concat (name : String) (xs : List Addition) (x : Addition) :
    lastValue? name (xs ++ [x]) = (x.value? name).or (lastValue? name xs) := by
  rw [lastValue?, List.reverse_concat, List.findSome?_cons]
  cases x.value? name <;> rfl

/-- Additions leave the message and what stands before it. -/
theorem addAll_eq (e : Event) (xs : List Addition) :
    (e.addAll xs).level = e.level ∧ (e.addAll xs).code = e.code ∧
      (e.addAll xs).message = e.message := by
  induction xs using List.reverseRecOn with
  | nil => exact ⟨rfl, rfl, rfl⟩
  | append_singleton xs x ih =>
    rw [addAll_concat]
    cases x <;> exact ih

/-- Every event begins with its message as far as it fits, and without a value. -/
theorem eq_of_mem_begun (h : e ∈ begun code message) :
    e.message = String.ofList (Text.truncate Limits.eventMessage message.toList) ∧
      (e.code = code ∨ e.code = .remark) ∧ e.context = [] := by
  simp only [begun, List.mem_cons, List.not_mem_nil, or_false] at h
  rcases h with rfl | rfl | rfl | rfl | rfl
  · exact ⟨rfl, .inl rfl, rfl⟩
  · exact ⟨rfl, .inl rfl, rfl⟩
  · exact ⟨rfl, .inr rfl, rfl⟩
  · exact ⟨rfl, .inl rfl, rfl⟩
  · exact ⟨rfl, .inl rfl, rfl⟩

/-! ## The values -/

/-- Values in the order of their names, one for each. -/
def IsOrdered (l : List (String × String)) : Prop := l.Pairwise fun p q => p.1 < q.1

/-- Nothing else comes in with a value. -/
theorem eq_or_mem_of_mem_insertValue {name value : String} {l : List (String × String)}
    {p : String × String} (hp : p ∈ insertValue name value l) : p = (name, value) ∨ p ∈ l := by
  fun_induction insertValue name value l with
  | case1 => exact List.mem_cons.1 hp
  | case2 => exact List.mem_cons.1 hp
  | case3 => exact (List.mem_cons.1 hp).imp_right (List.mem_cons_of_mem _)
  | case4 n v rest hlt hne ih =>
    rcases List.mem_cons.1 hp with rfl | hp
    · exact .inr (List.mem_cons_self ..)
    · exact (ih hp).imp_right (List.mem_cons_of_mem _)

/-- **A value takes the place of an earlier one of its name,** and leaves the others. -/
theorem mem_insertValue {l : List (String × String)} (hl : IsOrdered l) {name value : String}
    {p : String × String} :
    p ∈ insertValue name value l ↔ p = (name, value) ∨ p ∈ l ∧ p.1 ≠ name := by
  induction l with
  | nil => simp [insertValue]
  | cons q l ih =>
    obtain ⟨n, v⟩ := q
    obtain ⟨hfirst, hl⟩ := List.pairwise_cons.1 hl
    rw [insertValue]
    split
    · next hlt =>
      have hother : p ∈ (n, v) :: l → p.1 ≠ name := by
        intro hp
        rcases List.mem_cons.1 hp with rfl | hp
        · exact (ne_of_lt hlt).symm
        · exact (ne_of_lt (hlt.trans (hfirst p hp))).symm
      rw [List.mem_cons]
      exact or_congr_right ⟨fun hp => ⟨hp, hother hp⟩, And.left⟩
    · split
      · next heq =>
        subst heq
        have hother : p ∈ l → p.1 ≠ name := fun hp => (ne_of_lt (hfirst p hp)).symm
        simp only [List.mem_cons]
        constructor
        · exact Or.imp_right fun hp => ⟨.inr hp, hother hp⟩
        · rintro (hp | ⟨rfl | hp, hne⟩)
          · exact .inl hp
          · exact absurd rfl hne
          · exact .inr hp
      · next hne =>
        rw [List.mem_cons, ih hl, List.mem_cons]
        constructor
        · rintro (rfl | hp | ⟨hp, hne'⟩)
          · exact .inr ⟨.inl rfl, Ne.symm hne⟩
          · exact .inl hp
          · exact .inr ⟨.inr hp, hne'⟩
        · rintro (hp | ⟨rfl | hp, hne'⟩)
          · exact .inr (.inl hp)
          · exact .inl rfl
          · exact .inr (.inr ⟨hp, hne'⟩)

/-- A value is put in its place. -/
theorem isOrdered_insertValue {l : List (String × String)} (hl : IsOrdered l)
    (name value : String) : IsOrdered (insertValue name value l) := by
  induction l with
  | nil => exact List.pairwise_singleton ..
  | cons q l ih =>
    obtain ⟨n, v⟩ := q
    obtain ⟨hfirst, htail⟩ := List.pairwise_cons.1 hl
    rw [insertValue]
    split
    · next hlt =>
      refine List.pairwise_cons.2 ⟨fun p hp => ?_, hl⟩
      rcases List.mem_cons.1 hp with rfl | hp
      · exact hlt
      · exact hlt.trans (hfirst p hp)
    · split
      · next heq =>
        subst heq
        exact List.pairwise_cons.2 ⟨hfirst, htail⟩
      · next hnlt hne =>
        refine List.pairwise_cons.2 ⟨fun p hp => ?_, ih htail⟩
        rcases eq_or_mem_of_mem_insertValue hp with rfl | hp
        · exact lt_of_le_of_ne (not_lt.1 hnlt) (Ne.symm hne)
        · exact hfirst p hp

/-- Whatever is added, the values stay ordered by name. -/
theorem isOrdered_addAll (he : e.context = []) (xs : List Addition) :
    IsOrdered (e.addAll xs).context := by
  induction xs using List.reverseRecOn with
  | nil => rw [addAll, List.foldl_nil, he]; exact .nil
  | append_singleton xs x ih =>
    rw [addAll_concat]
    cases x with
    | span s => exact ih
    | value n v => exact isOrdered_insertValue ih n v

/-- **Of each name the event has the value added last.** -/
theorem mem_addAll_iff (he : e.context = []) {xs : List Addition} {name value : String} :
    (name, value) ∈ (e.addAll xs).context ↔ lastValue? name xs = some value := by
  induction xs using List.reverseRecOn with
  | nil => simp [addAll, he, lastValue?]
  | append_singleton xs x ih =>
    rw [addAll_concat, lastValue?_concat]
    cases x with
    | span s => exact ih
    | value n v =>
      have hadd : ((e.addAll xs).add (.value n v)).context =
          insertValue n v (e.addAll xs).context := rfl
      rw [hadd, mem_insertValue (isOrdered_addAll he xs), ih, Addition.value?]
      by_cases hn : n = name
      · subst hn
        simp [eq_comm]
      · simp [hn, Ne.symm hn]

end Event
end SearchMarkup
