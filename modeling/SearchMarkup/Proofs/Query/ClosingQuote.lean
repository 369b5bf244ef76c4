/-
# Where a quotation closes

A quotation closes at the first quote character that no escape mark takes away. An
escape mark takes away the character after it, unless it is taken away itself; so a
character is taken away when an odd number of marks stands in front of it
(`isEscaped_iff`).

The body of a quotation is therefore a text in which every quote character has an odd
run of marks in front of it, and which does not end in an odd run itself
(`Quotation.IsBody`), and the search for the closing quote finds exactly such a body with
a quote character after it (`splitAtClosing?_eq_some_iff`). Nothing in that depends on
the text after the quotation.
-/

import SearchMarkup.Query.Scan
import Mathlib.Data.List.Induction

namespace SearchMarkup

/-- How many escape marks a text ends in. -/
def markRun (t : Text) : Nat := (t.reverse.takeWhile fun c => c == escapeMark).length

/-- A further escape mark makes the run of them longer, and anything else ends it. -/
theorem markRun_concat (t : Text) (c : Char) :
    markRun (t ++ [c]) = if c = escapeMark then markRun t + 1 else 0 := by
  rw [markRun, List.reverse_concat, List.takeWhile_cons]
  by_cases hc : c = escapeMark <;> simp [hc, markRun]

/-- Whether the character after a text is taken away. `escaped` says it of the first
character of the text. -/
def isEscaped (escaped : Bool) (t : Text) : Bool :=
  t.foldl (fun e c => !e && c == escapeMark) escaped

@[simp] theorem isEscaped_nil (e : Bool) : isEscaped e [] = e := rfl

/-- A mark that is not escaped escapes what comes after it. -/
@[simp] theorem isEscaped_cons (e : Bool) (c : Char) (t : Text) :
    isEscaped e (c :: t) = isEscaped (!e && c == escapeMark) t := rfl

/-- **A character is taken away when an odd number of marks stands in front of it.** -/
theorem isEscaped_iff (t : Text) : isEscaped false t = true ↔ markRun t % 2 = 1 := by
  induction t using List.reverseRecOn with
  | nil => simp [markRun]
  | append_singleton t c ih =>
    have hstep : isEscaped false (t ++ [c]) = (!isEscaped false t && c == escapeMark) := by
      rw [isEscaped, List.foldl_append]
      rfl
    rw [hstep, markRun_concat, Bool.and_eq_true, beq_iff_eq, Bool.not_eq_true', ← Bool.not_eq_true,
      ih]
    by_cases hc : c = escapeMark
    · simp only [hc, if_true, and_true]
      omega
    · simp only [hc, if_false, and_false, false_iff]
      omega

/-- The search finds the first quote character that is not taken away. -/
theorem splitAtClosing?_eq_some_iff_isEscaped {e : Bool} {t body rest : Text} {q : Char} :
    splitAtClosing? e t = some (body, q, rest) ↔
      t = body ++ q :: rest ∧ isQuote q = true ∧ isEscaped e body = false ∧
        ∀ u c v, body = u ++ c :: v → isQuote c = true → isEscaped e u = true := by
  induction t generalizing e body with
  | nil => simp [splitAtClosing?]
  | cons c t ih =>
    rw [splitAtClosing?]
    by_cases hc : (!e && isQuote c) = true
    · rw [if_pos hc]
      obtain ⟨he, hcq⟩ : e = false ∧ isQuote c = true := by simpa using hc
      constructor
      · intro h
        obtain ⟨rfl, rfl, rfl⟩ : [] = body ∧ c = q ∧ t = rest := by simpa using h
        exact ⟨rfl, hcq, he, fun u d v huv => by simp at huv⟩
      · rintro ⟨h, -, -, hall⟩
        cases body with
        | nil =>
          obtain ⟨rfl, rfl⟩ := List.cons.inj h
          rfl
        | cons b body =>
          obtain ⟨rfl, -⟩ := List.cons.inj h
          have hescaped : e = true := hall [] c body rfl hcq
          rw [he] at hescaped
          cases hescaped
    · rw [if_neg hc]
      constructor
      · intro h
        obtain ⟨⟨b, q', r⟩, h', heq⟩ := Option.map_eq_some_iff.1 h
        obtain ⟨rfl, rfl, rfl⟩ : c :: b = body ∧ q' = q ∧ r = rest := by simpa using heq
        obtain ⟨rfl, hq, hlast, hall⟩ := ih.1 h'
        refine ⟨rfl, hq, hlast, fun u d v huv hd => ?_⟩
        cases u with
        | nil =>
          obtain ⟨rfl, -⟩ := List.cons.inj huv
          simpa [hd] using hc
        | cons x u =>
          obtain ⟨rfl, hv⟩ := List.cons.inj huv
          exact hall u d v hv hd
      · rintro ⟨h, hq, hlast, hall⟩
        cases body with
        | nil =>
          obtain ⟨rfl, -⟩ := List.cons.inj h
          exact absurd (by simpa [hq] using hlast) hc
        | cons b body =>
          obtain ⟨rfl, rfl⟩ := List.cons.inj h
          rw [ih.2 ⟨rfl, hq, hlast, fun u d v hv hd => hall (c :: u) d v (by rw [hv]; rfl) hd⟩]
          rfl

namespace Quotation

/-- A text that stands between the quote characters of a quotation. -/
structure IsBody (w : Text) : Prop where
  escaped : ∀ u c v, w = u ++ c :: v → isQuote c = true → markRun u % 2 = 1
  complete : markRun w % 2 = 0

/-- Whether a quotation is one that a search can find. -/
structure IsClosed (q : Quotation) : Prop where
  opening : isQuote q.opening = true
  body : IsBody q.body
  closing : isQuote q.closing = true

end Quotation

/-- **The search for the closing quote finds the body of a quotation.** -/
theorem splitAtClosing?_eq_some_iff {t body rest : Text} {q : Char} :
    splitAtClosing? false t = some (body, q, rest) ↔
      t = body ++ q :: rest ∧ isQuote q = true ∧ Quotation.IsBody body := by
  have hcomplete : isEscaped false body = false ↔ markRun body % 2 = 0 := by
    rw [← Bool.not_eq_true, isEscaped_iff]
    omega
  rw [splitAtClosing?_eq_some_iff_isEscaped, hcomplete]
  simp only [isEscaped_iff]
  exact ⟨fun ⟨ht, hq, hlast, hall⟩ => ⟨ht, hq, hall, hlast⟩,
    fun ⟨ht, hq, hall, hlast⟩ => ⟨ht, hq, hlast, hall⟩⟩

end SearchMarkup
