/-
# The words of a text

A word is a run of word characters that cannot be made longer on either side. `Text.words`
lists the words of a text from left to right, each with the text after it: every word, and
each of them once (`mem_words_iff`, `nodup_words`).

Whether a word begins at a character depends on the character before it, so the words of a
part of a text are those of the part alone unless the border cuts a word
(`wordsAfter_eq_words`).
-/

import SearchMarkup.Proofs.Query.Trace

namespace SearchMarkup
namespace Text

/-- The word that begins at a place, with the text after it, given the character before the
place. -/
def wordAt? (before : Option Char) (t : Text) : Option (Text × Text) :=
  if t.head?.any isWordChar && !before.any isWordChar then
    some (t.takeWhile isWordChar, t.dropWhile isWordChar)
  else none

/-- The words that begin in what follows a character, each with the text after it. -/
def wordsAfter (before : Option Char) : Text → List (Text × Text)
  | [] => []
  | c :: t => (wordAt? before (c :: t)).toList ++ wordsAfter (some c) t

/-- The words of a text, each with the text after it. -/
def words (t : Text) : List (Text × Text) := wordsAfter none t

/-- A text stands between two others as a word. -/
structure IsWord (before : Option Char) (w b : Text) : Prop where
  ne_nil : w ≠ []
  all : ∀ c ∈ w, isWordChar c = true
  start : before.any isWordChar = false
  stop : b.head?.any isWordChar = false

variable {before : Option Char} {t w b : Text}

/-- A word goes on as long as it can. -/
theorem head?_dropWhile_isWordChar (t : Text) :
    (t.dropWhile isWordChar).head?.any isWordChar = false := by
  have hnot := List.head?_dropWhile_not isWordChar t
  cases h : (t.dropWhile isWordChar).head? with
  | none => rfl
  | some c =>
    rw [h] at hnot
    exact hnot

/-- The word that follows a place is `w` if the text goes on with `w` and no further. -/
theorem takeWhile_isWordChar_eq_iff (hw : ∀ c ∈ w, isWordChar c = true) :
    t.takeWhile isWordChar = w ↔ ∃ r, t = w ++ r ∧ r.head?.any isWordChar = false := by
  constructor
  · rintro rfl
    exact ⟨t.dropWhile isWordChar, List.takeWhile_append_dropWhile.symm,
      head?_dropWhile_isWordChar t⟩
  · rintro ⟨r, rfl, hr⟩
    rw [List.takeWhile_append_of_pos hw]
    cases r with
    | nil => exact List.append_nil w
    | cons c r => rw [List.takeWhile_cons_of_neg (by simpa using hr), List.append_nil]

/-- **A word that is cut out is cut out at its ends.** -/
theorem wordAt?_eq_some_iff : wordAt? before t = some (w, b) ↔ t = w ++ b ∧ IsWord before w b := by
  rw [wordAt?]
  constructor
  · intro h
    split at h
    · next hstart =>
      obtain ⟨rfl, rfl⟩ := Prod.mk.inj (Option.some.inj h)
      obtain ⟨hhead, hbefore⟩ : t.head?.any isWordChar = true ∧ before.any isWordChar = false := by
        simpa only [Bool.and_eq_true, Bool.not_eq_true'] using hstart
      refine ⟨List.takeWhile_append_dropWhile.symm, ?_, ?_, hbefore, head?_dropWhile_isWordChar t⟩
      · cases t with
        | nil => cases hhead
        | cons c t =>
          have hc : isWordChar c = true := hhead
          rw [List.takeWhile_cons_of_pos hc]
          exact List.cons_ne_nil _ _
      · exact fun c hc => List.all_eq_true.1 List.all_takeWhile c hc
    · cases h
  · rintro ⟨rfl, hne, hall, hbefore, hstop⟩
    have hhead : (w ++ b).head?.any isWordChar = true := by
      obtain ⟨c, w, rfl⟩ := List.exists_cons_of_ne_nil hne
      exact hall c (List.mem_cons_self ..)
    have htake : (w ++ b).takeWhile isWordChar = w :=
      (takeWhile_isWordChar_eq_iff hall).2 ⟨b, rfl, hstop⟩
    have hdrop : (w ++ b).dropWhile isWordChar = b := by
      have hcut := List.takeWhile_append_dropWhile (p := isWordChar) (l := w ++ b)
      rw [htake] at hcut
      exact List.append_cancel_left hcut
    rw [if_pos (by rw [hhead, hbefore]; rfl), htake, hdrop]

/-- The words listed are those that stand in the text. -/
theorem mem_wordsAfter_iff : (w, b) ∈ wordsAfter before t ↔
    ∃ a, t = a ++ (w ++ b) ∧ IsWord (lastOr before a) w b := by
  induction t generalizing before with
  | nil =>
    refine ⟨fun h => (List.not_mem_nil h).elim, ?_⟩
    rintro ⟨a, h, hw⟩
    exact absurd (List.append_eq_nil_iff.1 (List.append_eq_nil_iff.1 h.symm).2).1 hw.ne_nil
  | cons c t ih =>
    rw [wordsAfter, List.mem_append, Option.mem_toList, wordAt?_eq_some_iff, ih]
    constructor
    · rintro (⟨h, hw⟩ | ⟨a, rfl, hw⟩)
      · exact ⟨[], h, hw⟩
      · exact ⟨c :: a, rfl, lastOr_cons before c a ▸ hw⟩
    · rintro ⟨a, h, hw⟩
      cases a with
      | nil => exact .inl ⟨h, hw⟩
      | cons d a =>
        obtain ⟨rfl, rfl⟩ := List.cons.inj h
        exact .inr ⟨a, rfl, lastOr_cons before c a ▸ hw⟩

/-- **The words of a text are the runs of word characters that cannot be made longer.** -/
theorem mem_words_iff : (w, b) ∈ words t ↔ ∃ a, t = a ++ (w ++ b) ∧ IsWord a.getLast? w b := by
  rw [words, mem_wordsAfter_iff]
  simp only [lastOr, Option.or_none]

/-- Each word is listed where it begins, hence once. -/
theorem nodup_words (t : Text) : (words t).Nodup := by
  have hsorted (before : Option Char) (t : Text) :
      (wordsAfter before t).Pairwise fun x y => (y.1 ++ y.2).length < (x.1 ++ x.2).length := by
    induction t generalizing before with
    | nil => exact .nil
    | cons c t ih =>
      rw [wordsAfter, List.pairwise_append]
      refine ⟨by cases wordAt? before (c :: t) <;> simp, ih _, ?_⟩
      rintro ⟨w, b⟩ hw ⟨w', b'⟩ hw'
      obtain ⟨h, -⟩ := wordAt?_eq_some_iff.1 (Option.mem_toList.1 hw)
      obtain ⟨a, rfl, -⟩ := mem_wordsAfter_iff.1 hw'
      simp only [← h, List.length_cons, List.length_append]
      omega
  refine List.nodup_iff_pairwise_ne.2 ((hsorted none t).imp ?_)
  intro x y hlt heq
  exact Nat.lt_irrefl _ (heq ▸ hlt)

/-- The words of a text are what they are wherever it stands, unless the border cuts one. -/
theorem wordsAfter_eq_words
    (h : before.any isWordChar = true → t.head?.any isWordChar = false) :
    wordsAfter before t = words t := by
  cases t with
  | nil => rfl
  | cons c t =>
    have hword : wordAt? before (c :: t) = wordAt? none (c :: t) := by
      by_cases hb : before.any isWordChar = true
      · have hc : (c :: t).head?.any isWordChar = false := h hb
        rw [wordAt?, wordAt?, hc, Bool.false_and, Bool.false_and]
      · simp [wordAt?, hb]
    rw [words, wordsAfter, wordsAfter, hword]

end Text
end SearchMarkup
