/-
# Written values are read back

A value that is written in a layout and read again is the same value (`parse?_write`).
What it takes of the value (`Kept`):

| value | it is kept if |
| --- | --- |
| `null`, a truth value, a string | always |
| a whole number | it fits 64 bits, or 63 bits and a sign |
| a list, an object | it is nested no deeper than readers go, and so is what it holds |

Of the layout it takes that nothing but blanks is put between the parts (`Layout.IsBlank`).

Each reader gets a text that goes on after what it reads, and has to stop there. A string
ends at its own quote, which is escaped within. A number has no end of its own, so it is
read back only if what follows cannot belong to it (`EndsNumber`); in a written text that
is a comma, a blank or a bracket. Lists and objects are read with fuel, which the length of
the text provides: each item and each member takes a character at least.
-/

import SearchMarkup.Json.Reader
import SearchMarkup.Proofs.Codec.InputShapes
import Mathlib.Data.List.DropRight

namespace SearchMarkup
namespace Json

variable {b t u rest : Text} {c : Char} {n depth : Nat} {j : Json}

/-! ## Between the parts of a text -/

/-- A layout puts a colon after names, and otherwise nothing but blanks between parts. -/
structure Layout.IsBlank (l : Layout) : Prop where
  lineBreak : ∀ n, ∀ c ∈ l.lineBreak n, isBlank c = true
  colon : ∃ b, l.colon = ':' :: b ∧ ∀ c ∈ b, isBlank c = true

/-- On one line there is nothing between the signs. -/
theorem Layout.isBlank_compact : compact.IsBlank :=
  ⟨fun _ => nofun, [], rfl, nofun⟩

/-- Indented, there are line feeds and spaces between the signs. -/
theorem Layout.isBlank_pretty : pretty.IsBlank := by
  refine ⟨fun n c hc => ?_, [' '], rfl, fun c hc => ?_⟩
  · rcases List.mem_cons.1 hc with rfl | hc
    · rfl
    · rw [List.eq_of_mem_replicate hc]
      rfl
  · rw [List.mem_singleton.1 hc]
    rfl

/-- Blanks in front are skipped. -/
theorem skipBlanks_append (hb : ∀ c ∈ b, isBlank c = true) :
    skipBlanks (b ++ t) = skipBlanks t :=
  List.dropWhile_append_of_pos hb

/-- A sign that is no blank is not. -/
theorem skipBlanks_cons (hc : isBlank c = false) : skipBlanks (c :: t) = c :: t := by
  simp [skipBlanks, hc]

/-- A text that begins with what cannot go on a number. -/
def EndsNumber (t : Text) : Prop :=
  ∀ c ∈ t.head?, c.isDigit = false ∧ c ≠ '.' ∧ c ≠ 'e' ∧ c ≠ 'E'

/-- A number may end the text. -/
theorem endsNumber_nil : EndsNumber [] := nofun

/-- A number ends before a sign that does not go on with it. -/
theorem endsNumber_cons (h : c.isDigit = false ∧ c ≠ '.' ∧ c ≠ 'e' ∧ c ≠ 'E') :
    EndsNumber (c :: t) := by
  rintro d ⟨⟩
  exact h

/-- A number ends before a blank. -/
theorem endsNumber_of_isBlank (hc : isBlank c = true) : EndsNumber (c :: t) := by
  simp only [isBlank, Bool.or_eq_true, beq_iff_eq] at hc
  refine endsNumber_cons ?_
  rcases hc with ((rfl | rfl) | rfl) | rfl <;> decide

/-- No number goes on in blanks. -/
theorem EndsNumber.blanks (hb : ∀ c ∈ b, isBlank c = true) (h : EndsNumber t) :
    EndsNumber (b ++ t) := by
  cases b with
  | nil => exact h
  | cons c b => exact endsNumber_of_isBlank (hb c (List.mem_cons_self ..))

/-- A digit is no blank. -/
theorem isBlank_of_isDigit (hc : c.isDigit = true) : isBlank c = false := by
  rw [Bool.eq_false_iff]
  intro hblank
  have hends : EndsNumber [c] := endsNumber_of_isBlank hblank
  have hnot := (hends c rfl).1
  exact Bool.false_ne_true (hnot.symm.trans hc)

/-! ## Strings -/

/-- A hexadecimal digit is read as its value. -/
theorem hexDigit?_digitChar : ∀ n < 16, hexDigit? (Nat.digitChar n) = some n := by decide

/-- A control character is read from the digits of its code. -/
theorem readEscape_control (hc : c.toNat < 0x20) :
    readEscape ('u' :: '0' :: '0' :: Nat.digitChar (c.toNat / 16) ::
      Nat.digitChar (c.toNat % 16) :: t) = .ok (c, t) := by
  have hzero : hexDigit? '0' = some 0 := by decide
  have hhigh := hexDigit?_digitChar (c.toNat / 16) (by omega)
  have hlow := hexDigit?_digitChar (c.toNat % 16) (by omega)
  have hcode : ((0 * 16 + 0) * 16 + c.toNat / 16) * 16 + c.toNat % 16 = c.toNat := by omega
  have hfour : readFourHex ('0' :: '0' :: Nat.digitChar (c.toNat / 16) ::
      Nat.digitChar (c.toNat % 16) :: t) = .ok (c.toNat, t) := by
    simp only [readFourHex, hzero, hhigh, hlow, hcode]
  rw [readEscape, if_pos rfl, readUnicodeEscape, hfour]
  simp only [bind, Except.bind]
  rw [if_neg (by omega), if_pos (by omega), Char.ofNat_toNat]
  rfl

/-- A written character is read, be it escaped or not. -/
theorem readChars_escapeChar (c : Char) (reversed : Text) (fuel : Nat) (t : Text) :
    readChars reversed (fuel + 1) (escapeChar c ++ t) = readChars (c :: reversed) fuel t := by
  unfold escapeChar
  split
  -- The characters with a short escape are read by computation; this is any other.
  case h_8 hquote hbackslash _ _ _ _ _ =>
    split
    · next hcontrol =>
      simp only [List.cons_append, List.nil_append]
      rw [readChars, if_neg (by decide), if_pos rfl, readEscape_control hcontrol]
      rfl
    · next hcontrol =>
      rw [List.singleton_append, readChars, if_neg hquote, if_neg hbackslash,
        if_neg hcontrol]
  all_goals rfl

/-- A string is read up to its closing quote, whatever was written in it. -/
theorem readChars_flatMap_escapeChar (t reversed : Text) {fuel : Nat} (hfuel : t.length < fuel)
    (rest : Text) :
    readChars reversed fuel (t.flatMap escapeChar ++ '"' :: rest) =
      .ok (String.ofList (reversed.reverse ++ t), rest) := by
  induction t generalizing reversed fuel with
  | nil =>
    obtain ⟨fuel, rfl⟩ := Nat.exists_eq_add_of_lt hfuel
    simp [readChars]
  | cons c t ih =>
    obtain ⟨fuel, rfl⟩ := Nat.exists_eq_add_of_lt hfuel
    rw [List.flatMap_cons, List.append_assoc, readChars_escapeChar,
      ih (c :: reversed) (by simp only [List.length_cons]; omega)]
    simp

/-- A text is written with at least as many characters. -/
theorem length_le_flatMap_escapeChar (t : Text) : t.length ≤ (t.flatMap escapeChar).length := by
  induction t with
  | nil => exact Nat.le_refl 0
  | cons c t ih =>
    have hc : 0 < (escapeChar c).length := by
      unfold escapeChar
      split
      case h_8 => split <;> exact Nat.succ_pos _
      all_goals exact Nat.succ_pos _
    rw [List.flatMap_cons, List.length_append, List.length_cons]
    omega

/-- **A written string is read back,** up to its closing quote. -/
theorem readString_flatMap_escapeChar (s : String) (rest : Text) :
    readString (s.toList.flatMap escapeChar ++ '"' :: rest) = .ok (s, rest) := by
  have hlength := length_le_flatMap_escapeChar s.toList
  rw [readString, readChars_flatMap_escapeChar]
  · rw [List.reverse_nil, List.nil_append, String.ofList_toList]
  · rw [List.length_append, List.length_cons]
    omega

/-! ## Numbers -/

/-- More digits make a number no smaller, so none of its beginnings is out of range. -/
theorem le_ofDigitChars (ds : Text) (k : Nat) : k ≤ Nat.ofDigitChars 10 ds k := by
  induction ds generalizing k with
  | nil => exact Nat.le_refl k
  | cons c ds ih =>
    rw [Nat.ofDigitChars_cons]
    exact Nat.le_trans (by omega) (ih _)

/-- A whole number is read where it ends. -/
theorem readAfterWhole_eq {positive : Bool} {k : Nat} (h : EndsNumber rest) :
    readAfterWhole positive k rest = .ok (wholeNumber positive k, rest) := by
  unfold readAfterWhole
  split
  · exact absurd rfl (h '.' rfl).2.1
  · exact absurd rfl (h 'e' rfl).2.2.1
  · exact absurd rfl (h 'E' rfl).2.2.2
  · rfl

/-- Digits are read up to what does not go on the number. -/
theorem readWhole_append {positive : Bool} {ds : Text} {k : Nat}
    (hds : ∀ c ∈ ds, c.isDigit = true) (hmax : Nat.ofDigitChars 10 ds k ≤ maxWhole)
    (h : EndsNumber rest) :
    readWhole positive k (ds ++ rest) =
      .ok (wholeNumber positive (Nat.ofDigitChars 10 ds k), rest) := by
  induction ds generalizing k with
  | nil =>
    cases rest with
    | nil => exact readAfterWhole_eq h
    | cons c rest =>
      rw [List.nil_append, readWhole, if_neg (by simp [(h c rfl).1])]
      exact readAfterWhole_eq h
  | cons c ds ih =>
    rw [Nat.ofDigitChars_cons, Nat.mul_comm] at hmax ⊢
    have hle := Nat.le_trans (le_ofDigitChars ds _) hmax
    rw [List.cons_append, readWhole, if_pos (hds c (List.mem_cons_self ..))]
    exact (if_neg (Nat.not_lt.2 hle)).trans
      (ih (fun d hd => hds d (List.mem_cons_of_mem c hd)) hmax)

/-- The digits of a number above zero do not begin with a zero. -/
theorem exists_toDigits_eq_cons {k : Nat} (hk : 0 < k) :
    ∃ c ds, Nat.toDigits 10 k = c :: ds ∧ c ≠ '0' := by
  induction k using Nat.strongRecOn with
  | ind k ih =>
    by_cases hlt : k < 10
    · refine ⟨Nat.digitChar k, [], Nat.toDigits_of_lt_base hlt, fun heq => ?_⟩
      have hcode := Nat.toNat_digitChar_of_lt_ten hlt
      rw [heq] at hcode
      change 48 = 48 + k at hcode
      omega
    · obtain ⟨c, ds, hds, hc⟩ := ih (k / 10) (by omega) (by omega)
      refine ⟨c, ds ++ [Nat.digitChar (k % 10)], ?_, hc⟩
      rw [Nat.toDigits_of_base_le (by omega) (by omega), hds, List.cons_append]

/-- A number begins with a digit other than 0. -/
theorem readNumber_cons {positive : Bool} (hc : c.isDigit = true) (hzero : c ≠ '0') :
    readNumber positive (c :: t) = readWhole positive (digitValue c) t := by
  unfold readNumber
  split
  · next heq => cases heq
  · next heq => exact absurd (List.cons.inj heq).1 hzero
  · next heq =>
    obtain ⟨rfl, rfl⟩ := List.cons.inj heq
    exact if_pos hc

/-- **The digits of a number are read back.** -/
theorem readNumber_digits (positive : Bool) {k : Nat} (hk : k ≤ maxWhole)
    (h : EndsNumber rest) :
    readNumber positive (Decimal.digits k ++ rest) = .ok (wholeNumber positive k, rest) := by
  rw [Decimal.digits]
  rcases Nat.eq_zero_or_pos k with rfl | hpos
  · have hstart : startsWithDigit rest = false := by
      cases rest with
      | nil => rfl
      | cons c rest => exact (h c rfl).1
    rw [Nat.toDigits_zero, List.singleton_append, readNumber, hstart]
    exact readAfterWhole_eq h
  · obtain ⟨c, ds, hds, hc⟩ := exists_toDigits_eq_cons hpos
    have hdigit (d : Char) (hd : d ∈ c :: ds) : d.isDigit = true :=
      Nat.isDigit_of_mem_toDigits (by omega) (Nat.le_refl 10) (hds ▸ hd)
    have hvalue : Nat.ofDigitChars 10 ds (digitValue c) = k := by
      have hvalue := Nat.ofDigitChars_toDigits (n := k) (by omega) (Nat.le_refl 10)
      rw [hds, Nat.ofDigitChars_cons] at hvalue
      simpa [digitValue] using hvalue
    rw [hds, List.cons_append, readNumber_cons (hdigit c (List.mem_cons_self ..)) hc,
      readWhole_append (fun d hd => hdigit d (List.mem_cons_of_mem c hd)) (hvalue ▸ hk) h, hvalue]

/-! ## Values -/

/-- Blanks in front of a value are passed over. -/
theorem readValue_blanks (hb : ∀ c ∈ b, isBlank c = true) :
    readValue n (b ++ t) = readValue n t := by
  unfold readValue
  rw [skipBlanks_append hb]

/-- A value that begins with neither bracket holds no other. -/
theorem readValue_cons (hblank : isBlank c = false) (hlist : c ≠ '[') (hobject : c ≠ '\x7b') :
    readValue n (c :: t) = readScalar c t := by
  unfold readValue
  rw [skipBlanks_cons hblank]
  split
  · next heq => cases heq
  · next heq => exact absurd (List.cons.inj heq).1 hlist
  · next heq => exact absurd (List.cons.inj heq).1 hobject
  · next heq =>
    obtain ⟨rfl, rfl⟩ := List.cons.inj heq
    rfl

/-- A value that begins with a digit is a number. -/
theorem readScalar_digit (hc : c.isDigit = true) :
    readScalar c t = do let (k, t) ← readNumber true (c :: t); return (num k, t) := by
  unfold readScalar
  split
  case h_6 => exact if_pos hc
  all_goals cases hc

/-- A value is read where it is written, whatever comes after it but the rest of a number. -/
def ReadsBack (l : Layout) (n : Nat) (j : Json) : Prop :=
  ∀ depth rest, EndsNumber rest → readValue n (write l depth j ++ rest) = .ok (j, rest)

/-- The lack of a value reads back. -/
theorem readsBack_null (l : Layout) (n : Nat) : ReadsBack l n null := by
  intro depth rest _
  rw [write, List.cons_append, readValue_cons rfl (by decide) (by decide)]
  rfl

/-- A truth value reads back. -/
theorem readsBack_bool (l : Layout) (n : Nat) (x : Bool) : ReadsBack l n (bool x) := by
  intro depth rest _
  cases x <;>
  · rw [write, List.cons_append, readValue_cons rfl (by decide) (by decide)]
    rfl

/-- A string reads back. -/
theorem readsBack_str (l : Layout) (n : Nat) (s : String) : ReadsBack l n (str s) := by
  intro depth rest _
  have htext : write l depth (str s) ++ rest =
      '"' :: (s.toList.flatMap escapeChar ++ '"' :: rest) := by
    simp [write, writeString]
  rw [htext, readValue_cons rfl (by decide) (by decide), readScalar,
    readString_flatMap_escapeChar]
  rfl

/-- A number that fits 64 bits reads back. -/
theorem readsBack_nat (l : Layout) {k : Nat} (hk : k ≤ maxWhole) :
    ReadsBack l n (num (.nat k)) := by
  intro depth rest hrest
  rw [write, JsonNumber.text]
  obtain ⟨c, ds, hds⟩ := List.exists_cons_of_ne_nil (Nat.toDigits_ne_nil (n := k) (b := 10))
  have hc : c.isDigit = true := Nat.isDigit_of_mem_toDigits (by omega) (Nat.le_refl 10)
    (hds ▸ List.mem_cons_self ..)
  have hread := readNumber_digits true hk hrest
  rw [Decimal.digits, hds, List.cons_append] at hread ⊢
  rw [readValue_cons (isBlank_of_isDigit hc) (by rintro rfl; cases hc)
    (by rintro rfl; cases hc), readScalar_digit hc, hread]
  rfl

/-- So does a negative one. -/
theorem readsBack_neg (l : Layout) {k : Nat} (hpos : 0 < k) (hk : k ≤ Nat.pow 2 63) :
    ReadsBack l n (num (.neg k)) := by
  intro depth rest hrest
  have hmax : k ≤ maxWhole := Nat.le_trans hk (by decide)
  have hneg : wholeNumber false k = .neg k := by
    have hrange : ¬(k = 0 ∨ Nat.pow 2 63 < k) := by
      rintro (rfl | hlt)
      · exact Nat.lt_irrefl 0 hpos
      · exact Nat.not_lt.2 hk hlt
    rw [wholeNumber, if_neg Bool.false_ne_true, if_neg hrange]
  rw [write, JsonNumber.text, List.cons_append, readValue_cons rfl (by decide) (by decide),
    readScalar, readNumber_digits false hmax hrest, hneg]
  rfl

/-! ### Lists -/

/-- Where a value is read there is one behind the blanks, and not the end of a list. -/
theorem exists_of_readValue {r : Json × Text} (h : readValue n t = .ok r) :
    ∃ c u, skipBlanks t = c :: u ∧ c ≠ ']' ∧ readValue n (c :: u) = .ok r := by
  have hskip : readValue n (skipBlanks t) = readValue n t := by
    unfold readValue
    rw [skipBlanks, skipBlanks, List.dropWhile_idempotent]
  cases hs : skipBlanks t with
  | nil =>
    unfold readValue at h
    rw [hs] at h
    cases h
  | cons c u =>
    refine ⟨c, u, rfl, ?_, by rw [← hs, hskip, h]⟩
    rintro rfl
    unfold readValue at h
    rw [hs] at h
    cases h

/-- The first item follows the bracket. -/
theorem nextItem_first {r : Json × Text} (h : readValue n t = .ok r) :
    ∃ u, nextItem true t = .ok (true, u) ∧ readValue n u = .ok r := by
  obtain ⟨c, u, hs, hc, hu⟩ := exists_of_readValue h
  refine ⟨c :: u, ?_, hu⟩
  unfold nextItem
  rw [hs]
  split
  · next heq => cases heq
  · next heq => exact absurd (List.cons.inj heq).1 hc
  · next heq =>
    obtain ⟨rfl, rfl⟩ := List.cons.inj heq
    rfl

/-- A later item follows a comma. -/
theorem nextItem_comma {r : Json × Text} (h : readValue n t = .ok r) :
    ∃ u, nextItem false (',' :: t) = .ok (true, u) ∧ readValue n u = .ok r := by
  obtain ⟨c, u, hs, hc, hu⟩ := exists_of_readValue h
  refine ⟨c :: u, ?_, hu⟩
  unfold nextItem
  rw [skipBlanks_cons (by decide)]
  split
  · next heq => cases heq
  · next heq => exact absurd (List.cons.inj heq).1 (by decide)
  · next heq =>
    obtain ⟨rfl, rfl⟩ := List.cons.inj heq
    rw [if_neg Bool.false_ne_true, if_pos rfl, hs]
    split
    · next heq => cases heq
    · next heq => exact absurd (List.cons.inj heq).1 hc
    · rfl

/-- No item follows the closing bracket. -/
theorem nextItem_end (first : Bool) (hb : ∀ c ∈ b, isBlank c = true) :
    nextItem first (b ++ ']' :: rest) = .ok (false, rest) := by
  unfold nextItem
  rw [skipBlanks_append hb, skipBlanks_cons (by decide)]
  rfl

/-- One item is read, and then those after it. -/
theorem readItems_cons {first : Bool} {fuel : Nat} {items : List Json} {t' : Text}
    (hnext : nextItem first t = .ok (true, u)) (hread : readValue n u = .ok (j, t'))
    (hitems : readItems (readValue n) false fuel t' = .ok (items, rest)) :
    readItems (readValue n) first (fuel + 1) t = .ok (j :: items, rest) := by
  simp only [readItems, hnext, bind, Except.bind, hread, hitems]
  rfl

/-- There the items end. -/
theorem readItems_end (n : Nat) (first : Bool) (fuel : Nat) (hb : ∀ c ∈ b, isBlank c = true) :
    readItems (readValue n) first (fuel + 1) (b ++ ']' :: rest) = .ok ([], rest) := by
  simp only [readItems, nextItem_end first hb]
  rfl

variable {l : Layout} {items : List Json} {members : List (String × Json)}

/-- A number ends before the items that follow it. -/
theorem endsNumber_writeItems (l : Layout) (depth : Nat) (items : List Json)
    (hb : ∀ c ∈ b, isBlank c = true) (rest : Text) :
    EndsNumber (writeItems l depth items ++ (b ++ ']' :: rest)) := by
  cases items with
  | nil =>
    have hend : EndsNumber (']' :: rest) := endsNumber_cons (by decide)
    rw [writeItems, List.nil_append]
    exact hend.blanks hb
  | cons j items =>
    rw [writeItems]
    exact endsNumber_cons (by decide)

/-- The items after the first are read, if each is. -/
theorem readItems_writeItems (hl : l.IsBlank) (h : ∀ j ∈ items, ReadsBack l n j)
    (hb : ∀ c ∈ b, isBlank c = true) {fuel : Nat} (hfuel : items.length < fuel) :
    readItems (readValue n) false fuel (writeItems l depth items ++ (b ++ ']' :: rest)) =
      .ok (items, rest) := by
  induction items generalizing fuel with
  | nil =>
    obtain ⟨fuel, rfl⟩ := Nat.exists_eq_add_of_lt hfuel
    exact readItems_end n false _ hb
  | cons j items ih =>
    obtain ⟨fuel, rfl⟩ := Nat.exists_eq_add_of_lt hfuel
    have hitem := h j (List.mem_cons_self ..) depth _
      (endsNumber_writeItems l depth items hb rest)
    rw [← readValue_blanks (hl.lineBreak depth)] at hitem
    obtain ⟨u, hnext, hread⟩ := nextItem_comma hitem
    rw [writeItems, List.cons_append, List.append_assoc, List.append_assoc]
    exact readItems_cons hnext hread
      (ih (fun j' hj' => h j' (List.mem_cons_of_mem j hj')) (by simp; omega))

/-- Items are written with at least one character each. -/
theorem length_le_writeItems (l : Layout) (depth : Nat) (items : List Json) :
    items.length ≤ (writeItems l depth items).length := by
  induction items with
  | nil => exact Nat.zero_le _
  | cons j items ih =>
    simp only [writeItems, List.length_cons, List.length_append]
    omega

/-- What begins with a bracket is read as a list. -/
theorem readValue_list :
    readValue (n + 1) ('[' :: t) = do
      let (items, t) ← readItems (readValue n) true (t.length + 1) t
      return (arr items, t) := rfl

/-- **A list is read back** one level deeper than its items. -/
theorem readsBack_arr (hl : l.IsBlank) (h : ∀ j ∈ items, ReadsBack l n j) :
    ReadsBack l (n + 1) (arr items) := by
  intro depth rest _
  cases items with
  | nil =>
    have hend : readItems (readValue n) true (rest.length + 1 + 1) (']' :: rest) = .ok ([], rest) :=
      readItems_end n true _ (b := []) nofun
    rw [write, List.cons_append, List.singleton_append, readValue_list, List.length_cons, hend]
    rfl
  | cons j items =>
    have hbreak := hl.lineBreak depth
    have hitem := h j (List.mem_cons_self ..) (depth + 1) _
      (endsNumber_writeItems l (depth + 1) items hbreak rest)
    rw [← readValue_blanks (hl.lineBreak (depth + 1))] at hitem
    obtain ⟨u, hnext, hread⟩ := nextItem_first hitem
    have hlength := length_le_writeItems l (depth + 1) items
    have htext : write l depth (arr (j :: items)) ++ rest = '[' :: (l.lineBreak (depth + 1) ++
        (write l (depth + 1) j ++ (writeItems l (depth + 1) items ++
          (l.lineBreak depth ++ ']' :: rest)))) := by
      simp [write]
    rw [htext, readValue_list, readItems_cons hnext hread (readItems_writeItems hl
      (fun j' hj' => h j' (List.mem_cons_of_mem j hj')) hbreak ?_)]
    · rfl
    · simp only [List.length_append, List.length_cons]
      omega

/-! ### Objects -/

/-- The first member begins with its name. -/
theorem nextMember_first (hb : ∀ c ∈ b, isBlank c = true) :
    nextMember true (b ++ '"' :: t) = .ok (true, t) := by
  unfold nextMember
  rw [skipBlanks_append hb, skipBlanks_cons (by decide)]
  rfl

/-- A later member follows a comma. -/
theorem nextMember_comma (hb : ∀ c ∈ b, isBlank c = true) :
    nextMember false (',' :: (b ++ '"' :: t)) = .ok (true, t) := by
  unfold nextMember
  rw [skipBlanks_cons (by decide)]
  split
  · next heq => cases heq
  · next heq => exact absurd (List.cons.inj heq).1 (by decide)
  · next heq =>
    obtain ⟨rfl, rfl⟩ := List.cons.inj heq
    rw [if_neg Bool.false_ne_true, if_pos rfl, skipBlanks_append hb, skipBlanks_cons (by decide)]
    rfl

/-- No member follows the closing brace. -/
theorem nextMember_end (first : Bool) (hb : ∀ c ∈ b, isBlank c = true) :
    nextMember first (b ++ '\x7d' :: rest) = .ok (false, rest) := by
  unfold nextMember
  rw [skipBlanks_append hb, skipBlanks_cons (by decide)]
  rfl

/-- One member is read, its name and its value, and then those after it. -/
theorem readMembers_cons (hl : l.IsBlank) {first : Bool} {fuel : Nat} {name : String} {t' : Text}
    (hnext : nextMember first t =
      .ok (true, name.toList.flatMap escapeChar ++ '"' :: (l.colon ++ u)))
    (hread : readValue n u = .ok (j, t'))
    (hmembers : readMembers (readValue n) false fuel t' = .ok (members, rest)) :
    readMembers (readValue n) first (fuel + 1) t = .ok ((name, j) :: members, rest) := by
  obtain ⟨b, hcolon, hb⟩ := hl.colon
  have htake : takeColon (l.colon ++ u) = .ok (b ++ u) := by
    rw [hcolon]
    rfl
  rw [← readValue_blanks hb] at hread
  simp only [readMembers, hnext, bind, Except.bind, readString_flatMap_escapeChar, htake, hread,
    hmembers]
  rfl

/-- There the members end. -/
theorem readMembers_end (n : Nat) (first : Bool) (fuel : Nat) (hb : ∀ c ∈ b, isBlank c = true) :
    readMembers (readValue n) first (fuel + 1) (b ++ '\x7d' :: rest) = .ok ([], rest) := by
  simp only [readMembers, nextMember_end first hb]
  rfl

/-- A number ends before the members that follow it. -/
theorem endsNumber_writeMembers (l : Layout) (depth : Nat) (members : List (String × Json))
    (hb : ∀ c ∈ b, isBlank c = true) (rest : Text) :
    EndsNumber (writeMembers l depth members ++ (b ++ '\x7d' :: rest)) := by
  cases members with
  | nil =>
    have hend : EndsNumber ('\x7d' :: rest) := endsNumber_cons (by decide)
    rw [writeMembers, List.nil_append]
    exact hend.blanks hb
  | cons m members =>
    rw [writeMembers]
    exact endsNumber_cons (by decide)

/-- The members after the first are read, if each value is. -/
theorem readMembers_writeMembers (hl : l.IsBlank) (h : ∀ m ∈ members, ReadsBack l n m.2)
    (hb : ∀ c ∈ b, isBlank c = true) {fuel : Nat} (hfuel : members.length < fuel) :
    readMembers (readValue n) false fuel (writeMembers l depth members ++ (b ++ '\x7d' :: rest)) =
      .ok (members, rest) := by
  induction members generalizing fuel with
  | nil =>
    obtain ⟨fuel, rfl⟩ := Nat.exists_eq_add_of_lt hfuel
    exact readMembers_end n false _ hb
  | cons m members ih =>
    obtain ⟨name, j⟩ := m
    obtain ⟨fuel, rfl⟩ := Nat.exists_eq_add_of_lt hfuel
    have hvalue := h (name, j) (List.mem_cons_self ..) depth _
      (endsNumber_writeMembers l depth members hb rest)
    have htext : writeMembers l depth ((name, j) :: members) ++ (b ++ '\x7d' :: rest) =
        ',' :: (l.lineBreak depth ++ '"' :: (name.toList.flatMap escapeChar ++ '"' :: (l.colon ++
          (write l depth j ++ (writeMembers l depth members ++ (b ++ '\x7d' :: rest)))))) := by
      simp [writeMembers, writeString]
    rw [htext]
    exact readMembers_cons hl (nextMember_comma (hl.lineBreak depth)) hvalue
      (ih (fun m' hm' => h m' (List.mem_cons_of_mem _ hm')) (by simp; omega))

/-- Members are written with at least one character each. -/
theorem length_le_writeMembers (l : Layout) (depth : Nat) (members : List (String × Json)) :
    members.length ≤ (writeMembers l depth members).length := by
  induction members with
  | nil => exact Nat.zero_le _
  | cons m members ih =>
    simp only [writeMembers, List.length_cons, List.length_append]
    omega

/-- What begins with a brace is read as an object. -/
theorem readValue_object :
    readValue (n + 1) ('\x7b' :: t) = do
      let (members, t) ← readMembers (readValue n) true (t.length + 1) t
      return (obj members, t) := rfl

/-- **An object is read back** one level deeper than its values. -/
theorem readsBack_obj (hl : l.IsBlank) (h : ∀ m ∈ members, ReadsBack l n m.2) :
    ReadsBack l (n + 1) (obj members) := by
  intro depth rest _
  cases members with
  | nil =>
    have hend : readMembers (readValue n) true (rest.length + 1 + 1) ('\x7d' :: rest) =
        .ok ([], rest) := readMembers_end n true _ (b := []) nofun
    rw [write, List.cons_append, List.singleton_append, readValue_object, List.length_cons, hend]
    rfl
  | cons m members =>
    obtain ⟨name, j⟩ := m
    have hbreak := hl.lineBreak depth
    have hvalue := h (name, j) (List.mem_cons_self ..) (depth + 1) _
      (endsNumber_writeMembers l (depth + 1) members hbreak rest)
    have hlength := length_le_writeMembers l (depth + 1) members
    have htext : write l depth (obj ((name, j) :: members)) ++ rest =
        '\x7b' :: (l.lineBreak (depth + 1) ++ '"' :: (name.toList.flatMap escapeChar ++
          '"' :: (l.colon ++ (write l (depth + 1) j ++ (writeMembers l (depth + 1) members ++
            (l.lineBreak depth ++ '\x7d' :: rest)))))) := by
      simp [write, writeString]
    rw [htext, readValue_object, readMembers_cons hl (nextMember_first (hl.lineBreak _)) hvalue
      (readMembers_writeMembers hl (fun m' hm' => h m' (List.mem_cons_of_mem _ hm')) hbreak ?_)]
    · rfl
    · simp only [List.length_append, List.length_cons]
      omega

/-! ### All values -/

/-- A value that writing and reading keep: its whole numbers fit their words, it holds no
other numbers, and it is nested at most `n` deep. -/
inductive Kept : Nat → Json → Prop
  | null {n : Nat} : Kept n null
  | bool {n : Nat} (x : Bool) : Kept n (bool x)
  | str {n : Nat} (s : String) : Kept n (str s)
  | nat {n k : Nat} (hk : k < Nat.pow 2 64) : Kept n (num (.nat k))
  | neg {n k : Nat} (hpos : 0 < k) (hk : k ≤ Nat.pow 2 63) : Kept n (num (.neg k))
  | arr {n : Nat} {items : List Json} (h : ∀ j ∈ items, Kept n j) : Kept (n + 1) (arr items)
  | obj {n : Nat} {members : List (String × Json)} (h : ∀ m ∈ members, Kept n m.2) :
    Kept (n + 1) (obj members)

/-- **What is kept is read back where it is written.** -/
theorem Kept.readsBack (hl : l.IsBlank) (h : Kept n j) : ReadsBack l n j := by
  induction h with
  | null => exact readsBack_null l _
  | bool x => exact readsBack_bool l _ x
  | str s => exact readsBack_str l _ s
  | nat hk => exact readsBack_nat l (Nat.le_sub_one_of_lt hk)
  | neg hpos hk => exact readsBack_neg l hpos hk
  | arr _ ih => exact readsBack_arr hl ih
  | obj _ ih => exact readsBack_obj hl ih

/-- **The text of a value that is kept has that value.** -/
theorem Kept.parse?_write (hl : l.IsBlank) (h : Kept maxDepth j) :
    parse? (write l 0 j) = .ok j := by
  have hread := h.readsBack hl 0 [] endsNumber_nil
  rw [List.append_nil] at hread
  exact parse?_eq_ok_iff.2 ⟨[], hread, rfl⟩

end Json
end SearchMarkup
