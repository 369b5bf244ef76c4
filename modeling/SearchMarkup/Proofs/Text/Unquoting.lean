/-
# Reading quoted text

Between the quotes each character is itself or an escape that begins with a backslash, so a
reader who goes from left to right knows at each character what it belongs to
(`Text.QuotedPlace`).  A double quote that no backslash precedes is the last one, and what was
quoted is read back (`Text.unquote?_quote`).

Quoted text is visible throughout.  It holds none of the characters that end a line or part the
columns of a report, whatever was quoted (`Text.isVisible_of_mem_quote`).
-/

import SearchMarkup.Proofs.Json.WrittenText
import SearchMarkup.Text.Quoted

namespace SearchMarkup
namespace Text

/-- Where in a quoted text its reader stands. -/
inductive QuotedPlace where
  /-- Before a character or an escape, or the closing quote. -/
  | between
  /-- After a backslash. -/
  | escape
  /-- After the `u` of a code point. -/
  | brace
  /-- Among the digits of a code point, of which a number was read. -/
  | code (n : Nat)
  deriving DecidableEq, Repr

/-- The character that a single one stands for after a backslash. -/
def escaped? : Char → Option Char
  | '0' => some '\x00'
  | 't' => some '\t'
  | 'n' => some '\n'
  | 'r' => some '\r'
  | '"' => some '"'
  | '\\' => some '\\'
  | _ => none

/-- Reads a quoted text to its closing quote, which must be the end. -/
def readQuoted? : QuotedPlace → Text → Option Text
  | _, [] => none
  | .between, c :: t =>
    if c = '"' then if t.isEmpty then some [] else none
    else if c = '\\' then readQuoted? .escape t
    else (readQuoted? .between t).map (c :: ·)
  | .escape, c :: t =>
    if c = 'u' then readQuoted? .brace t
    else (escaped? c).bind fun d => (readQuoted? .between t).map (d :: ·)
  | .brace, c :: t => if c = '\x7b' then readQuoted? (.code 0) t else none
  | .code n, c :: t =>
    if c = '\x7d' then (readQuoted? .between t).map (Char.ofNat n :: ·)
    else (Json.hexDigit? c).bind fun d => readQuoted? (.code (16 * n + d)) t

/-- The text that stands between double quotes. -/
def unquote? : Text → Option Text
  | '"' :: t => readQuoted? .between t
  | _ => none

/-! ## The digits of a code point -/

/-- A small number has one digit. -/
theorem hexDigits_of_lt {n : Nat} (h : n < 16) : hexDigits n = [Nat.digitChar n] :=
  Nat.toDigits_of_lt_base h

/-- Any other has its last digit behind those of the rest. -/
theorem hexDigits_of_le {n : Nat} (h : 16 ≤ n) :
    hexDigits n = hexDigits (n / 16) ++ [Nat.digitChar (n % 16)] :=
  Nat.toDigits_of_base_le (by decide) h

/-- No digit is the brace that ends a number. -/
theorem digitChar_ne_brace : ∀ n < 16, Nat.digitChar n ≠ '\x7d' := by decide

/-- Digits are visible. -/
theorem isVisible_digitChar : ∀ n < 16, isVisible (Nat.digitChar n) = true := by decide

/-- One more digit is read. -/
theorem readQuoted?_digitChar (n : Nat) {d : Nat} (hd : d < 16) (t : Text) :
    readQuoted? (.code n) (Nat.digitChar d :: t) = readQuoted? (.code (16 * n + d)) t := by
  rw [readQuoted?, if_neg (digitChar_ne_brace d hd), Json.hexDigit?_digitChar d hd]
  rfl

/-- **The digits of a code point are read back.** -/
theorem readQuoted?_hexDigits (n : Nat) (t : Text) :
    readQuoted? (.code 0) (hexDigits n ++ t) = readQuoted? (.code n) t := by
  induction n using Nat.strongRecOn generalizing t with
  | ind n ih =>
    rcases Nat.lt_or_ge n 16 with hlt | hge
    · rw [hexDigits_of_lt hlt, List.singleton_append, readQuoted?_digitChar 0 hlt, Nat.mul_zero,
        Nat.zero_add]
    · rw [hexDigits_of_le hge, List.append_assoc, ih (n / 16) (by omega), List.singleton_append,
        readQuoted?_digitChar _ (Nat.mod_lt n (by decide)), Nat.div_add_mod]

/-- So are all digits of a number. -/
theorem isVisible_of_mem_hexDigits {n : Nat} {c : Char} (h : c ∈ hexDigits n) :
    isVisible c = true := by
  induction n using Nat.strongRecOn with
  | ind n ih =>
    rcases Nat.lt_or_ge n 16 with hlt | hge
    · rw [hexDigits_of_lt hlt, List.mem_singleton] at h
      rw [h]
      exact isVisible_digitChar n hlt
    · rw [hexDigits_of_le hge, List.mem_append, List.mem_singleton] at h
      rcases h with h | rfl
      · exact ih (n / 16) (by omega) h
      · exact isVisible_digitChar _ (Nat.mod_lt n (by decide))

/-! ## Characters and texts -/

/-- Each character is read back, whatever follows. -/
theorem readQuoted?_escapeChar (c : Char) (t : Text) :
    readQuoted? .between (escapeChar c ++ t) = (readQuoted? .between t).map (c :: ·) := by
  unfold escapeChar
  split
  -- The characters with an escape of their own come first.
  iterate 6 exact rfl
  next hquote hbackslash =>
    split
    · rw [List.singleton_append, readQuoted?, if_neg hquote, if_neg hbackslash]
    · have hbrace : readQuoted? .between
          (['\\', 'u', '\x7b'] ++ hexDigits c.toNat ++ ['\x7d'] ++ t) =
            readQuoted? (.code 0) (hexDigits c.toNat ++ ('\x7d' :: t)) := by
        simp [readQuoted?]
      rw [hbrace, readQuoted?_hexDigits, readQuoted?, if_pos rfl, Char.ofNat_toNat]

/-- What was written of a text is read as that text. -/
theorem readQuoted?_flatMap (s t : Text) :
    readQuoted? .between (s.flatMap escapeChar ++ t) =
      (readQuoted? .between t).map (s ++ ·) := by
  induction s with
  | nil => simp
  | cons c s ih =>
    rw [List.flatMap_cons, List.append_assoc, readQuoted?_escapeChar, ih, Option.map_map]
    rfl

/-- **What was quoted is read back.** -/
theorem unquote?_quote (t : Text) : unquote? (quote t) = some t := by
  have h := readQuoted?_flatMap t ['"']
  rw [quote, List.cons_append, unquote?, h]
  simp [readQuoted?]

/-- A tab may also be written by its code point. -/
example : unquote? ['"', '\\', 'u', '\x7b', '9', '\x7d', '"'] = some ['\t'] := by decide

/-- Whatever a character is written as is visible. -/
theorem isVisible_of_mem_escapeChar {c d : Char} (h : d ∈ escapeChar c) : isVisible d = true := by
  unfold escapeChar at h
  split at h
  iterate 6
    refine List.all_eq_true.1 ?_ d h
    decide
  have hopening : ['\\', 'u', '\x7b'].all isVisible = true := by decide
  have hclosing : ['\x7d'].all isVisible = true := by decide
  split at h
  · next hvisible =>
    rw [List.mem_singleton.1 h]
    exact hvisible
  · rw [List.mem_append, List.mem_append] at h
    rcases h with (h | h) | h
    · exact List.all_eq_true.1 hopening d h
    · exact isVisible_of_mem_hexDigits h
    · exact List.all_eq_true.1 hclosing d h

/-- **Quoted text is visible throughout.** -/
theorem isVisible_of_mem_quote {t : Text} {c : Char} (h : c ∈ quote t) : isVisible c = true := by
  have hquote : isVisible '"' = true := by decide
  simp only [quote, List.cons_append, List.mem_cons, List.mem_append, List.mem_flatMap,
    List.not_mem_nil, or_false] at h
  rcases h with rfl | ⟨d, -, h⟩ | rfl
  · exact hquote
  · exact isVisible_of_mem_escapeChar h
  · exact hquote

end Text
end SearchMarkup
