/-
# The message of an event

An event holds its message whole, or as much of it as fits and three dots.  What fits is found
in the bytes of the message: from the limit the search goes back until a character begins
(`Text.retreat`).  Since a character has four bytes at most, this takes three steps at most and
never falls below zero, and what is kept is the longest leading part that fits
(`Event.stored_message`).

The search is computed on the bytes, and `Text.takeBytes` on the characters; they agree because
the places of a text are told by its bytes (`Text.isBoundary_eq_isSome`).
-/

import SearchMarkup.Proofs.Journal.Building
import SearchMarkup.Text.Boundary

namespace SearchMarkup
namespace Text

variable {t p : Text} {n : Nat}

/-! ## The places of a text -/

/-- A text can be cut before its first byte. -/
theorem isBoundary_zero (t : Text) : t.isBoundary 0 = true := rfl

/-- Between two characters the bytes before are counted off. -/
theorem isBoundary_add (c : Char) (t : Text) (n : Nat) :
    isBoundary (c :: t) (c.utf8Size + n) = t.isBoundary n := by
  have hpos : (c.utf8Size + n == 0) = false := by
    have := c.utf8Size_pos
    exact beq_false_of_ne (by omega)
  have hlen : (String.utf8EncodeChar c).length = c.utf8Size := String.length_utf8EncodeChar c
  have hget : (bytes (c :: t))[c.utf8Size + n]? = t.bytes[n]? := by
    rw [bytes_cons, List.getElem?_append_right (by omega), hlen, Nat.add_sub_cancel_left]
  rw [isBoundary, hpos, Bool.false_or, hget, bytes_cons, List.length_append, hlen]
  cases n with
  | zero =>
    -- the next character begins with a byte of its own
    cases t with
    | nil => simp [isBoundary]
    | cons d t =>
      obtain ⟨b, bs, henc, hb, -⟩ := exists_utf8EncodeChar d
      simp [isBoundary, henc, hb]
  | succ n => simp [isBoundary, Bool.beq_eq_decide_eq]

/-- Inside its first character a text has no place. -/
theorem isBoundary_inside {c : Char} (h : n + 1 < c.utf8Size) :
    isBoundary (c :: t) (n + 1) = false := by
  obtain ⟨b, bs, henc, -, hbs⟩ := exists_utf8EncodeChar c
  have hlen : n < bs.length := by
    have := String.length_utf8EncodeChar c
    rw [henc, List.length_cons] at this
    omega
  have hget : (bytes (c :: t))[n + 1]? = some bs[n] := by
    rw [bytes_cons, henc, List.cons_append, List.getElem?_cons_succ,
      List.getElem?_append_left hlen, List.getElem?_eq_getElem hlen]
  rw [isBoundary, hget]
  simp [hbs bs[n] (List.getElem_mem hlen)]

/-- **The bytes tell where a text can be split.** -/
theorem isBoundary_eq_isSome (t : Text) (n : Nat) :
    t.isBoundary n = (t.splitAtByte? n).isSome := by
  fun_induction splitAtByte? t n with
  | case1 t => exact isBoundary_zero t
  | case2 n => rfl
  | case3 c t n hle ih =>
    have hsum : n + 1 = c.utf8Size + (n + 1 - c.utf8Size) := by omega
    rw [Option.isSome_map, ← ih, ← isBoundary_add c t (n + 1 - c.utf8Size), ← hsum]
  | case4 c t n hlt => exact isBoundary_inside (by omega)

/-! ## The longest leading part -/

/-- The longest leading part of a text of at most so many bytes. -/
structure IsLongestLeading (n : Nat) (t kept : Text) : Prop where
  leads : kept <+: t
  size_le : kept.size ≤ n
  longest {p : Text} (hp : p <+: t) (hn : p.size ≤ n) : p <+: kept

/-- Any leading part that fits is part of what is taken. -/
theorem prefix_takeBytes (hp : p <+: t) (hn : p.size ≤ n) : p <+: takeBytes n t := by
  induction p generalizing n t with
  | nil => exact List.nil_prefix
  | cons c p ih =>
    obtain ⟨rest, rfl⟩ := hp
    rw [size_cons] at hn
    rw [List.cons_append, takeBytes, if_pos (by omega)]
    exact List.cons_prefix_cons.2 ⟨rfl, ih (List.prefix_append p rest) (by omega)⟩

/-- What is taken is the longest leading part that fits. -/
theorem isLongestLeading_takeBytes (n : Nat) (t : Text) :
    IsLongestLeading n t (takeBytes n t) where
  leads := by
    obtain ⟨rest, hrest⟩ := exists_eq_takeBytes_append n t
    exact ⟨rest, hrest.symm⟩
  size_le := size_takeBytes_le n t
  longest := prefix_takeBytes

/-- At a place, all bytes before it are taken. -/
theorem takeBytes_size_append (a b : Text) : takeBytes a.size (a ++ b) = a := by
  have hle : a <+: takeBytes a.size (a ++ b) :=
    prefix_takeBytes (List.prefix_append a b) (Nat.le_refl _)
  obtain ⟨rest, hrest⟩ := hle
  have hsize := size_takeBytes_le a.size (a ++ b)
  rw [← hrest, size_append] at hsize
  obtain rfl : rest = [] := size_eq_zero.1 (by omega)
  rw [← hrest, List.append_nil]

/-- At no place, one byte fewer takes as much. -/
theorem takeBytes_succ (h : t.isBoundary (n + 1) = false) :
    takeBytes (n + 1) t = takeBytes n t := by
  have hshort : (takeBytes (n + 1) t).size ≤ n := by
    by_contra hlong
    obtain ⟨rest, hrest⟩ := exists_eq_takeBytes_append (n + 1) t
    have hsize : (takeBytes (n + 1) t).size = n + 1 := by
      have := size_takeBytes_le (n + 1) t
      omega
    have hsplit : t.splitAtByte? (n + 1) = some (takeBytes (n + 1) t, rest) :=
      splitAtByte?_eq_some_iff.2 ⟨hrest, hsize⟩
    rw [isBoundary_eq_isSome, hsplit] at h
    exact Bool.noConfusion h
  have hlong := isLongestLeading_takeBytes (n + 1) t
  have hkept := isLongestLeading_takeBytes n t
  have hle : takeBytes (n + 1) t <+: takeBytes n t := hkept.longest hlong.leads hshort
  have hge : takeBytes n t <+: takeBytes (n + 1) t :=
    hlong.longest hkept.leads (Nat.le_succ_of_le hkept.size_le)
  exact hle.eq_of_length_le hge.length_le

/-- Fewer than four bytes are lost before a limit that the text reaches. -/
theorem le_size_takeBytes (h : n ≤ t.size) : n ≤ (takeBytes n t).size + 3 := by
  induction t generalizing n with
  | nil => rw [size_nil] at h; omega
  | cons c t ih =>
    rw [size_cons] at h
    rw [takeBytes]
    split
    · have := ih (n := n - c.utf8Size) (by omega)
      rw [size_cons]
      omega
    · have := c.utf8Size_le_four
      omega

/-! ## The search in the bytes -/

/-- **The search ends where the longest leading part ends.** -/
theorem retreat_eq (t : Text) (steps n : Nat) :
    t.retreat steps n = .ok ⟨(takeBytes n t).size, steps + (n - (takeBytes n t).size)⟩ := by
  induction n generalizing steps with
  | zero =>
    have hnone : (takeBytes 0 t).size = 0 := Nat.le_zero.1 (size_takeBytes_le 0 t)
    rw [retreat, if_pos (isBoundary_zero t), hnone]
    rfl
  | succ n ih =>
    rw [retreat]
    split
    · -- a place ends what is taken, and nothing is gone back
      next h =>
      rw [isBoundary_eq_isSome] at h
      obtain ⟨⟨a, b⟩, hsplit⟩ := Option.isSome_iff_exists.1 h
      obtain ⟨rfl, hsize⟩ := splitAtByte?_eq_some_iff.1 hsplit
      rw [← hsize, takeBytes_size_append, Nat.sub_self]
      rfl
    · next h =>
      have hle := size_takeBytes_le n t
      rw [ih, takeBytes_succ (Bool.not_eq_true _ ▸ h)]
      congr 2
      omega

/-- The limit before the last byte of a character of four bytes. -/
example : Text.retreat ['a', '😀'] 0 4 = .ok ⟨1, 3⟩ := by decide

/-- A text can be cut after what is taken of it. -/
theorem cutAt_takeBytes (n : Nat) (t : Text) :
    t.cutAt (takeBytes n t).size = .ok (takeBytes n t) := by
  obtain ⟨rest, hrest⟩ := exists_eq_takeBytes_append n t
  rw [cutAt, splitAtByte?_eq_some_iff.2 ⟨hrest, rfl⟩]

/-- Cutting by the bytes has no fault, and gives what cutting by the characters gives. -/
theorem truncateByBytes_eq (limit : Nat) (t : Text) :
    t.truncateByBytes limit = .ok (t.truncate limit) := by
  rw [truncateByBytes, truncate]
  split
  · rfl
  · rw [retreat_eq, CutFault.ok_bind, cutAt_takeBytes]
    rfl

end Text

namespace Event

/-- **What an event holds of its message.** The cut at 4096 bytes has no fault and goes back
three steps at most; it keeps the longest leading part that fits. -/
theorem stored_message (code : Code) (message : String) :
    ∃ stored : Text, Text.truncateByBytes 4096 message.toList = .ok stored ∧
      (∀ e ∈ begun code message, ∀ xs, (e.addAll xs).message = String.ofList stored) ∧
      (Text.size message.toList ≤ 4096 → stored = message.toList) ∧
      (4096 < Text.size message.toList → ∃ (kept : Text) (found : Retreat),
        stored = kept ++ ['.', '.', '.'] ∧ Text.IsLongestLeading 4096 message.toList kept ∧
          4093 ≤ kept.size ∧ Text.retreat message.toList 0 4096 = .ok found ∧
          found.place = kept.size ∧ found.steps ≤ 3) ∧
      stored.size ≤ 4099 := by
  refine ⟨Text.truncate 4096 message.toList, Text.truncateByBytes_eq .., ?_, ?_, ?_, ?_⟩
  · intro e he xs
    rw [(addAll_eq e xs).2.2, (eq_of_mem_begun he).1]
    rfl
  · intro hfits
    rw [Text.truncate, if_pos hfits]
  · intro hlong
    have hlost := Text.le_size_takeBytes (Nat.le_of_lt hlong)
    refine ⟨Text.takeBytes 4096 message.toList, _, ?_, Text.isLongestLeading_takeBytes ..,
      by omega, Text.retreat_eq .., rfl, ?_⟩
    · rw [Text.truncate, if_neg (Nat.not_le.2 hlong)]
    · dsimp only
      omega
  · rw [Text.truncate]
    split
    · omega
    · have hdots : Text.size ['.', '.', '.'] = 3 := rfl
      have hkept := Text.size_takeBytes_le 4096 message.toList
      rw [Text.size_append, hdots]
      omega

end Event
end SearchMarkup
