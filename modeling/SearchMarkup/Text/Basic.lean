/-
# Text and its byte positions

A text is a list of characters. Positions in it are counted in the bytes of its
UTF-8 form, so a number of bytes names a place in a text only when it falls
between two characters:

| operation | gives |
| --- | --- |
| `size t` | the number of bytes of `t` |
| `splitAtByte? t n` | the two parts of `t` around byte `n` |
| `slice? t a b` | the part of `t` from byte `a` up to byte `b` |
| `afterLeading? p t` | what follows `p` in `t`, if `t` begins with `p` |
| `splitAtFirst? p t` | the parts of `t` around the leftmost `p` |

Each of the last four is `none` exactly when the text has no such place; the
lemmas below say so.
-/

namespace SearchMarkup

/-- Text as a list of characters. -/
abbrev Text := List Char

namespace Text

/-- The number of bytes of the UTF-8 form. -/
def size (t : Text) : Nat := t.foldl (fun n c => n + c.utf8Size) 0

/-- The bytes of a text are counted on top of what was counted before. -/
theorem foldl_size (n : Nat) (t : Text) :
    t.foldl (fun n c => n + c.utf8Size) n = n + size t := by
  induction t generalizing n with
  | nil => rfl
  | cons c t ih => rw [size, List.foldl_cons, List.foldl_cons, ih, ih (0 + c.utf8Size)]; omega

@[simp] theorem size_nil : size [] = 0 := rfl

/-- The bytes of a text are those of its characters. -/
@[simp] theorem size_cons (c : Char) (t : Text) : size (c :: t) = c.utf8Size + size t := by
  rw [size, List.foldl_cons, foldl_size]
  omega

/-- The bytes of parts add up. -/
@[simp] theorem size_append (s t : Text) : size (s ++ t) = size s + size t := by
  rw [size, List.foldl_append, foldl_size]
  rfl

/-- A character takes at least one byte. -/
theorem length_le_size (t : Text) : t.length ≤ size t := by
  induction t with
  | nil => exact Nat.le_refl 0
  | cons c t ih =>
    have := c.utf8Size_pos
    rw [List.length_cons, size_cons]
    omega

/-- Only the empty text has no bytes. -/
theorem size_eq_zero {t : Text} : size t = 0 ↔ t = [] := by
  cases t with
  | nil => simp
  | cons c t => simp [Nat.ne_of_gt c.utf8Size_pos]

/-- The two parts of a text around a byte position; `none` when the position lies
past the end or inside a character. -/
def splitAtByte? : Text → Nat → Option (Text × Text)
  | t, 0 => some ([], t)
  | [], _ + 1 => none
  | c :: t, n + 1 =>
    if c.utf8Size ≤ n + 1 then
      (splitAtByte? t (n + 1 - c.utf8Size)).map fun (a, b) => (c :: a, b)
    else none

/-- There is a place at the end of each part of a text. -/
theorem splitAtByte?_size (a b : Text) : splitAtByte? (a ++ b) (size a) = some (a, b) := by
  induction a with
  | nil => cases b <;> rfl
  | cons c a ih =>
    obtain ⟨n, hn⟩ : ∃ n, size (c :: a) = n + 1 := ⟨size (c :: a) - 1, by
      have := c.utf8Size_pos; rw [size_cons]; omega⟩
    have hsub : n + 1 - c.utf8Size = size a := by rw [← hn, size_cons]; omega
    have hle : c.utf8Size ≤ n + 1 := by rw [← hn, size_cons]; omega
    rw [hn, List.cons_append, splitAtByte?, if_pos hle, hsub, ih]
    rfl

/-- A split gives back the text, and its first part has the size asked for. -/
theorem splitAtByte?_eq_some_iff {t a b : Text} {n : Nat} :
    splitAtByte? t n = some (a, b) ↔ t = a ++ b ∧ size a = n := by
  constructor
  · intro h
    fun_induction splitAtByte? t n generalizing a b with
    | case1 t => obtain ⟨rfl, rfl⟩ : a = [] ∧ t = b := by simpa using h
                 simp
    | case2 => simp at h
    | case3 c t n hle ih =>
      obtain ⟨⟨a', b'⟩, h', heq⟩ := Option.map_eq_some_iff.1 h
      obtain ⟨rfl, rfl⟩ := Prod.mk.inj heq
      obtain ⟨rfl, hs⟩ := ih h'
      exact ⟨rfl, by rw [size_cons, hs]; omega⟩
    | case4 => simp at h
  · rintro ⟨rfl, rfl⟩
    exact splitAtByte?_size a b

/-- The part of a text between two byte positions; `none` when they are out of
order or one of them is no place between two characters. -/
def slice? (t : Text) (start stop : Nat) : Option Text :=
  if start ≤ stop then
    (splitAtByte? t start).bind fun (_, rest) =>
      (splitAtByte? rest (stop - start)).map Prod.fst
  else none

/-- A part of a text is cut out at its two ends. -/
theorem slice?_eq_some_iff {t m : Text} {start stop : Nat} :
    slice? t start stop = some m ↔
      ∃ a b, t = a ++ m ++ b ∧ size a = start ∧ size a + size m = stop := by
  unfold slice?
  constructor
  · intro h
    split at h
    · obtain ⟨⟨a, r⟩, hr, h⟩ := Option.bind_eq_some_iff.1 h
      obtain ⟨⟨m', b⟩, hm, rfl⟩ := Option.map_eq_some_iff.1 h
      obtain ⟨rfl, rfl⟩ := splitAtByte?_eq_some_iff.1 hr
      obtain ⟨rfl, hs⟩ := splitAtByte?_eq_some_iff.1 hm
      exact ⟨a, b, by simp, rfl, by simp only; omega⟩
    · simp at h
  · rintro ⟨a, b, rfl, rfl, rfl⟩
    rw [if_pos (by omega), List.append_assoc, splitAtByte?_size]
    simp [splitAtByte?_size]

/-- What stands between two parts is found by the bytes before and up to its end. -/
theorem slice?_append (a m b : Text) :
    (a ++ m ++ b).slice? a.size (a ++ m).size = some m :=
  slice?_eq_some_iff.2 ⟨a, b, rfl, rfl, (size_append ..).symm⟩

/-- What follows `p` in a text that begins with `p`. -/
def afterLeading? : Text → Text → Option Text
  | [], t => some t
  | _ :: _, [] => none
  | p :: ps, c :: t => if p = c then afterLeading? ps t else none

/-- What follows a text is what is left of it. -/
theorem afterLeading?_eq_some_iff {p t r : Text} :
    afterLeading? p t = some r ↔ t = p ++ r := by
  fun_induction afterLeading? p t with
  | case1 t => simp
  | case2 => simp
  | case3 p ps t ih => simp [ih]
  | case4 p ps c t hne => simp [Ne.symm hne]

/-- The parts of a text before and after the leftmost occurrence of `p`. -/
def splitAtFirst? (p : Text) : Text → Option (Text × Text)
  | [] => (afterLeading? p []).map fun rest => ([], rest)
  | c :: t =>
    match afterLeading? p (c :: t) with
    | some rest => some ([], rest)
    | none => (splitAtFirst? p t).map fun (before, rest) => (c :: before, rest)

/-- A text is made up of what is before a part, the part, and what is after it. -/
theorem eq_append_of_splitAtFirst? {p t a b : Text} (h : splitAtFirst? p t = some (a, b)) :
    t = a ++ p ++ b := by
  induction t generalizing a b with
  | nil =>
    obtain ⟨r, hr, heq⟩ := Option.map_eq_some_iff.1 h
    obtain ⟨rfl, rfl⟩ := Prod.mk.inj heq
    simpa using afterLeading?_eq_some_iff.1 hr
  | cons c t ih =>
    rw [splitAtFirst?] at h
    split at h
    · next r hr =>
      obtain ⟨rfl, rfl⟩ := Prod.mk.inj (Option.some.inj h)
      simpa using afterLeading?_eq_some_iff.1 hr
    · obtain ⟨⟨a', b'⟩, h', heq⟩ := Option.map_eq_some_iff.1 h
      obtain ⟨rfl, rfl⟩ := Prod.mk.inj heq
      rw [ih h']
      simp

/-- Whether a text holds `p`. -/
def contains (t p : Text) : Bool := (splitAtFirst? p t).isSome

end Text
end SearchMarkup
