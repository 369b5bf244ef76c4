/-
# Touching plain text is one token

A scan passes plain text one character at a time, and what it has passed up to the next
match is a single token. `Token.join` puts a token in front of others, into the plain text
there if both are plain, and `Token.joined` does so with all tokens of a list.

Joining is done once for each border: a list may be joined in parts (`joined_append`), and
at a token that is not plain the parts do not touch (`joined_append_cons`,
`exists_of_joined_eq`).
-/

import SearchMarkup.Query.Token

namespace SearchMarkup
namespace Token

/-- A token in front of others; plain text goes into plain text that follows. -/
def join (x : Token) (xs : List Token) : List Token :=
  match x, xs with
  | .plain u, .plain v :: xs => .plain (u ++ v) :: xs
  | x, xs => x :: xs

/-- Tokens with touching plain text joined. -/
def joined (xs : List Token) : List Token := xs.foldr join []

@[simp] theorem joined_nil : joined [] = [] := rfl

@[simp] theorem joined_cons (x : Token) (xs : List Token) : joined (x :: xs) = x.join (joined xs) :=
  rfl

variable {x y : Token} {xs ys l l' : List Token}

/-- A token that is not plain stays by itself. -/
theorem join_of_not_plain (h : x.isPlain = false) (xs : List Token) : x.join xs = x :: xs := by
  cases x with
  | plain => cases h
  | _ => rfl

/-- Before such a token any other stays by itself. -/
theorem join_cons_of_not_plain (h : y.isPlain = false) (x : Token) (xs : List Token) :
    x.join (y :: xs) = x :: y :: xs := by
  cases y with
  | plain => cases h
  | _ => cases x <;> rfl

/-- Plain texts may be put in front one by one. -/
theorem join_plain_join (u v : Text) (xs : List Token) :
    join (.plain u) (join (.plain v) xs) = join (.plain (u ++ v)) xs := by
  match xs with
  | [] => rfl
  | .plain w :: xs => simp [join]
  | .connective _ :: _ => rfl
  | .field _ _ :: _ => rfl
  | .quotation _ :: _ => rfl

/-- A token is joined to what follows, or stands in front of it. -/
theorem join_cases (x : Token) (xs : List Token) :
    x.join xs = x :: xs ∨
      ∃ u v ys, x = .plain u ∧ xs = .plain v :: ys ∧ x.join xs = .plain (u ++ v) :: ys := by
  match x, xs with
  | .plain u, .plain v :: ys => exact .inr ⟨u, v, ys, rfl, rfl, rfl⟩
  | .plain _, [] => exact .inl rfl
  | .plain _, .connective _ :: _ => exact .inl rfl
  | .plain _, .field _ _ :: _ => exact .inl rfl
  | .plain _, .quotation _ :: _ => exact .inl rfl
  | .connective _, _ => exact .inl rfl
  | .field _ _, _ => exact .inl rfl
  | .quotation _, _ => exact .inl rfl

/-- What is joined may be joined with more. -/
theorem foldr_join_join (x : Token) (xs ys : List Token) :
    (x.join xs).foldr join ys = x.join (xs.foldr join ys) := by
  rcases join_cases x xs with h | ⟨u, v, zs, rfl, rfl, h⟩
  · rw [h, List.foldr_cons]
  · rw [h, List.foldr_cons, List.foldr_cons, join_plain_join]

/-- **A list may be joined in parts.** -/
theorem joined_append (xs ys : List Token) :
    joined (xs ++ ys) = (joined xs).foldr join (joined ys) := by
  induction xs with
  | nil => rfl
  | cons x xs ih => rw [List.cons_append, joined_cons, ih, joined_cons, foldr_join_join]

/-- Joining stops at a token that is not plain. -/
theorem join_append_cons (hx : x.isPlain = false) (y : Token) (l l' : List Token) :
    y.join (l ++ x :: l') = y.join l ++ x :: l' := by
  -- only the first token of what follows matters
  cases l with
  | nil =>
    rw [List.nil_append, join_cons_of_not_plain hx]
    cases y <;> rfl
  | cons z l => cases y <;> cases z <;> rfl

/-- **A token that is not plain parts what is joined.** -/
theorem joined_append_cons (hx : x.isPlain = false) (xs ys : List Token) :
    joined (xs ++ x :: ys) = joined xs ++ x :: joined ys := by
  induction xs with
  | nil => exact join_of_not_plain hx _
  | cons y xs ih => rw [List.cons_append, joined_cons, ih, join_append_cons hx, joined_cons]

/-- A token that is not plain and stands among joined ones is the first of them or was there
before. -/
theorem join_eq_append_cons (hx : x.isPlain = false) (h : y.join xs = l ++ x :: l') :
    (l = [] ∧ y = x ∧ xs = l') ∨ ∃ m, xs = m ++ x :: l' ∧ l = y.join m := by
  rcases join_cases y xs with hj | ⟨u, v, zs, rfl, rfl, hj⟩
  · rw [hj] at h
    cases l with
    | nil => exact .inl ⟨rfl, List.cons.inj h⟩
    | cons z l =>
      obtain ⟨rfl, hxs⟩ := List.cons.inj h
      have hxs : xs = l ++ x :: l' := hxs
      rw [hxs, join_append_cons hx, ← List.cons_append] at hj
      exact .inr ⟨l, hxs, (List.append_cancel_right hj).symm⟩
  · rw [hj] at h
    cases l with
    | nil =>
      obtain ⟨rfl, -⟩ := List.cons.inj h
      cases hx
    | cons z l =>
      obtain ⟨rfl, rfl⟩ := List.cons.inj h
      exact .inr ⟨.plain v :: l, rfl, rfl⟩

/-- A token that is not plain was there before the joining. -/
theorem exists_of_joined_eq (hx : x.isPlain = false) (h : joined xs = l ++ x :: l') :
    ∃ a b, xs = a ++ x :: b ∧ joined a = l ∧ joined b = l' := by
  induction xs generalizing l with
  | nil => simp at h
  | cons y xs ih =>
    rcases join_eq_append_cons hx h with ⟨rfl, rfl, rfl⟩ | ⟨m, hm, rfl⟩
    · exact ⟨[], xs, rfl, rfl, rfl⟩
    · obtain ⟨a, b, rfl, rfl, rfl⟩ := ih hm
      exact ⟨y :: a, b, rfl, rfl, rfl⟩

/-- Joining changes no text. -/
theorem flatMap_text_joined (xs : List Token) : (joined xs).flatMap text = xs.flatMap text := by
  induction xs with
  | nil => rfl
  | cons x xs ih =>
    rw [joined_cons, List.flatMap_cons, ← ih]
    rcases join_cases x (joined xs) with h | ⟨u, v, ys, rfl, hxs, h⟩
    · rw [h, List.flatMap_cons]
    · rw [h, hxs]
      simp [text]

/-- What plain text holds is held by the plain text it is joined to. -/
theorem exists_plain_of_mem {u : Text} {c : Char} (hu : .plain u ∈ xs) (hc : c ∈ u) :
    ∃ v, .plain v ∈ joined xs ∧ c ∈ v := by
  induction xs with
  | nil => cases hu
  | cons x xs ih =>
    rw [joined_cons]
    rcases join_cases x (joined xs) with h | ⟨s, v, ys, rfl, hxs, h⟩
    · rw [h]
      rcases List.mem_cons.1 hu with rfl | hu
      · exact ⟨u, List.mem_cons_self .., hc⟩
      · obtain ⟨w, hw, hcw⟩ := ih hu
        exact ⟨w, List.mem_cons_of_mem _ hw, hcw⟩
    · rw [h]
      rcases List.mem_cons.1 hu with hsu | hu
      · obtain rfl : u = s := by simpa using hsu
        exact ⟨u ++ v, List.mem_cons_self .., List.mem_append_left _ hc⟩
      · obtain ⟨w, hw, hcw⟩ := ih hu
        rw [hxs] at hw
        rcases List.mem_cons.1 hw with hwv | hw
        · obtain rfl : w = v := by simpa using hwv
          exact ⟨s ++ w, List.mem_cons_self .., List.mem_append_right _ hcw⟩
        · exact ⟨w, List.mem_cons_of_mem _ hw, hcw⟩

end Token
end SearchMarkup
