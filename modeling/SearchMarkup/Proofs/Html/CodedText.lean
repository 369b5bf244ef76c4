/-
# Text as markup writes it

Five characters have names. Markup writes such a character as `&`, its name and `;`,
and every other one as itself:

| `&` | `<` | `>` | `"` | `'` |
| --- | --- | --- | --- | --- |
| `amp` | `lt` | `gt` | `quot` | `#39` |

`Coded m t` says that the markup `m`, which has no tags, is the text `t` written so. A
markup is read as one text at most (`Coded.unique`), `escape` writes every text
(`coded_escape`), and none of the characters that tags are made of stands in what it
writes (`Coded.not_mem`).
-/

import SearchMarkup.Html.Entity

namespace SearchMarkup

/-- A text is cut in one way at the first place of a character. -/
theorem Text.append_cons_inj {a b a' b' : Text} {c : Char} (ha : c ∉ a) (ha' : c ∉ a')
    (h : a ++ c :: b = a' ++ c :: b') : a = a' ∧ b = b' := by
  induction a generalizing a' with
  | nil =>
    cases a' with
    | nil => exact ⟨rfl, (List.cons.inj h).2⟩
    | cons d a' => exact absurd (List.mem_cons.2 (.inl (List.cons.inj h).1)) ha'
  | cons d a ih =>
    cases a' with
    | nil => exact absurd (List.mem_cons.2 (.inl (List.cons.inj h).1.symm)) ha
    | cons d' a' =>
      obtain ⟨rfl, htail⟩ := List.cons.inj h
      obtain ⟨rfl, hb⟩ :=
        ih (mt (List.mem_cons_of_mem d) ha) (mt (List.mem_cons_of_mem d) ha') htail
      exact ⟨rfl, hb⟩

namespace Html

/-- The characters with names, and the names. -/
def named : List (Char × Text) :=
  [('&', ['a', 'm', 'p']), ('<', ['l', 't']), ('>', ['g', 't']), ('"', ['q', 'u', 'o', 't']),
    ('\'', ['#', '3', '9'])]

/-- The characters that delimit a tag or the value of an attribute in it. -/
def delimiters : List Char := ['<', '>', '"', '\'']

/-- How markup writes a character. -/
inductive Writes : Char → Text → Prop
  | itself {c : Char} (h : ∀ name, (c, name) ∉ named) : Writes c [c]
  | byName {c : Char} {name : Text} (h : (c, name) ∈ named) : Writes c ('&' :: name ++ [';'])

/-- A name stands for one character. -/
theorem eq_of_mem_named {c d : Char} {name : Text} (hc : (c, name) ∈ named)
    (hd : (d, name) ∈ named) : c = d := by
  have h : ∀ p ∈ named, ∀ q ∈ named, p.2 = q.2 → p.1 = q.1 := by decide
  exact h _ hc _ hd rfl

/-- No name holds the sign that ends it. -/
theorem not_mem_name {c : Char} {name : Text} (h : (c, name) ∈ named) : ';' ∉ name := by
  have h' : ∀ p ∈ named, ';' ∉ p.2 := by decide
  exact h' _ h

/-- Every delimiter has a name. -/
theorem exists_mem_named {c : Char} (h : c ∈ delimiters) : ∃ name, (c, name) ∈ named := by
  have h' : delimiters ⊆ named.map Prod.fst := by decide
  obtain ⟨p, hp, rfl⟩ := List.mem_map.1 (h' h)
  exact ⟨p.2, hp⟩

namespace Writes

variable {c c' d : Char} {e e' r r' : Text}

/-- **What is written first is read in one way.** -/
theorem unique (h : Writes c e) (h' : Writes c' e') (heq : e ++ r = e' ++ r') :
    c = c' ∧ r = r' := by
  have hamp : ('&', ['a', 'm', 'p']) ∈ named := by decide
  cases h with
  | itself hc =>
    cases h' with
    | itself _ => exact List.cons.inj heq
    | byName _ =>
      obtain ⟨rfl, -⟩ := List.cons.inj heq
      exact absurd hamp (hc _)
  | @byName name hname =>
    cases h' with
    | itself hc =>
      obtain ⟨rfl, -⟩ := List.cons.inj heq
      exact absurd hamp (hc _)
    | @byName name' hname' =>
      have htail : name ++ ';' :: r = name' ++ ';' :: r' := by simpa using heq
      obtain ⟨rfl, rfl⟩ := Text.append_cons_inj (not_mem_name hname) (not_mem_name hname') htail
      exact ⟨eq_of_mem_named hname hname', rfl⟩

/-- What a character is written as holds no delimiter. -/
theorem not_mem (h : Writes c e) (hd : d ∈ delimiters) : d ∉ e := by
  cases h with
  | itself hc =>
    intro hmem
    obtain ⟨name, hname⟩ := exists_mem_named hd
    rw [List.mem_singleton.1 hmem] at hname
    exact hc name hname
  | @byName name hname =>
    have h' : ∀ p ∈ named, ('&' :: p.2 ++ [';']).all fun x => !delimiters.contains x := by decide
    intro hmem
    have hnot := List.all_eq_true.1 (h' _ hname) d hmem
    simp [hd] at hnot

/-- A character is written as something. -/
theorem ne_nil (h : Writes c e) : e ≠ [] := by
  cases h <;> exact List.cons_ne_nil _ _

/-- What a character is written as does not begin with a delimiter. -/
theorem append_ne_cons (h : Writes c e) (hd : d ∈ delimiters) : e ++ r ≠ d :: r' := by
  cases e with
  | nil => exact absurd rfl h.ne_nil
  | cons x e =>
    intro heq
    obtain ⟨rfl, -⟩ := List.cons.inj heq
    exact h.not_mem hd (List.mem_cons_self ..)

end Writes

/-- What `escape` puts for a character writes that character. -/
theorem writes_escapeChar (c : Char) : Writes c (escapeChar c) := by
  unfold escapeChar entity?
  split
  · exact .byName (show ('&', ['a', 'm', 'p']) ∈ named by decide)
  · exact .byName (show ('<', ['l', 't']) ∈ named by decide)
  · exact .byName (show ('>', ['g', 't']) ∈ named by decide)
  · exact .byName (show ('"', ['q', 'u', 'o', 't']) ∈ named by decide)
  · exact .byName (show ('\'', ['#', '3', '9']) ∈ named by decide)
  · next h₁ h₂ h₃ h₄ h₅ =>
    refine .itself fun name hname => ?_
    simp only [named, List.mem_cons, Prod.mk.injEq, List.not_mem_nil, or_false] at hname
    rcases hname with h | h | h | h | h
    · exact h₁ h.1
    · exact h₂ h.1
    · exact h₃ h.1
    · exact h₄ h.1
    · exact h₅ h.1

/-- A markup without tags is a text, each character written in turn. -/
inductive Coded : Text → Text → Prop
  | nil : Coded [] []
  | cons {c : Char} {e m t : Text} (hc : Writes c e) (ht : Coded m t) : Coded (e ++ m) (c :: t)

/-- **Every text is escaped to markup that is read as that text.** -/
theorem coded_escape (t : Text) : Coded (escape t) t := by
  induction t with
  | nil => exact .nil
  | cons c t ih => exact .cons (writes_escapeChar c) ih

namespace Coded

variable {m t t' : Text} {d : Char}

/-- Coded text holds no delimiter. -/
theorem not_mem (h : Coded m t) (hd : d ∈ delimiters) : d ∉ m := by
  induction h with
  | nil => exact List.not_mem_nil
  | cons hc _ ih =>
    intro hmem
    rcases List.mem_append.1 hmem with hmem | hmem
    · exact hc.not_mem hd hmem
    · exact ih hmem

/-- Coded text stands for one text. -/
theorem unique (h : Coded m t) (h' : Coded m t') : t = t' := by
  induction h generalizing t' with
  | nil =>
    generalize hm : ([] : Text) = m' at h'
    cases h' with
    | nil => rfl
    | cons hc _ => cases hc <;> simp at hm
  | @cons c e m t hc _ ih =>
    generalize hm : e ++ m = m' at h'
    cases h' with
    | nil => cases hc <;> simp at hm
    | cons hc' ht' =>
      obtain ⟨rfl, rfl⟩ := hc.unique hc' hm
      rw [ih ht']

end Coded
end Html
end SearchMarkup
