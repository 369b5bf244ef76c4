/-
# Escaping a text, and decoding it

A text in which nothing needs an entity stays the same text. Otherwise a new one is put
together, character by character (`Html.escaped`).

Decoding replaces entities by characters. A replacement goes through a text from the left
and does not look again at what it has put:

| decoding | replaces |
| --- | --- |
| `decode` | the five entities in one pass |
| `decodeInTurn` | `&lt;`, `&gt;`, `&quot;`, `&#39;` and last `&amp;`, a pass for each |
-/

import SearchMarkup.Html.Entity

namespace SearchMarkup

/-- A text that is replaced, and what is put for it. -/
structure Replacement where
  key : Text
  value : Text
  key_ne_nil : key ≠ []

namespace Text

/-- The first replacement whose key a text begins with, and what follows the key. -/
def leadingKey? (rs : List Replacement) (t : Text) : Option (Replacement × Text) :=
  rs.findSome? fun r => (afterLeading? r.key t).map fun rest => (r, rest)

/-- A key that is found leads the text, and is one of those looked for. -/
theorem of_leadingKey?_eq_some {rs : List Replacement} {r : Replacement} {t rest : Text}
    (h : leadingKey? rs t = some (r, rest)) : r ∈ rs ∧ t = r.key ++ rest := by
  obtain ⟨s, hs, hrest⟩ := List.exists_of_findSome?_eq_some h
  obtain ⟨rest', hafter, heq⟩ := Option.map_eq_some_iff.1 hrest
  obtain ⟨rfl, rfl⟩ := Prod.mk.inj heq
  exact ⟨hs, afterLeading?_eq_some_iff.1 hafter⟩

/-- No key is found just when none leads the text. -/
theorem leadingKey?_eq_none_iff {rs : List Replacement} {t : Text} :
    leadingKey? rs t = none ↔ ∀ r ∈ rs, ¬r.key <+: t := by
  simp only [leadingKey?, List.findSome?_eq_none_iff, Option.map_eq_none_iff]
  refine forall_congr' fun r => imp_congr_right fun _ => ?_
  rw [Option.eq_none_iff_forall_ne_some, ← not_exists]
  refine not_congr (exists_congr fun rest => ?_)
  rw [afterLeading?_eq_some_iff, eq_comm]

/-- Every key of a text replaced, from the left. -/
def replaceAny (rs : List Replacement) : Text → Text
  | [] => []
  | c :: t =>
    match _h : leadingKey? rs (c :: t) with
    | some (r, rest) => r.value ++ replaceAny rs rest
    | none => c :: replaceAny rs t
  termination_by t => t.length
  decreasing_by
    · have hlength := congrArg List.length (of_leadingKey?_eq_some _h).2
      have hpos := List.length_pos_iff.2 r.key_ne_nil
      rw [List.length_append] at hlength
      omega
    · exact Nat.lt_succ_self _

variable {rs : List Replacement} {r : Replacement} {c : Char} {t rest : Text}

@[simp] theorem replaceAny_nil : replaceAny rs [] = [] := by rw [replaceAny]

/-- A leading key gives way to its value. -/
theorem replaceAny_of_leadingKey? (h : leadingKey? rs t = some (r, rest)) :
    replaceAny rs t = r.value ++ replaceAny rs rest := by
  cases t with
  | nil => exact absurd (List.append_eq_nil_iff.1 (of_leadingKey?_eq_some h).2.symm).1 r.key_ne_nil
  | cons c t =>
    rw [replaceAny]
    split
    · next r' rest' h' =>
      obtain ⟨rfl, rfl⟩ := Prod.mk.inj (Option.some.inj (h'.symm.trans h))
      rfl
    · next h' => exact absurd (h'.symm.trans h) (Option.some_ne_none _).symm

/-- A character that begins no key stays. -/
theorem replaceAny_cons (h : leadingKey? rs (c :: t) = none) :
    replaceAny rs (c :: t) = c :: replaceAny rs t := by
  rw [replaceAny]
  split
  · next h' => exact absurd (h.symm.trans h') (Option.some_ne_none _).symm
  · rfl

end Text

namespace Html

/-! ## Escaping -/

/-- The characters that escaping looks for. -/
def special : List Char := ['&', '<', '>', '"', '\'']

/-- What comes of a text that is escaped. -/
inductive Escaped where
  /-- The text that was given. -/
  | same (t : Text)
  /-- A new text. -/
  | fresh (t : Text)
  deriving DecidableEq, Repr

namespace Escaped

def text : Escaped → Text
  | same t => t
  | fresh t => t

def isSame : Escaped → Bool
  | same _ => true
  | fresh _ => false

end Escaped

/-- A text as it stands in markup, the same one if nothing in it needs an entity. -/
def escaped (t : Text) : Escaped :=
  if t.any special.contains then .fresh (t.foldl (fun out c => out ++ (entity? c).getD [c]) [])
  else .same t

/-! ## Decoding -/

def ampersand : Replacement := ⟨['&', 'a', 'm', 'p', ';'], ['&'], by decide⟩

def lessThan : Replacement := ⟨['&', 'l', 't', ';'], ['<'], by decide⟩

def greaterThan : Replacement := ⟨['&', 'g', 't', ';'], ['>'], by decide⟩

def doubleQuote : Replacement := ⟨['&', 'q', 'u', 'o', 't', ';'], ['"'], by decide⟩

def singleQuote : Replacement := ⟨['&', '#', '3', '9', ';'], ['\''], by decide⟩

/-- The entities, to be replaced by what they stand for. -/
def entities : List Replacement := [ampersand, lessThan, greaterThan, doubleQuote, singleQuote]

/-- The text of a markup without tags. -/
def decode (m : Text) : Text := Text.replaceAny entities m

/-- The text of a markup without tags, one entity after the other. -/
def decodeInTurn (m : Text) : Text :=
  [lessThan, greaterThan, doubleQuote, singleQuote, ampersand].foldl
    (fun m r => Text.replaceAny [r] m) m

end Html
end SearchMarkup
