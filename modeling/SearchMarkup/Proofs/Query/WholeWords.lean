/-
# The word rules look a word up

`Offsets.connective` and `Offsets.bareField` try the entries of a table one after the other:
does the text begin with this one, and does a word end after it?  Another way to ask is to
cut out the word that stands at the place and to look it up.  The two agree, for two reasons:

| reason | lemma |
| --- | --- |
| an entry is made of word characters, so up to a word end it is the whole word | `Text.takeWhile_isWordChar_eq_iff` |
| no key begins another, so the first key found is the only one | `Field.eq_of_isPrefixOf` |

Without the second, a key found first could hide a longer one that is the word.

An entry is then found in a table exactly if it is in it, and the order of the entries does
not matter (`find?_eq_of_perm`).  No connective is a key, so at most one of the two rules
matches.
-/

import SearchMarkup.Proofs.Query.OffsetRules
import SearchMarkup.Proofs.Query.Words

namespace SearchMarkup

section Tables

variable {α : Type} {p : α → Bool} {l l' : List α}

/-- Where at most one entry can have a property, it is found if it is there. -/
theorem find?_eq_some_iff_of_unique (hp : ∀ x y, p x = true → p y = true → x = y) {x : α} :
    l.find? p = some x ↔ x ∈ l ∧ p x = true := by
  constructor
  · exact fun h => ⟨List.mem_of_find?_eq_some h, List.find?_some h⟩
  · rintro ⟨hx, hpx⟩
    cases h : l.find? p with
    | none => exact absurd hpx (List.find?_eq_none.1 h x hx)
    | some y => rw [hp y x (List.find?_some h) hpx]

/-- Where at most one entry can have a property, the order of a table does not matter. -/
theorem find?_eq_of_perm (hp : ∀ x y, p x = true → p y = true → x = y) (h : l.Perm l') :
    l.find? p = l'.find? p := by
  ext x
  rw [find?_eq_some_iff_of_unique hp, find?_eq_some_iff_of_unique hp, h.mem_iff]

/-- No key begins another. -/
theorem Field.eq_of_isPrefixOf {b : Text} {f f' : Field} (h : f.key.isPrefixOf b = true)
    (h' : f'.key.isPrefixOf b = true) : f = f' := by
  obtain ⟨r, hr⟩ := List.isPrefixOf_iff_prefix.1 h
  obtain ⟨r', hr'⟩ := List.isPrefixOf_iff_prefix.1 h'
  exact (key_append_inj (hr.trans hr'.symm)).1

end Tables

namespace Offsets

variable {a b w t : Text} {n : Nat} {h : Hit} {ks : List Connective} {fs : List Field}

/-- An entry that stands at a place by itself is the word there. -/
theorem any_afterLeading?_eq (hw : ∀ c ∈ w, isWordChar c = true) :
    ((Text.afterLeading? w b).any fun rest => !rest.head?.any isWordChar) =
      (b.takeWhile isWordChar == w) := by
  rw [Bool.eq_iff_iff, beq_iff_eq, Text.takeWhile_isWordChar_eq_iff hw]
  cases h : Text.afterLeading? w b with
  | none =>
    refine ⟨nofun, ?_⟩
    rintro ⟨r, hr, -⟩
    rw [Text.afterLeading?_eq_some_iff.2 hr] at h
    cases h
  | some rest =>
    obtain rfl := Text.afterLeading?_eq_some_iff.1 h
    simp

/-! ## What a rule finds -/

/-- A rule that finds an entry of a table between two word borders finds the word at the
place. -/
theorem map_hit_eq_some_iff {α : Type} {token : α → Token} {found : Option Match}
    (hword : ∀ x, ∀ c ∈ (token x).text, isWordChar c = true)
    (hfound : ∀ m, found = some m ↔ ∃ x, m.token = token x ∧ b = m.token.text ++ m.rest ∧
      a.getLast?.any isWordChar = false ∧ m.rest.head?.any isWordChar = false) :
    found.map Match.hit = some h ↔ (Cursor.between a b).atWordStart = true ∧
      ∃ x, (token x).text = (Cursor.between a b).word ∧
        h = ⟨token x, (Cursor.between a b).word.size⟩ := by
  have hstart : (Cursor.between a b).atWordStart = true ↔ a.getLast?.any isWordChar = false := by
    rw [Cursor.atWordStart, Bool.not_eq_true', Cursor.before_between]
  rw [Option.map_eq_some_iff, hstart, Cursor.word, Cursor.rest_between]
  constructor
  · rintro ⟨⟨y, r⟩, hm, rfl⟩
    obtain ⟨x, rfl, hb, hbefore, hafter⟩ := (hfound _).1 hm
    have hw := (Text.takeWhile_isWordChar_eq_iff (hword x)).2 ⟨r, hb, hafter⟩
    exact ⟨hbefore, x, hw.symm, by rw [hw]; rfl⟩
  · rintro ⟨hbefore, x, hw, rfl⟩
    obtain ⟨r, hb, hafter⟩ := (Text.takeWhile_isWordChar_eq_iff (hword x)).1 hw.symm
    exact ⟨⟨token x, r⟩, (hfound _).2 ⟨x, rfl, hb, hbefore, hafter⟩, by rw [← hw]; rfl⟩

/-- **A connective is found where it is the word.** -/
theorem connective_eq_some_iff : connective (a ++ b) a.size = .ok (some h) ↔
    (Cursor.between a b).atWordStart = true ∧
      ∃ k, Connective.ofWord? (Cursor.between a b).word = some k ∧
        h = ⟨.connective k, (Cursor.between a b).word.size⟩ := by
  have hfound (m : Match) : Rule.connective (.between a b) = some m ↔
      ∃ k, m.token = .connective k ∧ b = m.token.text ++ m.rest ∧
        a.getLast?.any isWordChar = false ∧ m.rest.head?.any isWordChar = false := by
    rw [Rule.connective_eq_some_iff]
    refine exists_congr fun k => and_congr_right fun hk => and_congr_right fun _ => ?_
    rw [hk]
    rfl
  rw [connective_eq, Except.ok.injEq,
    map_hit_eq_some_iff (fun _ _ => isWordChar_of_mem_word) hfound]
  simp only [Connective.ofWord?_eq_some_iff, Token.text]

/-- **A key is found where it is the word.** -/
theorem bareField_eq_some_iff : bareField (a ++ b) a.size = .ok (some h) ↔
    (Cursor.between a b).atWordStart = true ∧
      ∃ f, Field.ofKey? (Cursor.between a b).word = some f ∧
        h = ⟨.field f none, (Cursor.between a b).word.size⟩ := by
  have hfound (m : Match) : Rule.bareField (.between a b) = some m ↔
      ∃ f, m.token = .field f none ∧ b = m.token.text ++ m.rest ∧
        a.getLast?.any isWordChar = false ∧ m.rest.head?.any isWordChar = false :=
    Rule.bareField_eq_some_iff
  rw [bareField_eq, Except.ok.injEq, map_hit_eq_some_iff (fun _ _ => isWordChar_of_mem_key) hfound]
  simp only [Field.ofKey?_eq_some_iff, Token.text]

/-- At most one of the two rules for words matches. -/
theorem connective_eq_none_or (a b : Text) : ∃ x y, connective (a ++ b) a.size = .ok x ∧
    bareField (a ++ b) a.size = .ok y ∧ (x = none ∨ y = none) := by
  refine ⟨_, _, connective_eq a b, bareField_eq a b, ?_⟩
  cases hx : (Rule.connective (.between a b)).map Match.hit with
  | none => exact .inl rfl
  | some x =>
    right
    refine Option.eq_none_iff_forall_ne_some.2 fun y hy => ?_
    obtain ⟨-, k, hk, -⟩ := connective_eq_some_iff.1 ((connective_eq a b).trans (by rw [hx]))
    obtain ⟨-, f, hf, -⟩ := bareField_eq_some_iff.1 ((bareField_eq a b).trans (by rw [hy]))
    have heq : k.word = f.key :=
      (Connective.ofWord?_eq_some_iff.1 hk).trans (Field.ofKey?_eq_some_iff.1 hf).symm
    exact Connective.word_append_ne_key_append (congrArg (· ++ []) heq)

/-! ## The order of a table -/

/-- The connectives may be tried in any order. -/
theorem connectiveAmong_eq_of_perm (hn : t.IsPlace n) (h : ks.Perm Connective.all) :
    connectiveAmong ks t n = connective t n := by
  obtain ⟨a, b, rfl, rfl⟩ := hn
  have hask (k : Connective) : ((Text.afterLeading? k.word b).any fun rest =>
      !rest.head?.any isWordChar) = (b.takeWhile isWordChar == k.word) :=
    any_afterLeading?_eq fun _ => isWordChar_of_mem_word
  have hunique (k k' : Connective) (hk : (b.takeWhile isWordChar == k.word) = true)
      (hk' : (b.takeWhile isWordChar == k'.word) = true) : k = k' := by
    have hword : k.word = k'.word := (eq_of_beq hk).symm.trans (eq_of_beq hk')
    exact (Connective.word_append_inj (congrArg (· ++ []) hword)).1
  rw [connective, connectiveAmong_eq, connectiveAmong_eq]
  simp only [hask, find?_eq_of_perm hunique h]

/-- So may the keys. -/
theorem bareFieldAmong_eq_of_perm (hn : t.IsPlace n) (h : fs.Perm Field.all) :
    bareFieldAmong fs t n = bareField t n := by
  obtain ⟨a, b, rfl, rfl⟩ := hn
  have hkey : fieldKeyAmong? fs (a ++ b) a.size = fieldKeyAmong? Field.all (a ++ b) a.size := by
    rw [fieldKeyAmong?_eq, fieldKeyAmong?_eq,
      find?_eq_of_perm (fun _ _ => Field.eq_of_isPrefixOf) h]
  rw [bareField, bareFieldAmong, bareFieldAmong, hkey]

/-- **The rules for words look a word up.** At a place of a text a connective matches exactly
if a word begins there and is the connective's, and a key without a value exactly if a word
begins there and is the key; the match is as long as the word.  So at most one of the two
matches, and neither depends on the order in which the table is tried. -/
theorem word_rules_look_up (hn : t.IsPlace n) :
    (∀ h, connective t n = .ok (some h) ↔ atWordStart t n = .ok true ∧
        ∃ w k, wordAt t n = .ok w ∧ Connective.ofWord? w = some k ∧
          h = ⟨.connective k, w.size⟩) ∧
      (∀ h, bareField t n = .ok (some h) ↔ atWordStart t n = .ok true ∧
        ∃ w f, wordAt t n = .ok w ∧ Field.ofKey? w = some f ∧ h = ⟨.field f none, w.size⟩) ∧
      (∃ x y, connective t n = .ok x ∧ bareField t n = .ok y ∧ (x = none ∨ y = none)) ∧
      (∀ ks, ks.Perm Connective.all → connectiveAmong ks t n = connective t n) ∧
      ∀ fs, fs.Perm Field.all → bareFieldAmong fs t n = bareField t n := by
  have hplace := hn
  obtain ⟨a, b, rfl, rfl⟩ := hn
  refine ⟨fun h => ?_, fun h => ?_, connective_eq_none_or a b,
    fun ks => connectiveAmong_eq_of_perm hplace, fun fs => bareFieldAmong_eq_of_perm hplace⟩
  · rw [connective_eq_some_iff, atWordStart_eq, wordAt_eq]
    simp only [Except.ok.injEq, exists_and_left, exists_eq_left']
  · rw [bareField_eq_some_iff, atWordStart_eq, wordAt_eq]
    simp only [Except.ok.injEq, exists_and_left, exists_eq_left']

/-- In `é URL` the key at byte 3 is the word there, also for a table read backwards. -/
theorem word_rules_look_up_last_word :
    let t : Text := ['é', ' ', 'U', 'R', 'L']
    t.IsPlace 3 ∧ atWordStart t 3 = .ok true ∧ wordAt t 3 = .ok ['U', 'R', 'L'] ∧
      bareField t 3 = .ok (some ⟨.field .url none, 3⟩) ∧ connective t 3 = .ok none ∧
      Connective.all.reverse.Perm Connective.all ∧ Field.all.reverse.Perm Field.all ∧
      connectiveAmong Connective.all.reverse t 3 = connective t 3 ∧
      bareFieldAmong Field.all.reverse t 3 = bareField t 3 := by
  intro t
  have hplace : t.IsPlace 3 := ⟨['é', ' '], ['U', 'R', 'L'], rfl, rfl⟩
  have hstart : atWordStart t 3 = .ok true := by decide
  have hword : wordAt t 3 = .ok ['U', 'R', 'L'] := by decide
  obtain ⟨-, hfield, ⟨x, y, hx, hy, hnone⟩, hks, hfs⟩ := word_rules_look_up hplace
  have hurl : bareField t 3 = .ok (some ⟨.field .url none, 3⟩) :=
    (hfield _).2 ⟨hstart, _, .url, hword, rfl, rfl⟩
  have hno : connective t 3 = .ok none := by
    obtain rfl := Except.ok.inj (hy.symm.trans hurl)
    obtain rfl := hnone.resolve_right nofun
    exact hx
  exact ⟨hplace, hstart, hword, hurl, hno, Connective.all.reverse_perm, Field.all.reverse_perm,
    hks _ Connective.all.reverse_perm, hfs _ Field.all.reverse_perm⟩

end Offsets
end SearchMarkup
