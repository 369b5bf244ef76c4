/-
# Decoding gives back what was escaped

The text of a markup without tags is read by replacing the entities, in one pass (`decode`) or
one entity after the other (`decodeInTurn`).  Both are passes that replace some entities of a
text in which some characters, `&` among them, are escaped; what is left is the text in which
only the other characters are (`replaceAny_escapeOnly`).

| before the pass | the pass replaces | after it |
| --- | --- | --- |
| all escaped | all five | none escaped |
| all escaped | `&lt;` | all but `<` escaped |
| … | … | … |
| `&` escaped | `&amp;` | none escaped |

That `&` is still escaped is what keeps `&amp;lt;` from being taken for `&lt;`: the pass for
`&amp;` has to be the last.
-/

import SearchMarkup.Html.Escaping
import SearchMarkup.Proofs.Html.CodedText
import Mathlib.Data.List.Infix
import Mathlib.Logic.ExistsUnique

namespace SearchMarkup
namespace Html

variable {c d : Char} {e m t u v : Text} {p : Char → Bool} {r : Replacement}
  {rs : List Replacement}

/-! ## Entities -/

/-- Whether a replacement is that of the entity of a character. -/
def StandsFor (r : Replacement) (c : Char) : Prop := entity? c = some r.key ∧ r.value = [c]

/-- An entity begins with `&`, goes on, and does not hold it again. -/
theorem exists_eq_cons_of_entity? (h : entity? c = some e) :
    ∃ body, e = '&' :: body ∧ '&' ∉ body ∧ body ≠ [] := by
  unfold entity? at h
  split at h
  all_goals cases h
  all_goals exact ⟨_, rfl, by decide⟩

/-- A character with an entity is coded as it. -/
theorem escapeChar_of_entity? (h : entity? c = some e) : escapeChar c = e := by
  rw [escapeChar, h]
  rfl

/-- The sign that entities begin with has one itself. -/
theorem ne_ampersand_of_entity? (h : entity? c = none) : c ≠ '&' := by
  rintro rfl
  exact absurd h (Option.some_ne_none _)

/-- A text begins with the entity of one character at most. -/
theorem entity?_unique {e' : Text} (h : entity? c = some e) (h' : entity? d = some e')
    (heq : e ++ u = e' ++ v) : c = d ∧ u = v := by
  rw [← escapeChar_of_entity? h, ← escapeChar_of_entity? h'] at heq
  exact (writes_escapeChar c).unique (writes_escapeChar d) heq

/-- Every entity is one that a character is coded as. -/
theorem exists_standsFor : ∀ r ∈ entities, ∃ c, StandsFor r c := by
  simp only [entities, List.forall_mem_cons]
  exact ⟨⟨'&', rfl, rfl⟩, ⟨'<', rfl, rfl⟩, ⟨'>', rfl, rfl⟩, ⟨'"', rfl, rfl⟩,
    ⟨'\'', rfl, rfl⟩, nofun⟩

/-- Each entity is found among the replacements. -/
theorem exists_mem_entities (h : entity? c = some e) :
    ∃ r ∈ entities, r.key = e ∧ r.value = [c] := by
  unfold entity? at h
  split at h
  · cases h; exact ⟨ampersand, by simp [entities], rfl, rfl⟩
  · cases h; exact ⟨lessThan, by simp [entities], rfl, rfl⟩
  · cases h; exact ⟨greaterThan, by simp [entities], rfl, rfl⟩
  · cases h; exact ⟨doubleQuote, by simp [entities], rfl, rfl⟩
  · cases h; exact ⟨singleQuote, by simp [entities], rfl, rfl⟩
  · cases h

/-! ## One pass -/

/-- Without `&` in front there is nothing to replace. -/
theorem leadingKey?_cons (hrs : ∀ r ∈ rs, ∃ c, StandsFor r c) (hc : c ≠ '&') :
    Text.leadingKey? rs (c :: t) = none := by
  refine Text.leadingKey?_eq_none_iff.2 fun r hr hlead => ?_
  obtain ⟨d, hd, -⟩ := hrs r hr
  obtain ⟨body, hkey, -, -⟩ := exists_eq_cons_of_entity? hd
  rw [hkey] at hlead
  exact hc (List.cons_prefix_cons.1 hlead).1.symm

/-- What has no `&` stays as it is. -/
theorem replaceAny_append (hrs : ∀ r ∈ rs, ∃ c, StandsFor r c) (hu : '&' ∉ u) (t : Text) :
    Text.replaceAny rs (u ++ t) = u ++ Text.replaceAny rs t := by
  induction u with
  | nil => rfl
  | cons c u ih =>
    have hc : c ≠ '&' := (List.ne_of_not_mem_cons hu).symm
    rw [List.cons_append, Text.replaceAny_cons (leadingKey?_cons hrs hc),
      ih (List.not_mem_of_not_mem_cons hu), List.cons_append]

/-- An entity that is replaced gives its character. -/
theorem replaceAny_entity (hrs : ∀ r ∈ rs, ∃ c, StandsFor r c) (he : entity? c = some e)
    (hc : ∃ r ∈ rs, r.value = [c]) (t : Text) :
    Text.replaceAny rs (e ++ t) = c :: Text.replaceAny rs t := by
  obtain ⟨r, hr, hvalue⟩ := hc
  have hkey : r.key = e := by
    obtain ⟨d, hd⟩ := hrs r hr
    obtain rfl : c = d := List.singleton_inj.1 (hvalue.symm.trans hd.2)
    exact Option.some.inj (hd.1.symm.trans he)
  have hlead : Text.leadingKey? rs (e ++ t) ≠ none := fun hnone =>
    Text.leadingKey?_eq_none_iff.1 hnone r hr ⟨t, by rw [hkey]⟩
  obtain ⟨⟨r', rest⟩, hfound⟩ := Option.ne_none_iff_exists'.1 hlead
  obtain ⟨hr', hsplit⟩ := Text.of_leadingKey?_eq_some hfound
  obtain ⟨d, hd⟩ := hrs r' hr'
  obtain ⟨rfl, rfl⟩ := entity?_unique he hd.1 hsplit
  rw [Text.replaceAny_of_leadingKey? hfound, hd.2, List.singleton_append]

/-- Any other entity is left. -/
theorem replaceAny_other_entity (hrs : ∀ r ∈ rs, ∃ c, StandsFor r c) (he : entity? c = some e)
    (hc : ¬∃ r ∈ rs, r.value = [c]) (t : Text) :
    Text.replaceAny rs (e ++ t) = e ++ Text.replaceAny rs t := by
  have hlead : Text.leadingKey? rs (e ++ t) = none := by
    refine Text.leadingKey?_eq_none_iff.2 fun r hr hlead => hc ⟨r, hr, ?_⟩
    obtain ⟨rest, hrest⟩ := hlead
    obtain ⟨d, hd⟩ := hrs r hr
    obtain ⟨rfl, -⟩ := entity?_unique hd.1 he hrest
    exact hd.2
  obtain ⟨body, rfl, hbody, -⟩ := exists_eq_cons_of_entity? he
  rw [List.cons_append] at hlead ⊢
  rw [Text.replaceAny_cons hlead, replaceAny_append hrs hbody, List.cons_append]

/-- A text in which only some characters are escaped. -/
def escapeOnly (p : Char → Bool) (t : Text) : Text :=
  t.flatMap fun c => if p c then escapeChar c else [c]

/-- A text is coded in part character by character. -/
theorem escapeOnly_cons (p : Char → Bool) (c : Char) (t : Text) :
    escapeOnly p (c :: t) = (if p c then escapeChar c else [c]) ++ escapeOnly p t := rfl

/-- All of a text is coded. -/
theorem escapeOnly_true (t : Text) : escapeOnly (fun _ => true) t = escape t := rfl

/-- Where nothing needs coding, the text stays. -/
theorem escapeOnly_eq_self (h : ∀ c, p c = true → entity? c = none) (t : Text) :
    escapeOnly p t = t := by
  have hchar (c : Char) : (if p c then escapeChar c else [c]) = [c] := by
    split
    · next hp => exact escapeChar_of_entity?_eq_none (h c hp)
    · rfl
  rw [escapeOnly, funext hchar, List.flatMap_singleton']

/-- What is still escaped after a pass. -/
def stillEscaped (p : Char → Bool) (rs : List Replacement) (c : Char) : Bool :=
  p c && rs.all fun r => r.value != [c]

/-- What stays coded was coded, and was not replaced. -/
theorem stillEscaped_eq_true_iff :
    stillEscaped p rs c = true ↔ p c = true ∧ ¬∃ r ∈ rs, r.value = [c] := by
  simp [stillEscaped]

/-- Replacements may be made in two passes. -/
theorem stillEscaped_append (p : Char → Bool) (rs rs' : List Replacement) :
    stillEscaped p (rs ++ rs') = stillEscaped (stillEscaped p rs) rs' := by
  funext c
  simp only [stillEscaped, List.all_append, Bool.and_assoc]

/-- After all passes nothing that has an entity stays coded. -/
theorem entity?_eq_none_of_stillEscaped (hrs : entities ⊆ rs) (h : stillEscaped p rs c = true) :
    entity? c = none := by
  cases he : entity? c with
  | none => rfl
  | some e =>
    obtain ⟨r, hr, -, hvalue⟩ := exists_mem_entities he
    exact absurd ⟨r, hrs hr, hvalue⟩ (stillEscaped_eq_true_iff.1 h).2

/-- **A pass takes back the entities that it replaces,** while `&` is escaped. -/
theorem replaceAny_escapeOnly (hrs : ∀ r ∈ rs, ∃ c, StandsFor r c) (hp : p '&' = true)
    (t : Text) : Text.replaceAny rs (escapeOnly p t) = escapeOnly (stillEscaped p rs) t := by
  induction t with
  | nil => exact Text.replaceAny_nil
  | cons c t ih =>
    rw [escapeOnly_cons, escapeOnly_cons, ← ih]
    -- a character that stands for itself is no `&`
    have hitself (hc : c ≠ '&') : Text.replaceAny rs ([c] ++ escapeOnly p t) =
        [c] ++ Text.replaceAny rs (escapeOnly p t) :=
      replaceAny_append hrs (mt List.mem_singleton.1 hc.symm) _
    by_cases hpc : p c = true
    · cases he : entity? c with
      | none =>
        rw [escapeChar_of_entity?_eq_none he, ite_self, ite_self]
        exact hitself (ne_ampersand_of_entity? he)
      | some e =>
        rw [if_pos hpc, escapeChar_of_entity? he]
        by_cases hr : ∃ r ∈ rs, r.value = [c]
        · rw [if_neg fun hstill => (stillEscaped_eq_true_iff.1 hstill).2 hr,
            replaceAny_entity hrs he hr]
          rfl
        · rw [if_pos (stillEscaped_eq_true_iff.2 ⟨hpc, hr⟩), replaceAny_other_entity hrs he hr]
    · rw [if_neg hpc, if_neg fun hstill => hpc (stillEscaped_eq_true_iff.1 hstill).1]
      refine hitself ?_
      rintro rfl
      exact hpc hp

/-! ## Decoding -/

/-- **One pass decodes what is escaped.** -/
theorem decode_escape (t : Text) : decode (escape t) = t := by
  rw [decode, ← escapeOnly_true, replaceAny_escapeOnly exists_standsFor rfl]
  exact escapeOnly_eq_self (fun _ => entity?_eq_none_of_stillEscaped (List.Subset.refl _)) t

/-- Passes one after the other, none of them for `&`. -/
theorem foldl_replaceAny (hrs : ∀ r ∈ rs, ∃ c ≠ '&', StandsFor r c) (hp : p '&' = true)
    (t : Text) : rs.foldl (fun m r => Text.replaceAny [r] m) (escapeOnly p t) =
      escapeOnly (stillEscaped p rs) t := by
  induction rs generalizing p with
  | nil =>
    have hnone : stillEscaped p [] = p := funext fun c => Bool.and_true _
    rw [List.foldl_nil, hnone]
  | cons r rs ih =>
    obtain ⟨⟨c, hc, hr⟩, hrs⟩ := List.forall_mem_cons.1 hrs
    have hamp : stillEscaped p [r] '&' = true := by
      refine stillEscaped_eq_true_iff.2 ⟨hp, fun ⟨s, hs, hvalue⟩ => hc ?_⟩
      rw [List.mem_singleton.1 hs, hr.2] at hvalue
      exact List.singleton_inj.1 hvalue
    rw [List.foldl_cons, replaceAny_escapeOnly (List.forall_mem_singleton.2 ⟨c, hr⟩) hp,
      ih hrs hamp, ← stillEscaped_append, List.singleton_append]

/-- **So do the passes for each entity,** that for `&` the last. -/
theorem decodeInTurn_escape (t : Text) : decodeInTurn (escape t) = t := by
  let others := [lessThan, greaterThan, doubleQuote, singleQuote]
  have hothers : ∀ r ∈ others, ∃ c ≠ '&', StandsFor r c := by
    simp only [others, List.forall_mem_cons]
    exact ⟨⟨'<', by decide, rfl, rfl⟩, ⟨'>', by decide, rfl, rfl⟩, ⟨'"', by decide, rfl, rfl⟩,
      ⟨'\'', by decide, rfl, rfl⟩, nofun⟩
  have hamp : ∀ r ∈ [ampersand], ∃ c, StandsFor r c :=
    List.forall_mem_singleton.2 ⟨'&', rfl, rfl⟩
  have hall : entities ⊆ others ++ [ampersand] := by simp [entities, others]
  have hfold : decodeInTurn (escape t) = Text.replaceAny [ampersand]
      (others.foldl (fun m r => Text.replaceAny [r] m) (escapeOnly (fun _ => true) t)) := rfl
  rw [hfold, foldl_replaceAny hothers rfl, replaceAny_escapeOnly hamp (by decide),
    ← stillEscaped_append]
  exact escapeOnly_eq_self (fun _ => entity?_eq_none_of_stillEscaped hall) t

/-- With the pass for `&` in front, what was an entity in the text is decoded too. -/
example : [ampersand, lessThan].foldl (fun m r => Text.replaceAny [r] m)
    (escape ['&', 'l', 't', ';']) = ['<'] := by cbv

/-! ## What stands in an escaped text -/

/-- **Each `&` in an escaped text begins an entity.** -/
theorem exists_key_of_escape_eq (h : escape t = u ++ '&' :: v) :
    ∃ r ∈ entities, r.key <+: '&' :: v := by
  induction t generalizing u with
  | nil => simp at h
  | cons c t ih =>
    rw [escape_cons] at h
    rcases List.append_eq_append_iff.1 h with ⟨u', rfl, hrest⟩ | ⟨m, hchar, hrest⟩
    · exact ih hrest
    · cases m with
      | nil => exact ih (u := []) hrest.symm
      | cons d m =>
        obtain ⟨rfl, rfl⟩ := List.cons.inj hrest
        cases he : entity? c with
        | none =>
          rw [escapeChar_of_entity?_eq_none he] at hchar
          have hmem : '&' ∈ [c] := hchar ▸ List.mem_append_right u (List.mem_cons_self ..)
          exact absurd (List.mem_singleton.1 hmem).symm (ne_ampersand_of_entity? he)
        | some e =>
          obtain ⟨r, hr, hkey, -⟩ := exists_mem_entities he
          obtain ⟨body, rfl, hbody, -⟩ := exists_eq_cons_of_entity? he
          rw [escapeChar_of_entity? he] at hchar
          cases u with
          | nil => exact ⟨r, hr, escape t, by rw [hkey, hchar]; rfl⟩
          | cons d u =>
            obtain ⟨-, rfl⟩ := List.cons.inj hchar
            exact absurd (List.mem_append_right u (List.mem_cons_self ..)) hbody

/-- No two entities begin a text. -/
theorem key_unique {r' : Replacement} (hr : r ∈ entities) (hr' : r' ∈ entities)
    (h : r.key <+: t) (h' : r'.key <+: t) : r.key = r'.key := by
  obtain ⟨c, hc, -⟩ := exists_standsFor r hr
  obtain ⟨d, hd, -⟩ := exists_standsFor r' hr'
  obtain ⟨u, rfl⟩ := h
  obtain ⟨v, hv⟩ := h'
  obtain ⟨rfl, -⟩ := entity?_unique hc hd hv.symm
  exact Option.some.inj (hc.symm.trans hd)

/-! ## The same text or a new one -/

/-- The special characters are those with an entity. -/
theorem contains_special (c : Char) : special.contains c = (entity? c).isSome := by
  unfold entity?
  split
  all_goals try rfl
  next h₁ h₂ h₃ h₄ h₅ => simpa [special] using ⟨h₁, h₂, h₃, h₄, h₅⟩

/-- The loop puts together what each character is written as. -/
theorem escaped_eq (t : Text) :
    escaped t = if needsEscape t then .fresh (escape t) else .same t := by
  rw [escaped, funext contains_special, ← List.flatMap_eq_foldl]
  rfl

/-- A text needs coding if one of its characters does. -/
theorem needsEscape_cons (c : Char) (t : Text) :
    needsEscape (c :: t) = ((entity? c).isSome || needsEscape t) := rfl

/-- A text that needs no coding is coded as itself. -/
theorem escape_eq_self_of_not_needsEscape (h : needsEscape t = false) : escape t = t := by
  induction t with
  | nil => rfl
  | cons c t ih =>
    rw [needsEscape_cons, Bool.or_eq_false_iff, Option.isSome_eq_false_iff,
      Option.isNone_iff_eq_none] at h
    rw [escape_cons, escapeChar_of_entity?_eq_none h.1, ih h.2, List.singleton_append]

/-- Coding shortens no text. -/
theorem length_le_escape (t : Text) : t.length ≤ (escape t).length := by
  induction t with
  | nil => exact Nat.le_refl 0
  | cons c t ih =>
    have hpos := List.length_pos_iff.2 (writes_escapeChar c).ne_nil
    rw [escape_cons, List.length_append, List.length_cons]
    omega

/-- A text with an entity is longer than what it stands for. -/
theorem length_lt_escape (h : needsEscape t = true) : t.length < (escape t).length := by
  induction t with
  | nil => exact absurd h Bool.false_ne_true
  | cons c t ih =>
    rw [escape_cons, List.length_append, List.length_cons]
    cases he : entity? c with
    | none =>
      rw [needsEscape_cons, he, Option.isSome_none, Bool.false_or] at h
      rw [escapeChar_of_entity?_eq_none he, List.length_singleton]
      have := ih h
      omega
    | some e =>
      obtain ⟨body, rfl, -, hbody⟩ := exists_eq_cons_of_entity? he
      have hpos := List.length_pos_iff.2 hbody
      have hle := length_le_escape t
      rw [escapeChar_of_entity? he, List.length_cons]
      omega

/-- A text is coded as itself just when it needs no coding. -/
theorem escape_eq_self_iff : escape t = t ↔ needsEscape t = false := by
  refine ⟨fun heq => ?_, escape_eq_self_of_not_needsEscape⟩
  rw [← Bool.not_eq_true]
  intro h
  exact Nat.lt_irrefl t.length (by simpa only [heq] using length_lt_escape h)

/-- **The way that skips the loop agrees with the loop.** -/
theorem text_escaped (t : Text) : (escaped t).text = escape t := by
  rw [escaped_eq]
  split
  · rfl
  · next h => exact (escape_eq_self_of_not_needsEscape (Bool.eq_false_iff.2 h)).symm

/-- The text that is given is the same one just when it needs no coding. -/
theorem isSame_escaped (t : Text) : (escaped t).isSame = !needsEscape t := by
  rw [escaped_eq]
  cases needsEscape t <;> rfl

/-- **Escaping is faithful.** Nothing in the escaped text delimits a tag, and each `&` in it begins
exactly one of the five entities; both ways of decoding give back the text; texts one after the
other are escaped one after the other; and the text is the same one exactly if it is equal. -/
theorem escaped_faithful (t : Text) :
    (escaped t).text = escape t ∧ (escaped t).isSame = !needsEscape t ∧
      (∀ d ∈ delimiters, d ∉ (escaped t).text) ∧
      (∀ u v, (escaped t).text = u ++ '&' :: v →
        ∃! e, e ∈ entities.map Replacement.key ∧ e <+: '&' :: v) ∧
      decode (escaped t).text = t ∧ decodeInTurn (escaped t).text = t ∧
      (∀ s, (escaped (t ++ s)).text = (escaped t).text ++ (escaped s).text) ∧
      ((escaped t).isSame = true ↔ (escaped t).text = t) := by
  simp only [text_escaped, true_and]
  refine ⟨isSame_escaped t, fun d => (coded_escape t).not_mem, ?_, decode_escape t,
    decodeInTurn_escape t, escape_append t, ?_⟩
  · intro u v huv
    obtain ⟨r, hr, hlead⟩ := exists_key_of_escape_eq huv
    refine ⟨r.key, ⟨List.mem_map_of_mem hr, hlead⟩, ?_⟩
    rintro e ⟨he, hlead'⟩
    obtain ⟨r', hr', rfl⟩ := List.mem_map.1 he
    exact key_unique hr' hr hlead' hlead
  · rw [isSame_escaped, escape_eq_self_iff, Bool.not_eq_true']

end Html
end SearchMarkup
