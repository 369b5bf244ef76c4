/-
# A rule asked at a byte offset always answers

Asked at a place of a text, a rule finds by offsets what it finds at the cursor there, and
no cut on the way fails:

| by offsets | it cuts the text at |
| --- | --- |
| `atWordStart`, `atWordEnd`, `fieldKey?` | the place |
| `wordAt` | the place, and the end of the word |
| `scanQuotation` | the place, and both ends of the body |
| `fieldPair` | the place, the end of the key, and where the quotation cuts |
| `connective`, `bareField` | the place, and the end of the word or key |
| `nearMiss?`, `missingValue?` | the place, and the end of the word or key |

Each of these is a sum of sizes of what stands there one after the other, so the text has a
place there (`Text.onwards_size_size`, `Text.part_size`), whatever the characters are and
also where the text ends.  The memo decides what is searched, and is never cut by.
-/

import SearchMarkup.Proofs.Query.Place
import SearchMarkup.Query.Offsets
import Mathlib.Logic.Basic

namespace SearchMarkup

namespace Text

/-- A text can be cut after so many bytes. -/
def IsPlace (t : Text) (n : Nat) : Prop := ∃ a b, t = a ++ b ∧ a.size = n

/-- A text begins with another if something follows that. -/
theorem isPrefixOf_eq (p t : Text) : p.isPrefixOf t = (afterLeading? p t).isSome := by
  fun_induction afterLeading? p t with
  | case1 t => rfl
  | case2 p ps => rfl
  | case3 p ps t ih => rw [List.isPrefixOf_cons_cons, beq_self_eq_true, Bool.true_and, ih]
  | case4 p ps c t hne =>
    have hpc : (p == c) = false := beq_eq_false_iff_ne.2 hne
    rw [List.isPrefixOf_cons_cons, hpc, Bool.false_and]
    rfl

end Text

/-- A hit stands at a byte of a text: it takes at least one byte, and what it takes is the
text of its token. -/
def Hit.StandsAt (h : Hit) (t : Text) (n : Nat) : Prop :=
  1 ≤ h.size ∧ t.slice? n (n + h.size) = some h.token.text

/-- The text of a near miss stands at a byte of a text. -/
def NearMiss.StandsAt (miss : NearMiss) (t : Text) (n : Nat) : Prop :=
  t.slice? n (n + miss.text.size) = some miss.text

variable {α β γ : Type} {a b : Text} {m : Match} {miss : NearMiss}

/-- A match stands where its text begins. -/
theorem Match.standsAt (a : Text) (hb : b = m.token.text ++ m.rest) (hne : m.token.text ≠ []) :
    m.hit.StandsAt (a ++ b) a.size := by
  refine ⟨Nat.pos_of_ne_zero (mt Text.size_eq_zero.1 hne), ?_⟩
  rw [hb, ← List.append_assoc]
  show Text.slice? _ a.size (a.size + m.token.text.size) = _
  rw [← Text.size_append, Text.slice?_append]
  rfl

/-- What the text begins with stands at its beginning. -/
theorem NearMiss.standsAt (a : Text) (hb : miss.text <+: b) : miss.StandsAt (a ++ b) a.size := by
  obtain ⟨rest, rfl⟩ := hb
  rw [NearMiss.StandsAt, ← Text.size_append, ← List.append_assoc, Text.slice?_append]

/-- A near miss in plain text is about what the text begins with. -/
theorem text_prefix_of_nearMiss? {c : Cursor} (h : nearMiss? c = some miss) :
    miss.text <+: c.rest := by
  have hword : c.word <+: c.rest := List.takeWhile_prefix isWordChar
  rw [nearMiss?] at h
  rcases hrest : c.rest with _ | ⟨d, t⟩
  · rw [hrest] at h
    cases h
  rw [← hrest]
  simp only [hrest] at h
  split at h
  · obtain rfl := Option.some.inj h
    exact ⟨t, by rw [hrest]; rfl⟩
  split at h
  · split at h
    · obtain rfl := Option.some.inj h
      exact hword
    · split at h
      · obtain rfl := Option.some.inj h
        exact hword
      · cases h
  · cases h

/-- A near miss at a key is about the key. -/
theorem Match.text_of_nearMiss? (h : m.nearMiss? = some miss) : miss.text = m.token.text := by
  rw [Match.nearMiss?] at h
  split at h
  · next f rest htoken _ =>
    obtain rfl := Option.some.inj h
    rw [htoken]
    rfl
  · cases h

/-- To look for the first that leads to something is to look for what the first leads to. -/
theorem map_find?_isSome {g : α → Option β} {f : β → γ} {h : α → γ}
    (hg : ∀ x y, g x = some y → h x = f y) (l : List α) :
    (l.find? fun x => (g x).isSome).map h = (l.findSome? g).map f := by
  induction l with
  | nil => rfl
  | cons x xs ih =>
    rw [List.find?_cons, List.findSome?_cons]
    cases hx : g x with
    | none => exact ih
    | some y => exact congrArg some (hg x y hx)

/-- A search that asks without a fault is a search. -/
theorem findM?_eq_ok {p : α → Except OffsetFault Bool} {q : α → Bool}
    (h : ∀ x, p x = .ok (q x)) (l : List α) : l.findM? p = .ok (l.find? q) := by
  induction l with
  | nil => rfl
  | cons x xs ih =>
    rw [List.findM?, h x, List.find?_cons]
    cases q x with
    | true => rfl
    | false => exact ih

namespace Offsets

/-- Whether a word begins at a place does not depend on how the place is given. -/
theorem atWordStart_eq (a b : Text) :
    atWordStart (a ++ b) a.size = .ok (Cursor.between a b).atWordStart := by
  rw [atWordStart, Text.upTo_size]
  rfl

/-- Nor does whether one ends there. -/
theorem atWordEnd_eq (a b : Text) :
    atWordEnd (a ++ b) a.size = .ok (!b.head?.any isWordChar) := by
  rw [atWordEnd, Text.onwards_size]
  rfl

/-- The same at the end of a word that was found. -/
theorem atWordEnd_size_size (a w r : Text) :
    atWordEnd (a ++ (w ++ r)) (a.size + w.size) = .ok (!r.head?.any isWordChar) := by
  rw [← List.append_assoc, ← Text.size_append, atWordEnd_eq]

/-- The word at a place does not depend on how the place is given. -/
theorem wordAt_eq (a b : Text) : wordAt (a ++ b) a.size = .ok (Cursor.between a b).word := by
  have hcut := Text.upTo_size (b.takeWhile isWordChar) (b.dropWhile isWordChar)
  rw [List.takeWhile_append_dropWhile] at hcut
  rw [wordAt, Text.onwards_size]
  show b.upTo ((b.findByte? fun c => !isWordChar c).getD b.size) = _
  rw [Text.findByte?_not, hcut]
  rfl

/-- The search for a closing quote by offsets. -/
theorem closingFrom?_eq (escaped : Bool) (n : Nat) (t : Text) :
    closingFrom? escaped n t =
      (splitAtClosing? escaped t).map fun (body, q, _) => (n + body.size, q) := by
  fun_induction closingFrom? escaped n t with
  | case1 => rfl
  | case2 n c t ih =>
    rw [ih, splitAtClosing?, if_neg (by simp), Option.map_map]
    simp [Function.comp_def, Nat.add_assoc]
  | case3 e n t he ih =>
    have hquote : isQuote escapeMark = false := by decide
    obtain rfl : e = false := by simpa using he
    rw [ih, splitAtClosing?, if_neg (by simp [hquote]), Option.map_map]
    simp [Function.comp_def, Nat.add_assoc]
  | case4 e n c t he hc hq =>
    obtain rfl : e = false := by simpa using he
    rw [splitAtClosing?, if_pos (by simp [hq])]
    rfl
  | case5 e n c t he hc hq ih =>
    obtain rfl : e = false := by simpa using he
    have hmark : (!false && c == escapeMark) = false := by simpa using hc
    rw [ih, splitAtClosing?, if_neg (by simpa using hq), Option.map_map, hmark]
    simp [Function.comp_def, Nat.add_assoc]

/-- **The search for a quotation by offsets.** -/
theorem scanQuotation_eq (memo : QuoteMemo) (a b : Text) :
    scanQuotation (a ++ b) a.size memo =
      .ok ((SearchMarkup.scanQuotation memo (.between a b)).1.map fun (q, _) => (q, q.text.size),
        (SearchMarkup.scanQuotation memo (.between a b)).2) := by
  rw [scanQuotation, Text.onwards_size]
  rcases b with _ | ⟨opening, t⟩
  · rfl
  by_cases hq : isQuote opening = true
  · by_cases hk : memo.knowsOpen a.size = true
    · simp [SearchMarkup.scanQuotation, hk]
    cases hs : splitAtClosing? false t with
    | none => simp [SearchMarkup.scanQuotation, hq, hk, closingFrom?_eq, hs]
    | some found =>
      obtain ⟨body, closing, rest⟩ := found
      obtain rfl := eq_append_of_splitAtClosing? hs
      have hbody : Text.part (opening :: (body ++ closing :: rest)) opening.utf8Size
          (opening.utf8Size + body.size) = .ok body := by
        simpa using Text.part_size [opening] body (closing :: rest)
      simp [SearchMarkup.scanQuotation, hq, hk, closingFrom?_eq, hs, hbody, Quotation.text,
        Nat.add_assoc]
  · simp [SearchMarkup.scanQuotation, hq]

/-- Which field of a table is found. -/
theorem fieldKeyAmong?_eq (fs : List Field) (a b : Text) :
    fieldKeyAmong? fs (a ++ b) a.size = .ok (if (Cursor.between a b).atWordStart then
      fs.find? fun f => f.key.isPrefixOf b
    else none) := by
  rw [fieldKeyAmong?, atWordStart_eq, OffsetFault.ok_bind, Text.onwards_size]
  by_cases hstart : (Cursor.between a b).atWordStart = true
  · rw [if_pos hstart, if_pos hstart]
    rfl
  · rw [if_neg hstart, if_neg hstart]
    rfl

/-- **A field key by offsets.** -/
theorem fieldKey?_eq (a b : Text) :
    fieldKey? (a ++ b) a.size = .ok ((Rule.fieldKey? (.between a b)).map Prod.fst) := by
  have hkeys := map_find?_isSome (f := Prod.fst) (h := id)
    (g := fun f : Field => (Text.afterLeading? f.key b).map fun rest => (f, rest))
    (fun f x hx => by
      obtain ⟨rest, -, rfl⟩ := Option.map_eq_some_iff.1 hx
      rfl) Field.all
  rw [fieldKey?, fieldKeyAmong?_eq, Rule.fieldKey?]
  by_cases hstart : (Cursor.between a b).atWordStart = true
  · rw [if_pos hstart, if_pos hstart, Cursor.rest_between, ← hkeys]
    simp [Text.isPrefixOf_eq]
  · rw [if_neg hstart, if_neg hstart]
    rfl

/-- The place after a key and `=`. -/
theorem between_equals (a w r : Text) :
    Cursor.between (a ++ (w ++ ['='])) r = ⟨some '=', a.size + w.size + 1, r⟩ := by
  have hsize : (a ++ (w ++ ['='])).size = a.size + w.size + 1 := by
    simp only [Text.size_append, Nat.add_assoc]
    rfl
  rw [Cursor.between, hsize, ← List.append_assoc, List.getLast?_concat]

/-- **A field pair by offsets.** -/
theorem fieldPair_eq (memo : QuoteMemo) (a b : Text) :
    fieldPair (a ++ b) a.size memo =
      .ok ((Rule.fieldPair memo (.between a b)).1.map Match.hit,
        (Rule.fieldPair memo (.between a b)).2) := by
  rw [fieldPair, fieldKey?_eq, OffsetFault.ok_bind, Rule.fieldPair]
  cases hkey : Rule.fieldKey? (.between a b) with
  | none => rfl
  | some found =>
    obtain ⟨f, r⟩ := found
    obtain rfl : b = f.key ++ r := Rule.rest_eq_of_fieldKey? hkey
    simp only [Option.map_some, Text.onwards_size_size, OffsetFault.ok_bind]
    rcases r with _ | ⟨c, r⟩
    · rfl
    by_cases hc : c = '='
    · subst hc
      have hscan := scanQuotation_eq memo (a ++ (f.key ++ ['='])) r
      rw [between_equals] at hscan
      have hcut : a ++ (f.key ++ '=' :: r) = a ++ (f.key ++ ['=']) ++ r := by simp
      have hsize : a.size + f.key.size + 1 = (a ++ (f.key ++ ['='])).size :=
        congrArg Cursor.offset (between_equals a f.key r).symm
      have hone : Char.utf8Size '=' = 1 := rfl
      rw [if_pos (by simp), hcut, hsize, hscan, OffsetFault.ok_bind]
      simp [Match.hit, Token.text, Function.comp_def, hone, Nat.add_assoc]
    · rw [if_neg (by simpa using hc)]
      split
      · next heq =>
        obtain ⟨-, rfl, -⟩ : f = _ ∧ c = '=' ∧ r = _ := by simpa using heq
        exact absurd rfl hc
      · rfl

/-- Whether a word stands at a place by itself, up to its end. -/
theorem standsAlone_eq (a b w : Text) :
    (if w.isPrefixOf b then atWordEnd (a ++ b) (a.size + w.size) else return false) =
      .ok ((Text.afterLeading? w b).any fun rest => !rest.head?.any isWordChar) := by
  rw [Text.isPrefixOf_eq]
  cases hrest : Text.afterLeading? w b with
  | none => rfl
  | some rest =>
    obtain rfl := Text.afterLeading?_eq_some_iff.1 hrest
    rw [Option.isSome_some, if_pos rfl, atWordEnd_size_size, Option.any_some]

/-- Which connective of a table is found. -/
theorem connectiveAmong_eq (ks : List Connective) (a b : Text) :
    connectiveAmong ks (a ++ b) a.size = .ok (if (Cursor.between a b).atWordStart then
      (ks.find? fun k =>
        (Text.afterLeading? k.word b).any fun rest => !rest.head?.any isWordChar).map fun k =>
          ⟨.connective k, k.word.size⟩
    else none) := by
  rw [connectiveAmong, atWordStart_eq, OffsetFault.ok_bind, Text.onwards_size]
  by_cases hstart : (Cursor.between a b).atWordStart = true
  · rw [if_pos hstart, if_pos hstart, OffsetFault.ok_bind,
      findM?_eq_ok fun k : Connective => standsAlone_eq a b k.word]
    rfl
  · rw [if_neg hstart, if_neg hstart]
    rfl

/-- **A connective by offsets.** -/
theorem connective_eq (a b : Text) :
    connective (a ++ b) a.size = .ok ((Rule.connective (.between a b)).map Match.hit) := by
  have hask (k : Connective) :
      ((Text.afterLeading? k.word b).any fun rest => !rest.head?.any isWordChar) =
        ((Text.afterLeading? k.word b).bind fun rest =>
          if Cursor.atWordEnd ⟨k.word.getLast?, a.size + k.word.size, rest⟩ then
            some (⟨.connective k, rest⟩ : Match)
          else none).isSome := by
    cases Text.afterLeading? k.word b with
    | none => rfl
    | some rest =>
      rw [Option.any_some, Option.bind_some, Cursor.atWordEnd]
      cases rest.head?.any isWordChar <;> rfl
  rw [connective, connectiveAmong_eq, Rule.connective]
  by_cases hstart : (Cursor.between a b).atWordStart = true
  · rw [if_pos hstart, if_pos hstart]
    simp only [hask]
    rw [map_find?_isSome (f := Match.hit) fun k m hm => ?_]
    · rfl
    · obtain ⟨rest, -, hrest⟩ := Option.bind_eq_some_iff.1 hm
      obtain ⟨-, hmatch⟩ := Option.ite_none_right_eq_some.1 hrest
      obtain rfl := Option.some.inj hmatch
      rfl
  · rw [if_neg hstart, if_neg hstart]
    rfl

/-- **A quotation by offsets.** -/
theorem quotation_eq (memo : QuoteMemo) (a b : Text) :
    quotation (a ++ b) a.size memo =
      .ok ((Rule.quotation memo (.between a b)).1.map Match.hit,
        (Rule.quotation memo (.between a b)).2) := by
  rw [quotation, scanQuotation_eq, OffsetFault.ok_bind, Rule.quotation]
  simp [Match.hit, Token.text, Function.comp_def]

/-- **A field key without a value by offsets.** -/
theorem bareField_eq (a b : Text) :
    bareField (a ++ b) a.size = .ok ((Rule.bareField (.between a b)).map Match.hit) := by
  rw [bareField, bareFieldAmong, ← fieldKey?, fieldKey?_eq, OffsetFault.ok_bind, Rule.bareField]
  cases hkey : Rule.fieldKey? (.between a b) with
  | none => rfl
  | some found =>
    obtain ⟨f, r⟩ := found
    obtain rfl : b = f.key ++ r := Rule.rest_eq_of_fieldKey? hkey
    simp only [Option.map_some, atWordEnd_size_size, OffsetFault.ok_bind, Option.bind_some]
    cases hstop : r.head?.any isWordChar <;>
      simp [Cursor.atWordEnd, hstop, Match.hit, Token.text]

/-- **The first rule that matches, by offsets.** -/
theorem first_eq (memo : QuoteMemo) (a b : Text) :
    first (a ++ b) a.size memo =
      .ok ((Rule.first memo (.between a b)).1.map Match.hit,
        (Rule.first memo (.between a b)).2) := by
  rw [first, fieldPair_eq, OffsetFault.ok_bind, Rule.first]
  rcases hpair : Rule.fieldPair memo (.between a b) with ⟨_ | m, memo₁⟩
  · dsimp only [Option.map_none]
    rw [if_neg (by simp), connective_eq, OffsetFault.ok_bind]
    cases hword : Rule.connective (.between a b) with
    | none =>
      dsimp only [Option.map_none]
      rw [if_neg (by simp), quotation_eq, OffsetFault.ok_bind]
      rcases hquoted : Rule.quotation memo₁ (.between a b) with ⟨_ | m, memo₂⟩
      · dsimp only [Option.map_none]
        rw [if_neg (by simp), bareField_eq]
        rfl
      · rfl
    | some m => rfl
  · rfl

/-- Behind the word at a place is what is left without it. -/
theorem onwards_word (a b : Text) :
    (a ++ b).onwards (a.size + (Cursor.between a b).word.size) =
      .ok (b.drop (Cursor.between a b).word.length) := by
  have hcut := List.prefix_iff_eq_append.1 (List.takeWhile_prefix isWordChar (l := b))
  have honwards := Text.onwards_size_size a (b.takeWhile isWordChar)
    (b.drop (b.takeWhile isWordChar).length)
  rwa [hcut] at honwards

/-- **A near miss by offsets.** -/
theorem nearMiss?_eq (a b : Text) :
    nearMiss? (a ++ b) a.size = .ok (SearchMarkup.nearMiss? (.between a b)) := by
  rw [nearMiss?, Text.onwards_size, OffsetFault.ok_bind]
  rcases b with _ | ⟨c, t⟩
  · rfl
  simp only [List.head?_cons, atWordStart_eq, wordAt_eq, onwards_word, OffsetFault.ok_bind,
    OffsetFault.pure_eq, SearchMarkup.nearMiss?, Cursor.rest_between]
  -- both ask the same questions, one of them with an answer at each end
  by_cases hc : isWordChar c = true
  · simp only [hc, Bool.not_true, Bool.false_eq_true, if_false, Bool.true_and, Bool.and_eq_true,
      ite_and, apply_ite (Except.ok (ε := OffsetFault))]
  · simp only [hc, Bool.not_false, if_true, Bool.false_and, Bool.false_eq_true, if_false,
      apply_ite (Except.ok (ε := OffsetFault))]

/-- **A missing value by offsets.** -/
theorem missingValue?_eq {a b : Text} {m : Match} (hb : b = m.token.text ++ m.rest) :
    missingValue? (a ++ b) a.size m.hit = .ok m.nearMiss? := by
  obtain ⟨x, r⟩ := m
  dsimp only at hb
  subst hb
  rw [missingValue?, Match.nearMiss?]
  match x with
  | .connective k => rfl
  | .field f (some q) => rfl
  | .quotation q => rfl
  | .plain u => rfl
  | .field f none =>
    simp only [Match.hit, Text.onwards_size_size, OffsetFault.ok_bind]
    rcases r with _ | ⟨c, r⟩
    · rfl
    by_cases hc : c = '='
    · subst hc
      rfl
    · rw [if_neg (by simpa using hc)]
      split
      · next heq =>
        obtain ⟨rfl, -⟩ := List.cons.inj heq
        exact absurd rfl hc
      · rfl

end Offsets
end SearchMarkup
