/-
# Which token fits a place

The rules look at the character before a place, at the token's own text and at what
comes after it:

| token | before | after |
| --- | --- | --- |
| connective | no word character | no word character |
| field | no word character | no word character, and no `=` with a closed quotation |
| field with a value | no word character | anything |
| quotation | anything | anything |

where a quotation is one that closes (`Quotation.IsClosed`). At most one token fits a
place (`Token.Fits.unique`), and the rules make that token (`Rule.best_eq_some_iff`), so
what they do at a place can be read off the table.
-/

import SearchMarkup.Proofs.Query.ClosingQuote
import SearchMarkup.Proofs.Query.QuoteMemo

namespace SearchMarkup

/-- A token fits between a character and a text. -/
def Token.Fits (before : Option Char) (rest : Text) : Token → Prop
  | .connective _ => before.any isWordChar = false ∧ rest.head?.any isWordChar = false
  | .field _ none => before.any isWordChar = false ∧ rest.head?.any isWordChar = false ∧
    ∀ (q : Quotation) (r : Text), rest = '=' :: (q.text ++ r) → ¬q.IsClosed
  | .field _ (some q) => before.any isWordChar = false ∧ q.IsClosed
  | .quotation q => q.IsClosed
  | .plain _ => False

/-- What has a quotation is not plain. -/
theorem Token.isPlain_of_quotation? {x : Token} {q : Quotation} (hq : x.quotation? = some q) :
    x.isPlain = false := by
  cases x with
  | plain => cases hq
  | _ => rfl

/-- What fits a rule is not plain. -/
theorem Token.Fits.isPlain {before : Option Char} {rest : Text} {x : Token}
    (h : x.Fits before rest) : x.isPlain = false := by
  cases x with
  | plain => exact h.elim
  | _ => rfl

/-- The quotation of a token that fits is closed. -/
theorem Token.Fits.isClosed {before : Option Char} {rest : Text} {x : Token} {q : Quotation}
    (h : x.Fits before rest) (hq : x.quotation? = some q) : q.IsClosed := by
  match x, hq with
  | .field f (some q), rfl => exact h.2
  | .quotation q, rfl => exact h

/-- Connectives are made of word characters. -/
theorem isWordChar_of_mem_word {k : Connective} {c : Char} (h : c ∈ k.word) :
    isWordChar c = true := by
  have hall : k.word.all isWordChar = true := by cases k <;> decide
  exact List.all_eq_true.1 hall c h

/-- So are keys. -/
theorem isWordChar_of_mem_key {f : Field} {c : Char} (h : c ∈ f.key) : isWordChar c = true := by
  have hall : f.key.all isWordChar = true := by cases f <;> decide
  exact List.all_eq_true.1 hall c h

/-- No connective is empty. -/
theorem Connective.word_ne_nil (k : Connective) : k.word ≠ [] := by
  cases k <;> exact List.cons_ne_nil _ _

/-- No key is empty. -/
theorem Field.key_ne_nil (f : Field) : f.key ≠ [] := by
  cases f <;> exact List.cons_ne_nil _ _

/-- A quote character belongs to no word. -/
theorem isWordChar_of_isQuote {c : Char} (h : isQuote c = true) : isWordChar c = false := by
  have hall : (quoteChars.all fun c => !isWordChar c) = true := by decide +kernel
  simpa using List.all_eq_true.1 hall c (List.contains_iff_mem.1 h)

/-- What begins with a word begins with a character of it. -/
theorem isWordChar_of_append_eq_cons {w r t : Text} {c : Char} (hne : w ≠ [])
    (hw : ∀ d ∈ w, isWordChar d = true) (h : w ++ r = c :: t) : isWordChar c = true := by
  cases w with
  | nil => exact absurd rfl hne
  | cons d w =>
    obtain ⟨rfl, -⟩ := List.cons.inj h
    exact hw d (List.mem_cons_self ..)

/-- The sign between a key and its value is no quote character. -/
theorem ne_equals_of_isQuote {c : Char} (h : isQuote c = true) : c ≠ '=' := by
  rintro rfl
  exact absurd h (by decide)

variable {c : Cursor} {m : Match} {q q' : Quotation} {f : Field} {k : Connective} {r r' : Text}

/-- A quotation and what follows it begin with its quote. -/
theorem Quotation.text_append (q : Quotation) (r : Text) :
    q.text ++ r = q.opening :: (q.body ++ q.closing :: r) := by
  simp [Quotation.text]

/-- A closed quotation is found to its end. -/
theorem Quotation.IsClosed.splitAtClosing?_eq (h : q.IsClosed) (r : Text) :
    splitAtClosing? false (q.body ++ q.closing :: r) = some (q.body, q.closing, r) :=
  splitAtClosing?_eq_some_iff.2 ⟨rfl, h.closing, h.body⟩

/-- A closed quotation is known by where it opens. -/
theorem Quotation.IsClosed.unique (h : q.IsClosed) (h' : q'.IsClosed)
    (heq : q.text ++ r = q'.text ++ r') : q = q' ∧ r = r' := by
  rw [q.text_append, q'.text_append] at heq
  obtain ⟨hopening, hrest⟩ := List.cons.inj heq
  have hs := h.splitAtClosing?_eq r
  rw [hrest, h'.splitAtClosing?_eq r'] at hs
  obtain ⟨hbody, hclosing, hr⟩ : q'.body = q.body ∧ q'.closing = q.closing ∧ r' = r := by
    simpa using hs
  refine ⟨?_, hr.symm⟩
  cases q
  cases q'
  simp_all

/-- **A quotation is found where a closed one stands.** -/
theorem fst_scanQuotation_eq_some_iff :
    (scanQuotation {} c).1 = some (q, r) ↔ c.rest = q.text ++ r ∧ q.IsClosed := by
  have hfresh : ({} : QuoteMemo).knowsOpen c.offset = false := rfl
  constructor
  · intro h
    refine ⟨rest_eq_of_scanQuotation h, ?_⟩
    unfold scanQuotation at h
    split at h
    · cases h
    · next o t ht =>
      split at h
      · cases h
      · next ho =>
        split at h
        · next body closing rest hs =>
          obtain ⟨rfl, rfl⟩ : ⟨o, body, closing⟩ = q ∧ rest = r := by simpa using h
          obtain ⟨-, hclosing, hbody⟩ := splitAtClosing?_eq_some_iff.1 hs
          exact ⟨by simpa [hfresh] using ho, hbody, hclosing⟩
        · cases h
  · rintro ⟨hrest, hq⟩
    rw [q.text_append] at hrest
    simp [scanQuotation, hrest, hq.opening, hfresh, hq.splitAtClosing?_eq r]

namespace Rule

/-- A key is found where one stands, and no word runs into it. -/
theorem fieldKey?_eq_some_iff :
    fieldKey? c = some (f, r) ↔ c.before.any isWordChar = false ∧ c.rest = f.key ++ r := by
  constructor
  · intro h
    refine ⟨?_, rest_eq_of_fieldKey? h⟩
    unfold fieldKey? at h
    split at h
    · next hstart => simpa [Cursor.atWordStart] using hstart
    · cases h
  · rintro ⟨hbefore, hrest⟩
    rw [fieldKey?, if_pos (by simp [Cursor.atWordStart, hbefore]), hrest]
    cases f <;> simp [Field.all, Field.key, Text.afterLeading?]

/-- The rule for a key with a value finds those that fit. -/
theorem fieldPair_eq_some_iff :
    (fieldPair {} c).1 = some m ↔ ∃ f q, m.token = .field f (some q) ∧
      c.rest = m.token.text ++ m.rest ∧ m.token.Fits c.before m.rest := by
  constructor
  · intro h
    have hrest := rest_eq_of_fieldPair h
    unfold fieldPair at h
    split at h
    · next f rest hk =>
      obtain ⟨⟨q, r⟩, hq, rfl⟩ := Option.map_eq_some_iff.1 h
      exact ⟨f, q, rfl, hrest, (fieldKey?_eq_some_iff.1 hk).1,
        (fst_scanQuotation_eq_some_iff.1 hq).2⟩
    · cases h
  · obtain ⟨x, r⟩ := m
    rintro ⟨f, q, rfl, hrest, hbefore, hq⟩
    have hk : fieldKey? c = some (f, '=' :: (q.text ++ r)) :=
      fieldKey?_eq_some_iff.2 ⟨hbefore, by simpa [Token.text] using hrest⟩
    have hs : (scanQuotation {} ⟨some '=', c.offset + f.key.size + 1, q.text ++ r⟩).1 =
        some (q, r) := fst_scanQuotation_eq_some_iff.2 ⟨rfl, hq⟩
    simp [fieldPair, hk, hs]

/-- The rule for connectives finds those that fit. -/
theorem connective_eq_some_iff :
    connective c = some m ↔ ∃ k, m.token = .connective k ∧
      c.rest = m.token.text ++ m.rest ∧ m.token.Fits c.before m.rest := by
  constructor
  · intro h
    have hrest := rest_eq_of_connective h
    unfold connective at h
    split at h
    · next hstart =>
      obtain ⟨k, -, hk⟩ := List.exists_of_findSome?_eq_some h
      obtain ⟨r, -, h⟩ := Option.bind_eq_some_iff.1 hk
      split at h
      · next hend =>
        obtain rfl := Option.some.inj h
        exact ⟨k, rfl, hrest, by simpa [Cursor.atWordStart] using hstart,
          by simpa [Cursor.atWordEnd] using hend⟩
      · cases h
    · cases h
  · obtain ⟨x, r⟩ := m
    rintro ⟨k, rfl, hrest, hbefore, hafter⟩
    rw [connective, if_pos (by simp [Cursor.atWordStart, hbefore]), hrest]
    cases k <;> simp [Connective.all, Token.text, Connective.word, Text.afterLeading?,
      Cursor.atWordEnd, hafter]

/-- The rule for quotations finds those that fit. -/
theorem quotation_eq_some_iff :
    (quotation {} c).1 = some m ↔ ∃ q, m.token = .quotation q ∧
      c.rest = m.token.text ++ m.rest ∧ m.token.Fits c.before m.rest := by
  constructor
  · intro h
    obtain ⟨⟨q, r⟩, hs, rfl⟩ := Option.map_eq_some_iff.1 h
    obtain ⟨hrest, hq⟩ := fst_scanQuotation_eq_some_iff.1 hs
    exact ⟨q, rfl, hrest, hq⟩
  · obtain ⟨x, r⟩ := m
    rintro ⟨q, rfl, hrest, hq⟩
    exact Option.map_eq_some_iff.2 ⟨(q, r), fst_scanQuotation_eq_some_iff.2 ⟨hrest, hq⟩, rfl⟩

/-- The rule for a key alone finds one that stands as a word. -/
theorem bareField_eq_some_iff :
    bareField c = some m ↔ ∃ f, m.token = .field f none ∧ c.rest = m.token.text ++ m.rest ∧
      c.before.any isWordChar = false ∧ m.rest.head?.any isWordChar = false := by
  constructor
  · intro h
    have hrest := rest_eq_of_bareField h
    obtain ⟨⟨f, r⟩, hk, h⟩ := Option.bind_eq_some_iff.1 h
    dsimp only at h
    split at h
    · next hend =>
      obtain rfl := Option.some.inj h
      exact ⟨f, rfl, hrest, (fieldKey?_eq_some_iff.1 hk).1,
        by simpa [Cursor.atWordEnd] using hend⟩
    · cases h
  · obtain ⟨x, r⟩ := m
    rintro ⟨f, rfl, hrest, hbefore, hafter⟩
    have hk : fieldKey? c = some (f, r) := fieldKey?_eq_some_iff.2 ⟨hbefore, hrest⟩
    dsimp only at hafter
    simp [bareField, hk, Cursor.atWordEnd, hafter]

end Rule

/-! ## At most one token fits -/

/-- At one place there is one key. -/
theorem Field.key_append_inj {f f' : Field} (h : f.key ++ r = f'.key ++ r') :
    f = f' ∧ r = r' := by
  cases f <;> cases f' <;> simp [Field.key] at h ⊢ <;> exact h

/-- At one place there is one connective. -/
theorem Connective.word_append_inj {k k' : Connective} (h : k.word ++ r = k'.word ++ r') :
    k = k' ∧ r = r' := by
  cases k <;> cases k' <;> simp [Connective.word] at h ⊢ <;> exact h

/-- No connective stands where a key does. -/
theorem Connective.word_append_ne_key_append : k.word ++ r ≠ f.key ++ r' := by
  cases k <;> cases f <;> simp [Connective.word, Field.key]

/-- No word begins where a quotation opens. -/
theorem Quotation.IsClosed.text_append_ne {w : Text} (h : q.IsClosed) (hne : w ≠ [])
    (hw : ∀ c ∈ w, isWordChar c = true) : q.text ++ r ≠ w ++ r' := by
  rw [q.text_append]
  intro heq
  have hword := isWordChar_of_append_eq_cons hne hw heq.symm
  rw [isWordChar_of_isQuote h.opening] at hword
  cases hword

/-- No quotation stands where a key does. -/
theorem Quotation.IsClosed.text_append_ne_key (h : q.IsClosed) : q.text ++ r ≠ f.key ++ r' :=
  h.text_append_ne f.key_ne_nil fun _ => isWordChar_of_mem_key

/-- No quotation stands where a connective does. -/
theorem Quotation.IsClosed.text_append_ne_word (h : q.IsClosed) : q.text ++ r ≠ k.word ++ r' :=
  h.text_append_ne k.word_ne_nil fun _ => isWordChar_of_mem_word

/-- What a field token has after its key. -/
def Token.valueText : Option Quotation → Text
  | none => []
  | some q => '=' :: q.text

/-- A field is its key and the text of its value. -/
theorem Token.text_field (f : Field) (v : Option Quotation) :
    (Token.field f v).text = f.key ++ valueText v := by
  cases v with
  | none => exact (List.append_nil _).symm
  | some q => rfl

/-- At most one field token fits. -/
theorem Token.Fits.unique_field {before : Option Char} {f' : Field} {v v' : Option Quotation}
    (h : (Token.field f v).Fits before r) (h' : (Token.field f' v').Fits before r')
    (heq : f.key ++ (valueText v ++ r) = f'.key ++ (valueText v' ++ r')) :
    Token.field f v = .field f' v' ∧ r = r' := by
  obtain ⟨rfl, hvalue⟩ := Field.key_append_inj heq
  match v, v', h, h', hvalue with
  | none, none, _, _, hvalue => exact ⟨rfl, hvalue⟩
  | none, some q, h, h', hvalue => exact absurd h'.2 (h.2.2 q r' hvalue)
  | some q, none, h, h', hvalue => exact absurd h.2 (h'.2.2 q r hvalue.symm)
  | some q, some q', h, h', hvalue =>
    obtain ⟨rfl, rfl⟩ := h.2.unique h'.2 (List.cons.inj hvalue).2
    exact ⟨rfl, rfl⟩

/-- **At most one token fits a place.** -/
theorem Token.Fits.unique {before : Option Char} {x x' : Token} (h : x.Fits before r)
    (h' : x'.Fits before r') (heq : x.text ++ r = x'.text ++ r') : x = x' ∧ r = r' := by
  match x, x', h, h', heq with
  | .connective k, .connective k', _, _, heq =>
    obtain ⟨rfl, rfl⟩ := Connective.word_append_inj heq
    exact ⟨rfl, rfl⟩
  | .connective k, .field f v, _, _, heq =>
    rw [text_field, List.append_assoc] at heq
    exact absurd heq Connective.word_append_ne_key_append
  | .connective k, .quotation q, _, h', heq => exact absurd heq.symm h'.text_append_ne_word
  | .field f v, .connective k, _, _, heq =>
    rw [text_field, List.append_assoc] at heq
    exact absurd heq.symm Connective.word_append_ne_key_append
  | .field f v, .field f' v', h, h', heq =>
    rw [text_field, text_field, List.append_assoc, List.append_assoc] at heq
    exact h.unique_field h' heq
  | .field f v, .quotation q, _, h', heq =>
    rw [text_field, List.append_assoc] at heq
    exact absurd heq.symm h'.text_append_ne_key
  | .quotation q, .connective k, h, _, heq => exact absurd heq h.text_append_ne_word
  | .quotation q, .field f v, h, _, heq =>
    rw [text_field, List.append_assoc] at heq
    exact absurd heq h.text_append_ne_key
  | .quotation q, .quotation q', h, h', heq =>
    obtain ⟨rfl, rfl⟩ := Quotation.IsClosed.unique h h' heq
    exact ⟨rfl, rfl⟩

namespace Rule

/-- The rules are tried in this order. -/
theorem best_eq_or : best c = (fieldPair {} c).1.or
    ((connective c).or ((quotation {} c).1.or (bareField c))) := by
  rw [best, candidates]
  cases (fieldPair {} c).1 <;> cases connective c <;> cases (quotation {} c).1 <;>
    cases bareField c <;> rfl

/-- A match fits where it is found. -/
theorem fits_of_best (h : best c = some m) :
    c.rest = m.token.text ++ m.rest ∧ m.token.Fits c.before m.rest := by
  rw [best_eq_or] at h
  rcases Option.or_eq_some_iff.1 h with h | ⟨hpair, h⟩
  · obtain ⟨-, -, -, hm⟩ := fieldPair_eq_some_iff.1 h
    exact hm
  rcases Option.or_eq_some_iff.1 h with h | ⟨-, h⟩
  · obtain ⟨-, -, hm⟩ := connective_eq_some_iff.1 h
    exact hm
  rcases Option.or_eq_some_iff.1 h with h | ⟨-, h⟩
  · obtain ⟨-, -, hm⟩ := quotation_eq_some_iff.1 h
    exact hm
  obtain ⟨x, r⟩ := m
  obtain ⟨f, rfl, hrest, hbefore, hafter⟩ := bareField_eq_some_iff.1 h
  refine ⟨hrest, hbefore, hafter, fun q s hs hq => ?_⟩
  -- a field with a value would have come first
  dsimp only at hs
  have hvalue : (fieldPair {} c).1 = some ⟨.field f (some q), s⟩ :=
    fieldPair_eq_some_iff.2 ⟨f, q, rfl, by simpa [Token.text, hs] using hrest, hbefore, hq⟩
  rw [hpair] at hvalue
  cases hvalue

/-- A token that fits is one of the candidates. -/
theorem mem_candidates_of_fits {x : Token} (hrest : c.rest = x.text ++ r)
    (h : x.Fits c.before r) : some ⟨x, r⟩ ∈ candidates c := by
  rw [candidates]
  cases x with
  | connective k =>
    have hm : connective c = some ⟨.connective k, r⟩ :=
      connective_eq_some_iff.2 ⟨k, rfl, hrest, h⟩
    simp [hm]
  | field f v =>
    cases v with
    | none =>
      have hm : bareField c = some ⟨.field f none, r⟩ :=
        bareField_eq_some_iff.2 ⟨f, rfl, hrest, h.1, h.2.1⟩
      simp [hm]
    | some q =>
      have hm : (fieldPair {} c).1 = some ⟨.field f (some q), r⟩ :=
        fieldPair_eq_some_iff.2 ⟨f, q, rfl, hrest, h⟩
      simp [hm]
  | quotation q =>
    have hm : (quotation {} c).1 = some ⟨.quotation q, r⟩ :=
      quotation_eq_some_iff.2 ⟨q, rfl, hrest, h⟩
    simp [hm]
  | plain => exact h.elim

/-- **The rules make the token that fits.** -/
theorem best_eq_some_iff :
    best c = some m ↔ c.rest = m.token.text ++ m.rest ∧ m.token.Fits c.before m.rest := by
  refine ⟨fits_of_best, fun ⟨hrest, hfits⟩ => ?_⟩
  cases hbest : best c with
  | none => exact absurd (best_eq_none_iff.1 hbest _ (mem_candidates_of_fits hrest hfits)) nofun
  | some m' =>
    obtain ⟨hrest', hfits'⟩ := fits_of_best hbest
    obtain ⟨htoken, hr⟩ := hfits'.unique hfits (hrest'.symm.trans hrest)
    cases m
    cases m'
    simp_all

/-- No rule matches where no token fits. -/
theorem best_eq_none_iff_fits :
    best c = none ↔ ∀ (x : Token) r, c.rest = x.text ++ r → ¬x.Fits c.before r := by
  rw [Option.eq_none_iff_forall_ne_some]
  constructor
  · exact fun h x r hrest hfits => h ⟨x, r⟩ (best_eq_some_iff.2 ⟨hrest, hfits⟩)
  · exact fun h m hm => h m.token m.rest (best_eq_some_iff.1 hm).1 (best_eq_some_iff.1 hm).2

end Rule
end SearchMarkup
