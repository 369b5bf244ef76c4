/-
# Scanning a query into tokens

The scan walks the text once. Where a rule matches, the match becomes a token and the
scan goes on after it; every other character joins the plain text around it. The
places that fell short of a rule are collected as findings, in the order met.

`Rule.rest_eq_of_first` says that a match splits the text after the cursor into the
source text of its token and the rest, and that the former is not empty; so the scan
ends.
-/

import SearchMarkup.Position
import SearchMarkup.Query.Rule
import SearchMarkup.Query.Sequence

namespace SearchMarkup

/-- The body up to the closing quote, the quote and the rest make up the text. -/
theorem eq_append_of_splitAtClosing? {escaped : Bool} {t body rest : Text} {q : Char}
    (h : splitAtClosing? escaped t = some (body, q, rest)) : t = body ++ q :: rest := by
  induction t generalizing escaped body with
  | nil => simp [splitAtClosing?] at h
  | cons c t ih =>
    rw [splitAtClosing?] at h
    split at h
    · obtain ⟨rfl, rfl, rfl⟩ : [] = body ∧ c = q ∧ t = rest := by simpa using h
      rfl
    · obtain ⟨⟨b, q', r⟩, h', heq⟩ := Option.map_eq_some_iff.1 h
      obtain ⟨rfl, rfl, rfl⟩ : c :: b = body ∧ q' = q ∧ r = rest := by simpa using heq
      rw [ih h', List.cons_append]

/-- A found quotation stands at the cursor. -/
theorem rest_eq_of_scanQuotation {memo : QuoteMemo} {c : Cursor} {q : Quotation} {rest : Text}
    (h : (scanQuotation memo c).1 = some (q, rest)) : c.rest = q.text ++ rest := by
  unfold scanQuotation at h
  split at h
  · simp at h
  · next opening t hc =>
    split at h
    · simp at h
    · split at h
      · next body closing r hs =>
        obtain ⟨rfl, rfl⟩ : ⟨opening, body, closing⟩ = q ∧ r = rest := by simpa using h
        rw [hc, eq_append_of_splitAtClosing? hs]
        simp [Quotation.text]
      · simp at h

namespace Rule

/-- A found key stands at the cursor, and its field is the one named. -/
theorem rest_eq_of_fieldKey? {c : Cursor} {f : Field} {rest : Text}
    (h : fieldKey? c = some (f, rest)) : c.rest = f.key ++ rest := by
  unfold fieldKey? at h
  split at h
  · obtain ⟨g, -, hg⟩ := List.exists_of_findSome?_eq_some h
    obtain ⟨r, hr, heq⟩ := Option.map_eq_some_iff.1 hg
    obtain ⟨rfl, rfl⟩ := Prod.mk.inj heq
    exact Text.afterLeading?_eq_some_iff.1 hr
  · simp at h

/-- A key with a value stands at the cursor. -/
theorem rest_eq_of_fieldPair {memo : QuoteMemo} {c : Cursor} {m : Match}
    (h : (fieldPair memo c).1 = some m) : c.rest = m.token.text ++ m.rest := by
  unfold fieldPair at h
  split at h
  · next f rest hk =>
    obtain ⟨⟨q, r⟩, hq, rfl⟩ := Option.map_eq_some_iff.1 h
    have := rest_eq_of_scanQuotation hq
    simp only at this
    simp [rest_eq_of_fieldKey? hk, this, Token.text]
  · simp at h

/-- A connective stands at the cursor. -/
theorem rest_eq_of_connective {c : Cursor} {m : Match} (h : connective c = some m) :
    c.rest = m.token.text ++ m.rest := by
  unfold connective at h
  split at h
  · obtain ⟨k, -, hk⟩ := List.exists_of_findSome?_eq_some h
    obtain ⟨r, hr, h⟩ := Option.bind_eq_some_iff.1 hk
    split at h
    · obtain rfl := Option.some.inj h
      exact Text.afterLeading?_eq_some_iff.1 hr
    · simp at h
  · simp at h

/-- A quotation stands at the cursor. -/
theorem rest_eq_of_quotation {memo : QuoteMemo} {c : Cursor} {m : Match}
    (h : (quotation memo c).1 = some m) : c.rest = m.token.text ++ m.rest := by
  obtain ⟨⟨q, r⟩, hq, rfl⟩ := Option.map_eq_some_iff.1 h
  exact rest_eq_of_scanQuotation hq

/-- A key without a value stands at the cursor. -/
theorem rest_eq_of_bareField {c : Cursor} {m : Match} (h : bareField c = some m) :
    c.rest = m.token.text ++ m.rest := by
  obtain ⟨⟨f, r⟩, hf, h⟩ := Option.bind_eq_some_iff.1 h
  simp only at h
  split at h
  · obtain rfl := Option.some.inj h
    exact rest_eq_of_fieldKey? hf
  · simp at h

/-- A key with a value is not empty. -/
theorem text_ne_nil_of_fieldPair {memo : QuoteMemo} {c : Cursor} {m : Match}
    (h : (fieldPair memo c).1 = some m) : m.token.text ≠ [] := by
  unfold fieldPair at h
  split at h
  · obtain ⟨⟨q, r⟩, -, rfl⟩ := Option.map_eq_some_iff.1 h
    simp [Token.text]
  · simp at h

/-- A connective is not empty. -/
theorem text_ne_nil_of_connective {c : Cursor} {m : Match} (h : connective c = some m) :
    m.token.text ≠ [] := by
  unfold connective at h
  split at h
  · obtain ⟨k, -, hk⟩ := List.exists_of_findSome?_eq_some h
    obtain ⟨r, -, h⟩ := Option.bind_eq_some_iff.1 hk
    split at h
    · obtain rfl := Option.some.inj h
      cases k <;> simp [Token.text, Connective.word]
    · simp at h
  · simp at h

/-- A quotation has its quotes at least. -/
theorem text_ne_nil_of_quotation {memo : QuoteMemo} {c : Cursor} {m : Match}
    (h : (quotation memo c).1 = some m) : m.token.text ≠ [] := by
  obtain ⟨⟨q, r⟩, -, rfl⟩ := Option.map_eq_some_iff.1 h
  simp [Token.text, Quotation.text]

/-- A key is not empty. -/
theorem text_ne_nil_of_bareField {c : Cursor} {m : Match} (h : bareField c = some m) :
    m.token.text ≠ [] := by
  obtain ⟨⟨f, r⟩, -, h⟩ := Option.bind_eq_some_iff.1 h
  simp only at h
  split at h
  · obtain rfl := Option.some.inj h
    cases f <;> simp [Token.text, Field.key]
  · simp at h

/-- **A match takes its token's text off the front.** -/
theorem rest_eq_of_first {memo memo' : QuoteMemo} {c : Cursor} {m : Match}
    (h : first memo c = (some m, memo')) :
    c.rest = m.token.text ++ m.rest ∧ m.token.text ≠ [] := by
  unfold first at h
  split at h
  · next m₁ memo₁ h₁ =>
    obtain ⟨rfl, -⟩ : m₁ = m ∧ memo₁ = memo' := by simpa using h
    have h₁ := congrArg Prod.fst h₁
    exact ⟨rest_eq_of_fieldPair h₁, text_ne_nil_of_fieldPair h₁⟩
  · split at h
    · next m₂ h₂ =>
      obtain rfl : m₂ = m := (by simpa using h : _ ∧ _).1
      exact ⟨rest_eq_of_connective h₂, text_ne_nil_of_connective h₂⟩
    · split at h
      · next m₃ memo₃ h₃ =>
        obtain ⟨rfl, -⟩ : m₃ = m ∧ memo₃ = memo' := by simpa using h
        have h₃ := congrArg Prod.fst h₃
        exact ⟨rest_eq_of_quotation h₃, text_ne_nil_of_quotation h₃⟩
      · obtain ⟨h₄, -⟩ := Prod.mk.inj h
        exact ⟨rest_eq_of_bareField h₄, text_ne_nil_of_bareField h₄⟩

/-- So less text is left after a match. -/
theorem length_rest_lt_of_first {memo memo' : QuoteMemo} {c : Cursor} {m : Match}
    (h : first memo c = (some m, memo')) : m.rest.length < c.rest.length := by
  obtain ⟨hr, hne⟩ := rest_eq_of_first h
  have := List.length_pos_iff.2 hne
  rw [hr, List.length_append]
  omega

end Rule

/-- A near miss and the stretch of text it is about. -/
abbrev Finding := Located NearMiss

/-- What a scan yields. -/
structure Scan where
  tokens : List (Located Token)
  findings : List Finding
  deriving DecidableEq, Repr

/-- Plain text that is still growing: where it began, and its characters, last one
first. -/
structure PlainRun where
  start : Position
  reversed : Text
  deriving DecidableEq, Repr

namespace PlainRun

/-- One more character of plain text, read at a position. -/
def extend (run : Option PlainRun) (here : Position) (c : Char) : PlainRun :=
  match run with
  | none => ⟨here, [c]⟩
  | some run => ⟨run.start, c :: run.reversed⟩

/-- The token for the plain text that ends at a position, if there is any. -/
def close (run : Option PlainRun) (here : Position) : List (Located Token) :=
  match run with
  | none => []
  | some run => [⟨.plain run.reversed.reverse, ⟨run.start, here⟩⟩]

end PlainRun

namespace Scan

/-- The scan of the text that follows a position, given the character before it and
the plain text that leads up to it. -/
def scanFrom (memo : QuoteMemo) (run : Option PlainRun) (here : Position)
    (before : Option Char) (rest : Text) : Scan :=
  match rest with
  | [] => ⟨PlainRun.close run here, []⟩
  | c :: t =>
    match _h : Rule.first memo ⟨before, here.offset, c :: t⟩ with
    | (some m, memo) =>
      let span : Span := ⟨here, here.advanceBy m.token.text⟩
      let later := scanFrom memo none span.stop m.token.text.getLast? m.rest
      { tokens := PlainRun.close run here ++ ⟨m.token, span⟩ :: later.tokens
        findings :=
          match m.nearMiss? with
          | none => later.findings
          | some miss => ⟨miss, span⟩ :: later.findings }
    | (none, memo) =>
      match nearMiss? ⟨before, here.offset, c :: t⟩ with
      | none => scanFrom memo (PlainRun.extend run here c) (here.advance c) c t
      | some miss =>
        let later := scanFrom memo (PlainRun.extend run here c) (here.advance c) c t
        { later with findings := ⟨miss, ⟨here, here.advanceBy miss.text⟩⟩ :: later.findings }
  termination_by rest.length
  decreasing_by
    · exact Rule.length_rest_lt_of_first _h
    · simp
    · simp

/-- The scan of a whole text. -/
def ofText (t : Text) : Scan := scanFrom {} none Position.start none t

/-- The tokens of a scan as a sequence over the text scanned. -/
def sequence (s : Scan) (t : Text) : TokenSequence := ⟨s.tokens, t.size⟩

end Scan
end SearchMarkup
