/-
# Queries compose at a separator

A separator is a character of no word that is neither a quote character nor `=`. Text
that begins with one can be added to a query without a change to what the query was
classified as, unless a quote character was passed in it: no word goes on, no key gets a
value and no quotation opens across the border. So the steps of the whole are those of
the parts (`trace_append_of_separator`), and its tokens are those of the parts, with
plain text on both sides of the border joined (`Lexer.tokenize_append`).
-/

import Mathlib
import SearchMarkup.Proofs.Query.Seam

namespace SearchMarkup

/-- Tokens with the bytes they stand at, the first of them at byte `n`. -/
def Token.placed (n : Nat) : List Token → List (Token × Nat × Nat)
  | [] => []
  | x :: xs => (x, n, n + x.text.size) :: placed (n + x.text.size) xs

namespace TokenSequence

/-- A token with its bytes, in a text that stands `n` bytes further on. -/
def shift (n : Nat) (x : Token × Nat × Nat) : Token × Nat × Nat := (x.1, n + x.2.1, n + x.2.2)

/-- Tokens with their bytes, and after them others; plain text that ends the first and
plain text that begins the others is one token. -/
def glue (l l' : List (Token × Nat × Nat)) : List (Token × Nat × Nat) :=
  match l.getLast?, l' with
  | some (.plain u, i, _), (.plain v, _, k) :: rest => l.dropLast ++ (.plain (u ++ v), i, k) :: rest
  | _, _ => l ++ l'

/-- What is glued touches the last token only. -/
theorem glue_cons {l : List (Token × Nat × Nat)} (hl : l ≠ []) (x : Token × Nat × Nat)
    (l' : List (Token × Nat × Nat)) : glue (x :: l) l' = x :: glue l l' := by
  obtain ⟨y, l, rfl⟩ := List.exists_cons_of_ne_nil hl
  unfold glue
  rw [List.getLast?_cons_cons, List.dropLast_cons_of_ne_nil (List.cons_ne_nil y l)]
  split <;> rfl

/-- Tokens moved are placed further on. -/
theorem map_shift_placed (n m : Nat) (xs : List Token) :
    (Token.placed m xs).map (shift n) = Token.placed (n + m) xs := by
  induction xs generalizing m with
  | nil => rfl
  | cons x xs ih =>
    rw [Token.placed, List.map_cons, ih, Token.placed, shift, Nat.add_assoc]

/-- Glued to others, one token is joined with the first of them. -/
theorem glue_singleton (n : Nat) (x : Token) (ys : List Token) :
    glue [(x, n, n + x.text.size)] (Token.placed (n + x.text.size) ys) =
      Token.placed n (x.join ys) := by
  match x, ys with
  | .plain u, .plain v :: ys =>
    simp [glue, Token.placed, Token.join, Token.text, Nat.add_assoc]
  | .plain _, [] => rfl
  | .plain _, .connective _ :: _ => rfl
  | .plain _, .field _ _ :: _ => rfl
  | .plain _, .quotation _ :: _ => rfl
  | .connective _, _ => rfl
  | .field _ _, _ => rfl
  | .quotation _, _ => rfl

/-- Of tokens no two of which are plain neighbours, only the last is joined to what
follows. -/
theorem placed_foldr_join {xs : List Token}
    (hsep : xs.IsChain fun x y => ¬(x.isPlain = true ∧ y.isPlain = true)) (n : Nat)
    (ys : List Token) : Token.placed n (xs.foldr Token.join ys) =
      glue (Token.placed n xs) (Token.placed (n + Text.size (xs.flatMap Token.text)) ys) := by
  induction xs generalizing n with
  | nil => rfl
  | cons x xs ih =>
    cases xs with
    | nil => simpa [Token.placed] using (glue_singleton n x ys).symm
    | cons y xs =>
      obtain ⟨hxy, hxs⟩ := List.isChain_cons_cons.1 hsep
      have hx : x.join ((y :: xs).foldr Token.join ys) = x :: (y :: xs).foldr Token.join ys := by
        by_cases hplain : x.isPlain = true
        · have hy : y.isPlain = false := by simpa [hplain] using hxy
          rw [List.foldr_cons, Token.join_of_not_plain hy, Token.join_cons_of_not_plain hy]
        · exact Token.join_of_not_plain (by simpa using hplain) _
      have hne : Token.placed (n + x.text.size) (y :: xs) ≠ [] := List.cons_ne_nil _ _
      have hsize : n + Text.size ((x :: y :: xs).flatMap Token.text) =
          n + x.text.size + Text.size ((y :: xs).flatMap Token.text) := by
        rw [List.flatMap_cons, Text.size_append, Nat.add_assoc]
      rw [List.foldr_cons, hx, Token.placed, ih hxs, hsize, ← glue_cons hne, ← Token.placed]

end TokenSequence

/-- The bytes of a tiling are known from the values of its tokens. -/
theorem Tiles.map_bytes {a t : Text} {l : List (Located Token)} (h : Tiles a t l) :
    l.map Located.bytes = Token.placed a.size (l.map Located.value) := by
  induction l generalizing a t with
  | nil => rfl
  | cons x xs ih =>
    obtain ⟨hx, rest, rfl, hxs⟩ := h
    rw [List.map_cons, ih hxs, List.map_cons, Token.placed, Located.bytes, hx, Text.size_append]
    simp [Span.after]

/-! ## The border -/

/-- Text that may follow a query without a change to it. -/
def Text.Separated (t : Text) : Prop :=
  ∀ c ∈ t.head?, isWordChar c = false ∧ isQuote c = false ∧ c ≠ '='

/-- No token begins with a separator. -/
theorem Token.not_fits_of_separator {c : Char} {t : Text} (hw : isWordChar c = false)
    (hq : isQuote c = false) (before : Option Char) (x : Token) (r : Text)
    (h : c :: t = x.text ++ r) : ¬x.Fits before r := by
  intro hx
  obtain ⟨q, -, hclosed, rfl⟩ := hx.exists_quotation h.symm hw
  rw [hclosed.opening] at hq
  cases hq

/-- What a separated text is read as does not depend on what precedes it. -/
theorem trace_of_separated {b : Text} (hb : b.Separated) (before : Option Char) :
    trace before b = trace none b := by
  cases b with
  | nil => rw [trace_eq_nil_iff.2 rfl, trace_eq_nil_iff.2 rfl]
  | cons c t =>
    obtain ⟨hw, hq, -⟩ := hb c rfl
    have hbest (before : Option Char) : Rule.best (.facing before (c :: t)) = none :=
      Rule.best_eq_none_iff_fits.2 (Token.not_fits_of_separator hw hq before)
    have hmiss (before : Option Char) : nearMiss? (.facing before (c :: t)) = none := by
      simp [nearMiss?, Cursor.facing, hw, hq]
    rw [trace_of_best_eq_none (hbest before), trace_of_best_eq_none (hbest none), hmiss, hmiss]

/-- A separated text may stand after any text where nothing stood. -/
theorem Seam.of_separated {a b : Text} (hb : b.Separated) : Seam a [] b where
  word _ := ⟨rfl, by
    cases b with
    | nil => rfl
    | cons c t => exact (hb c rfl).1⟩
  equals := ⟨nofun, fun h => (hb '=' h).2.2 rfl⟩
  quote h := by
    cases b with
    | nil => cases h
    | cons c t =>
      have hc : isQuote c = true := h
      rw [(hb c rfl).2.1] at hc
      cases hc

/-- **Steps compose at a separator.** -/
theorem trace_append_of_separated {a b : Text} (ha : Step.Unquoted (trace none a))
    (hb : b.Separated) : trace none (a ++ b) = trace none a ++ trace none b := by
  have htexts := texts_trace none a
  have h : trace none (Step.texts (trace none a) ++ []) = trace none a ++ [] := by
    rw [htexts, List.append_nil, List.append_nil]
  have htrace := trace_append_of_seam h (Seam.of_separated hb) ha
  rw [htexts, trace_of_separated hb] at htrace
  exact htrace

/-- Plain text without a quote character comes from steps that pass none. -/
theorem Step.unquoted_of_values {t : Text}
    (h : ∀ u, .plain u ∈ (Scan.ofText t).tokens.map Located.value → ∀ c ∈ u, isQuote c = false) :
    Step.Unquoted (trace none t) := by
  intro s hs u hu c hc
  rw [Scan.values_ofText] at h
  have hmem : .plain u ∈ (trace none t).map Step.token := hu ▸ List.mem_map_of_mem hs
  obtain ⟨v, hv, hcv⟩ := Token.exists_plain_of_mem hmem hc
  exact h v hv c hcv

/-- Where steps compose, so do the tokens made of them. -/
theorem Scan.map_bytes_ofText_append {a b : Text}
    (h : trace none (a ++ b) = trace none a ++ trace none b) :
    (ofText (a ++ b)).tokens.map Located.bytes =
      TokenSequence.glue ((ofText a).tokens.map Located.bytes)
        (((ofText b).tokens.map Located.bytes).map (TokenSequence.shift a.size)) := by
  have hvalues : (ofText (a ++ b)).tokens.map Located.value =
      ((ofText a).tokens.map Located.value).foldr Token.join
        ((ofText b).tokens.map Located.value) := by
    rw [values_ofText, values_ofText, values_ofText, h, List.map_append, Token.joined_append]
  have hsep : ((ofText a).tokens.map Located.value).IsChain
      fun x y => ¬(x.isPlain = true ∧ y.isPlain = true) :=
    (List.isChain_map Located.value).2 (classified_ofText a).separated
  rw [(tiles_ofText _).map_bytes, hvalues, TokenSequence.placed_foldr_join hsep,
    flatMap_text_ofText, (tiles_ofText a).map_bytes, (tiles_ofText b).map_bytes,
    TokenSequence.map_shift_placed, Nat.add_comm a.size]

/-- **Queries compose at a separator,** token by token and near miss by near miss. -/
theorem Lexer.tokenize_append (x : Lexer) (a b : Text)
    (ha : ∀ u, .plain u ∈ (x.tokenize a).value.1.values → ∀ c ∈ u, isQuote c = false)
    (hb : b.Separated) :
    (x.tokenize (a ++ b)).value.1.tokens.map Located.bytes =
        TokenSequence.glue ((x.tokenize a).value.1.tokens.map Located.bytes)
          (((x.tokenize b).value.1.tokens.map Located.bytes).map (TokenSequence.shift a.size)) ∧
      (x.reset.tokenize (a ++ b)).value.2.metrics.degraded =
        (x.reset.tokenize a).value.2.metrics.degraded +
          (x.reset.tokenize b).value.2.metrics.degraded := by
  have htrace := trace_append_of_separated (Step.unquoted_of_values ha) hb
  refine ⟨Scan.map_bytes_ofText_append htrace, ?_⟩
  rw [degraded_tokenize, degraded_tokenize, degraded_tokenize, htrace, List.filterMap_append,
    List.length_append]

/-- `TI=x` and ` or y` have a plain text on each side of the border, and a near miss each. -/
theorem Lexer.tokenize_append_missing_value :
    let x : Lexer := ⟨⟨true, true, true⟩, {}⟩
    let a : Text := ['T', 'I', '=', 'x']
    let b : Text := [' ', 'o', 'r', ' ', 'y']
    (x.tokenize a).value.1.values = [.field .title none, .plain ['=', 'x']] ∧ b.Separated ∧
      (x.tokenize (a ++ b)).value.1.tokens.map Located.bytes =
        [(.field .title none, 0, 2), (.plain ['=', 'x', ' ', 'o', 'r', ' ', 'y'], 2, 9)] ∧
      (x.reset.tokenize (a ++ b)).value.2.metrics.degraded = 2 := by
  intro x a b
  have hvalues : (x.tokenize a).value.1.values = [.field .title none, .plain ['=', 'x']] := by cbv
  have ha : ∀ u, .plain u ∈ (x.tokenize a).value.1.values → ∀ c ∈ u, isQuote c = false := by
    rw [hvalues]
    intro u hu
    obtain rfl : u = ['=', 'x'] := by simpa using hu
    have hall : (['=', 'x'].all fun c => !isQuote c) = true := by decide
    exact fun c hc => by simpa using List.all_eq_true.1 hall c hc
  have hb : b.Separated := by
    rintro c hc
    obtain rfl : ' ' = c := by simpa [b] using hc
    decide
  obtain ⟨hbytes, hdegraded⟩ := tokenize_append x a b ha hb
  exact ⟨hvalues, hb, hbytes.trans (by cbv), hdegraded.trans (by cbv)⟩

end SearchMarkup
