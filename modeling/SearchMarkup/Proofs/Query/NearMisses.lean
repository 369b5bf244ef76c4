/-
# The near misses of a query are known from its tokens

A scan notices near misses while it walks the text. All of them can be found again in the
tokens it yields:

| near miss | in the tokens |
| --- | --- |
| an open quote | a quote character in plain text |
| a miscased connective | a word in plain text that is a connective, letter case aside |
| an unknown key | a word of two to four capitals in plain text, with `=` after it |
| a missing value | a key without a value, and after it plain text that begins with `=` |

For what a scan passes as plain text, it looks at the word there and at one character more.
Both are in the same plain text: it ends neither inside a word nor before a `=`
(`exists_border`). And a word in plain text is no connective as it stands and no key, or a
rule would have matched; so the table need not exclude them (`nearMiss?_eq_of_not_fits`).
-/

import SearchMarkup.Proofs.Query.Seam
import SearchMarkup.Proofs.Query.Words

namespace SearchMarkup

/-- Whether a word is a connective, letter case aside. -/
def Connective.isInAnyCase (w : Text) : Bool := all.any fun k => k.word == w.map Char.toUpper

namespace Token

/-- The text of a token that is plain. -/
def plainText : Token → Text
  | .plain u => u
  | _ => []

/-- Whether a key has no value, and plain text that begins with `=` comes after it. -/
def lacksValue : Token × Token → Bool
  | (.field _ none, .plain ('=' :: _)) => true
  | _ => false

/-- The near miss that two tokens in a row show. -/
def valueMiss? : Token × Token → Option NearMiss
  | (.field f none, .plain ('=' :: _)) => some (.missingValue f)
  | _ => none

/-- The near misses that tokens and their neighbours show. -/
def valueMisses (xs : List Token) : List NearMiss := (xs.zip xs.tail).filterMap valueMiss?

/-- The plain text that tokens begin with. -/
def leadingPlain : List Token → Text
  | [] => []
  | x :: _ => x.plainText

/-- The words in the plain text of tokens, given the character before the first token. -/
def wordsAfter (before : Option Char) : List Token → List (Text × Text)
  | [] => []
  | x :: xs => Text.wordsAfter before x.plainText ++ xs.flatMap fun y => y.plainText.words

end Token

/-- The near misses that a word in plain text shows. -/
def wordMisses (x : Text × Text) : List NearMiss :=
  (if Connective.isInAnyCase x.1 then [.miscased x.1] else []) ++
    if looksLikeKey x.1 && x.2.head? == some '=' then [.unknownKey x.1] else []

/-- The near misses that tokens show, given the character before the first of them. -/
def tokenMisses (before : Option Char) (xs : List Token) : List NearMiss :=
  ((xs.flatMap Token.plainText).filter isQuote).map .openQuote ++
    ((Token.wordsAfter before xs).flatMap wordMisses ++ Token.valueMisses xs)

variable {before : Option Char} {c : Char} {t v w z r : Text} {x : Token} {xs : List Token}

/-! ## A near miss at one place -/

/-- A near miss in plain text is about a quote character or a word. -/
theorem nearMiss?_eq_bind (hc : isQuote c = false) :
    nearMiss? (.facing before (c :: t)) = (Text.wordAt? before (c :: t)).bind fun (w, b) =>
      if Connective.isMiscased w then some (.miscased w)
      else if looksLikeKey w && (Field.ofKey? w).isNone && b.head? == some '=' then
        some (.unknownKey w)
      else none := by
  have hdrop : (c :: t).drop ((c :: t).takeWhile isWordChar).length =
      (c :: t).dropWhile isWordChar := by
    have h : ((c :: t).takeWhile isWordChar ++ (c :: t).dropWhile isWordChar).drop
        ((c :: t).takeWhile isWordChar).length = (c :: t).dropWhile isWordChar := List.drop_left
    rwa [List.takeWhile_append_dropWhile] at h
  simp only [nearMiss?, Cursor.facing, Cursor.word, Cursor.atWordStart, hc, hdrop, Text.wordAt?,
    List.head?_cons, Option.any_some]
  by_cases hword : (isWordChar c && !before.any isWordChar) = true
  · simp only [hword, if_true, Option.bind_some]
    rfl
  · simp only [hword]
    rfl

/-- A key in capitals is a connective in no other letter case. -/
theorem ofWord?_isSome_of_looksLikeKey (hkey : looksLikeKey w = true)
    (hcase : Connective.isInAnyCase w = true) : (Connective.ofWord? w).isSome = true := by
  have hall : w.all Char.isUpper = true := (Bool.and_eq_true_iff.1 hkey).2
  have hupper : w.map Char.toUpper = w := by
    refine (List.map_congr_left fun d hd => ?_).trans (List.map_id w)
    have hd : d.isUpper = true := List.all_eq_true.1 hall d hd
    obtain ⟨-, hle⟩ : 'A'.val ≤ d.val ∧ d.val ≤ 'Z'.val := of_decide_eq_true hd
    have hnot : ¬('a'.val ≤ d.val ∧ d.val ≤ 'z'.val) := fun h =>
      absurd (UInt32.le_trans h.1 hle) (by decide)
    exact dif_neg hnot
  rw [Connective.isInAnyCase, hupper] at hcase
  rwa [Connective.ofWord?, List.find?_isSome, ← List.any_eq_true]

/-- Where no token fits, the word there is no connective. -/
theorem Connective.ofWord?_eq_none_of_not_fits (hstart : before.any isWordChar = false)
    (hstop : t.head?.any isWordChar = false)
    (h : ∀ (x : Token) r, w ++ t = x.text ++ r → ¬x.Fits before r) : ofWord? w = none := by
  refine Option.eq_none_iff_forall_ne_some.2 fun k hk => ?_
  obtain rfl := ofWord?_eq_some_iff.1 hk
  exact h (.connective k) t rfl ⟨hstart, hstop⟩

/-- Where no token fits, the word there is no key. -/
theorem Field.ofKey?_eq_none_of_not_fits (hstart : before.any isWordChar = false)
    (hstop : t.head?.any isWordChar = false)
    (h : ∀ (x : Token) r, w ++ t = x.text ++ r → ¬x.Fits before r) : ofKey? w = none := by
  refine Option.eq_none_iff_forall_ne_some.2 fun f hf => ?_
  obtain rfl := ofKey?_eq_some_iff.1 hf
  obtain ⟨x, r, hxr, hfits⟩ := exists_fits_of_key hstart hstop
  exact h x r hxr hfits

/-- Of a word that is neither a connective nor a key, a scan notices all that the word shows. -/
theorem wordMisses_eq (hconnective : Connective.ofWord? w = none) (hkey : Field.ofKey? w = none)
    (t : Text) : wordMisses (w, t) =
      (if Connective.isMiscased w then some (.miscased w)
      else if looksLikeKey w && (Field.ofKey? w).isNone && t.head? == some '=' then
        some (.unknownKey w)
      else none : Option NearMiss).toList := by
  have hmiscased : Connective.isMiscased w = Connective.isInAnyCase w := by
    rw [Connective.isMiscased, hconnective]
    rfl
  rw [hmiscased, hkey]
  by_cases hcase : Connective.isInAnyCase w = true
  · have hlooks : looksLikeKey w = false := by
      by_contra hlooks
      have hsome := ofWord?_isSome_of_looksLikeKey (by simpa using hlooks) hcase
      rw [hconnective] at hsome
      cases hsome
    simp [wordMisses, hcase, hlooks]
  · by_cases hlooks : (looksLikeKey w && t.head? == some '=') = true
    · simp [wordMisses, hcase, hlooks]
    · simp [wordMisses, hcase, hlooks]

/-- **Where no rule matches, the near misses are those of the quote character or the word
there.**  What comes after the plain text `c :: v` does not matter. -/
theorem nearMiss?_eq_of_not_fits (hs : Seam (c :: v) z [])
    (h : ∀ (x : Token) r, c :: (v ++ z) = x.text ++ r → ¬x.Fits before r) :
    (nearMiss? (.facing before (c :: (v ++ z)))).toList =
      (if isQuote c then [.openQuote c] else []) ++
        (Text.wordAt? before (c :: v)).toList.flatMap wordMisses := by
  have hsame : nearMiss? (.facing before (c :: (v ++ z))) =
      nearMiss? (.facing before (c :: v)) := by
    have hseam : nearMiss? (.facing before (c :: v ++ [])) =
        nearMiss? (.facing before (c :: v ++ z)) :=
      nearMiss?_of_seam hs (List.cons_ne_nil c v)
    rwa [List.append_nil, List.cons_append, eq_comm] at hseam
  rw [hsame]
  by_cases hc : isQuote c = true
  · have hword : isWordChar c = false := isWordChar_of_isQuote hc
    simp [nearMiss?, Cursor.facing, Text.wordAt?, hc, hword]
  rw [Bool.not_eq_true] at hc
  rw [nearMiss?_eq_bind hc]
  cases hat : Text.wordAt? before (c :: v) with
  | none => simp [hc]
  | some wb =>
    obtain ⟨w, b⟩ := wb
    obtain ⟨htext, hword⟩ := Text.wordAt?_eq_some_iff.1 hat
    have hcut : c :: (v ++ z) = w ++ (b ++ z) := by
      rw [← List.cons_append, htext, List.append_assoc]
    -- the word ends where it does in the plain text
    have hlast : w.getLast?.any isWordChar = true := by
      rw [List.getLast?_eq_some_getLast hword.ne_nil]
      exact hword.all _ (List.getLast_mem _)
    have hafter : (b ++ z).head?.any isWordChar = false := by
      rw [htext] at hs
      have hstop := hs.isWordChar_head hlast
      rwa [List.append_nil, hword.stop, eq_comm] at hstop
    have hnone : ∀ (x : Token) r, w ++ (b ++ z) = x.text ++ r → ¬x.Fits before r := hcut ▸ h
    have hconnective := Connective.ofWord?_eq_none_of_not_fits hword.start hafter hnone
    have hkey := Field.ofKey?_eq_none_of_not_fits hword.start hafter hnone
    simp [wordMisses_eq hconnective hkey, hc]

/-! ## The plain text that tokens begin with -/

namespace Token

@[simp] theorem leadingPlain_cons_of_not_plain (h : x.isPlain = false) (xs : List Token) :
    leadingPlain (x :: xs) = [] := by
  cases x with
  | plain => cases h
  | _ => rfl

/-- Plain text goes into plain text that follows; otherwise tokens that begin with no plain
text follow. -/
theorem join_plain_cases (u : Text) (xs : List Token) :
    (leadingPlain xs = [] ∧ join (.plain u) xs = .plain u :: xs) ∨
      ∃ v ys, xs = .plain v :: ys ∧ join (.plain u) xs = .plain (u ++ v) :: ys := by
  match xs with
  | [] => exact .inl ⟨rfl, rfl⟩
  | .plain v :: ys => exact .inr ⟨v, ys, rfl, rfl⟩
  | .connective _ :: _ => exact .inl ⟨rfl, rfl⟩
  | .field _ _ :: _ => exact .inl ⟨rfl, rfl⟩
  | .quotation _ :: _ => exact .inl ⟨rfl, rfl⟩

/-- Plain text in front leads. -/
theorem leadingPlain_join_plain (u : Text) (xs : List Token) :
    leadingPlain (join (.plain u) xs) = u ++ leadingPlain xs := by
  rcases join_plain_cases u xs with ⟨hnone, h⟩ | ⟨v, ys, rfl, h⟩
  · rw [h, hnone, List.append_nil]
    rfl
  · rw [h]
    rfl

end Token

/-- A token that fits does not begin with the sign between a key and its value. -/
theorem Token.Fits.head_ne_equals (h : x.Fits before r) : (x.text ++ r).head? ≠ some '=' := by
  intro heq
  obtain ⟨t, ht⟩ := List.head?_eq_some_iff.1 heq
  obtain ⟨q, -, hq, hopening⟩ := h.exists_quotation ht (by decide)
  exact ne_equals_of_isQuote hq.opening hopening

/-- After a word character, a token that fits does not begin with one. -/
theorem Token.Fits.isWordChar_head (h : x.Fits before r) (hbefore : before.any isWordChar = true) :
    (x.text ++ r).head?.any isWordChar = false := by
  have hno (hstart : before.any isWordChar = false) :
      (x.text ++ r).head?.any isWordChar = false := by
    rw [hbefore] at hstart
    cases hstart
  match x, h with
  | .connective k, h => exact hno h.1
  | .field f none, h => exact hno h.1
  | .field f (some q), h => exact hno h.1
  | .quotation q, h => exact isWordChar_of_isQuote (Quotation.IsClosed.opening h)

/-- What follows a token that fits does not go on with a word of it. -/
theorem Token.Fits.isWordChar_next (h : x.Fits before r)
    (hlast : (Text.lastOr before x.text).any isWordChar = true) :
    r.head?.any isWordChar = false := by
  have hquotation {q : Quotation} {p : Text} (hq : q.IsClosed) (hp : x.text = p ++ [q.closing]) :
      r.head?.any isWordChar = false := by
    rw [hp, Text.lastOr_concat, Option.any_some, isWordChar_of_isQuote hq.closing] at hlast
    cases hlast
  match x, h with
  | .connective k, h => exact h.2
  | .field f none, h => exact h.2.1
  | .field f (some q), h =>
    exact hquotation (p := f.key ++ '=' :: q.opening :: q.body) h.2 (by simp [text, Quotation.text])
  | .quotation q, h => exact hquotation (p := q.opening :: q.body) h rfl

/-- The tokens of steps: those the steps make, with touching plain text joined. -/
def Step.tokens (S : List Step) : List Token := Token.joined (S.map Step.token)

/-- A step puts its token in front. -/
theorem Step.tokens_cons (s : Step) (S : List Step) : tokens (s :: S) = s.token.join (tokens S) :=
  rfl

/-- **Plain text ends neither inside a word nor before a `=`.** -/
theorem exists_border (before : Option Char) (t : Text) :
    let u := Token.leadingPlain (Step.tokens (trace before t))
    ∃ z, t = u ++ z ∧
      ((Text.lastOr before u).any isWordChar = true → z.head?.any isWordChar = false) ∧
      z.head? ≠ some '=' := by
  generalize hS : trace before t = S
  induction S generalizing before t with
  | nil =>
    obtain rfl := trace_eq_nil_iff.1 hS
    exact ⟨[], rfl, fun _ => rfl, nofun⟩
  | cons s S ih =>
    obtain ⟨r, rfl, hmade, hrest⟩ := trace_eq_cons_iff.1 hS
    rw [Step.tokens_cons]
    cases hmade with
    | @found x r hfits =>
      rw [Token.join_of_not_plain hfits.isPlain, Token.leadingPlain_cons_of_not_plain hfits.isPlain]
      exact ⟨x.text ++ r, rfl, hfits.isWordChar_head, hfits.head_ne_equals⟩
    | @passed c r hnone =>
      obtain ⟨z, hz, hword, hequals⟩ := ih (some c) r hrest
      rw [Token.leadingPlain_join_plain]
      refine ⟨z, ?_, ?_, hequals⟩
      · exact congrArg (c :: ·) hz
      · rw [List.singleton_append, Text.lastOr_cons]
        exact hword

/-! ## All near misses -/

namespace Token

/-- Where no word goes on, the words are those of the plain texts. -/
theorem wordsAfter_none (xs : List Token) :
    wordsAfter none xs = xs.flatMap fun y => y.plainText.words := by
  cases xs <;> rfl

/-- Behind a token that is not plain no word goes on. -/
theorem wordsAfter_cons_of_not_plain (h : x.isPlain = false) (before : Option Char)
    (xs : List Token) : wordsAfter before (x :: xs) = wordsAfter none xs := by
  rw [wordsAfter_none]
  cases x with
  | plain => cases h
  | _ => rfl

/-- Nor does one where no word character follows. -/
theorem wordsAfter_of_border (xs : List Token)
    (h : before.any isWordChar = true → (leadingPlain xs).head?.any isWordChar = false) :
    wordsAfter before xs = wordsAfter none xs := by
  cases xs with
  | nil => rfl
  | cons x xs =>
    have h : before.any isWordChar = true → x.plainText.head?.any isWordChar = false := h
    rw [wordsAfter, Text.wordsAfter_eq_words h]
    rfl

/-- A plain character in front begins a word or goes on with one. -/
theorem wordsAfter_join_plain (before : Option Char) (c : Char) (xs : List Token) :
    wordsAfter before (join (.plain [c]) xs) =
      (Text.wordAt? before (c :: leadingPlain xs)).toList ++ wordsAfter (some c) xs := by
  rcases join_plain_cases [c] xs with ⟨hnone, h⟩ | ⟨v, ys, rfl, h⟩
  · have hrest : wordsAfter (some c) xs = wordsAfter none xs :=
      wordsAfter_of_border xs fun _ => by rw [hnone]; rfl
    rw [h, hnone, hrest, wordsAfter_none, wordsAfter, plainText, Text.wordsAfter, Text.wordsAfter,
      List.append_nil]
  · rw [h, wordsAfter, wordsAfter, leadingPlain, plainText, plainText, List.singleton_append,
      Text.wordsAfter, List.append_assoc]

/-- Plain text in front stands before all other. -/
theorem flatMap_plainText_join_plain (u : Text) (xs : List Token) :
    (join (.plain u) xs).flatMap plainText = u ++ xs.flatMap plainText := by
  rcases join_plain_cases u xs with ⟨-, h⟩ | ⟨v, ys, rfl, h⟩
  · rw [h]
    rfl
  · rw [h, List.flatMap_cons, List.flatMap_cons, ← List.append_assoc]
    rfl

/-- A token in front may lack the value that the next one begins with. -/
theorem valueMisses_cons (x : Token) (xs : List Token) :
    valueMisses (x :: xs) =
      (xs.head?.bind fun y => valueMiss? (x, y)).toList ++ valueMisses xs := by
  cases xs with
  | nil => rfl
  | cons y xs => cases h : valueMiss? (x, y) <;> simp [valueMisses, h]

/-- Plain text lacks no value. -/
theorem valueMisses_cons_plain (u : Text) (xs : List Token) :
    valueMisses (.plain u :: xs) = valueMisses xs := by
  rw [valueMisses_cons]
  cases xs <;> rfl

/-- So it makes no difference in front. -/
theorem valueMisses_join_plain (u : Text) (xs : List Token) :
    valueMisses (join (.plain u) xs) = valueMisses xs := by
  rcases join_plain_cases u xs with ⟨-, h⟩ | ⟨v, ys, rfl, h⟩
  · rw [h, valueMisses_cons_plain]
  · rw [h, valueMisses_cons_plain, valueMisses_cons_plain]

/-- A pair of tokens is a near miss or none, as its first lacks a value or not. -/
theorem valueMiss?_cases (x : Token × Token) :
    (lacksValue x = true ∧ ∃ f, valueMiss? x = some (.missingValue f)) ∨
      (lacksValue x = false ∧ valueMiss? x = none) := by
  fun_cases lacksValue x with
  | case1 f u => exact .inl ⟨rfl, f, rfl⟩
  | case2 x hx =>
    refine .inr ⟨rfl, ?_⟩
    unfold valueMiss?
    split
    · next f u => exact (hx f u rfl).elim
    · rfl

/-- A key alone lacks a value if plain text with the sign for one follows. -/
theorem valueMiss?_field (f : Field) (y : Token) : valueMiss? (.field f none, y) =
    if y.plainText.head? == some '=' then some (.missingValue f) else none := by
  match y with
  | .plain [] => rfl
  | .plain (c :: u) => by_cases hc : c = '=' <;> simp [valueMiss?, plainText, hc]
  | .connective _ => rfl
  | .field _ _ => rfl
  | .quotation _ => rfl

end Token

/-- A key that a scan finds without a value lacks it in the tokens too. -/
theorem Match.nearMiss?_eq_bind (x : Token) (hr : r = Token.leadingPlain xs ++ z)
    (hz : z.head? ≠ some '=') :
    Match.nearMiss? ⟨x, r⟩ = xs.head?.bind fun y => Token.valueMiss? (x, y) := by
  have hnone (h : ∀ y, Token.valueMiss? (x, y) = none) :
      (xs.head?.bind fun y => Token.valueMiss? (x, y)) = none := by
    cases xs with
    | nil => rfl
    | cons y xs => exact h y
  match x with
  | .connective _ => exact (hnone fun _ => rfl).symm
  | .field f (some _) => exact (hnone fun _ => rfl).symm
  | .quotation _ => exact (hnone fun _ => rfl).symm
  | .plain _ => exact (hnone fun _ => rfl).symm
  | .field f none =>
    have hhead : (r.head? == some '=') = ((Token.leadingPlain xs).head? == some '=') := by
      rw [hr]
      cases Token.leadingPlain xs with
      | nil => simpa using hz
      | cons c u => rfl
    rw [Match.nearMiss?_field, hhead]
    cases xs with
    | nil => rfl
    | cons y xs => exact (Token.valueMiss?_field f y).symm

/-- The near misses that a token shows before others, if it is not plain. -/
theorem count_tokenMisses_cons (hx : x.isPlain = false) (n : NearMiss) :
    (tokenMisses before (x :: xs)).count n =
      ((xs.head?.bind fun y => Token.valueMiss? (x, y)).toList).count n +
        (tokenMisses none xs).count n := by
  have hplain : x.plainText = [] := by
    cases x with
    | plain => cases hx
    | _ => rfl
  simp only [tokenMisses, List.flatMap_cons, hplain, List.nil_append, List.count_append,
    Token.wordsAfter_cons_of_not_plain hx, Token.valueMisses_cons]
  omega

/-- The near misses that plain text shows at its first character. -/
theorem count_tokenMisses_join_plain (before : Option Char) (c : Char) (xs : List Token)
    (n : NearMiss) : (tokenMisses before (Token.join (.plain [c]) xs)).count n =
      ((if isQuote c then [NearMiss.openQuote c] else []) ++
        (Text.wordAt? before (c :: Token.leadingPlain xs)).toList.flatMap wordMisses).count n +
      (tokenMisses (some c) xs).count n := by
  have hquote : ([c].filter isQuote).map NearMiss.openQuote =
      if isQuote c then [.openQuote c] else [] := by
    by_cases hc : isQuote c = true <;> simp [hc]
  simp only [tokenMisses, Token.flatMap_plainText_join_plain, Token.wordsAfter_join_plain,
    Token.valueMisses_join_plain, List.filter_append, List.map_append, hquote, List.flatMap_append,
    List.count_append]
  omega

/-- **The near misses of a scan are those its tokens show,** if not in the same order. -/
theorem misses_perm (before : Option Char) (t : Text) :
    ((trace before t).filterMap Step.miss).Perm
      (tokenMisses before (Step.tokens (trace before t))) := by
  rw [List.perm_iff_count]
  intro n
  generalize hS : trace before t = S
  induction S generalizing before t with
  | nil => rfl
  | cons s S ih =>
    obtain ⟨r, rfl, hmade, hrest⟩ := trace_eq_cons_iff.1 hS
    have hcount := ih (Text.lastOr before s.token.text) r hrest
    obtain ⟨z, hz, hword, hequals⟩ := exists_border (Text.lastOr before s.token.text) r
    rw [hrest] at hz hword
    have hmisses : ((s :: S).filterMap Step.miss).count n =
        s.miss.toList.count n + (S.filterMap Step.miss).count n := by
      rw [← List.count_append]
      cases h : s.miss <;> simp [h]
    rw [hmisses, Step.tokens_cons, hcount]
    cases hmade with
    | @found x r hfits =>
      have hborder : (Text.lastOr before x.text).any isWordChar = true →
          (Token.leadingPlain (Step.tokens S)).head?.any isWordChar = false := by
        intro hlast
        have hnext := hfits.isWordChar_next hlast
        rw [hz] at hnext
        cases hu : Token.leadingPlain (Step.tokens S) with
        | nil => rfl
        | cons c u => simpa [hu] using hnext
      rw [Token.join_of_not_plain hfits.isPlain, count_tokenMisses_cons hfits.isPlain,
        Match.nearMiss?_eq_bind x hz hequals, tokenMisses, tokenMisses,
        Token.wordsAfter_of_border _ hborder]
    | @passed c r hnone =>
      have hseam : Seam (c :: Token.leadingPlain (Step.tokens S)) z [] := by
        refine ⟨fun hlast => ⟨hword ?_, rfl⟩, ⟨hequals, nofun⟩, nofun⟩
        exact Text.lastOr_getLast? [c] _ ▸ hlast
      have hmiss := nearMiss?_eq_of_not_fits hseam (by rw [← hz]; exact hnone)
      rw [← hz] at hmiss
      rw [count_tokenMisses_join_plain, hmiss]
      rfl

/-! ## What is counted -/

namespace ScanMetrics

/-- Near misses may be counted in any order. -/
theorem foldl_recordMiss_perm {l l' : List NearMiss} (h : l.Perm l') (m : ScanMetrics) :
    l.foldl recordMiss m = l'.foldl recordMiss m :=
  h.foldl_eq' (fun a _ b _ m => by cases a <;> cases b <;> rfl) m

/-- Open quotes are counted as such. -/
theorem foldl_recordMiss_quotes (m : ScanMetrics) (l : List Char) :
    (l.map .openQuote).foldl recordMiss m = { m with openQuotes := m.openQuotes + l.length } := by
  induction l generalizing m with
  | nil => rfl
  | cons c l ih =>
    rw [List.map_cons, List.foldl_cons, ih]
    simp [recordMiss, Nat.add_assoc, Nat.add_comm 1]

/-- The near misses of words are counted by what the words look like. -/
theorem foldl_recordMiss_words (m : ScanMetrics) (l : List (Text × Text)) :
    (l.flatMap wordMisses).foldl recordMiss m =
      { m with
        miscased := m.miscased + l.countP fun x => Connective.isInAnyCase x.1
        unknownKeys :=
          m.unknownKeys + l.countP fun x => looksLikeKey x.1 && x.2.head? == some '=' } := by
  induction l generalizing m with
  | nil => rfl
  | cons x l ih =>
    rw [List.flatMap_cons, List.foldl_append, ih, List.countP_cons, List.countP_cons]
    by_cases hcase : Connective.isInAnyCase x.1 = true <;>
      by_cases hkey : (looksLikeKey x.1 && x.2.head? == some '=') = true <;>
      simp [wordMisses, hcase, hkey, recordMiss, Nat.add_assoc, Nat.add_comm 1]

/-- Missing values are counted as such. -/
theorem foldl_recordMiss_values (m : ScanMetrics) (l : List (Token × Token)) :
    (l.filterMap Token.valueMiss?).foldl recordMiss m =
      { m with missingValues := m.missingValues + l.countP Token.lacksValue } := by
  induction l generalizing m with
  | nil => rfl
  | cons x l ih =>
    rw [List.countP_cons]
    rcases Token.valueMiss?_cases x with ⟨hlacks, f, hmiss⟩ | ⟨hlacks, hmiss⟩
    · rw [List.filterMap_cons_some hmiss, List.foldl_cons, ih]
      simp [recordMiss, hlacks, Nat.add_assoc, Nat.add_comm 1]
    · rw [List.filterMap_cons_none hmiss, ih]
      simp [hlacks]

end ScanMetrics

namespace Lexer

/-- **A query's near misses can be counted off its tokens.**  What is counted are the quote
characters, the words and the lone keys of the tokens; `Text.words` lists every word of a
plain text (`Text.mem_words_iff`) and each of them once (`Text.nodup_words`), and the tokens
have all of the query's text, so nothing is missed and nothing reported twice. -/
theorem misses_eq_countP (x : Lexer) (t : Text) :
    let m := (x.reset.tokenize t).value.2.metrics
    let xs := (x.reset.tokenize t).value.1.values
    let words := xs.flatMap fun y => y.plainText.words
    xs.flatMap Token.text = t ∧
      m.openQuotes = (xs.flatMap Token.plainText).countP isQuote ∧
      m.miscased = words.countP (fun w => Connective.isInAnyCase w.1) ∧
      m.unknownKeys = words.countP (fun w => looksLikeKey w.1 && w.2.head? == some '=') ∧
      m.missingValues = (xs.zip xs.tail).countP Token.lacksValue := by
  have hvalues : (x.reset.tokenize t).value.1.values = Step.tokens (trace none t) :=
    Scan.values_ofText t
  have hmisses := misses_tokenize x t
  rw [ScanMetrics.foldl_recordMiss_perm (misses_perm none t), tokenMisses, List.foldl_append,
    List.foldl_append, ScanMetrics.foldl_recordMiss_quotes, ScanMetrics.foldl_recordMiss_words,
    Token.valueMisses, ScanMetrics.foldl_recordMiss_values, Token.wordsAfter_none,
    ← hvalues] at hmisses
  refine ⟨Scan.flatMap_text_ofText t, ?_⟩
  simpa [List.countP_eq_length_filter] using hmisses

end Lexer
end SearchMarkup
