/-
# What steps know of the text after them

A step is made of some text, and looks a little further: a word has to end, a key has to
have no `=` with a closed quotation after it, and a near miss is about a word and the
character after the word. So steps over a text `k` stay as they are when what follows `k`
is replaced, provided that the new text `y'` fits the seam as the old one `y` did:

| at the end of `k` | the new text |
| --- | --- |
| a word | does not go on with the word, nor did the old one |
| a key or a word | does not begin with `=`, nor did the old one |
| a key and `=` | opens no quotation, unless a closed one stood there before |

A quote character that was passed as plain text is another matter: its quotation may be
closed by what now follows. Where there is none, the steps stay (`trace_append_of_seam`).
-/

import SearchMarkup.Proofs.Query.Trace

namespace SearchMarkup

/-- After a text `k`, the text `y'` may stand for `y`. -/
structure Seam (k y y' : Text) : Prop where
  word : k.getLast?.any isWordChar = true →
    y.head?.any isWordChar = false ∧ y'.head?.any isWordChar = false
  equals : y.head? ≠ some '=' ∧ y'.head? ≠ some '='
  quote : y'.head?.any isQuote = true → ∃ (q : Quotation) (r : Text), y = q.text ++ r ∧ q.IsClosed

namespace Seam

variable {j k y y' : Text}

/-- A seam is one after any end of the text before it. -/
theorem of_append (h : Seam (j ++ k) y y') : Seam k y y' := by
  refine ⟨fun hk => h.word ?_, h.equals, h.quote⟩
  obtain ⟨c, hc, hword⟩ := (Option.any_eq_true ..).1 hk
  simp [List.getLast?_append, hc, hword]

/-- After a word, both texts go on alike. -/
theorem isWordChar_head (h : Seam (j ++ k) y y') (hj : j.getLast?.any isWordChar = true) :
    (k ++ y').head?.any isWordChar = (k ++ y).head?.any isWordChar := by
  cases k with
  | nil =>
    obtain ⟨hy, hy'⟩ := h.word (by simpa using hj)
    rw [List.nil_append, List.nil_append, hy, hy']
  | cons c k => rfl

/-- A word that stands over the seam in the new text ends before it. -/
theorem exists_eq_append {w r : Text} (h : Seam k y y') (hk : k ≠ [])
    (hw : ∀ c ∈ w, isWordChar c = true) (heq : k ++ y' = w ++ r) :
    ∃ j, k = w ++ j ∧ r = j ++ y' := by
  rcases List.append_eq_append_iff.1 heq with ⟨d, rfl, rfl⟩ | hj
  · cases d with
    | nil => exact ⟨[], by simp, rfl⟩
    | cons c d =>
      have hlast := List.getLast?_eq_some_getLast hk
      have hmem : k.getLast hk ∈ k ++ c :: d := List.mem_append_left _ (List.getLast_mem hk)
      obtain ⟨-, hy'⟩ := h.word (by simpa [hlast] using hw _ hmem)
      simp [hw c (by simp)] at hy'
  · exact hj

end Seam

/-! ## Tokens at a seam -/

variable {before : Option Char} {k y y' : Text}

/-- A token that begins with a character of no word is a quotation. -/
theorem Token.Fits.exists_quotation {x : Token} {r t : Text} {c : Char} (h : x.Fits before r)
    (ht : x.text ++ r = c :: t) (hc : isWordChar c = false) :
    ∃ q : Quotation, x = .quotation q ∧ q.IsClosed ∧ q.opening = c := by
  have hno {w r : Text} (hne : w ≠ []) (hw : ∀ d ∈ w, isWordChar d = true) :
      w ++ r ≠ c :: t := fun heq => by
    rw [isWordChar_of_append_eq_cons hne hw heq] at hc
    cases hc
  match x, h with
  | .connective k, _ => exact absurd ht (hno k.word_ne_nil fun _ => isWordChar_of_mem_word)
  | .field f v, _ =>
    rw [text_field, List.append_assoc] at ht
    exact absurd ht (hno f.key_ne_nil fun _ => isWordChar_of_mem_key)
  | .quotation q, h =>
    exact ⟨q, rfl, h, (List.cons.inj ((q.text_append r).symm.trans ht)).1⟩

/-- A token that fits still does, if no quotation of its value can have closed. -/
theorem Token.Fits.of_seam {x : Token} (h : x.Fits before (k ++ y)) (hs : Seam (x.text ++ k) y y')
    (hv : ∀ f, x = .field f none → ∀ o j, k = '=' :: o :: j → isQuote o = false) :
    x.Fits before (k ++ y') := by
  match x, h with
  | .connective c, h =>
    exact ⟨h.1, (hs.isWordChar_head (by cases c <;> decide)).trans h.2⟩
  | .field f none, h =>
    refine ⟨h.1, (hs.isWordChar_head (by cases f <;> decide)).trans h.2.1, fun q r heq hq => ?_⟩
    -- a value would begin in `y'`, between `k` and `y'`, or in `k`
    cases k with
    | nil =>
      rw [List.nil_append] at heq
      exact hs.equals.2 (by rw [heq]; rfl)
    | cons c k =>
      obtain ⟨rfl, hrest⟩ := List.cons.inj heq
      cases k with
      | nil =>
        have hrest : y' = q.text ++ r := hrest
        obtain ⟨q', r', rfl, hq'⟩ := hs.quote (by simp [hrest, q.text_append, hq.opening])
        exact h.2.2 q' r' rfl hq'
      | cons o j =>
        rw [q.text_append] at hrest
        have ho := hv f rfl o j rfl
        rw [(List.cons.inj hrest).1, hq.opening] at ho
        cases ho
  | .field f (some q), h => exact h
  | .quotation q, h => exact h

/-- Where a key stands as a word, a token fits. -/
theorem exists_fits_of_key {f : Field} {t : Text} (hbefore : before.any isWordChar = false)
    (ht : t.head?.any isWordChar = false) :
    ∃ (x : Token) (r : Text), f.key ++ t = x.text ++ r ∧ x.Fits before r := by
  by_cases hq : ∃ (q : Quotation) (r : Text), t = '=' :: (q.text ++ r) ∧ q.IsClosed
  · obtain ⟨q, r, rfl, hq⟩ := hq
    exact ⟨.field f (some q), r, by simp [Token.text], hbefore, hq⟩
  · exact ⟨.field f none, t, rfl, hbefore, ht, fun q r heq hclosed => hq ⟨q, r, heq, hclosed⟩⟩

/-- Where no token fits, still none does. -/
theorem not_fits_of_seam (hs : Seam k y y') (hk : k.head?.any isQuote = false) (hne : k ≠ [])
    (h : ∀ (x : Token) r, k ++ y = x.text ++ r → ¬x.Fits before r) (x : Token) (r : Text)
    (heq : k ++ y' = x.text ++ r) : ¬x.Fits before r := by
  intro hx
  match x, hx with
  | .connective c, hx =>
    obtain ⟨j, rfl, rfl⟩ := hs.exists_eq_append hne (fun _ => isWordChar_of_mem_word) heq
    have hj := hs.isWordChar_head (by cases c <;> decide)
    exact h (.connective c) (j ++ y) (List.append_assoc ..) ⟨hx.1, hj.symm.trans hx.2⟩
  | .field f v, hx =>
    rw [Token.text_field, List.append_assoc] at heq
    obtain ⟨j, rfl, hj⟩ := hs.exists_eq_append hne (fun _ => isWordChar_of_mem_key) heq
    -- the key stands in `k` as a word, so some token fitted before
    have hend : (j ++ y').head?.any isWordChar = false := by
      rw [← hj]
      cases v with
      | none => exact hx.2.1
      | some q => exact (by decide : isWordChar '=' = false)
    rw [hs.isWordChar_head (by cases f <;> decide)] at hend
    have hbefore : before.any isWordChar = false := by
      cases v with
      | none => exact hx.1
      | some q => exact hx.1
    obtain ⟨x, r, hxr, hfits⟩ := exists_fits_of_key hbefore hend
    exact h x r ((List.append_assoc ..).trans hxr) hfits
  | .quotation q, hx =>
    obtain ⟨c, j, rfl⟩ := List.exists_cons_of_ne_nil hne
    obtain ⟨rfl, -⟩ := List.cons.inj (heq.trans (q.text_append r))
    simp [hx.opening] at hk

/-! ## Near misses at a seam -/

/-- A word ends where a text ends, unless the text after it goes on with the word. -/
theorem takeWhile_isWordChar_append {z : Text} (hk : k ≠ [])
    (h : k.getLast?.any isWordChar = true → z.head?.any isWordChar = false) :
    (k ++ z).takeWhile isWordChar = k.takeWhile isWordChar := by
  rw [List.takeWhile_append]
  split
  · next hall =>
    have hself := (List.takeWhile_prefix isWordChar).eq_of_length hall
    have hword : isWordChar (k.getLast hk) = true :=
      List.all_eq_true.1 List.all_takeWhile _ (by rw [hself]; exact List.getLast_mem hk)
    have hz := h (by simpa [List.getLast?_eq_some_getLast hk] using hword)
    rw [hself]
    cases z with
    | nil => simp
    | cons c z => simp [show isWordChar c = false from hz]
  · rfl

/-- What follows a seam begins with the sign for a value in both texts or in neither. -/
theorem Seam.head?_eq_equals (h : Seam k y y') (j : Text) :
    ((j ++ y').head? == some '=') = ((j ++ y).head? == some '=') := by
  cases j with
  | nil => simp [h.equals.1, h.equals.2]
  | cons c j => rfl

/-- What a text was probably meant to be stays so. -/
theorem nearMiss?_of_seam (hs : Seam k y y') (hk : k ≠ []) :
    nearMiss? (.facing before (k ++ y')) = nearMiss? (.facing before (k ++ y)) := by
  have hword : (k ++ y).takeWhile isWordChar = k.takeWhile isWordChar :=
    takeWhile_isWordChar_append hk fun h => (hs.word h).1
  have hword' : (k ++ y').takeWhile isWordChar = k.takeWhile isWordChar :=
    takeWhile_isWordChar_append hk fun h => (hs.word h).2
  have hle : (k.takeWhile isWordChar).length ≤ k.length := (List.takeWhile_sublist _).length_le
  have hequals := hs.head?_eq_equals (k.drop (k.takeWhile isWordChar).length)
  rw [← List.drop_append_of_le_length hle, ← List.drop_append_of_le_length hle] at hequals
  obtain ⟨c, j, rfl⟩ := List.exists_cons_of_ne_nil hk
  simp only [List.cons_append] at hword hword' hequals
  simp only [nearMiss?, Cursor.facing, Cursor.word, Cursor.atWordStart, List.cons_append, hword,
    hword', hequals]

/-- A key without a value is a near miss if `=` follows. -/
theorem Match.nearMiss?_field (f : Field) (t : Text) :
    Match.nearMiss? ⟨.field f none, t⟩ =
      if t.head? == some '=' then some (.missingValue f) else none := by
  cases t with
  | nil => rfl
  | cons c t => by_cases hc : c = '=' <;> simp [Match.nearMiss?, hc]

/-- So a match before a seam is a near miss in both or in neither. -/
theorem Match.nearMiss?_of_seam (hs : Seam k y y') (x : Token) :
    Match.nearMiss? ⟨x, k ++ y'⟩ = Match.nearMiss? ⟨x, k ++ y⟩ := by
  have hequals := hs.head?_eq_equals k
  match x with
  | .connective _ => rfl
  | .field f (some _) => rfl
  | .quotation _ => rfl
  | .plain _ => rfl
  | .field f none => rw [nearMiss?_field, nearMiss?_field, hequals]

/-! ## Steps at a seam -/

variable {s : Step}

/-- **A step stays** when what follows is replaced. -/
theorem Step.Made.of_seam (h : s.Made before (k ++ y)) (hs : Seam (s.token.text ++ k) y y')
    (hquote : ∀ c, s.token = .plain [c] → isQuote c = false)
    (hv : ∀ f, s.token = .field f none → ∀ o j, k = '=' :: o :: j → isQuote o = false) :
    s.Made before (k ++ y') := by
  generalize hr : k ++ y = r at h
  cases h with
  | @found x r h =>
    subst hr
    rw [← Match.nearMiss?_of_seam hs.of_append]
    exact .found (h.of_seam hs hv)
  | @passed c r h =>
    subst hr
    have hs : Seam (c :: k) y y' := hs
    have hmiss : nearMiss? (.facing before (c :: (k ++ y'))) =
        nearMiss? (.facing before (c :: (k ++ y))) :=
      nearMiss?_of_seam hs (List.cons_ne_nil c k)
    rw [← hmiss]
    exact .passed (not_fits_of_seam hs (hquote c rfl) (List.cons_ne_nil c k) h)

variable {S R : List Step}

/-- The steps over a text leave no quote character behind as plain text. -/
def Step.Unquoted (S : List Step) : Prop :=
  ∀ s ∈ S, ∀ u, s.token = .plain u → ∀ c ∈ u, isQuote c = false

/-- At a character of no word, a step passes the character or makes a quotation. -/
theorem Step.Made.of_not_isWordChar {r : Text} (h : s.Made before r) {c : Char} {t : Text}
    (ht : s.token.text ++ r = c :: t) (hc : isWordChar c = false) :
    s.token = .plain [c] ∨ ∃ q : Quotation, c :: t = q.text ++ r ∧ q.IsClosed := by
  cases h with
  | found h =>
    obtain ⟨q, rfl, hq, -⟩ := h.exists_quotation ht hc
    exact .inr ⟨q, ht.symm, hq⟩
  | passed h =>
    obtain ⟨rfl, -⟩ := List.cons.inj ht
    exact .inl rfl

/-- A character of no word is passed by a step of its own, if no quotation closes there. -/
theorem trace_of_not_isWordChar {c : Char} {j : Text}
    (h : trace before (Step.texts S ++ y) = S ++ R) (hS : Step.texts S = c :: j)
    (hc : isWordChar c = false)
    (hclosed : ∀ (q : Quotation) r, c :: (j ++ y) = q.text ++ r → ¬q.IsClosed) :
    ∃ s S', S = s :: S' ∧ s.token = .plain [c] ∧ Step.texts S' = j ∧
      trace (some c) (Step.texts S' ++ y) = S' ++ R := by
  cases S with
  | nil => cases hS
  | cons s S =>
    rw [hS] at h
    obtain ⟨r, hr, hmade, hrest⟩ := trace_eq_cons_iff.1 h
    rcases hmade.of_not_isWordChar hr.symm hc with hs | ⟨q, hq, hqc⟩
    · rw [Step.texts_cons, hs] at hS
      rw [hs] at hr hrest
      obtain rfl : Step.texts S = j := (List.cons.inj hS).2
      obtain rfl : Step.texts S ++ y = r := (List.cons.inj hr).2
      exact ⟨s, S, rfl, hs, rfl, hrest⟩
    · exact absurd hqc (hclosed q r hq)

/-- Where a key takes no value, its `=` does not stand before a quote character, unless
that is passed. -/
theorem Step.Unquoted.isQuote_eq_false {f : Field} {b : Option Char} (hq : Step.Unquoted S)
    (hf : (Token.field f none).Fits before (Step.texts S ++ y))
    (h : trace b (Step.texts S ++ y) = S ++ R) {o : Char} {j : Text}
    (hS : Step.texts S = '=' :: o :: j) : isQuote o = false := by
  by_contra ho
  rw [Bool.not_eq_false] at ho
  have hequals (q : Quotation) (r : Text) (heq : '=' :: (o :: j ++ y) = q.text ++ r)
      (hclosed : q.IsClosed) : False := by
    rw [q.text_append] at heq
    exact ne_equals_of_isQuote hclosed.opening (List.cons.inj heq).1.symm
  -- no token begins with `=`, so it is passed and the next step stands at `o`
  obtain ⟨s, S, rfl, -, hS', h'⟩ := trace_of_not_isWordChar h hS (by decide) hequals
  have hopen (q : Quotation) (r : Text) (heq : o :: (j ++ y) = q.text ++ r) : ¬q.IsClosed :=
    hf.2.2 q r (by rw [hS, ← heq]; rfl)
  obtain ⟨s', S', rfl, hs', -⟩ := trace_of_not_isWordChar h' hS' (isWordChar_of_isQuote ho) hopen
  rw [hq s' (by simp) [o] hs' o (List.mem_singleton_self o)] at ho
  cases ho

/-- **The steps over a text stay** when what follows is replaced, unless one of them
passes a quote character. -/
theorem trace_append_of_seam (h : trace before (Step.texts S ++ y) = S ++ R)
    (hs : Seam (Step.texts S) y y') (hq : Step.Unquoted S) :
    trace before (Step.texts S ++ y') = S ++ trace (Text.lastOr before (Step.texts S)) y' := by
  induction S generalizing before with
  | nil => rfl
  | cons s S ih =>
    obtain ⟨hqs, hqS⟩ := List.forall_mem_cons.1 hq
    obtain ⟨r, hr, hmade, hrest⟩ := trace_eq_cons_iff.1 h
    rw [Step.texts_cons, List.append_assoc] at hr
    obtain rfl := List.append_cancel_left hr
    refine trace_eq_cons_iff.2 ⟨Step.texts S ++ y', by simp, hmade.of_seam hs ?_ ?_, ?_⟩
    · exact fun c hc => hqs [c] hc c (List.mem_singleton_self c)
    · rintro f hf o j hS
      cases hmade with
      | found hfits =>
        subst hf
        exact Step.Unquoted.isQuote_eq_false hqS hfits hrest hS
      | passed => cases hf
    · rw [ih hrest hs.of_append hqS, Step.texts_cons, Text.lastOr_append]
      rfl

end SearchMarkup
