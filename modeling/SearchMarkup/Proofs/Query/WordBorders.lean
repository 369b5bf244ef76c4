/-
# No token cuts a word

A word goes on across a place of a text if a word character stands on either side of it.  At
neither end of a token of a scan does that happen (`Scan.keepsWords_of_mem_ofText`), though a
token looks at one side of its ends at most:

| token | at its first character | at its last character |
| --- | --- | --- |
| connective, field | looks at the character before | looks at the character after |
| field with a value | looks at the character before | is a quote character there |
| quotation | is a quote character there | is a quote character there |
| plain | looks at nothing | looks at nothing |

A quote character belongs to no word, so the ends of every token that fits are as they should
be (`Token.Fits.noWordAcross`).  Plain text begins where the text does or a token that fits
ends, and ends where one begins or the text ends; so its ends are those of other tokens.

What follows is read off the ends alone.  A token that is made of word characters is a whole
word, and any run of word characters stands within one token.
-/

import SearchMarkup.Proofs.Query.NearMisses

namespace SearchMarkup

namespace Text

/-- No word goes on from one text into the next. -/
def NoWordAcross (a b : Text) : Prop :=
  ¬(a.getLast?.any isWordChar = true ∧ b.head?.any isWordChar = true)

variable {a b s r w : Text}

/-- Whether a word goes on is a matter of the nearest characters. -/
theorem NoWordAcross.of_append (h : NoWordAcross (a ++ s) (r ++ b)) : NoWordAcross s r := by
  rintro ⟨hs, hr⟩
  obtain ⟨c, hc, hcw⟩ := (Option.any_eq_true ..).1 hs
  obtain ⟨d, hd, hdw⟩ := (Option.any_eq_true ..).1 hr
  refine h ⟨?_, ?_⟩
  · rw [List.getLast?_append, hc]
    exact hcw
  · rw [List.head?_append, hd]
    exact hdw

/-- No word character stands before a word that begins here. -/
theorem NoWordAcross.getLast? (h : NoWordAcross a (w ++ b)) (hne : w ≠ [])
    (hw : ∀ c ∈ w, isWordChar c = true) : a.getLast?.any isWordChar = false := by
  obtain ⟨c, w, rfl⟩ := List.exists_cons_of_ne_nil hne
  refine Bool.eq_false_iff.2 fun ha => h ⟨ha, ?_⟩
  exact hw c (List.mem_cons_self ..)

/-- No word character stands after a word that ends here. -/
theorem NoWordAcross.head? (h : NoWordAcross (a ++ w) b) (hne : w ≠ [])
    (hw : ∀ c ∈ w, isWordChar c = true) : b.head?.any isWordChar = false := by
  refine Bool.eq_false_iff.2 fun hb => h ⟨?_, hb⟩
  rw [List.getLast?_append, List.getLast?_eq_some_getLast hne]
  exact hw _ (List.getLast_mem hne)

/-- **Word characters between two ends that cut no word are a whole word.** -/
theorem NoWordAcross.isWord (hstart : NoWordAcross a (w ++ b)) (hstop : NoWordAcross (a ++ w) b)
    (hne : w ≠ []) (hw : ∀ c ∈ w, isWordChar c = true) : IsWord a.getLast? w b :=
  ⟨hne, hw, hstart.getLast? hne hw, hstop.head? hne hw⟩

end Text

open Text (NoWordAcross)

variable {a b t u v w : Text} {x : Token} {y z : Located Token} {l : List (Located Token)}

/-- **At the ends of a token that fits no word goes on.** -/
theorem Token.Fits.noWordAcross (h : x.Fits a.getLast? b) :
    NoWordAcross a (x.text ++ b) ∧ NoWordAcross (a ++ x.text) b := by
  constructor
  · rintro ⟨hbefore, hhead⟩
    rw [h.isWordChar_head hbefore] at hhead
    cases hhead
  · rintro ⟨hlast, hhead⟩
    rw [← Text.lastOr_getLast?] at hlast
    rw [h.isWordChar_next hlast] at hhead
    cases hhead

/-- A token stands in a text under its span, and no word goes on at either end of it. -/
def KeepsWords (t : Text) (y : Located Token) : Prop :=
  ∃ a b, t = a ++ (y.value.text ++ b) ∧ y.span = .after a y.value.text ∧
    NoWordAcross a (y.value.text ++ b) ∧ NoWordAcross (a ++ y.value.text) b

namespace Scan

/-- The plain text put aside keeps words, if none goes on where it begins or ends. -/
theorem keepsWords_of_mem_token (hstart : NoWordAcross a (u ++ b))
    (hstop : NoWordAcross (a ++ u) b) (hy : y ∈ PlainRun.token a u) :
    KeepsWords (a ++ u ++ b) y := by
  obtain ⟨-, rfl⟩ := PlainRun.mem_token.1 hy
  exact ⟨a, b, List.append_assoc .., rfl, hstart, hstop⟩

/-- **The tokens of a scan keep words,** if no word goes on where the plain text put aside
begins. -/
theorem keepsWords_of_mem_resume {rest : Text} (hstart : NoWordAcross a (u ++ rest))
    (hy : y ∈ (resume a u rest).tokens) : KeepsWords (a ++ u ++ rest) y := by
  fun_induction resume a u rest with
  | case1 a u =>
    exact keepsWords_of_mem_token hstart (fun h => Bool.false_ne_true h.2) hy
  | case2 a u c t m hm ih =>
    obtain ⟨hrest, hfits⟩ := Rule.best_eq_some_iff.1 hm
    have hrest : c :: t = m.token.text ++ m.rest := hrest
    obtain ⟨hbefore, hafter⟩ := Token.Fits.noWordAcross hfits
    rw [hrest] at hstart ⊢
    rcases List.mem_append.1 hy with hy | hy
    · exact keepsWords_of_mem_token hstart hbefore hy
    · rcases List.mem_cons.1 hy with rfl | hy
      · exact ⟨a ++ u, m.rest, rfl, rfl, hbefore, hafter⟩
      · simpa using ih hafter hy
  | case3 a u c t hnone ih =>
    simpa using ih (by simpa using hstart) hy

/-- Every token of a text keeps its words. -/
theorem keepsWords_of_mem_ofText (hy : y ∈ (ofText t).tokens) : KeepsWords t y := by
  rw [ofText_eq_resume] at hy
  exact keepsWords_of_mem_resume (a := []) (u := []) (fun h => Bool.false_ne_true h.1) hy

end Scan

/-- No word goes on from a token into the one that begins where it stops. -/
theorem KeepsWords.noWordAcross (hy : KeepsWords t y) (hz : KeepsWords t z)
    (h : y.span.stop = z.span.start) : NoWordAcross y.value.text z.value.text := by
  obtain ⟨a, b, ht, hyspan, -, hstop⟩ := hy
  obtain ⟨a', b', ht', hzspan, -, -⟩ := hz
  have hsize : (a ++ y.value.text).size = a'.size := by
    have hoffset := congrArg Position.offset h
    rw [hyspan, hzspan] at hoffset
    simpa only [Span.after, Position.offset_after] using hoffset
  rw [← List.append_assoc] at ht
  obtain ⟨-, rfl⟩ := Text.append_inj_of_size (ht.symm.trans ht') hsize
  exact hstop.of_append

/-- **A run of word characters stands within one token.** -/
theorem Tiles.exists_mem_of_run (h : Tiles [] t l) (hl : ∀ y ∈ l, KeepsWords t y)
    (ht : t = u ++ (w ++ v)) (hne : w ≠ []) (hw : ∀ c ∈ w, isWordChar c = true) :
    ∃ y ∈ l, y.span.start.offset ≤ u.size ∧ (u ++ w).size ≤ y.span.stop.offset := by
  obtain ⟨y, hy, hfrom, hto⟩ : ∃ y ∈ l, y.span.start.offset ≤ u.size ∧
      u.size < y.span.stop.offset := by
    -- the token of the first character
    obtain ⟨c, w, rfl⟩ := List.exists_cons_of_ne_nil hne
    obtain ⟨y, hy, hcovers, -⟩ := (ht ▸ h : Tiles [] (u ++ c :: (w ++ v)) l).exists_covers
    exact ⟨y, hy, Span.covers_iff.1 hcovers⟩
  refine ⟨y, hy, hfrom, ?_⟩
  by_contra hlong
  obtain ⟨a, b, ht', hspan, -, hstop⟩ := hl y hy
  have hend : y.span.stop.offset = (a ++ y.value.text).size := by
    rw [hspan, Span.after, Position.offset_after]
  -- it would end within the run
  rw [ht, ← List.append_assoc, ← List.append_assoc] at ht'
  obtain ⟨m, hm, rfl⟩ : ∃ m, u ++ w = a ++ y.value.text ++ m ∧ b = m ++ v :=
    Text.exists_append_of_size_le ht'.symm (by omega)
  obtain ⟨p, hp, rfl⟩ : ∃ p, a ++ y.value.text = u ++ p ∧ w = p ++ m :=
    Text.exists_append_of_size_le hm (by omega)
  have hpne : p ≠ [] := by
    rintro rfl
    rw [hp, List.append_nil] at hend
    omega
  have hmne : m ≠ [] := by
    rintro rfl
    rw [hend, hm, List.append_nil] at hlong
    omega
  obtain ⟨d, m, rfl⟩ := List.exists_cons_of_ne_nil hmne
  have hd : isWordChar d = true := hw d (by simp)
  have hno : isWordChar d = false := by
    rw [hp] at hstop
    exact hstop.head? hpne fun c hc => hw c (List.mem_append_left _ hc)
  exact Bool.false_ne_true (hno.symm.trans hd)

namespace Lexer

/-- **No border between two tokens cuts a word.**  No two tokens in a row have a word character
on both sides of their border.  So a connective and a key without a value are words of the
query, no word character stands before a key with a value, and every run of word characters
stands within one token. -/
theorem tokenize_keeps_words (x : Lexer) (t : Text) :
    let l := (x.tokenize t).value.1.tokens
    (l.IsChain fun y z => ¬(y.value.text.getLast?.any isWordChar = true ∧
        z.value.text.head?.any isWordChar = true)) ∧
      (∀ y ∈ l, ∃ a b, t = a ++ (y.value.text ++ b) ∧ y.span = .after a y.value.text ∧
        (∀ k, y.value = .connective k → Text.IsWord a.getLast? y.value.text b) ∧
        (∀ f, y.value = .field f none → Text.IsWord a.getLast? y.value.text b) ∧
        ∀ f q, y.value = .field f (some q) → a.getLast?.any isWordChar = false) ∧
      ∀ u w v, t = u ++ (w ++ v) → w ≠ [] → (∀ c ∈ w, isWordChar c = true) →
        ∃ y ∈ l, y.span.start.offset ≤ u.size ∧ (u ++ w).size ≤ y.span.stop.offset := by
  intro l
  have htiles : Tiles [] t l := Scan.tiles_ofText t
  have hkeeps : ∀ y ∈ l, KeepsWords t y := fun y => Scan.keepsWords_of_mem_ofText
  refine ⟨?_, fun y hy => ?_, fun u w v => htiles.exists_mem_of_run hkeeps⟩
  · exact htiles.isChain.imp_of_mem_imp fun y z hy hz h =>
      (hkeeps y hy).noWordAcross (hkeeps z hz) h
  · obtain ⟨a, b, ht, hspan, hstart, hstop⟩ := hkeeps y hy
    refine ⟨a, b, ht, hspan, fun k hk => ?_, fun f hf => ?_, fun f q hf => ?_⟩
    · rw [hk] at hstart hstop ⊢
      exact hstart.isWord hstop k.word_ne_nil fun _ => isWordChar_of_mem_word
    · rw [hf] at hstart hstop ⊢
      exact hstart.isWord hstop f.key_ne_nil fun _ => isWordChar_of_mem_key
    · rw [hf, Token.text_field, List.append_assoc] at hstart
      exact hstart.getLast? f.key_ne_nil fun _ => isWordChar_of_mem_key

end Lexer
end SearchMarkup
