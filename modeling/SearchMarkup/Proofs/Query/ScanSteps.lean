/-
# The scan without its bookkeeping

The scan carries a memo, a position, the character before and the plain text still
growing, all of which follow from what has been read. `Scan.resume a u rest` says what
the scan yields for `rest` after the text `a`, whose tokens are settled, and the plain
text `u`:

| at the place | the scan |
| --- | --- |
| nothing follows | closes the plain text |
| a rule matches | closes the plain text, makes the match a token, goes on after it |
| no rule matches | adds the next character to the plain text |

`Scan.scanFrom_eq_resume` says that a sound memo does not change the outcome, so the
induction on a scan is the one on `Scan.resume`.
-/

import SearchMarkup.Proofs.Query.QuoteMemo

namespace SearchMarkup

namespace Position

/-- The place after a text read from the start. -/
def after (a : Text) : Position := start.advanceBy a

/-- The place after a text has its bytes behind it. -/
@[simp] theorem offset_after (a : Text) : (after a).offset = a.size := by
  rw [after, offset_advanceBy]
  exact Nat.zero_add _

/-- Going on by a text leads to the place after both. -/
theorem advanceBy_after (a s : Text) : (after a).advanceBy s = after (a ++ s) :=
  (advanceBy_append ..).symm

/-- Going on by a character leads to the place after it. -/
theorem advance_after (a : Text) (c : Char) : (after a).advance c = after (a ++ [c]) :=
  advanceBy_after a [c]

end Position

/-- The cursor that the scan makes at a position. -/
theorem Cursor.mk_after (a b : Text) :
    (⟨a.getLast?, (Position.after a).offset, b⟩ : Cursor) = between a b := by
  rw [Position.offset_after]
  rfl

/-- The span of a stretch of text that follows `a`. -/
def Span.after (a s : Text) : Span := ⟨.after a, .after (a ++ s)⟩

namespace PlainRun

/-- The plain text `u` that follows `a`, as the scan carries it. -/
def of (a u : Text) : Option PlainRun := if u = [] then none else some ⟨.after a, u.reverse⟩

/-- The plain text `u` that follows `a` as a token, if there is any. -/
def token (a u : Text) : List (Located Token) :=
  if u = [] then [] else [⟨.plain u, .after a u⟩]

@[simp] theorem of_nil (a : Text) : of a [] = none := rfl

@[simp] theorem token_nil (a : Text) : token a [] = [] := rfl

/-- Plain text is one token, and no text is none. -/
theorem mem_token {a u : Text} {x : Located Token} :
    x ∈ token a u ↔ u ≠ [] ∧ x = ⟨.plain u, .after a u⟩ := by
  by_cases hu : u = [] <;> simp [token, hu]

/-- A further character goes into the plain text that is growing. -/
theorem extend_of (a u : Text) (c : Char) :
    some (extend (of a u) (.after (a ++ u)) c) = of a (u ++ [c]) := by
  by_cases hu : u = []
  · simp [of, extend, hu]
  · simp [of, extend, hu]

/-- Plain text that ends becomes its token. -/
theorem close_of (a u : Text) : close (of a u) (.after (a ++ u)) = token a u := by
  by_cases hu : u = []
  · simp [of, close, token, hu]
  · simp [of, close, token, hu, Span.after]

end PlainRun

namespace Rule

/-! ## No rule makes plain text -/

section

variable {memo memo' : QuoteMemo} {c : Cursor} {m : Match}

/-- A key with a value is a field. -/
theorem isPlain_of_fieldPair (h : (fieldPair memo c).1 = some m) : m.token.isPlain = false := by
  unfold fieldPair at h
  split at h
  · obtain ⟨-, -, rfl⟩ := Option.map_eq_some_iff.1 h
    rfl
  · cases h

/-- A connective is one of the three. -/
theorem isPlain_of_connective (h : connective c = some m) : m.token.isPlain = false := by
  unfold connective at h
  split at h
  · obtain ⟨k, -, hk⟩ := List.exists_of_findSome?_eq_some h
    obtain ⟨rest, -, hrest⟩ := Option.bind_eq_some_iff.1 hk
    split at hrest
    · obtain rfl := Option.some.inj hrest
      rfl
    · cases hrest
  · cases h

/-- A quotation stands between its quote characters. -/
theorem isPlain_of_quotation (h : (quotation memo c).1 = some m) : m.token.isPlain = false := by
  obtain ⟨-, -, rfl⟩ := Option.map_eq_some_iff.1 h
  rfl

/-- A key without a value is a field too. -/
theorem isPlain_of_bareField (h : bareField c = some m) : m.token.isPlain = false := by
  obtain ⟨⟨f, rest⟩, -, hrest⟩ := Option.bind_eq_some_iff.1 h
  dsimp only at hrest
  split at hrest
  · obtain rfl := Option.some.inj hrest
    rfl
  · cases hrest

/-- No rule makes plain text, whatever is remembered. -/
theorem isPlain_of_first (h : first memo c = (some m, memo')) : m.token.isPlain = false := by
  unfold first at h
  split at h
  · next m₁ memo₁ h₁ =>
    obtain rfl := Option.some.inj (Prod.mk.inj h).1
    exact isPlain_of_fieldPair (congrArg Prod.fst h₁)
  · split at h
    · next m₂ h₂ =>
      obtain rfl := Option.some.inj (Prod.mk.inj h).1
      exact isPlain_of_connective h₂
    · split at h
      · next m₃ memo₃ h₃ =>
        obtain rfl := Option.some.inj (Prod.mk.inj h).1
        exact isPlain_of_quotation (congrArg Prod.fst h₃)
      · exact isPlain_of_bareField (Prod.mk.inj h).1

end

/-! ## What a match takes -/

/-- A match takes its token's text off the front, and that is not empty. -/
theorem rest_eq_of_best {a b : Text} {m : Match} (h : best (.between a b) = some m) :
    b = m.token.text ++ m.rest ∧ m.token.text ≠ [] := by
  have hf := (first_of_sound (a := a) (b := b) (QuoteMemo.sound_empty _)).1
  exact rest_eq_of_first (Prod.ext (hf.trans h) rfl)

/-- So less text is left after a match. -/
theorem length_rest_lt_of_best {a b : Text} {m : Match} (h : best (.between a b) = some m) :
    m.rest.length < b.length := by
  obtain ⟨hb, hne⟩ := rest_eq_of_best h
  have := List.length_pos_iff.2 hne
  rw [hb, List.length_append]
  omega

end Rule

namespace Scan

/-- What a match after `a` and the plain text `u` puts before the scan of the rest. -/
def consMatch (a u : Text) (m : Match) (later : Scan) : Scan where
  tokens := PlainRun.token a u ++ ⟨m.token, .after (a ++ u) m.token.text⟩ :: later.tokens
  findings :=
    (m.nearMiss?.map fun miss => ⟨miss, .after (a ++ u) m.token.text⟩).toList ++ later.findings

/-- What a character that no rule claims puts before the scan of the rest: a finding,
if the place is a near miss. -/
def consMiss (a b : Text) (later : Scan) : Scan :=
  { later with
    findings := ((nearMiss? (.between a b)).map fun miss =>
      ⟨miss, .after a miss.text⟩).toList ++ later.findings }

@[simp] theorem tokens_consMiss (a b : Text) (later : Scan) :
    (consMiss a b later).tokens = later.tokens := rfl

/-- The scan of the text that follows `a` and the plain text `u`. -/
def resume (a u : Text) : Text → Scan
  | [] => ⟨PlainRun.token a u, []⟩
  | c :: t =>
    match _h : Rule.best (.between (a ++ u) (c :: t)) with
    | some m => consMatch a u m (resume (a ++ u ++ m.token.text) [] m.rest)
    | none => consMiss (a ++ u) (c :: t) (resume a (u ++ [c]) t)
  termination_by rest => rest.length
  decreasing_by
    · exact Rule.length_rest_lt_of_best _h
    · simp

/-- **A sound memo changes nothing about a scan.** -/
theorem scanFrom_eq_resume {memo : QuoteMemo} {a u rest : Text}
    (hm : memo.Sound (a ++ u ++ rest)) :
    scanFrom memo (PlainRun.of a u) (.after (a ++ u)) (a ++ u).getLast? rest =
      resume a u rest := by
  fun_induction resume a u rest generalizing memo with
  | case1 a u => rw [scanFrom, PlainRun.close_of]
  | case2 a u c t m h ih =>
    obtain ⟨hf, hs⟩ := Rule.first_of_sound hm
    obtain ⟨hr, hne⟩ := Rule.rest_eq_of_best h
    rw [scanFrom]
    split
    · next m' memo' h' =>
      rw [Cursor.mk_after] at h'
      rw [h'] at hf hs
      obtain rfl : m' = m := Option.some.inj (hf.trans h)
      have hlast : (a ++ u ++ m'.token.text).getLast? = m'.token.text.getLast? := by
        rw [List.getLast?_append, List.getLast?_eq_some_getLast hne, Option.some_or]
      have hlater := @ih memo' (by simpa [hr] using hs)
      rw [List.append_nil, PlainRun.of_nil, hlast] at hlater
      simp only [Position.advanceBy_after, PlainRun.close_of, hlater]
      cases hm : m'.nearMiss? <;> simp [consMatch, Span.after, hm]
    · next memo' h' =>
      rw [Cursor.mk_after] at h'
      rw [h', h] at hf
      cases hf
  | case3 a u c t h ih =>
    obtain ⟨hf, hs⟩ := Rule.first_of_sound hm
    rw [scanFrom]
    split
    · next m' memo' h' =>
      rw [Cursor.mk_after] at h'
      rw [h', h] at hf
      cases hf
    · next memo' h' =>
      rw [Cursor.mk_after] at h'
      rw [h'] at hs
      have hlater := @ih memo' (by simpa using hs)
      have hlast : (a ++ (u ++ [c])).getLast? = some c := by simp
      rw [hlast, ← List.append_assoc] at hlater
      simp only [Position.advance_after, Position.advanceBy_after, PlainRun.extend_of, hlater,
        Cursor.mk_after]
      cases hn : nearMiss? (.between (a ++ u) (c :: t)) <;> simp [consMiss, Span.after, hn]

/-- The scan of a text is resumed from nothing. -/
theorem ofText_eq_resume (t : Text) : ofText t = resume [] [] t :=
  scanFrom_eq_resume (a := []) (u := []) (QuoteMemo.sound_empty _)

/-! ## How much a scan yields -/

/-- A token has a character of its own. -/
theorem length_tokens_resume_le (a u rest : Text) :
    (resume a u rest).tokens.length ≤ (PlainRun.token a u).length + rest.length := by
  fun_induction resume a u rest with
  | case1 a u => exact Nat.le_add_right ..
  | case2 a u c t m h ih =>
    have hlt := Rule.length_rest_lt_of_best h
    rw [PlainRun.token_nil, List.length_nil] at ih
    simp only [consMatch, List.length_append, List.length_cons] at hlt ⊢
    omega
  | case3 a u c t h ih =>
    have hone : (PlainRun.token a (u ++ [c])).length = 1 := by simp [PlainRun.token]
    rw [tokens_consMiss, List.length_cons]
    omega

/-- So has a finding. -/
theorem length_findings_resume_le (a u rest : Text) :
    (resume a u rest).findings.length ≤ rest.length := by
  fun_induction resume a u rest with
  | case1 a u => exact Nat.le_refl 0
  | case2 a u c t m h ih =>
    have hlt := Rule.length_rest_lt_of_best h
    have hone := Option.length_toList_le
      (o := m.nearMiss?.map fun miss => (⟨miss, .after (a ++ u) m.token.text⟩ : Finding))
    simp only [consMatch, List.length_append, List.length_cons] at hlt ⊢
    omega
  | case3 a u c t h ih =>
    have hone := Option.length_toList_le (o := (nearMiss? (.between (a ++ u) (c :: t))).map
      fun miss => (⟨miss, .after (a ++ u) miss.text⟩ : Finding))
    simp only [consMiss, List.length_append, List.length_cons]
    omega

/-- A text has no more tokens than bytes. -/
theorem length_tokens_ofText_le (t : Text) : (ofText t).tokens.length ≤ t.size := by
  rw [ofText_eq_resume]
  have hle := length_tokens_resume_le [] [] t
  rw [PlainRun.token_nil, List.length_nil, Nat.zero_add] at hle
  exact Nat.le_trans hle t.length_le_size

/-- A text has no more near misses than bytes. -/
theorem length_findings_ofText_le (t : Text) : (ofText t).findings.length ≤ t.size := by
  rw [ofText_eq_resume]
  exact Nat.le_trans (length_findings_resume_le [] [] t) t.length_le_size

end Scan
end SearchMarkup
