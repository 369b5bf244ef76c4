/-
# Tokens tile the query

Tokens *tile* a text when each stands where the one before it ended, under the span of
its own text, and nothing is left over. The tokens of a scan do (`tiles_resume`), and
none of them is empty, so of a tokenized query it holds that

| | |
| --- | --- |
| the token texts, joined | are the query |
| the check for faults | finds none |
| the text under each span | is the token's, and not empty |
| each span | stops where the next one starts, line and column included |

The check for faults knows byte offsets only: tokens that tile a text cover it
(`covers_of_tiles`), and `faultFrom?_cons_eq_none_iff` reads the check one token at a time.
-/

import SearchMarkup.Proofs.Query.Coverage
import SearchMarkup.Proofs.Query.ScanSteps
import SearchMarkup.Query.Lexer
import Mathlib.Data.List.Chain

namespace SearchMarkup

/-- A value with the bytes it was read from. -/
def Located.bytes {α : Type} (x : Located α) : α × Nat × Nat :=
  (x.value, x.span.start.offset, x.span.stop.offset)

/-- With its bytes a token is still the same. -/
theorem Located.map_fst_bytes {α : Type} (l : List (Located α)) :
    (l.map bytes).map Prod.fst = l.map value := by
  rw [List.map_map]
  rfl

/-- Tokens tile the text `t` that follows `a`. -/
def Tiles : Text → Text → List (Located Token) → Prop
  | _, t, [] => t = []
  | a, t, x :: xs =>
    x.span = .after a x.value.text ∧
      ∃ rest, t = x.value.text ++ rest ∧ Tiles (a ++ x.value.text) rest xs

/-- The span of a stretch cuts it out. -/
theorem Span.slice?_after (a s b : Text) :
    (Span.after a s).slice? (a ++ s ++ b) = some s :=
  Text.slice?_eq_some_iff.2 ⟨a, b, rfl, by simp [Span.after], by simp [Span.after]⟩

namespace Tiles

variable {a s t : Text} {x : Located Token} {l l' : List (Located Token)}

/-- Two tilings that meet are one. -/
theorem append (h : Tiles a s l) (h' : Tiles (a ++ s) t l') : Tiles a (s ++ t) (l ++ l') := by
  induction l generalizing a s with
  | nil =>
    obtain rfl : s = [] := h
    simpa using h'
  | cons x xs ih =>
    obtain ⟨hx, rest, rfl, hxs⟩ := h
    exact ⟨hx, rest ++ t, by simp, ih hxs (by simpa using h')⟩

/-- The tokens of a tiling have the text. -/
theorem flatMap_text (h : Tiles a t l) : l.flatMap (fun x => x.value.text) = t := by
  induction l generalizing a t with
  | nil => exact h.symm
  | cons x xs ih =>
    obtain ⟨-, rest, rfl, hxs⟩ := h
    rw [List.flatMap_cons, ih hxs]

/-- Each token stands somewhere in the text, under its span. -/
theorem exists_eq_append (h : Tiles a t l) (hx : x ∈ l) :
    ∃ b c, t = b ++ x.value.text ++ c ∧ x.span = .after (a ++ b) x.value.text := by
  induction l generalizing a t with
  | nil => cases hx
  | cons y ys ih =>
    obtain ⟨hy, rest, rfl, hys⟩ := h
    rcases List.mem_cons.1 hx with rfl | hx
    · exact ⟨[], rest, by simp, by simpa using hy⟩
    · obtain ⟨b, c, rfl, hspan⟩ := ih hys hx
      exact ⟨y.value.text ++ b, c, by simp, by simpa using hspan⟩

/-- The span of a token cuts out its text. -/
theorem slice?_eq (h : Tiles a t l) (hx : x ∈ l) :
    x.span.slice? (a ++ t) = some x.value.text := by
  obtain ⟨b, c, rfl, hspan⟩ := h.exists_eq_append hx
  have := Span.slice?_after (a ++ b) x.value.text c
  rw [hspan]
  simpa using this

/-- A token of a tiling covers as many bytes as its text has. -/
theorem size_text (h : Tiles a t l) (hx : x ∈ l) :
    x.span.start.offset + x.value.text.size = x.span.stop.offset := by
  obtain ⟨b, c, -, hspan⟩ := h.exists_eq_append hx
  simp [hspan, Span.after, Nat.add_assoc]

/-- Each span stops where the next one starts. -/
theorem isChain (h : Tiles a t l) : l.IsChain fun x y => x.span.stop = y.span.start := by
  induction l generalizing a t with
  | nil => exact .nil
  | cons x xs ih =>
    obtain ⟨hx, rest, -, hxs⟩ := h
    cases xs with
    | nil => exact .singleton x
    | cons y ys =>
      refine .cons_cons ?_ (ih hxs)
      rw [hx, hxs.1]
      rfl

/-- No token of a tiling begins before the text that is tiled. -/
theorem size_le_offset (h : Tiles a t l) (hx : x ∈ l) : a.size ≤ x.span.start.offset := by
  obtain ⟨b, c, -, hspan⟩ := h.exists_eq_append hx
  simp [hspan, Span.after]

/-- **A character of the text belongs to a token,** the one whose span covers its byte. -/
theorem exists_covers {u v : Text} {d : Char} (h : Tiles a (u ++ d :: v) l) :
    ∃ x ∈ l, x.span.covers (a ++ u).size = true ∧ d ∈ x.value.text := by
  induction l generalizing a u with
  | nil =>
    have hnil : u ++ d :: v = [] := h
    simp at hnil
  | cons x xs ih =>
    obtain ⟨hx, rest, ht, hxs⟩ := h
    rcases List.append_eq_append_iff.1 ht with ⟨w, hw, hrest⟩ | ⟨w, rfl, rfl⟩
    · cases w with
      | nil =>
        obtain rfl : d :: v = rest := hrest
        obtain ⟨y, hy, hcovers, hmem⟩ := ih (u := []) hxs
        rw [hw] at hcovers
        exact ⟨y, List.mem_cons_of_mem x hy, by simpa using hcovers, hmem⟩
      | cons e w =>
        obtain ⟨rfl, -⟩ := List.cons.inj hrest
        have hpos := d.utf8Size_pos
        refine ⟨x, List.mem_cons_self .., Span.covers_iff.2 ?_, by simp [hw]⟩
        simp only [hx, hw, Span.after, Position.offset_after, Text.size_append, Text.size_cons]
        omega
    · obtain ⟨y, hy, hcovers, hmem⟩ := ih hxs
      exact ⟨y, List.mem_cons_of_mem x hy, by simpa using hcovers, hmem⟩

/-- No byte belongs to two tokens. -/
theorem eq_of_covers {n : Nat} {y : Located Token} (h : Tiles a t l) (hx : x ∈ l) (hy : y ∈ l)
    (hxn : x.span.covers n = true) (hyn : y.span.covers n = true) : x = y := by
  induction l generalizing a t with
  | nil => cases hx
  | cons z zs ih =>
    obtain ⟨hz, rest, -, hzs⟩ := h
    rw [Span.covers_iff] at hxn hyn
    -- what follows begins where `z` ends
    have hlater {w : Located Token} (hw : w ∈ zs) : z.span.stop.offset ≤ w.span.start.offset := by
      have hle := hzs.size_le_offset hw
      rwa [hz, Span.after, Position.offset_after]
    rcases List.mem_cons.1 hx with rfl | hxs <;> rcases List.mem_cons.1 hy with rfl | hys
    · rfl
    · have := hlater hys
      omega
    · have := hlater hxs
      omega
    · exact ih hzs hxs hys

/-- A tiling is known by the values of its tokens. -/
theorem eq_of_map_value_eq (h : Tiles a t l) (h' : Tiles a t l')
    (hv : l.map Located.value = l'.map Located.value) : l = l' := by
  induction l generalizing a t l' with
  | nil => exact (List.map_eq_nil_iff.1 hv.symm).symm
  | cons x xs ih =>
    obtain ⟨y, ys, rfl, hy, hys⟩ := List.map_eq_cons_iff.1 hv.symm
    obtain ⟨hx, rest, rfl, hxs⟩ := h
    obtain ⟨hy', rest', hrest, hys'⟩ := h'
    rw [hy] at hy' hrest hys'
    obtain rfl := List.append_cancel_left hrest
    have hxy : x = y := by
      cases x
      cases y
      simp_all
    rw [hxy, ih hxs hys' hys.symm]

end Tiles

namespace TokenSequence

/-- Without tokens there is no fault only if nothing is left. -/
theorem faultFrom?_nil_eq_none_iff {a t : Text} {i : Nat} :
    faultFrom? (a ++ t) i a.size [] = none ↔ t = [] := by
  rw [faultFrom?_eq_none_iff, covers_nil_iff, Text.size_append, ← Text.size_eq_zero]
  omega

/-- No fault is found among tokens exactly when the first stands at the place reached,
with its bytes, and no fault is found among the others after it. -/
theorem faultFrom?_cons_eq_none_iff {a t : Text} {i : Nat} {x : Located Token}
    {xs : List (Located Token)} :
    faultFrom? (a ++ t) i a.size (x :: xs) = none ↔
      x.span.start.offset = a.size ∧ x.span.stop.offset = (a ++ x.value.text).size ∧
        ∃ rest, t = x.value.text ++ rest ∧
          faultFrom? (a ++ x.value.text ++ rest) (i + 1) (a ++ x.value.text).size xs = none := by
  simp only [faultFrom?_eq_none_iff, covers_cons_iff]
  constructor
  · rintro ⟨hstart, htext, hxs⟩
    obtain ⟨rest, rfl, hstop⟩ := (Span.slice?_append_eq_some_iff hstart).1 htext
    rw [hstop, ← List.append_assoc] at hxs
    exact ⟨hstart, hstop, rest, rfl, hxs⟩
  · rintro ⟨hstart, hstop, rest, rfl, hxs⟩
    refine ⟨hstart, (Span.slice?_append_eq_some_iff hstart).2 ⟨rest, rfl, hstop⟩, ?_⟩
    rwa [hstop, ← List.append_assoc]

/-- Faults are a matter of values and bytes. -/
theorem faultFrom?_congr {l l' : List (Located Token)}
    (hb : l.map Located.bytes = l'.map Located.bytes) (t : Text) (i n : Nat) :
    faultFrom? t i n l = faultFrom? t i n l' := by
  induction l generalizing i n l' with
  | nil => rw [List.map_eq_nil_iff.1 hb.symm]
  | cons x xs ih =>
    obtain ⟨y, ys, rfl, hy, hys⟩ := List.map_eq_cons_iff.1 hb.symm
    simp only [Located.bytes, Prod.mk.injEq] at hy
    rw [faultFrom?, faultFrom?, Span.slice?, Span.slice?, hy.1, hy.2.1, hy.2.2,
      ih hys.symm]

/-- Tokens that tile what is left of a text cover it. -/
theorem covers_of_tiles {a t : Text} {l : List (Located Token)} (h : Tiles a t l) :
    Covers (a ++ t) a.size l (a ++ t).size := by
  induction l generalizing a t with
  | nil =>
    obtain rfl : t = [] := h
    exact covers_nil_iff.2 (by rw [List.append_nil])
  | cons x xs ih =>
    obtain ⟨hx, rest, rfl, hxs⟩ := h
    have hstart : x.span.start.offset = a.size := by
      rw [hx]
      exact Position.offset_after a
    have hstop : x.span.stop.offset = (a ++ x.value.text).size := by
      rw [hx]
      exact Position.offset_after (a ++ x.value.text)
    refine covers_cons_iff.2 ⟨hstart,
      (Span.slice?_append_eq_some_iff hstart).2 ⟨rest, rfl, hstop⟩, ?_⟩
    rw [hstop, ← List.append_assoc]
    exact ih hxs

/-- A tiling has no fault. -/
theorem faultFrom?_eq_none_of_tiles {a t : Text} {l : List (Located Token)}
    (h : Tiles a t l) (i : Nat) : faultFrom? (a ++ t) i a.size l = none :=
  faultFrom?_eq_none_iff.2 (covers_of_tiles h)

end TokenSequence

namespace Scan

/-- Plain text is tiled by its token. -/
theorem tiles_token (a u : Text) : Tiles a u (PlainRun.token a u) := by
  by_cases hu : u = []
  · simp [PlainRun.token, Tiles, hu]
  · rw [PlainRun.token, if_neg hu]
    exact ⟨rfl, [], (List.append_nil u).symm, rfl⟩

/-- **The tokens of a scan tile what was scanned.** -/
theorem tiles_resume (a u rest : Text) : Tiles a (u ++ rest) (resume a u rest).tokens := by
  fun_induction resume a u rest with
  | case1 a u => simpa using tiles_token a u
  | case2 a u c t m h ih =>
    obtain ⟨hr, -⟩ := Rule.rest_eq_of_best h
    rw [hr]
    exact (tiles_token a u).append ⟨rfl, m.rest, rfl, ih⟩
  | case3 a u c t h ih => simpa using ih

/-- No token of a scan is empty. -/
theorem text_ne_nil_of_mem_resume {a u rest : Text} {x : Located Token}
    (hx : x ∈ (resume a u rest).tokens) : x.value.text ≠ [] := by
  fun_induction resume a u rest with
  | case1 a u =>
    obtain ⟨hu, rfl⟩ := PlainRun.mem_token.1 hx
    exact hu
  | case2 a u c t m h ih =>
    rcases List.mem_append.1 hx with hx | hx
    · obtain ⟨hu, rfl⟩ := PlainRun.mem_token.1 hx
      exact hu
    · rcases List.mem_cons.1 hx with rfl | hx
      · exact (Rule.rest_eq_of_best h).2
      · exact ih hx
  | case3 a u c t h ih => exact ih hx

/-- The tokens of a text tile it. -/
theorem tiles_ofText (t : Text) : Tiles [] t (ofText t).tokens := by
  rw [ofText_eq_resume]
  exact tiles_resume [] [] t

/-- The tokens of a text have its text. -/
theorem flatMap_text_ofText (t : Text) :
    ((ofText t).tokens.map Located.value).flatMap Token.text = t :=
  (List.flatMap_map ..).trans (tiles_ofText t).flatMap_text

/-- No token of a text is empty. -/
theorem text_ne_nil_of_mem_ofText {t : Text} {x : Located Token} (hx : x ∈ (ofText t).tokens) :
    x.value.text ≠ [] := by
  rw [ofText_eq_resume] at hx
  exact text_ne_nil_of_mem_resume hx

end Scan

namespace Lexer

/-- **A tokenized query is covered by its tokens without a gap.** -/
theorem tokenize_covers (x : Lexer) (t : Text) :
    let s := (x.tokenize t).value.1
    s.text = t ∧ s.coverageFault? t = none ∧ s.sourceSize = t.size ∧
      (∀ y ∈ s.tokens, y.span.start.offset < y.span.stop.offset ∧
        y.span.slice? t = some y.value.text) ∧
      s.tokens.IsChain fun y z => y.span.stop = z.span.start := by
  have h := Scan.tiles_ofText t
  refine ⟨Scan.flatMap_text_ofText t, TokenSequence.faultFrom?_eq_none_of_tiles h 0, rfl,
    fun y hy => ⟨?_, h.slice?_eq hy⟩, h.isChain⟩
  have hne := Scan.text_ne_nil_of_mem_ofText hy
  have hpos : 0 < y.value.text.size :=
    Nat.pos_of_ne_zero fun h₀ => hne (Text.size_eq_zero.1 h₀)
  have := h.size_text hy
  omega

end Lexer
end SearchMarkup
