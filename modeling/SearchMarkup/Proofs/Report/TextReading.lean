/-
# Reading the text of a report

As text a report has lines, which line feeds end, and columns, which tabs part.

| report | line | columns |
| --- | --- | --- |
| of a query | one for each token | its place, its kind, its text in quotes |
| of snippets | one for each segment | a label, its text in quotes |
| of snippets | an empty one between paragraphs | |

Columns are visible throughout (`Text.isVisible_of_mem_quote`), so no text that is shown begins
a line, a column or a paragraph of its own.  Lines, columns and what was quoted are read back.
For snippets it matters that no paragraph is empty: one that is, with no other beside it, would
leave no trace.
-/

import SearchMarkup.Proofs.Query.Tiling
import SearchMarkup.Proofs.Report.ShownDocument
import SearchMarkup.Proofs.Text.Unquoting
import SearchMarkup.Proofs.Text.WrittenLines
import Mathlib.Data.List.Forall2

namespace SearchMarkup

variable {α : Type}

/-- Whatever holds of a separator and of some lists holds of their join. -/
theorem forall_mem_intercalate {P : α → Prop} {sep : List α} {ls : List (List α)}
    (hsep : ∀ a ∈ sep, P a) (hls : ∀ l ∈ ls, ∀ a ∈ l, P a) : ∀ a ∈ sep.intercalate ls, P a := by
  induction ls with
  | nil => exact fun a ha => nomatch ha
  | cons l ls ih =>
    obtain ⟨hl, hls⟩ := List.forall_mem_cons.1 hls
    cases ls with
    | nil =>
      rw [List.intercalate_singleton]
      exact hl
    | cons l' ls =>
      rw [List.intercalate_cons_cons]
      intro a ha
      rw [List.mem_append, List.mem_append] at ha
      rcases ha with (ha | ha) | ha
      · exact hl a ha
      · exact hsep a ha
      · exact ih hls a ha

/-- What is put for each item may be put before or after joining. -/
theorem flatMap_intercalate {β : Type} (f : α → List β) (sep : List α) (ls : List (List α)) :
    (sep.intercalate ls).flatMap f = (sep.flatMap f).intercalate (ls.map fun l => l.flatMap f) := by
  induction ls with
  | nil => rfl
  | cons l ls ih =>
    cases ls with
    | nil => simp only [List.map_cons, List.map_nil, List.intercalate_singleton]
    | cons l' ls =>
      rw [List.map_cons] at ih
      simp only [List.map_cons, List.intercalate_cons_cons, List.flatMap_append, ih]

/-- Where each value is read back from what was written for it, a list of them is. -/
theorem mapM_map_eq_some {β γ : Type} {write : α → β} {read : β → Option γ} {value : α → γ}
    (h : ∀ a, read (write a) = some (value a)) (l : List α) :
    (l.map write).mapM read = some (l.map value) := by
  have hread : read ∘ write = fun a => pure (value a) := funext h
  rw [List.mapM_map, hread, List.mapM_pure]
  rfl

/-! ## Rows of columns -/

namespace Text

/-- A text of which each character can be seen. -/
def IsShown (t : Text) : Prop := ∀ c ∈ t, isVisible c = true

instance : DecidablePred IsShown := fun t =>
  decidable_of_iff (t.all isVisible = true) List.all_eq_true

/-- A text is shown if its parts are. -/
theorem IsShown.append {s t : Text} (hs : s.IsShown) (ht : t.IsShown) : (s ++ t).IsShown :=
  List.forall_mem_append.2 ⟨hs, ht⟩

/-- A shown text has no character that is not visible. -/
theorem IsShown.notMem {t : Text} (h : t.IsShown) {c : Char} (hc : isVisible c = false) : c ∉ t :=
  fun hmem => Bool.false_ne_true (hc.symm.trans (h c hmem))

/-- A text in quotes is shown. -/
theorem isShown_quote (t : Text) : (quote t).IsShown := fun _ => isVisible_of_mem_quote

/-- Columns with a tab between any two. -/
def row (columns : List Text) : Text := ['\t'].intercalate columns

variable {columns : List Text}

/-- A row can stand on a line. -/
theorem isLine_row (h : ∀ t ∈ columns, t.IsShown) : (row columns).IsLine := by
  have hall : ∀ c ∈ row columns, c ≠ '\n' ∧ c ≠ '\r' := by
    have htab : '\t' ≠ '\n' ∧ '\t' ≠ '\r' := by decide
    refine forall_mem_intercalate (List.forall_mem_singleton.2 htab) fun t ht c hc => ⟨?_, ?_⟩
    · rintro rfl
      exact (h t ht).notMem (by decide) hc
    · rintro rfl
      exact (h t ht).notMem (by decide) hc
  refine ⟨fun hmem => (hall _ hmem).1 rfl, fun hlast => ?_⟩
  exact (hall _ (List.mem_of_getLast? hlast)).2 rfl

/-- **The columns of a row are read back.** -/
theorem splitOn_row (h : ∀ t ∈ columns, t.IsShown) (hne : columns ≠ []) :
    (row columns).splitOn '\t' = columns :=
  List.splitOn_intercalate '\t' (fun t ht => (h t ht).notMem (by decide)) hne

/-- A row has a tab less than columns. -/
theorem count_row (h : ∀ t ∈ columns, t.IsShown) :
    (row columns).count '\t' = columns.length - 1 := by
  induction columns with
  | nil => rfl
  | cons t ts ih =>
    obtain ⟨ht, hts⟩ := List.forall_mem_cons.1 h
    have hnone : t.count '\t' = 0 := List.count_eq_zero_of_not_mem (ht.notMem (by decide))
    cases ts with
    | nil =>
      rw [row, List.intercalate_singleton]
      exact hnone
    | cons t' ts =>
      rw [row, List.intercalate_cons_cons, List.count_append, List.count_append, hnone, ← row,
        ih hts]
      simp [Nat.add_comm 1]

end Text

/-! ## Places and kinds -/

open Text (IsShown)

/-- Digits are shown. -/
theorem Position.isShown_digits (n : UInt32) : IsShown (digits n).toList := by
  intro c hc
  have htoList : (digits n).toList = Nat.toDigits 10 n.toNat := Nat.toList_repr
  rw [htoList] at hc
  have hdigit : c.isDigit = true := Nat.isDigit_of_mem_toDigits (by decide) (by decide) hc
  obtain ⟨hlow, hhigh⟩ := Char.isDigit_iff_toNat.1 hdigit
  have hlow : 48 ≤ c.toNat := hlow
  have hhigh : c.toNat ≤ 57 := hhigh
  rw [Text.isVisible, if_pos (by omega), Bool.and_eq_true, decide_eq_true_iff,
    decide_eq_true_iff]
  omega

/-- A place is shown. -/
theorem Position.isShown_display (p : Position) : IsShown p.display.toList := by
  have hcolon : IsShown ":".toList := by decide
  rw [display, String.toList_append, String.toList_append]
  exact ((isShown_digits p.line).append hcolon).append (isShown_digits p.column)

/-- A span is shown. -/
theorem Span.isShown_display (s : Span) : IsShown s.display.toList := by
  have hdash : IsShown "-".toList := by decide
  unfold display
  split <;> rw [String.toList_append, String.toList_append]
  · exact (s.start.isShown_display.append hdash).append (Position.isShown_digits _)
  · exact (s.start.isShown_display.append hdash).append s.stop.isShown_display

/-- The name of a kind is shown. -/
theorem TokenKind.isShown_name (k : TokenKind) : IsShown k.name.toList := by
  cases k <;> decide

/-! ## The report of a query -/

namespace QueryReport

/-- The columns of a token. -/
def columns (x : Located Token) : List Text :=
  [x.span.display.toList, x.value.kind.name.toList, x.value.text.quote]

/-- The line of a token is its columns. -/
theorem tokenLine_eq (x : Located Token) : tokenLine x = Text.row (columns x) ++ ['\n'] := by
  simp [tokenLine, Text.row, columns]

/-- Each column of a token is shown. -/
theorem isShown_columns (x : Located Token) : ∀ t ∈ columns x, t.IsShown := by
  simp only [columns, List.forall_mem_cons]
  exact ⟨x.span.isShown_display, x.value.kind.isShown_name, Text.isShown_quote _, nofun⟩

/-- A line is split into its columns at the tabs. -/
theorem splitOn_columns (x : Located Token) : (Text.row (columns x)).splitOn '\t' = columns x :=
  Text.splitOn_row (isShown_columns x) (List.cons_ne_nil _ _)

/-- What is quoted in the third column of a line. -/
def tokenText? (l : Text) : Option Text := (l.splitOn '\t')[2]?.bind Text.unquote?

/-- The line of a token gives its text back. -/
theorem tokenText?_row (x : Located Token) :
    tokenText? (Text.row (columns x)) = some x.value.text := by
  rw [tokenText?, splitOn_columns]
  exact Text.unquote?_quote _

/-- The query that a text shows the tokens of. -/
def readText? (t : Text) : Option Text := (t.lines.mapM tokenText?).map List.flatten

/-- What can be read in the text of a report of the query `t`. -/
structure ReadsBack (r : QueryReport) (t : Text) : Prop where
  /-- Every line is ended by a line feed. -/
  ended : r.text = r.text.lines.flatMap (· ++ ['\n'])
  /-- There is a line for each token. -/
  feeds : r.text.count '\n' = r.tokens.tokens.length
  /-- A line has two tabs. -/
  tabs : ∀ l ∈ r.text.lines, l.count '\t' = 2
  /-- The columns are those of the tokens. -/
  columns : r.text.lines.map (·.splitOn '\t') = r.tokens.tokens.map columns
  /-- What stands in the third ones makes up the query. -/
  query : readText? r.text = some t

/-- The lines of a report. -/
def rows (r : QueryReport) : List Text := r.tokens.tokens.map fun x => Text.row (columns x)

/-- The rows of a report are lines. -/
theorem isLine_rows (r : QueryReport) : ∀ l ∈ r.rows, l.IsLine :=
  List.forall_mem_map.2 fun x _ => Text.isLine_row (isShown_columns x)

/-- A report as text is its rows. -/
theorem text_eq (r : QueryReport) : r.text = r.rows.flatMap (· ++ ['\n']) := by
  rw [text, rows, List.flatMap_map]
  exact congrArg (r.tokens.tokens.flatMap ·) (funext tokenLine_eq)

/-- The lines of a report are its rows. -/
theorem lines_text (r : QueryReport) : r.text.lines = r.rows := by
  rw [text_eq, Text.lines_flatMap_feed r.isLine_rows]

/-- So a report as text gives the text of the tokens back. -/
theorem readText?_text (r : QueryReport) : readText? r.text = some r.tokens.text := by
  rw [readText?, lines_text, rows, mapM_map_eq_some tokenText?_row]
  exact congrArg some (List.flatMap_map ..).symm

/-- **The text of a report is read back** as that of its tokens. -/
theorem readsBack (r : QueryReport) : r.ReadsBack r.tokens.text where
  ended := by rw [lines_text, ← text_eq]
  feeds := by rw [text_eq, Text.count_flatMap_feed r.isLine_rows, rows, List.length_map]
  tabs := by
    rw [lines_text]
    exact List.forall_mem_map.2 fun x _ => Text.count_row (isShown_columns x)
  columns := by
    rw [lines_text, rows, List.map_map]
    exact List.map_congr_left fun x _ => splitOn_columns x
  query := r.readText?_text

end QueryReport
/-! ## The report of snippets -/

namespace SnippetReport

/-- What a segment is called. -/
def label (marked : Bool) : Text := (if marked then "marked" else "text").toList

/-- The columns of a segment. -/
def columns (s : Segment) : List Text := [label s.marked, s.text.quote]

/-- The line of a segment is its columns. -/
theorem segmentLine_eq (s : Segment) : segmentLine s = Text.row (columns s) ++ ['\n'] := by
  simp [segmentLine, Text.row, columns, label]

/-- Each column of a segment is shown. -/
theorem isShown_columns (s : Segment) : ∀ t ∈ columns s, t.IsShown := by
  have hlabel : (label s.marked).IsShown := by cases s.marked <;> decide
  simp only [columns, List.forall_mem_cons]
  exact ⟨hlabel, Text.isShown_quote _, nofun⟩

/-- The line of a segment is not blank. -/
theorem row_columns_ne_nil (s : Segment) : Text.row (columns s) ≠ [] := by
  simp [Text.row, columns]

/-- Whether a label is that of marked segments. -/
def marked? (t : Text) : Option Bool := [true, false].find? fun b => t = label b

/-- The segment of a line. -/
def readSegment? (l : Text) : Option Segment :=
  match l.splitOn '\t' with
  | [t, quoted] => return ⟨← marked? t, ← Text.unquote? quoted⟩
  | _ => none

/-- The line of a segment gives it back. -/
theorem readSegment?_row (s : Segment) : readSegment? (Text.row (columns s)) = some s := by
  have hmarked : ∀ b, marked? (label b) = some b := by decide
  rw [readSegment?, Text.splitOn_row (isShown_columns s) (List.cons_ne_nil _ _)]
  simp [columns, hmarked, Text.unquote?_quote]

/-- The paragraphs that a text shows, which empty lines part. -/
def readText? (t : Text) : Option (List (List Segment)) :=
  if t.isEmpty then some [] else (t.lines.splitOn []).mapM fun ls => ls.mapM readSegment?

/-- The lines of paragraphs. -/
def paragraphRows (ps : List (List Segment)) : List (List Text) :=
  ps.map fun p => p.map fun s => Text.row (columns s)

/-- What can be read in the text of a report of snippets. -/
structure ReadsBack (r : SnippetReport) : Prop where
  /-- Every line is ended by a line feed. -/
  ended : r.text = r.text.lines.flatMap (· ++ ['\n'])
  /-- The lines are those of the segments, with an empty one between any two paragraphs. -/
  rows : r.text.lines = [[]].intercalate (paragraphRows r.body.paragraphs)
  /-- There is no empty line elsewhere. -/
  ne_nil : ∀ p ∈ paragraphRows r.body.paragraphs, p ≠ [] ∧ ∀ l ∈ p, l ≠ []
  /-- The text shows just these paragraphs. -/
  paragraphs : readText? r.text = some r.body.paragraphs

/-- A report as text is the lines of its paragraphs, with a blank one between any two. -/
theorem text_eq (r : SnippetReport) : r.text =
    ([[]].intercalate (paragraphRows r.body.paragraphs)).flatMap (· ++ ['\n']) := by
  have hparagraph (p : List Segment) : paragraphText p =
      (p.map fun s => Text.row (columns s)).flatMap (· ++ ['\n']) := by
    rw [paragraphText, List.flatMap_map]
    exact congrArg (p.flatMap ·) (funext segmentLine_eq)
  rw [flatMap_intercalate, paragraphRows, List.map_map, text]
  exact congrArg ['\n'].intercalate (List.map_congr_left fun p _ => hparagraph p)

/-- The lines of a report are just these. -/
theorem lines_text (r : SnippetReport) :
    r.text.lines = [[]].intercalate (paragraphRows r.body.paragraphs) := by
  rw [text_eq]
  refine Text.lines_flatMap_feed (forall_mem_intercalate ?_ ?_)
  · exact List.forall_mem_singleton.2 ⟨nofun, nofun⟩
  · refine List.forall_mem_map.2 fun p _ => List.forall_mem_map.2 fun s _ => ?_
    exact Text.isLine_row (isShown_columns s)

section

variable {r : SnippetReport} (h : ∀ p ∈ r.body.paragraphs, p ≠ [])

include h

/-- No paragraph is without lines, and none of its lines is blank. -/
theorem ne_nil_of_mem_paragraphRows :
    ∀ ls ∈ paragraphRows r.body.paragraphs, ls ≠ [] ∧ ∀ l ∈ ls, l ≠ [] := by
  refine List.forall_mem_map.2 fun p hp => ⟨?_, ?_⟩
  · exact mt List.map_eq_nil_iff.1 (h p hp)
  · exact List.forall_mem_map.2 fun s _ => row_columns_ne_nil s

/-- **The paragraphs are read back** if none of them is empty. -/
theorem readText?_text : readText? r.text = some r.body.paragraphs := by
  by_cases hps : r.body.paragraphs = []
  · rw [text, hps]
    rfl
  · have hne := ne_nil_of_mem_paragraphRows h
    have hsplit : r.text.lines.splitOn [] = paragraphRows r.body.paragraphs := by
      rw [lines_text]
      refine List.splitOn_intercalate [] (fun ls hls hmem => ?_) (mt List.map_eq_nil_iff.1 hps)
      exact (hne ls hls).2 [] hmem rfl
    have htext : r.text ≠ [] := by
      intro hnil
      -- No line at all would be that of one paragraph without lines.
      rw [hnil] at hsplit
      exact (hne [] (hsplit ▸ List.mem_singleton_self [])).1 rfl
    have hparagraph (p : List Segment) :
        (p.map fun s => Text.row (columns s)).mapM readSegment? = some p := by
      rw [mapM_map_eq_some readSegment?_row, List.map_id']
    rw [readText?, if_neg (mt List.isEmpty_iff.1 htext), hsplit, paragraphRows,
      mapM_map_eq_some hparagraph, List.map_id']

/-- A report about snippets reads back. -/
theorem readsBack : r.ReadsBack where
  ended := by rw [lines_text, ← text_eq]
  rows := r.lines_text
  ne_nil := ne_nil_of_mem_paragraphRows h
  paragraphs := readText?_text h

end

end SnippetReport

/-- No paragraph of a document is empty: a highlight has a segment, be it empty itself. -/
theorem SnippetDocument.ne_nil_of_mem_shown (tags : MarkerTags) (d : SnippetDocument) :
    ∀ p ∈ (d.shown tags).paragraphs, p ≠ [] := by
  unfold shown
  split
  · nofun
  · exact List.forall_mem_singleton.2 (List.cons_ne_nil _ _)
  · refine List.forall_mem_map.2 fun t _ => ?_
    rw [Decomposition.segments_ofText]
    exact Decomposition.segments_ne_nil

/-! ## Every report -/

/-- So does a report about a query, with all of the query. -/
theorem QueryReport.readsBack_highlightWith (x : Lexer) (s : RenderSettings) (e : Elapsed)
    (t : Text) : (highlightWith x s e t).value.1.ReadsBack t := by
  have htext : (highlightWith x s e t).value.1.tokens.text = t := Scan.flatMap_text_ofText t
  have hreads := (highlightWith x s e t).value.1.readsBack
  rwa [htext] at hreads

/-- And so do reports about queries, one by one. -/
theorem QueryReport.readsBack_highlightEach (x : Lexer) (s : RenderSettings) (e : Elapsed)
    (ts : List Text) : List.Forall₂ ReadsBack (highlightEach x s e ts).value.1 ts := by
  induction ts generalizing x with
  | nil => exact .nil
  | cons t ts ih => exact .cons (readsBack_highlightWith x s e t) (ih _)

/-- **The text of every report can be read back,** that of a query to the query and that of
snippets to the paragraphs. -/
theorem reports_readBack (s : Settings) (timing : Timing) :
    (∀ t, (highlightQuery s timing.elapsed t).value.ReadsBack t) ∧
      (∀ ts, List.Forall₂ QueryReport.ReadsBack (highlightQueries s timing ts).value ts) ∧
      (∀ tags items, (highlightSnippets s tags timing items).value.ReadsBack) ∧
      ∀ tags d, (highlightDocument s tags timing d).value.ReadsBack := by
  have hdocument (tags : MarkerTags) (d : SnippetDocument) :
      (highlightDocument s tags timing d).value.ReadsBack := by
    rw [value_highlightDocument]
    exact SnippetReport.readsBack (d.ne_nil_of_mem_shown tags)
  refine ⟨QueryReport.readsBack_highlightWith _ _ _, QueryReport.readsBack_highlightEach _ _ _,
    fun tags items => ?_, hdocument⟩
  rw [highlightSnippets_eq]
  exact hdocument tags _

end SearchMarkup
