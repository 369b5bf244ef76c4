/-
# Lines written into a text

A text that can stand on a line holds no line feed and does not end in a carriage return,
for that one would be taken for a part of the terminator. Lines are written one after the
other, each with a terminator of its own choice:

| line | terminator |
| --- | --- |
| any | a line feed |
| any | a carriage return and a line feed |
| the last | none |

Up to the next line feed a line only grows (`linesFrom_append`), so the lines of the text
are those that were written (`lines_feed`, `lines_returnFeed`), with one exception: a last
line that is empty and has no terminator leaves no trace. It is blank, and among the lines
that hold more than white space it is not missed (`nonBlankLines_of_written`).

A choice of terminators is a list of its own beside the lines (`joinLines`).
-/

import SearchMarkup.Text.Lines

namespace SearchMarkup
namespace Text

variable {l t : Text} {ls : List Text}

/-- A text that can stand on a line. -/
structure IsLine (l : Text) : Prop where
  feed_notMem : '\n' ∉ l
  getLast?_ne : l.getLast? ≠ some '\r'

/-- Lines written into a text one after the other. -/
inductive Written : List Text → Text → Prop where
  | nil : Written [] []
  | last (l : Text) : Written [l] l
  | feed (l : Text) {ls : List Text} {t : Text} (h : Written ls t) :
    Written (l :: ls) (l ++ '\n' :: t)
  | returnFeed (l : Text) {ls : List Text} {t : Text} (h : Written ls t) :
    Written (l :: ls) (l ++ '\r' :: '\n' :: t)

/-- Without a line feed the line that has begun goes on. -/
theorem linesFrom_append (hl : '\n' ∉ l) (current t : Text) :
    linesFrom current (l ++ t) = linesFrom (l.reverse ++ current) t := by
  induction l generalizing current with
  | nil => rfl
  | cons c l ih =>
    have hstep : linesFrom current (c :: (l ++ t)) = linesFrom (c :: current) (l ++ t) := by
      rw [linesFrom]
      exact (List.ne_of_not_mem_cons hl).symm
    rw [List.cons_append, hstep, ih (List.not_mem_of_not_mem_cons hl), List.reverse_cons,
      List.append_assoc, List.singleton_append]

/-- A line ends before a line feed, and before the carriage return in front of it. -/
theorem lines_append_feed (hl : '\n' ∉ l) (t : Text) :
    lines (l ++ '\n' :: t) = dropCarriageReturn l :: lines t := by
  rw [lines, linesFrom_append hl, List.append_nil, linesFrom, List.reverse_reverse, lines]

/-- A line closed by a line feed is one. -/
theorem lines_feed (h : l.IsLine) (t : Text) : lines (l ++ '\n' :: t) = l :: lines t := by
  rw [lines_append_feed h.feed_notMem, dropCarriageReturn, if_neg h.getLast?_ne]

/-- A line closed by a carriage return and a line feed is one too. -/
theorem lines_returnFeed (h : l.IsLine) (t : Text) :
    lines (l ++ '\r' :: '\n' :: t) = l :: lines t := by
  have hnotMem : '\n' ∉ l ++ ['\r'] := by simp [h.feed_notMem]
  rw [show l ++ '\r' :: '\n' :: t = (l ++ ['\r']) ++ '\n' :: t by simp,
    lines_append_feed hnotMem, dropCarriageReturn]
  simp

/-- Lines that are all ended by a line feed. -/
theorem lines_flatMap_feed (hls : ∀ l ∈ ls, l.IsLine) : lines (ls.flatMap (· ++ ['\n'])) = ls := by
  induction ls with
  | nil => rfl
  | cons l ls ih =>
    obtain ⟨hl, hls⟩ := List.forall_mem_cons.1 hls
    rw [List.flatMap_cons, List.append_assoc, List.singleton_append, lines_feed hl, ih hls]

/-- Lines closed by line feeds have one each. -/
theorem count_flatMap_feed (hls : ∀ l ∈ ls, l.IsLine) :
    (ls.flatMap (· ++ ['\n'])).count '\n' = ls.length := by
  induction ls with
  | nil => rfl
  | cons l ls ih =>
    obtain ⟨hl, hls⟩ := List.forall_mem_cons.1 hls
    have hnone : l.count '\n' = 0 := List.count_eq_zero_of_not_mem hl.feed_notMem
    rw [List.flatMap_cons, List.count_append, List.count_append, hnone, ih hls, List.length_cons,
      List.count_singleton_self, Nat.zero_add, Nat.add_comm]

/-- What is left at the end is a line unless it is empty. -/
theorem lines_last (hl : '\n' ∉ l) : lines l = if l.isEmpty then [] else [l] := by
  have := linesFrom_append hl [] []
  simpa [lines, linesFrom] using this

/-- **The lines that are written are read back,** those that are not blank. -/
theorem nonBlankLines_of_written (hls : ∀ l ∈ ls, l.IsLine) (h : Written ls t) :
    nonBlankLines t = ls.filter fun l => !l.isBlank := by
  induction h with
  | nil => rfl
  | last l =>
    have hl := hls l (List.mem_singleton_self l)
    rw [nonBlankLines, lines_last hl.feed_notMem]
    cases l <;> rfl
  | feed l _ ih =>
    obtain ⟨hl, hls⟩ := List.forall_mem_cons.1 hls
    simp only [nonBlankLines, lines_feed hl, List.filter_cons] at ih ⊢
    rw [ih hls]
  | returnFeed l _ ih =>
    obtain ⟨hl, hls⟩ := List.forall_mem_cons.1 hls
    simp only [nonBlankLines, lines_returnFeed hl, List.filter_cons] at ih ⊢
    rw [ih hls]

/-! ## Lines and the terminators chosen for them -/

/-- A terminator of lines. -/
inductive LineEnd where
  | feed
  | returnFeed
  deriving DecidableEq, Repr

/-- The characters that a line is closed with. -/
def LineEnd.text : LineEnd → Text
  | .feed => ['\n']
  | .returnFeed => ['\r', '\n']

/-- Lines one after the other, each with its terminator; the last has none unless the text is
to be closed. -/
def joinLines (closed : Bool) : List (Text × LineEnd) → Text
  | [] => []
  | [x] => if closed then x.1 ++ x.2.text else x.1
  | x :: y :: xs => x.1 ++ (x.2.text ++ joinLines closed (y :: xs))

/-- A line may be put in front, with either end. -/
theorem Written.cons (h : Written ls t) (l : Text) (e : LineEnd) :
    Written (l :: ls) (l ++ (e.text ++ t)) := by
  cases e with
  | feed => exact .feed l h
  | returnFeed => exact .returnFeed l h

/-- Lines that are joined are written, whatever their ends. -/
theorem written_joinLines (closed : Bool) (xs : List (Text × LineEnd)) :
    Written (xs.map Prod.fst) (joinLines closed xs) := by
  fun_induction joinLines closed xs with
  | case1 => exact .nil
  | case2 x hclosed =>
    have h := Written.nil.cons x.1 x.2
    rwa [List.append_nil] at h
  | case3 x hopen => exact .last x.1
  | case4 x y xs ih => exact ih.cons x.1 x.2

/-- **Each terminator may be chosen for itself,** and the last one may be left out: the lines
that hold more than white space are read back as they were, and no others. -/
theorem nonBlankLines_joinLines (closed : Bool) (xs : List (Text × LineEnd))
    (h : ∀ x ∈ xs, '\n' ∉ x.1 ∧ x.1.getLast? ≠ some '\r') :
    nonBlankLines (joinLines closed xs) =
      (xs.map Prod.fst).filter fun l => l.any fun c => !isBlankChar c := by
  have hlines : ∀ l ∈ xs.map Prod.fst, l.IsLine := by
    intro l hl
    obtain ⟨x, hx, rfl⟩ := List.mem_map.1 hl
    exact ⟨(h x hx).1, (h x hx).2⟩
  rw [nonBlankLines_of_written hlines (written_joinLines closed xs)]
  simp only [isBlank, List.not_all_eq_any_not]

/-- A carriage return inside a line stays there, as do the blanks around a text. The line of a
no-break space and a tab is left out, and so is the empty line between two others. -/
theorem nonBlankLines_joinLines_inner_return :
    let xs : List (Text × LineEnd) := [(['a', '\r', 'b'], .returnFeed), (['\u00a0', '\t'], .feed),
      ([], .returnFeed), ([' ', 'ü', '\u3000'], .feed)]
    (∀ x ∈ xs, '\n' ∉ x.1 ∧ x.1.getLast? ≠ some '\r') ∧
      ∀ closed, nonBlankLines (joinLines closed xs) = [['a', '\r', 'b'], [' ', 'ü', '\u3000']] := by
  intro xs
  have hlines : ∀ x ∈ xs, '\n' ∉ x.1 ∧ x.1.getLast? ≠ some '\r' := by decide
  refine ⟨hlines, fun closed => ?_⟩
  rw [nonBlankLines_joinLines closed xs hlines]
  decide

end Text
end SearchMarkup
