/-
# Lines of a text

A line ends at a line feed; a carriage return right before that line feed belongs
to the terminator. The last line needs no terminator, and no line follows one.
-/

import SearchMarkup.Text.Blank

namespace SearchMarkup
namespace Text

/-- A line without the carriage return that may end it. -/
def dropCarriageReturn (line : Text) : Text :=
  if line.getLast? = some '\r' then line.dropLast else line

/-- The line that begins a text, with its terminator removed, before the lines of
the rest; `current` holds the characters of that line so far, last one first. -/
def linesFrom (current : Text) : Text → List Text
  | [] => if current.isEmpty then [] else [current.reverse]
  | '\n' :: t => dropCarriageReturn current.reverse :: linesFrom [] t
  | c :: t => linesFrom (c :: current) t

/-- The lines of a text. -/
def lines (t : Text) : List Text := linesFrom [] t

/-- The lines of a text that hold more than white space. -/
def nonBlankLines (t : Text) : List Text := (lines t).filter fun line => !line.isBlank

end Text
end SearchMarkup
