/-
# The tokens of one query, in order

A sequence of located tokens *covers* a source text when the spans begin at byte 0,
each begins where the one before it ends, each token's text stands under its span,
and the last span ends where the source does. `coverageFault?` names the first thing
that is wrong.

`tokenAt?` finds the token at an offset by halving the list of span ends.
-/

import SearchMarkup.Limits
import SearchMarkup.Position
import SearchMarkup.Query.Token

namespace SearchMarkup

/-- Located tokens with the byte length of the text they were read from. -/
structure TokenSequence where
  tokens : List (Located Token)
  sourceSize : Nat
  deriving DecidableEq, Repr

/-- Why a sequence does not cover a source text. -/
inductive CoverageFault where
  /-- A token does not begin where the one before it ended. -/
  | gap (index expected found : Nat)
  /-- The source has another text under a token's span, or none. -/
  | mismatch (index offset : Nat)
  /-- The tokens stop before the end of the source. -/
  | incomplete (covered size : Nat)
  deriving DecidableEq, Repr

namespace CoverageFault

def message : CoverageFault → String
  | .gap index expected found =>
    "Token " ++ toString index ++ " starts at byte " ++ toString found ++ ", expected "
      ++ toString expected
  | .mismatch index offset =>
    "Token " ++ toString index ++ " text does not match source at byte " ++ toString offset
  | .incomplete covered size =>
    "Tokens cover " ++ toString covered ++ " bytes of " ++ toString size

end CoverageFault

namespace TokenSequence

/-- The tokens without their places. -/
def values (s : TokenSequence) : List Token := s.tokens.map Located.value

/-- The texts of all tokens, joined. -/
def text (s : TokenSequence) : Text := s.values.flatMap Token.text

/-- The texts of all tokens, written into room for as many bytes as the source is said to
have; no text has room for more than `Limits.textSize`. -/
def rebuilt? (s : TokenSequence) : Option Text :=
  if s.sourceSize ≤ Limits.textSize then some s.text else none

/-- How many tokens there are of each kind. -/
def counts (s : TokenSequence) : TokenCounts := TokenCounts.ofTokens s.values

/-- The tokens of a kind, in their order. -/
def ofKind (s : TokenSequence) (k : TokenKind) : List (Located Token) :=
  s.tokens.filter fun t => t.value.kind == k

/-- The first fault among tokens that should go on at byte `expected`; `index` counts
the tokens before them. -/
def faultFrom? (source : Text) (index expected : Nat) :
    List (Located Token) → Option CoverageFault
  | [] => if expected = source.size then none else some (.incomplete expected source.size)
  | t :: rest =>
    if t.span.start.offset ≠ expected then
      some (.gap index expected t.span.start.offset)
    else if t.span.slice? source ≠ some t.value.text then
      some (.mismatch index t.span.start.offset)
    else faultFrom? source (index + 1) t.span.stop.offset rest

/-- The first fault of a sequence as a cover of a source text, if any. -/
def coverageFault? (s : TokenSequence) (source : Text) : Option CoverageFault :=
  faultFrom? source 0 0 s.tokens

/-- Halving search between `base` and `base + size` for the number of leading tokens
that end at or before an offset. With the ends in order that number is unique;
without, this is the one the halving meets. -/
def endedBefore (tokens : Array (Located Token)) (offset base : Nat) : Nat → Nat
  | 0 => base
  | 1 =>
    if h : base < tokens.size then
      if tokens[base].span.stop.offset ≤ offset then base + 1 else base
    else base
  | size + 2 =>
    let half := (size + 2) / 2
    let middle := base + half
    let base' :=
      if h : middle < tokens.size then
        if tokens[middle].span.stop.offset ≤ offset then middle else base
      else base
    endedBefore tokens offset base' (size + 2 - half)
  termination_by size => size
  decreasing_by omega

/-- The token at a byte offset. The end of the source belongs to the last token, and
nothing lies past it. -/
def tokenAt? (s : TokenSequence) (offset : Nat) : Option (Located Token) :=
  if s.sourceSize < offset then none
  else if offset = s.sourceSize then s.tokens.getLast?
  else s.tokens[endedBefore s.tokens.toArray offset 0 s.tokens.length]?

end TokenSequence
end SearchMarkup
