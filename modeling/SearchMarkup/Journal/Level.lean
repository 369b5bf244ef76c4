/-
# Levels of importance

Levels are ordered from errors to debugging details. A journal kept at a level holds
the events of that level and of all that come before it.
-/

namespace SearchMarkup

/-- How important an event is. -/
inductive Level where
  | error
  | warning
  | info
  | debug
  deriving DecidableEq, Repr, Inhabited

namespace Level

/-- The place in the order, from 0 for errors. -/
def rank : Level → Nat
  | .error => 0
  | .warning => 1
  | .info => 2
  | .debug => 3

/-- Whether a journal kept at a level holds events of this one. -/
def admittedAt (l kept : Level) : Bool := l.rank ≤ kept.rank

/-- The one that admits more. -/
def max (a b : Level) : Level := if a.rank ≤ b.rank then b else a

/-- The name used in journals. -/
def name : Level → String
  | .error => "ERROR"
  | .warning => "WARN"
  | .info => "INFO"
  | .debug => "DEBUG"

/-- The level named by a word, in any letter case, or by its place in the order. -/
def ofText? (t : String) : Option Level :=
  let w := String.ofList (t.toList.map Char.toLower)
  if w = "error" ∨ w = "0" then some .error
  else if w = "warning" ∨ w = "warn" ∨ w = "1" then some .warning
  else if w = "info" ∨ w = "2" then some .info
  else if w = "debug" ∨ w = "3" then some .debug
  else none

/-- The lowest level a journal is ever kept at: errors and warnings are always held. -/
def floor : Level := .warning

end Level
end SearchMarkup
