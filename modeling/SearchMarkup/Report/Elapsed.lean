/-
# Elapsed time

Runs are timed in nanoseconds and reported in milliseconds, as a floating-point number.
-/

import SearchMarkup.Decimal.Shortest

namespace SearchMarkup

/-- A stretch of time. -/
structure Elapsed where
  seconds : Nat := 0
  nanos : Nat := 0
  deriving DecidableEq, Repr

namespace Elapsed

/-- A number of nanoseconds. -/
def ofNanos (n : Nat) : Elapsed := ⟨n / 1000000000, n % 1000000000⟩

/-- The time in milliseconds. -/
def milliseconds (e : Elapsed) : Float :=
  (Float.ofNat e.seconds + Float.ofNat e.nanos / 1000000000.0) * 1000.0

/-- The time in milliseconds, in digits. -/
def text (e : Elapsed) : String := String.ofList (Decimal.floatDigits e.milliseconds)

end Elapsed
end SearchMarkup
