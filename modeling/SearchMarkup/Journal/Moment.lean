/-
# Moments

A moment is counted in seconds since the beginning of 1970, and nanoseconds. It is
written as a date and time of day at the meridian, with the fraction of a second in
thousandths, millionths or billionths, whichever is the coarsest that is exact:
`2023-11-14T22:13:20.120+00:00`. In the last second of a minute the nanoseconds may go
on for another second: that is a leap second, written as second 60.

Days are turned into dates of the Gregorian calendar in eras of 400 years, which begin
on the first of March, so that a leap day is the last day of its year.
-/

import SearchMarkup.Decimal.Shortest

namespace SearchMarkup

/-- A moment. -/
structure Moment where
  seconds : Int := 0
  nanos : Nat := 0
  deriving DecidableEq, Repr

/-- A day of the Gregorian calendar. -/
structure Date where
  year : Int
  month : Nat
  day : Nat
  deriving DecidableEq, Repr

namespace Date

/-- The date a number of days after the first of January 1970. -/
def ofDays (days : Int) : Date :=
  let shifted := days + 719468
  let era := shifted.fdiv 146097
  let dayOfEra := (shifted - era * 146097).toNat
  let yearOfEra :=
    (dayOfEra - dayOfEra / 1460 + dayOfEra / 36524 - dayOfEra / 146096) / 365
  let dayOfYear := dayOfEra - (365 * yearOfEra + yearOfEra / 4 - yearOfEra / 100)
  let monthFromMarch := (5 * dayOfYear + 2) / 153
  let month := if monthFromMarch < 10 then monthFromMarch + 3 else monthFromMarch - 9
  { year := era * 400 + yearOfEra + (if month ≤ 2 then 1 else 0)
    month := month
    day := dayOfYear - (153 * monthFromMarch + 2) / 5 + 1 }

end Date

namespace Moment

/-- The first second of the year -262143, with which the calendar begins. -/
def firstSecond : Int := -8334601228800

/-- The last second of the year 262142, with which it ends. -/
def lastSecond : Int := 8210266876799

/-- The moment of a number of seconds and nanoseconds, if the calendar has one. -/
def of? (seconds : Int) (nanos : Nat) : Option Moment :=
  let bound := if seconds.fmod 60 = 59 then 2000000000 else 1000000000
  if firstSecond ≤ seconds ∧ seconds ≤ lastSecond ∧ nanos < bound then some ⟨seconds, nanos⟩
  else none

/-- A number with leading zeros up to a width. -/
def padded (width n : Nat) : String :=
  let digits := Decimal.digits n
  String.ofList (List.replicate (width - digits.length) '0' ++ digits)

/-- A year in four digits; a year before 0 or after 9999 has a sign. -/
def yearText (year : Int) : String :=
  if year < 0 then "-" ++ padded 4 year.natAbs
  else if 9999 < year then "+" ++ padded 4 year.natAbs
  else padded 4 year.natAbs

/-- The fraction of a second. -/
def fractionText (nanos : Nat) : String :=
  if nanos = 0 then ""
  else if nanos % 1000000 = 0 then "." ++ padded 3 (nanos / 1000000)
  else if nanos % 1000 = 0 then "." ++ padded 6 (nanos / 1000)
  else "." ++ padded 9 nanos

/-- Date and time of day. -/
def text (m : Moment) : String :=
  let days := m.seconds.fdiv 86400
  let ofDay := (m.seconds - days * 86400).toNat
  let second := ofDay % 60 + m.nanos / 1000000000
  let date := Date.ofDays days
  yearText date.year ++ "-" ++ padded 2 date.month ++ "-" ++ padded 2 date.day ++ "T"
    ++ padded 2 (ofDay / 3600) ++ ":" ++ padded 2 (ofDay / 60 % 60) ++ ":"
    ++ padded 2 second ++ fractionText (m.nanos % 1000000000) ++ "+00:00"

end Moment
end SearchMarkup
