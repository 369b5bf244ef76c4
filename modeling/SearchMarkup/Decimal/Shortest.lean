/-
# Shortest decimals

A positive binary fraction `m · 2 ^ q` stands for every real number that rounds to it:
those at most half a unit away, the ends included when `m` is even. Its *shortest
decimal* is a decimal in that interval with the fewest digits, and of two such
decimals the nearer, of two equally near the one with the even last digit.

For a given number of digits only the two neighbours of the fraction on that decimal
grid have to be tried: if any point of the grid lies in the interval, so does one of
them. Seventeen digits always suffice for a 64-bit number.
-/

namespace SearchMarkup
namespace Decimal

/-- The digits of a number in base ten. -/
def digits (n : Nat) : List Char := Nat.toDigits 10 n

/-- A decimal `0.d₁d₂… · 10 ^ point`. -/
structure Shortest where
  digits : List Char
  point : Int
  deriving DecidableEq, Repr

/-- A fraction of two numbers, the lower not zero. -/
structure Fraction where
  upper : Nat
  lower : Nat
  deriving DecidableEq, Repr

namespace Fraction

/-- The fraction `m · 2 ^ q`. -/
def binary (m : Nat) (q : Int) : Fraction :=
  if 0 ≤ q then ⟨m * Nat.pow 2 q.toNat, 1⟩ else ⟨m, Nat.pow 2 (-q).toNat⟩

/-- The fraction `m · 10 ^ e`. -/
def decimal (m : Nat) (e : Int) : Fraction :=
  if 0 ≤ e then ⟨m * Nat.pow 10 e.toNat, 1⟩ else ⟨m, Nat.pow 10 (-e).toNat⟩

def le (a b : Fraction) : Bool := a.upper * b.lower ≤ b.upper * a.lower

def lt (a b : Fraction) : Bool := a.upper * b.lower < b.upper * a.lower

/-- How often `10 ^ e` goes into the fraction. -/
def quotient (a : Fraction) (e : Int) : Nat :=
  if 0 ≤ e then a.upper / (a.lower * Nat.pow 10 e.toNat)
  else a.upper * Nat.pow 10 (-e).toNat / a.lower

/-- The exponent `e` with `10 ^ e ≤ a < 10 ^ (e + 1)`, for a fraction above zero. -/
def magnitude (a : Fraction) : Int :=
  if a.lower ≤ a.upper then ((digits (a.upper / a.lower)).length : Int) - 1
  else -((digits ((a.lower - 1) / a.upper)).length : Int)

/-- The distance between two fractions. -/
def distance (a b : Fraction) : Fraction :=
  let x := a.upper * b.lower
  let y := b.upper * a.lower
  ⟨if x ≤ y then y - x else x - y, a.lower * b.lower⟩

end Fraction

/-- The reals that round to a fraction, which lies between the ends. -/
structure Interval where
  low : Fraction
  value : Fraction
  high : Fraction
  closed : Bool
  deriving Repr

namespace Interval

def contains (i : Interval) (a : Fraction) : Bool :=
  if i.closed then i.low.le a && a.le i.high else i.low.lt a && a.lt i.high

/-- The multiple of `10 ^ e` in the interval that is nearest to its value. -/
def onGrid? (i : Interval) (e : Int) : Option Nat :=
  let below := i.value.quotient e
  let above := below + 1
  match i.contains (.decimal below e), i.contains (.decimal above e) with
  | false, false => none
  | true, false => some below
  | false, true => some above
  | true, true =>
    let down := i.value.distance (.decimal below e)
    let up := i.value.distance (.decimal above e)
    if down.lt up then some below
    else if up.lt down then some above
    else some (if below % 2 = 0 then below else above)

/-- The shortest decimal with at least `count` and fewer than `count + tries` digits. -/
def shortestFrom? (i : Interval) (count : Nat) : Nat → Option Shortest
  | 0 => none
  | tries + 1 =>
    let e := i.value.magnitude - count + 1
    match i.onGrid? e with
    | some n =>
      let ds := digits n
      some ⟨(ds.reverse.dropWhile (· == '0')).reverse, ds.length + e⟩
    | none => shortestFrom? i (count + 1) tries

end Interval

/-- The interval of a 64-bit floating-point number above zero, given its bits without
the sign: 52 bits of fraction below 11 bits of exponent. -/
def intervalOfBits (bits : Nat) : Interval :=
  let fraction : Nat := bits % Nat.pow 2 52
  let exponent : Nat := bits / Nat.pow 2 52
  let m := if exponent = 0 then fraction else fraction + Nat.pow 2 52
  let q : Int := (max exponent 1 : Nat) - 1075
  let low :=
    if fraction = 0 ∧ 1 < exponent then Fraction.binary (4 * m - 1) (q - 2)
    else Fraction.binary (2 * m - 1) (q - 1)
  ⟨low, .binary m q, .binary (2 * m + 1) (q - 1), m % 2 = 0⟩

/-- The shortest decimal of a finite number above zero. -/
def shortestOfBits (bits : Nat) : Shortest :=
  ((intervalOfBits bits).shortestFrom? 1 17).getD ⟨['0'], 1⟩

namespace Shortest

/-- With a point and no exponent; a whole number ends in `.0`. -/
def positional (d : Shortest) : List Char :=
  if d.point ≤ 0 then
    ['0', '.'] ++ List.replicate (-d.point).toNat '0' ++ d.digits
  else
    let whole := d.point.toNat
    if d.digits.length ≤ whole then
      d.digits ++ List.replicate (whole - d.digits.length) '0' ++ ['.', '0']
    else d.digits.take whole ++ '.' :: d.digits.drop whole

/-- With a point only if something follows it, and no exponent. -/
def plain (d : Shortest) : List Char :=
  if (d.digits.length : Int) ≤ d.point then
    d.digits ++ List.replicate (d.point.toNat - d.digits.length) '0'
  else d.positional

/-- One digit before the point, and an exponent with its sign. -/
def scientific (d : Shortest) : List Char :=
  let exponent := d.point - 1
  let sign := if exponent < 0 then '-' else '+'
  d.digits.take 1 ++ (if d.digits.length = 1 then [] else '.' :: d.digits.drop 1)
    ++ ['e', sign] ++ Decimal.digits exponent.natAbs

/-- Positional from `0.00001` up to sixteen digits before the point, else with an
exponent. -/
def text (d : Shortest) : List Char :=
  if -5 < d.point ∧ d.point ≤ 16 then d.positional else d.scientific

end Shortest

/-- The text of a floating-point number, for a finite one. -/
def floatText (f : Float) : List Char :=
  let bits := f.toBits.toNat
  let sign := if Nat.pow 2 63 ≤ bits then ['-'] else []
  let magnitude := bits % Nat.pow 2 63
  if magnitude = 0 then sign ++ ['0', '.', '0'] else sign ++ (shortestOfBits magnitude).text

/-- The digits of a floating-point number that is finite and not negative. -/
def floatDigits (f : Float) : List Char :=
  let bits := f.toBits.toNat
  if bits = 0 then ['0'] else (shortestOfBits bits).plain

end Decimal
end SearchMarkup
