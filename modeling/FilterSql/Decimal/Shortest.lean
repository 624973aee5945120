import FilterSql.Double.Basic

/-!
# Shortest decimals

The decimal with the fewest digits that reads back as a given double, and of
those the one nearest to it.  A decimal reads back exactly when it lies in the
double's rounding interval, whose ends are the midpoints to the two neighbours
and belong to it when the significand is even.  For each number of digits only
the two grid points next to the double have to be tested.
-/

namespace FilterSql

/-- The number `digits * 10 ^ exponent`. -/
structure Decimal where
  digits : Nat
  exponent : Int
  deriving DecidableEq, Repr

namespace Decimal

inductive Tie where
  | even
  | up
  deriving DecidableEq, Repr

/-! ## The rounding interval -/

/-- The interval of reals that round to one magnitude, in half units. -/
structure Interval where
  low : Nat
  middle : Nat
  high : Nat
  closed : Bool
  deriving DecidableEq, Repr

def Interval.ofMagnitude (magnitude : Nat) : Interval where
  low := Double.unitsOf (magnitude - 1) + Double.unitsOf magnitude
  middle := 2 * Double.unitsOf magnitude
  high := Double.unitsOf magnitude + Double.unitsOf (magnitude + 1)
  closed := magnitude % 2 == 0

def Interval.contains (interval : Interval) (numerator denominator : Nat) : Bool :=
  let low := interval.low * denominator
  let high := interval.high * denominator
  if interval.closed then low ≤ numerator && numerator ≤ high
  else low < numerator && numerator < high

/-! ## The search -/

def digitCount (n : Nat) : Nat := (Nat.toDigits 10 n).length

/--
The decimal exponent of the leading digit.  Scaled by `10 ^ 400` every positive
double is above one, so the digits of its whole part can be counted.
-/
def leadingExponent (units : Nat) : Int :=
  (digitCount (units * Nat.pow 10 400 / Double.unitsPerOne) : Int) - 401

def powerOfTen (exponent : Int) : Nat × Nat :=
  if 0 ≤ exponent then (Nat.pow 10 exponent.toNat, 1) else (1, Nat.pow 10 (-exponent).toNat)

/--
The point in the interval that is nearest to its middle among the two multiples
of `10 ^ exponent` next to the middle, if one of them lies in the interval.
-/
def gridPoint? (tie : Tie) (interval : Interval) (exponent : Int) : Option Nat :=
  let (power, denominator) := powerOfTen exponent
  let step := power * (2 * Double.unitsPerOne)
  let middle := interval.middle * denominator
  let below := middle / step
  let belowFits := interval.contains (below * step) denominator
  let aboveFits := interval.contains ((below + 1) * step) denominator
  let twice := 2 * (middle % step)
  let aboveNearer :=
    step < twice || (step == twice && (tie == .up || below % 2 == 1))
  if belowFits && aboveFits then some (if aboveNearer then below + 1 else below)
  else if belowFits then some below
  else if aboveFits then some (below + 1)
  else none

/-- Moves the trailing zeros of the digits into the exponent; the count bounds how many. -/
def trimZeros : Nat → Decimal → Decimal
  | 0, decimal => decimal
  | count + 1, decimal =>
    if decimal.digits ≠ 0 ∧ decimal.digits % 10 = 0 then
      trimZeros count ⟨decimal.digits / 10, decimal.exponent + 1⟩
    else decimal

/-- The first grid of `count, count + 1, …` digits with a point in the interval. -/
def searchFrom (tie : Tie) (interval : Interval) (leading : Int) :
    (remaining count : Nat) → Decimal
  | 0, count => ⟨interval.middle / (2 * Double.unitsPerOne), leading - count⟩
  | remaining + 1, count =>
    let exponent := leading + 1 - count
    match gridPoint? tie interval exponent with
    | some digits => trimZeros 20 ⟨digits, exponent⟩
    | none => searchFrom tie interval leading remaining (count + 1)

/-- Seventeen digits always suffice to tell two doubles apart. -/
def maxDigits : Nat := 17

def shortest (tie : Tie) (magnitude : Nat) : Decimal :=
  searchFrom tie (Interval.ofMagnitude magnitude)
    (leadingExponent (Double.unitsOf magnitude)) maxDigits 1

end Decimal

end FilterSql
