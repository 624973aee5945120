import FilterSql.Double.Basic

/-!
# The cosine of a double

The cosine is worked out in fixed point: the angle is brought into the first
quadrant with a value of π exact enough for the largest double, the Taylor
polynomial is evaluated there, and the result is rounded once.
-/

namespace FilterSql.Double

/-! ## π in fixed point -/

/-- Binary places of π; enough to reduce angles near `2 ^ 1024`. -/
def angleBits : Nat := 1400

/--
The arctangent series of `1 / n`, with as many more terms as the count says;
`power` is the next power of `1 / n` and `odd` its exponent.
-/
def arctanFrom (n : Nat) : (count power odd : Nat) → Nat
  | 0, _, _ => 0
  | count + 1, power, odd =>
    power / odd - arctanFrom n count (power / (n * n)) (odd + 2)

def arctanInverse (bits n : Nat) : Nat := arctanFrom n bits ((1 <<< bits) / n) 1

/-- π to `angleBits` places, by `π / 4 = 4 arctan (1 / 5) - arctan (1 / 239)`. -/
def piScaled : Nat :=
  let bits := angleBits + 32
  (4 * (4 * arctanInverse bits 5 - arctanInverse bits 239)) >>> 32

/-! ## The cosine -/

def seriesBits : Nat := 320

def seriesOne : Nat := 1 <<< seriesBits

/-- The nested form `1 - x² / ((k + 1) (k + 2)) * (1 - …)` for `square = x²`, `count` deep. -/
def cosineFrom (square : Nat) : (count k : Nat) → Nat
  | 0, _ => seriesOne
  | count + 1, k =>
    seriesOne -
      ((square * cosineFrom square count (k + 2)) >>> seriesBits) / ((k + 1) * (k + 2))

theorem cosineFrom_le_one (square count k : Nat) :
    cosineFrom square count k ≤ seriesOne := by
  cases count with
  | zero => exact Nat.le_refl _
  | succ count => exact Nat.sub_le _ _

def cosineScaled (angle : Nat) : Nat :=
  let x := angle >>> (angleBits - seriesBits)
  cosineFrom ((x * x) >>> seriesBits) 64 0

/-- The double nearest to the cosine of a finite double. -/
def cos (x : Double) : Double :=
  let turn := 2 * piScaled
  let angle := (x.units <<< (angleBits - BinaryFormat.binary64.unitShift)) % turn
  let half := if piScaled < angle then turn - angle else angle
  if piScaled < 2 * half then
    ofRatio true (cosineScaled (piScaled - half)) seriesOne
  else ofRatio false (cosineScaled half) seriesOne

/-- One degree in radians: π and the quotient are both rounded to doubles. -/
def radiansPerDegree : Double :=
  div (ofRatio false piScaled (1 <<< angleBits)) (ofInt 180)

def toRadians (degrees : Double) : Double := mul degrees radiansPerDegree

end FilterSql.Double
