/-!
# Binary floating-point numbers

A `Double` is held as its 64 bits, so that equality is identity and every
property can be read off the bits.  Its value is always a whole number of
*units*, a unit being the least positive double `2^-1074`; all rounding here is
exact arithmetic on natural numbers followed by one rounding to the nearest
representable number, ties to the even significand.
-/

namespace FilterSql

/-! ## Formats -/

structure BinaryFormat where
  fractionBits : Nat
  exponentBits : Nat
  deriving DecidableEq, Repr

namespace BinaryFormat

def binary32 : BinaryFormat := ⟨23, 8⟩

def binary64 : BinaryFormat := ⟨52, 11⟩

/-- The least positive number of the format is `2 ^ -(unitShift)`. -/
def unitShift (format : BinaryFormat) : Nat :=
  (1 <<< (format.exponentBits - 1)) + format.fractionBits - 2

/-- The bits of positive infinity, which stand just above all finite magnitudes. -/
def infinity (format : BinaryFormat) : Nat :=
  ((1 <<< format.exponentBits) - 1) <<< format.fractionBits

end BinaryFormat

/-- The quotient as a whole number, a tie going to the even neighbour. -/
def divRoundEven (numerator denominator : Nat) : Nat :=
  let quotient := numerator / denominator
  let twice := 2 * (numerator % denominator)
  if twice < denominator then quotient
  else if denominator < twice then quotient + 1
  else quotient + quotient % 2

theorem divRoundEven_bounds (numerator denominator : Nat) :
    numerator / denominator ≤ divRoundEven numerator denominator ∧
      divRoundEven numerator denominator ≤ numerator / denominator + 1 := by
  unfold divRoundEven
  dsimp only
  split
  · omega
  · split <;> omega

/--
The magnitude bits nearest to `numerator / denominator`.  In units of the least
positive number the quotient is cut to one more bit than the fraction field
holds; each bit cut off raises the exponent field by one.
-/
def BinaryFormat.nearest (format : BinaryFormat) (numerator denominator : Nat) : Nat :=
  let units := numerator <<< format.unitShift
  let cut := Nat.log2 (units / denominator) - format.fractionBits
  min ((cut <<< format.fractionBits) + divRoundEven units (denominator <<< cut))
    format.infinity

theorem BinaryFormat.nearest_le_infinity (format : BinaryFormat)
    (numerator denominator : Nat) :
    format.nearest numerator denominator ≤ format.infinity :=
  Nat.min_le_right _ _

/-! ## Doubles -/

structure Double where
  bits : UInt64
  deriving DecidableEq, Repr

namespace Double

def signBit : Nat := 0x8000000000000000

def quietBit : Nat := 0x8000000000000

def fractionCount : Nat := 0x10000000000000

def magnitude (x : Double) : Nat := x.bits.toNat % signBit

def isNegative (x : Double) : Bool := signBit ≤ x.bits.toNat

def isFinite (x : Double) : Bool := x.magnitude < BinaryFormat.binary64.infinity

def isNaN (x : Double) : Bool := BinaryFormat.binary64.infinity < x.magnitude

def isZero (x : Double) : Bool := x.magnitude == 0

def ofMagnitude (negative : Bool) (magnitude : Nat) : Double :=
  ⟨UInt64.ofNat (magnitude + if negative then signBit else 0)⟩

def zero : Double := ⟨0⟩

/-- The size of the number with these magnitude bits, in units. -/
def unitsOf (magnitude : Nat) : Nat :=
  let field := magnitude / fractionCount
  let fraction := magnitude % fractionCount
  if field = 0 then fraction else (fractionCount + fraction) <<< (field - 1)

def units (x : Double) : Nat := unitsOf x.magnitude

def unitsPerOne : Nat := 1 <<< BinaryFormat.binary64.unitShift

/-! ## Conversions -/

def ofRatio (negative : Bool) (numerator denominator : Nat) : Double :=
  ofMagnitude negative (BinaryFormat.binary64.nearest numerator denominator)

def ofInt (n : Int) : Double := ofRatio (n < 0) n.natAbs 1

/-- The double nearest to `± digits * 10 ^ exponent`, infinite when that is too large. -/
def ofDecimal (negative : Bool) (digits : Nat) (exponent : Int) : Double :=
  let size := (Nat.toDigits 10 digits).length + exponent
  if digits = 0 || size < -330 then ofMagnitude negative 0
  else if 310 < size then ofMagnitude negative BinaryFormat.binary64.infinity
  else if 0 ≤ exponent then ofRatio negative (digits * Nat.pow 10 exponent.toNat) 1
  else ofRatio negative digits (Nat.pow 10 (-exponent).toNat)

/-- The whole number nearest to a finite number, a half going away from zero. -/
def round (x : Double) : Int :=
  let size : Nat := (2 * x.units + unitsPerOne) / (2 * unitsPerOne)
  if x.isNegative then -(size : Int) else size

/-! ## Arithmetic on finite numbers -/

def mul (x y : Double) : Double :=
  ofRatio (x.isNegative != y.isNegative) (x.units * y.units) (unitsPerOne * unitsPerOne)

/-- Division by a number other than zero. -/
def div (x y : Double) : Double :=
  ofRatio (x.isNegative != y.isNegative) x.units y.units

/-! ## Single precision -/

def singleSignBit : Nat := 0x80000000

/--
The 32 bits of a double in single precision.  A NaN keeps its sign and the
leading bits of its payload, and is made quiet.
-/
def toSingleBits (x : Double) : UInt32 :=
  let sign := if x.isNegative then singleSignBit else 0
  let single := BinaryFormat.binary32
  let magnitude :=
    if x.isNaN then (x.magnitude >>> 29) ||| (single.infinity ||| 0x400000)
    else if x.isFinite then single.nearest x.units unitsPerOne
    else single.infinity
  UInt32.ofNat (sign + magnitude % singleSignBit)

def singleBitsOfInt (n : Int) : UInt32 :=
  UInt32.ofNat ((if n < 0 then singleSignBit else 0) + BinaryFormat.binary32.nearest n.natAbs 1)

end Double

end FilterSql
