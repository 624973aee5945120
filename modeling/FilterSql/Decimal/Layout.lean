import FilterSql.Decimal.Shortest

/-!
# Writing doubles in decimal

How the digits of a shortest decimal are laid out: with a decimal point alone,
or in scientific form with one digit before the point.  What differs between
output formats is a `Layout` record.
-/

namespace FilterSql

/-- The choices an output format makes about decimal numbers. -/
structure Layout where
  /-- The leading exponents that are written out without scientific form. -/
  isPositional : Int → Bool
  /-- What follows a whole number in positional form. -/
  wholeEnd : List Char
  tie : Decimal.Tie

namespace Decimal

def digitChars (n : Nat) : List Char := Nat.toDigits 10 n

def zeros (count : Nat) : List Char := List.replicate count '0'

def positional (wholeEnd : List Char) (decimal : Decimal) : List Char :=
  let digits := digitChars decimal.digits
  if 0 ≤ decimal.exponent then
    digits ++ zeros decimal.exponent.toNat ++ wholeEnd
  else
    let places := (-decimal.exponent).toNat
    if places < digits.length then
      digits.take (digits.length - places) ++ '.' :: digits.drop (digits.length - places)
    else '0' :: '.' :: zeros (places - digits.length) ++ digits

def scientific (decimal : Decimal) : List Char :=
  let digits := digitChars decimal.digits
  let leading := decimal.exponent + digits.length - 1
  let fraction := if digits.length = 1 then [] else '.' :: digits.drop 1
  let sign := if leading < 0 then '-' else '+'
  digits.take 1 ++ fraction ++ 'e' :: sign :: digitChars leading.natAbs

end Decimal

/-- A finite double in a given layout; zero keeps its sign. -/
def Layout.write (layout : Layout) (x : Double) : List Char :=
  let sign := if x.isNegative then ['-'] else []
  let decimal := if x.isZero then ⟨0, 0⟩ else Decimal.shortest layout.tie x.magnitude
  let leading := decimal.exponent + Decimal.digitCount decimal.digits - 1
  if layout.isPositional leading then
    sign ++ decimal.positional layout.wholeEnd
  else sign ++ decimal.scientific

def Layout.plain : Layout where
  isPositional := fun _ => true
  wholeEnd := []
  tie := .up

/-- A double as people read it: all its digits written out, or the name of what is not a number. -/
def Double.display (x : Double) : String :=
  if x.isNaN then "NaN"
  else if x.isFinite then String.ofList (Layout.plain.write x)
  else if x.isNegative then "-inf"
  else "inf"

end FilterSql
