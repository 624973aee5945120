import FilterSql.Double.Basic

/-!
# Decimal literals

Reading a whole text as a double: an optional sign, digits with an optional
point on either side of which digits may be missing (though not on both), and
an optional exponent.  The names of infinity and NaN are accepted in any case.
The result is the double nearest to the decimal.
-/

namespace FilterSql.Decimal.Literal

def digitValue (c : Char) : Nat := c.toNat - '0'.toNat

def digitsValue (digits : List Char) : Nat :=
  digits.foldl (fun value c => 10 * value + digitValue c) 0

/-- Splits off a leading sign; `true` stands for minus. -/
def splitSign : List Char → Bool × List Char
  | '-' :: rest => (true, rest)
  | '+' :: rest => (false, rest)
  | text => (false, text)

/-- The exponent that ends a literal: nothing at all, or a mark and at least one digit. -/
def exponent? : List Char → Option Int
  | [] => some 0
  | mark :: rest =>
    let (negative, digits) := splitSign rest
    if (mark == 'e' || mark == 'E') && !digits.isEmpty && digits.all Char.isDigit then
      some (if negative then -(digitsValue digits : Int) else digitsValue digits)
    else none

def splitDigits (text : List Char) : List Char × List Char × List Char :=
  let (whole, rest) := text.span Char.isDigit
  match rest with
  | '.' :: rest =>
    let (fraction, rest) := rest.span Char.isDigit
    (whole, fraction, rest)
  | _ => (whole, [], rest)

def special? (negative : Bool) (text : List Char) : Option Double :=
  let name := String.ofList (text.map Char.toLower)
  let infinity := BinaryFormat.binary64.infinity
  if name = "inf" || name = "infinity" then some (.ofMagnitude negative infinity)
  else if name = "nan" then some (.ofMagnitude negative (infinity + Double.quietBit))
  else none

def read? (text : List Char) : Option Double :=
  let (negative, body) := splitSign text
  let (whole, fraction, rest) := splitDigits body
  if whole.isEmpty && fraction.isEmpty then special? negative body
  else
    (exponent? rest).map fun exponent =>
      .ofDecimal negative (digitsValue (whole ++ fraction)) (exponent - fraction.length)

end FilterSql.Decimal.Literal
