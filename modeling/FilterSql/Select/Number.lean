import FilterSql.Decimal.Literal
import FilterSql.Json.Record
import FilterSql.Text.Blank

/-!
# Numbers that may be texts

A numeric option arrives as a number or as a text.  As a coordinate the whole
text has to be a number; as a limit the integer at its beginning is enough.
-/

namespace FilterSql

inductive NumberOrText where
  | number (x : Double)
  | text (written : String)
  deriving DecidableEq, Repr

namespace NumberOrText

/-- A finite number; a text may have blanks around it, and a blank one is zero. -/
def toDouble? (n : NumberOrText) : Option Double :=
  let double : Option Double := match n with
    | .number x => some x
    | .text written =>
      let body := Text.trim written.toList
      if body.isEmpty then some .zero else Decimal.Literal.read? body
  double.filter Double.isFinite

/-! ## Limits -/

def saturate (n : Int) : Int64 :=
  Int64.ofInt (max Int64.minValue.toInt (min Int64.maxValue.toInt n))

/--
The integer at the beginning of a text, after blanks and with an optional sign;
`none` when there is no digit or when its size needs more than 63 bits.
-/
def leadingInt? (text : List Char) : Option Int64 :=
  let (negative, rest) := Decimal.Literal.splitSign (Text.trimStart text)
  let digits := rest.takeWhile Char.isDigit
  let size := Decimal.Literal.digitsValue digits
  if digits.isEmpty || Int64.maxValue.toInt < size then none
  else some (Int64.ofInt (if negative then -(size : Int) else size))

/-- A count of rows: a number is rounded, and zero and what is not finite count as unset. -/
def toLimit? : NumberOrText → Option Int64
  | .number x => if x.isZero || !x.isFinite then none else some (saturate x.round)
  | .text written => leadingInt? written.toList

/-! ## JSON form -/

def decode : Json.Decoder NumberOrText
  | .integer n => .ok (.number (.ofInt n))
  | .float x => .ok (.number x)
  | .string written => .ok (.text written)
  | _ => .error (.noVariant "NumberOrString")

def encode : NumberOrText → Json
  | .number x => .ofDouble x
  | .text written => .string written

end NumberOrText

end FilterSql
