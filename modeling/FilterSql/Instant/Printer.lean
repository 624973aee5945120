import FilterSql.Instant.Basic

/-!
# Writing instants

The Internet date and time format (RFC 3339) in UTC.  Years outside 0 to 9999
carry a sign.
-/

namespace FilterSql.Instant

def padded (width n : Nat) : List Char :=
  let digits := Nat.toDigits 10 n
  List.replicate (width - digits.length) '0' ++ digits

def yearChars (year : Int) : List Char :=
  if 0 ≤ year ∧ year ≤ 9999 then padded 4 year.toNat
  else (if year < 0 then '-' else '+') :: padded 4 year.natAbs

/-- How many digits of a second are written. -/
inductive Precision where
  /-- None, three, six or nine: the fewest that are exact. -/
  | exact
  /-- Three; what is finer is cut off. -/
  | millis
  deriving DecidableEq, Repr

def fractionChars (precision : Precision) (nanos : Nat) : List Char :=
  match precision with
  | .millis => '.' :: padded 3 (nanos / 1000000)
  | .exact =>
    if nanos = 0 then []
    else if nanos % 1000000 = 0 then '.' :: padded 3 (nanos / 1000000)
    else if nanos % 1000 = 0 then '.' :: padded 6 (nanos / 1000)
    else '.' :: padded 9 nanos

def chars (precision : Precision) (instant : Instant) : List Char :=
  let date := instant.date
  yearChars date.year ++ '-' :: padded 2 date.month ++ '-' :: padded 2 date.day ++
    'T' :: padded 2 instant.hour ++ ':' :: padded 2 instant.minute ++
    ':' :: padded 2 instant.second ++ fractionChars precision instant.subsecond

def text (instant : Instant) : String :=
  String.ofList (instant.chars .exact ++ ['Z'])

def millisText (instant : Instant) : String :=
  String.ofList (instant.chars .millis ++ ['Z'])

def offsetText (instant : Instant) : String :=
  String.ofList (instant.chars .exact) ++ "+00:00"

end FilterSql.Instant
