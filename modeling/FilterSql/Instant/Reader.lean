import FilterSql.Instant.Basic
import FilterSql.Text.Blank
import FilterSql.Decimal.Literal

/-!
# Reading instants

A lenient form of the Internet date and time format: blanks may stand before
every number and separator, numbers may have fewer digits than usual, date and
time may be parted by a blank, and the offset may be written without a colon.
-/

namespace FilterSql.Instant

open FilterSql.Text

/-! ## Numbers and separators -/

def takeDigits (limit : Nat) (text : List Char) : List Char :=
  (text.take limit).takeWhile Char.isDigit

/-- A number of at most `limit` digits after blanks, and the rest of the text. -/
def number? (limit : Nat) (text : List Char) : Option (Nat × List Char) :=
  let text := trimStart text
  let digits := takeDigits limit text
  if digits.isEmpty then none
  else some (Decimal.Literal.digitsValue digits, text.drop digits.length)

/-- A year: up to four digits, or any number of digits behind a sign. -/
def year? (text : List Char) : Option (Int × List Char) :=
  match trimStart text with
  | '-' :: rest => unsigned? rest.length rest fun n => -(n : Int)
  | '+' :: rest => unsigned? rest.length rest fun n => n
  | text => unsigned? 4 text fun n => n
where
  unsigned? (limit : Nat) (text : List Char) (signed : Nat → Int) :
      Option (Int × List Char) :=
    let digits := takeDigits limit text
    if digits.isEmpty then none
    else some (signed (Decimal.Literal.digitsValue digits), text.drop digits.length)

def separator? (c : Char) (text : List Char) : Option (List Char) :=
  match trimStart text with
  | d :: rest => if d = c then some rest else none
  | [] => none

/-- The fraction of a second in nanoseconds; digits beyond the ninth are skipped. -/
def fraction? : List Char → Option (Nat × List Char)
  | '.' :: rest =>
    let digits := takeDigits 9 rest
    if digits.isEmpty then none
    else
      some (Decimal.Literal.digitsValue digits * Nat.pow 10 (9 - digits.length),
        (rest.drop digits.length).dropWhile Char.isDigit)
  | text => some (0, text)

/-! ## Offsets -/

def twoDigits? : List Char → Option (Nat × List Char)
  | a :: b :: rest =>
    if a.isDigit && b.isDigit then some (Decimal.Literal.digitsValue [a, b], rest) else none
  | _ => none

/-- Seconds east of UTC: a zone name, or a sign, hours and minutes. -/
def offset? (text : List Char) : Option (Int × List Char) :=
  if (text.take 3).map Char.toUpper = ['U', 'T', 'C'] then some (0, text.drop 3)
  else match text with
    | 'Z' :: rest => some (0, rest)
    | 'z' :: rest => some (0, rest)
    | '+' :: rest => magnitude? rest
    | '-' :: rest => (magnitude? rest).map fun (n, rest) => (-n, rest)
    | '\u2212' :: rest => (magnitude? rest).map fun (n, rest) => (-n, rest)
    | _ => none
where
  magnitude? (text : List Char) : Option (Int × List Char) := do
    let (hours, text) ← twoDigits? text
    let (minutes, text) ← twoDigits? (text.dropWhile fun c => c == ':' || isBlank c)
    if minutes < 60 then some (hours * 3600 + minutes * 60, text) else none

/-! ## Date and time -/

def date? (text : List Char) : Option (CivilDate × List Char) := do
  let (year, text) ← year? text
  let text ← separator? '-' text
  let (month, text) ← number? 2 text
  let text ← separator? '-' text
  let (day, text) ← number? 2 text
  let date : CivilDate := ⟨year, month, day⟩
  if date.isValid then some (date, text) else none

/-- Seconds and nanoseconds since midnight; second 60 is a leap second. -/
def time? (text : List Char) : Option ((Nat × Nat) × List Char) := do
  let (hour, text) ← number? 2 text
  let text ← separator? ':' text
  let (minute, text) ← number? 2 text
  let text ← separator? ':' text
  let (second, text) ← number? 2 text
  let (nanos, text) ← fraction? text
  if hour < 24 ∧ minute < 60 ∧ second ≤ 60 then
    let minutes := hour * 60 + minute
    if second = 60 then some ((minutes * 60 + 59, nanos + 1000000000), text)
    else some ((minutes * 60 + second, nanos), text)
  else none

def isDateEnd (c : Char) : Bool := c == 'T' || c == 't' || c == ' '

def ofChars? (text : List Char) : Option Instant := do
  let (date, text) ← date? text
  let c ← text.head?
  if !isDateEnd c then none
  let ((seconds, nanos), text) ← time? (text.drop 1)
  let (offset, text) ← offset? (trimStart text)
  if !(trimStart text).isEmpty || 86400 ≤ offset.natAbs then none
  let instant : Instant := ⟨date.toDays * secondsPerDay + seconds - offset, nanos⟩
  if CivilDate.minYear ≤ instant.date.year && instant.date.year ≤ CivilDate.maxYear then
    some instant
  else none

def ofText? (text : String) : Option Instant := ofChars? text.toList

end FilterSql.Instant
