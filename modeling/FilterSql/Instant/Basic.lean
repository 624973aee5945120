/-!
# Instants

An instant is a count of seconds since 1970-01-01T00:00:00 UTC and a count of
nanoseconds.  A leap second is the second before it, with a thousand million
nanoseconds or more.  Dates follow the Gregorian calendar, extended in both
directions.
-/

namespace FilterSql

structure Instant where
  seconds : Int
  nanos : Nat
  deriving DecidableEq, Repr, Inhabited

/-! ## Calendar dates -/

structure CivilDate where
  year : Int
  month : Nat
  day : Nat
  deriving DecidableEq, Repr

namespace CivilDate

/-- Days from 0000-03-01 to 1970-01-01. -/
def epochOffset : Int := 719468

/-- Days in the 400 years after which the calendar repeats. -/
def daysPerEra : Int := 146097

/--
The date a number of days after 1970-01-01.  Years are counted from March, so
that the leap day is the last one.
-/
def ofDays (days : Int) : CivilDate :=
  let shifted := days + epochOffset
  let era := shifted / daysPerEra
  let dayOfEra := (shifted % daysPerEra).toNat
  let yearOfEra :=
    (dayOfEra - dayOfEra / 1460 + dayOfEra / 36524 - dayOfEra / 146096) / 365
  let dayOfYear := dayOfEra - (365 * yearOfEra + yearOfEra / 4 - yearOfEra / 100)
  let monthFromMarch := (5 * dayOfYear + 2) / 153
  let month := if monthFromMarch < 10 then monthFromMarch + 3 else monthFromMarch - 9
  { year := yearOfEra + era * 400 + if month ≤ 2 then 1 else 0
    month := month
    day := dayOfYear - (153 * monthFromMarch + 2) / 5 + 1 }

def toDays (date : CivilDate) : Int :=
  let year := if date.month ≤ 2 then date.year - 1 else date.year
  let era := year / 400
  let yearOfEra := year % 400
  let monthFromMarch : Int := if date.month ≤ 2 then date.month + 9 else date.month - 3
  let dayOfYear := (153 * monthFromMarch + 2) / 5 + date.day - 1
  let dayOfEra := yearOfEra * 365 + yearOfEra / 4 - yearOfEra / 100 + dayOfYear
  era * daysPerEra + dayOfEra - epochOffset

def isLeap (year : Int) : Bool :=
  year % 4 == 0 && (year % 100 != 0 || year % 400 == 0)

def daysInMonth (year : Int) (month : Nat) : Nat :=
  if month = 2 then (if isLeap year then 29 else 28)
  else if month = 4 ∨ month = 6 ∨ month = 9 ∨ month = 11 then 30
  else 31

def minYear : Int := -262143

def maxYear : Int := 262142

def isValid (date : CivilDate) : Bool :=
  minYear ≤ date.year && date.year ≤ maxYear && 1 ≤ date.month && date.month ≤ 12 &&
  1 ≤ date.day && date.day ≤ daysInMonth date.year date.month

end CivilDate

/-! ## Parts of an instant -/

namespace Instant

def secondsPerDay : Int := 86400

def days (instant : Instant) : Int := instant.seconds / secondsPerDay

def date (instant : Instant) : CivilDate := .ofDays instant.days

/-- The second of the day; a leap second counts one further. -/
def secondOfDay (instant : Instant) : Nat := (instant.seconds % secondsPerDay).toNat

def isLeapSecond (instant : Instant) : Bool := 1000000000 ≤ instant.nanos

def hour (instant : Instant) : Nat := instant.secondOfDay / 3600

def minute (instant : Instant) : Nat := instant.secondOfDay / 60 % 60

/-- The second as a clock shows it, 60 in a leap second. -/
def second (instant : Instant) : Nat :=
  instant.secondOfDay % 60 + if instant.isLeapSecond then 1 else 0

def subsecond (instant : Instant) : Nat := instant.nanos % 1000000000

/-- An instant from its counts; leap seconds stand at the end of a minute only. -/
def ofCounts? (seconds : Int) (nanos : Nat) : Option Instant :=
  if nanos < 1000000000 ∨ (nanos < 2000000000 ∧ seconds % 60 = 59) then
    some ⟨seconds, nanos⟩
  else none

end Instant

end FilterSql
