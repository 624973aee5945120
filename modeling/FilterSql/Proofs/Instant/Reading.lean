import FilterSql.Instant.Printer
import FilterSql.Instant.Reader
import FilterSql.Proofs.Instant.Calendar
import FilterSql.Proofs.Text.Runs
import Mathlib.Algebra.Group.Nat.Defs

/-!
# Instants are read back from their texts

Every number of a text is written with digits that the reader takes all of, and with
something after them that it does not take.  What is read is the same date and the
same time of the day, and so the same instant.
-/

namespace FilterSql.Instant

open FilterSql.Text

/-! ## Digits -/

theorem isDigit_of_mem_padded {width n : Nat} {c : Char} (h : c ∈ padded width n) : c.isDigit := by
  rcases List.mem_append.mp h with h | h
  · rw [List.eq_of_mem_replicate h]
    rfl
  · exact isDigit_of_mem_digits h

theorem padded_ne_nil (width n : Nat) : padded width n ≠ [] := by
  simp [padded, Nat.toDigits_ne_nil]

theorem length_padded {width n : Nat} (hwidth : 0 < width) (h : n < 10 ^ width) :
    (padded width n).length = width := by
  have hlength : (Nat.toDigits 10 n).length ≤ width :=
    (Nat.length_toDigits_le_iff (by decide) hwidth).mpr h
  simp only [padded, List.length_append, List.length_replicate]
  omega

theorem digitsValue_padded (width n : Nat) : Decimal.Literal.digitsValue (padded width n) = n := by
  rw [padded, digitsValue_zeros_append, digitsValue_digits]

theorem takeDigits_append {limit : Nat} {digits rest : List Char}
    (hdigits : ∀ c ∈ digits, c.isDigit) (hlimit : digits.length ≤ limit)
    (hrest : digits.length = limit ∨ StartsWithout Char.isDigit rest) :
    takeDigits limit (digits ++ rest) = digits := by
  have hstop : StartsWithout Char.isDigit (rest.take (limit - digits.length)) := by
    rcases hrest with hfull | hrest
    · rw [hfull, Nat.sub_self]
      exact nofun
    · intro c hc
      rw [List.head?_take] at hc
      split at hc
      · cases hc
      · exact hrest c hc
  rw [takeDigits, List.take_append, List.take_of_length_le hlimit]
  exact takeWhile_run hdigits hstop

theorem trimStart_of_not_isBlank {c : Char} {rest : List Char} (h : isBlank c = false) :
    trimStart (c :: rest) = c :: rest := by
  simp [trimStart_cons, h]

theorem trimStart_append {digits rest : List Char} (hne : digits ≠ [])
    (hdigits : ∀ c ∈ digits, c.isDigit) : trimStart (digits ++ rest) = digits ++ rest := by
  cases digits with
  | nil => exact absurd rfl hne
  | cons c digits =>
      exact trimStart_of_not_isBlank (isBlank_of_isDigit (hdigits c List.mem_cons_self))

/-! ## Numbers and separators -/

theorem number?_padded {width n : Nat} {rest : List Char} (hwidth : 0 < width)
    (h : n < 10 ^ width) : number? width (padded width n ++ rest) = some (n, rest) := by
  have hdigits : ∀ c ∈ padded width n, c.isDigit := fun c hc => isDigit_of_mem_padded hc
  have hlength : (padded width n).length = width := length_padded hwidth h
  have htake : takeDigits width (padded width n ++ rest) = padded width n :=
    takeDigits_append hdigits (Nat.le_of_eq hlength) (.inl hlength)
  have hne : padded width n ≠ [] := padded_ne_nil width n
  rw [number?, trimStart_append hne hdigits, htake, digitsValue_padded, List.drop_left]
  exact if_neg (by simpa using hne)

theorem number?_two {n : Nat} {rest : List Char} (h : n < 100) :
    number? 2 (padded 2 n ++ rest) = some (n, rest) :=
  number?_padded (by decide) h

theorem separator?_cons {c : Char} {rest : List Char} (h : isBlank c = false) :
    separator? c (c :: rest) = some rest := by
  rw [separator?, trimStart_of_not_isBlank h]
  exact if_pos rfl

theorem unsigned?_padded {width limit n : Nat} {rest : List Char} (signed : Nat → Int)
    (hlimit : (padded width n).length ≤ limit)
    (hrest : (padded width n).length = limit ∨ StartsWithout Char.isDigit rest) :
    year?.unsigned? limit (padded width n ++ rest) signed = some (signed n, rest) := by
  have hdigits : ∀ c ∈ padded width n, c.isDigit := fun c hc => isDigit_of_mem_padded hc
  have htake : takeDigits limit (padded width n ++ rest) = padded width n :=
    takeDigits_append hdigits hlimit hrest
  rw [year?.unsigned?, htake, digitsValue_padded, List.drop_left]
  exact if_neg (by simpa using padded_ne_nil width n)

theorem isDigit_of_append_eq_cons {digits rest others : List Char} {c : Char} (hne : digits ≠ [])
    (hdigits : ∀ c ∈ digits, c.isDigit) (h : digits ++ rest = c :: others) : c.isDigit := by
  cases digits with
  | nil => exact absurd rfl hne
  | cons first digits =>
      cases h
      exact hdigits c List.mem_cons_self

/-- Years of four digits need no sign; the others have one, and any number of digits. -/
theorem year?_yearChars (year : Int) (rest : List Char) :
    year? (yearChars year ++ '-' :: rest) = some (year, '-' :: rest) := by
  have hsigned (n : Nat) (signed : Nat → Int) :
      year?.unsigned? (padded 4 n ++ '-' :: rest).length (padded 4 n ++ '-' :: rest) signed =
        some (signed n, '-' :: rest) :=
    unsigned?_padded signed (by simp) (.inr (by simp [StartsWithout]))
  unfold yearChars
  split
  · next hyear =>
    have hlength : (padded 4 year.toNat).length = 4 := length_padded (by decide) (by omega)
    have hdigits : ∀ c ∈ padded 4 year.toNat, c.isDigit := fun c hc => isDigit_of_mem_padded hc
    have hne : padded 4 year.toNat ≠ [] := padded_ne_nil 4 year.toNat
    unfold year?
    rw [trimStart_append hne hdigits]
    split
    · next heq => cases isDigit_of_append_eq_cons hne hdigits heq
    · next heq => cases isDigit_of_append_eq_cons hne hdigits heq
    · rw [unsigned?_padded _ (Nat.le_of_eq hlength) (.inl hlength), Int.toNat_of_nonneg hyear.1]
  · split
    · next hnegative =>
      have habs : -(year.natAbs : Int) = year := by omega
      rw [List.cons_append, year?, trimStart_of_not_isBlank (by decide)]
      change year?.unsigned? _ _ _ = _
      rw [hsigned, habs]
    · next hpositive =>
      have habs : (year.natAbs : Int) = year := by omega
      rw [List.cons_append, year?, trimStart_of_not_isBlank (by decide)]
      change year?.unsigned? _ _ _ = _
      rw [hsigned, habs]

/-! ## Fractions -/

theorem fraction?_padded {width n : Nat} {rest : List Char} (hwidth : 0 < width) (hnine : width ≤ 9)
    (h : n < 10 ^ width) (hrest : StartsWithout Char.isDigit rest) :
    fraction? ('.' :: (padded width n ++ rest)) = some (n * 10 ^ (9 - width), rest) := by
  have hdigits : ∀ c ∈ padded width n, c.isDigit := fun c hc => isDigit_of_mem_padded hc
  have hlength : (padded width n).length = width := length_padded hwidth h
  have htake : takeDigits 9 (padded width n ++ rest) = padded width n :=
    takeDigits_append hdigits (by omega) (.inr hrest)
  rw [fraction?, htake, digitsValue_padded, List.drop_left, hrest.dropWhile_eq_self, hlength]
  exact if_neg (by simpa using padded_ne_nil width n)

theorem fraction?_fractionChars {nanos : Nat} {rest : List Char} (h : nanos < 1000000000)
    (hdot : ∀ c ∈ rest.head?, c ≠ '.') (hrest : StartsWithout Char.isDigit rest) :
    fraction? (fractionChars .exact nanos ++ rest) = some (nanos, rest) := by
  unfold fractionChars
  dsimp only
  split
  · next hzero =>
    rw [hzero]
    cases rest with
    | nil => rfl
    | cons c rest =>
        have hc : c ≠ '.' := hdot c rfl
        simp [fraction?, hc]
  split
  · next hmillis =>
    have hexact : nanos / 1000000 * 10 ^ (9 - 3) = nanos := by omega
    rw [List.cons_append, fraction?_padded (by decide) (by decide) (by omega) hrest, hexact]
  split
  · next hmicros =>
    have hexact : nanos / 1000 * 10 ^ (9 - 6) = nanos := by omega
    rw [List.cons_append, fraction?_padded (by decide) (by decide) (by omega) hrest, hexact]
  · rw [List.cons_append, fraction?_padded (by decide) (by decide) (by omega) hrest, Nat.sub_self,
      Nat.pow_zero, Nat.mul_one]

/-! ## Date and time -/

theorem two_digits_of_isValid {date : CivilDate} (h : date.isValid) :
    date.month < 100 ∧ date.day < 100 := by
  have hlength : CivilDate.daysInMonth date.year date.month ≤ 31 := by
    unfold CivilDate.daysInMonth
    split
    · split <;> decide
    · split <;> decide
  simp only [CivilDate.isValid, Bool.and_eq_true, decide_eq_true_eq] at h
  omega

theorem date?_chars {date : CivilDate} (h : date.isValid) (rest : List Char) :
    date? (yearChars date.year ++ '-' :: (padded 2 date.month ++ '-' ::
      (padded 2 date.day ++ rest))) = some (date, rest) := by
  obtain ⟨hmonth, hday⟩ := two_digits_of_isValid h
  have hdash : isBlank '-' = false := by decide
  simp [date?, year?_yearChars, separator?_cons hdash, number?_two hmonth, number?_two hday, h]

/-- The counts are those of an instant: nanoseconds of its second, or of a leap second at the end of
a minute. -/
def HasCounts (instant : Instant) : Prop :=
  instant.nanos < 1000000000 ∨ (instant.nanos < 2000000000 ∧ instant.seconds % 60 = 59)

theorem secondOfDay_lt (instant : Instant) : instant.secondOfDay < 86400 := by
  unfold secondOfDay secondsPerDay
  omega

theorem HasCounts.second_cases {instant : Instant} (h : instant.HasCounts) :
    (instant.second = 60 ∧ (instant.hour * 60 + instant.minute) * 60 + 59 = instant.secondOfDay ∧
        instant.subsecond + 1000000000 = instant.nanos) ∨
      (instant.second < 60 ∧
        (instant.hour * 60 + instant.minute) * 60 + instant.second = instant.secondOfDay ∧
          instant.subsecond = instant.nanos) := by
  have hminute : instant.seconds % 60 = 59 → instant.secondOfDay % 60 = 59 := by
    unfold secondOfDay secondsPerDay
    omega
  unfold HasCounts at h
  unfold second hour minute subsecond isLeapSecond
  split
  · next hleap =>
    left
    rw [decide_eq_true_eq] at hleap
    omega
  · next hleap =>
    right
    rw [decide_eq_true_eq] at hleap
    omega

theorem time?_numbers {hour minute second subsecond : Nat} {rest : List Char} (hhour : hour < 24)
    (hminute : minute < 60) (hsecond : second ≤ 60) (hsubsecond : subsecond < 1000000000)
    (hdot : ∀ c ∈ rest.head?, c ≠ '.') (hrest : StartsWithout Char.isDigit rest) :
    time? (padded 2 hour ++ ':' :: (padded 2 minute ++ ':' ::
      (padded 2 second ++ (fractionChars .exact subsecond ++ rest)))) =
      some (if second = 60 then ((hour * 60 + minute) * 60 + 59, subsecond + 1000000000)
        else ((hour * 60 + minute) * 60 + second, subsecond), rest) := by
  have hcolon : isBlank ':' = false := by decide
  have htwo : second < 100 := by omega
  simp [time?, number?_two (Nat.lt_trans hhour (by decide)),
    number?_two (Nat.lt_trans hminute (by decide)), number?_two htwo, separator?_cons hcolon,
    fraction?_fractionChars hsubsecond hdot hrest, hhour, hminute, hsecond]
  split <;> rfl

theorem time?_chars {instant : Instant} (h : instant.HasCounts) {rest : List Char}
    (hdot : ∀ c ∈ rest.head?, c ≠ '.') (hrest : StartsWithout Char.isDigit rest) :
    time? (padded 2 instant.hour ++ ':' :: (padded 2 instant.minute ++ ':' ::
      (padded 2 instant.second ++ (fractionChars .exact instant.subsecond ++ rest)))) =
      some ((instant.secondOfDay, instant.nanos), rest) := by
  have hhour : instant.hour < 24 := Nat.div_lt_of_lt_mul instant.secondOfDay_lt
  have hminute : instant.minute < 60 := Nat.mod_lt _ (by decide)
  have hsubsecond : instant.subsecond < 1000000000 := Nat.mod_lt _ (by decide)
  rcases h.second_cases with ⟨hsecond, hcount, hnanos⟩ | ⟨hsecond, hcount, hnanos⟩
  · rw [time?_numbers hhour hminute (Nat.le_of_eq hsecond) hsubsecond hdot hrest, if_pos hsecond,
      hcount, hnanos]
  · rw [time?_numbers hhour hminute (Nat.le_of_lt hsecond) hsubsecond hdot hrest,
      if_neg (Nat.ne_of_lt hsecond), hcount, hnanos]

/-! ## Instants -/

/-- Instants that there are: with the counts of an instant, in a year that dates are read for. -/
structure IsValid (instant : Instant) : Prop where
  counts : instant.HasCounts
  low : CivilDate.minYear ≤ instant.date.year
  high : instant.date.year ≤ CivilDate.maxYear

theorem toDays_date (instant : Instant) :
    instant.date.toDays * secondsPerDay + instant.secondOfDay = instant.seconds := by
  rw [date, CivilDate.toDays_ofDays]
  unfold days secondOfDay secondsPerDay
  omega

/-- An instant is read back from its text. -/
theorem ofText?_text {instant : Instant} (h : instant.IsValid) :
    ofText? instant.text = some instant := by
  have hdot : ∀ c ∈ ['Z'].head?, c ≠ '.' := by simp
  have hdigit : StartsWithout Char.isDigit ['Z'] := by simp [StartsWithout]
  have htime := time?_chars h.counts hdot hdigit
  have hdate := date?_chars (CivilDate.isValid_ofDays h.low h.high)
    ('T' :: (padded 2 instant.hour ++ ':' :: (padded 2 instant.minute ++ ':' ::
      (padded 2 instant.second ++ (fractionChars .exact instant.subsecond ++ ['Z'])))))
  change date? (yearChars instant.date.year ++ '-' :: (padded 2 instant.date.month ++ '-' ::
    (padded 2 instant.date.day ++ _))) = some (instant.date, _) at hdate
  have hblank : isBlank 'Z' = false := by decide
  simp [ofText?, text, chars, ofChars?, hdate, htime, isDateEnd, trimStart_of_not_isBlank hblank,
    offset?, toDays_date, h.low, h.high]

end FilterSql.Instant
