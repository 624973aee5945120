import FilterSql.Proofs.Instant.Columns

/-!
# The order of instants

A later day has a later date: year, month and day decide in this order, and so do hour, minute,
second and millisecond for the time of a day.  In the years that are written with four digits, an
instant is these numbers in columns, and its text sorts as its milliseconds do.
-/

namespace FilterSql

/-! ## Days of an era -/

namespace EraDay

variable {first second : EraDay}

theorem index_lt (day : EraDay) : day.index < 146097 := by
  obtain ⟨century, cycle, year, day, hcentury, hcycle, hyear, hday, hleap⟩ := day
  simp only [index]
  omega

/-- A later year of an era begins after the last day of the earlier one, its leap day included. -/
theorem index_lt_of_yearOfEra_lt (h : first.yearOfEra < second.yearOfEra) :
    first.index < second.index := by
  obtain ⟨century, cycle, year, day, hcentury, hcycle, hyear, hday, hleap⟩ := first
  obtain ⟨century', cycle', year', day', hcentury', hcycle', hyear', hday', hleap'⟩ := second
  simp only [yearOfEra, index] at h ⊢
  have hparts : century < century' ∨ century = century' ∧
      (cycle < cycle' ∨ cycle = cycle' ∧ year < year') := by
    omega
  rcases hparts with hlt | ⟨rfl, hlt | ⟨rfl, hlt⟩⟩
  · omega
  · omega
  · omega

theorem index_lt_iff :
    first.index < second.index ↔ first.yearOfEra < second.yearOfEra ∨
      first.yearOfEra = second.yearOfEra ∧ first.day < second.day := by
  have hfirst := first.yearOfEra_days
  have hsecond := second.yearOfEra_days
  rcases Nat.lt_trichotomy first.yearOfEra second.yearOfEra with hlt | heq | hgt
  · have hindex := index_lt_of_yearOfEra_lt hlt
    omega
  · rw [heq] at hfirst ⊢
    omega
  · have hindex := index_lt_of_yearOfEra_lt hgt
    omega

theorem day_lt_iff :
    first.day < second.day ↔ first.monthFromMarch < second.monthFromMarch ∨
      first.monthFromMarch = second.monthFromMarch ∧
        first.day - daysBefore first.monthFromMarch <
          second.day - daysBefore second.monthFromMarch := by
  have hfirst := first.daysBefore_le
  have hsecond := second.daysBefore_le
  unfold daysBefore monthFromMarch at *
  omega

end EraDay

/-! ## Dates -/

namespace CivilDate

def IsBefore (first second : CivilDate) : Prop :=
  first.year < second.year ∨ first.year = second.year ∧
    (first.month < second.month ∨ first.month = second.month ∧ first.day < second.day)

theorem era_lt_iff {era era' : Int} {day day' : EraDay} :
    era * daysPerEra + day.index < era' * daysPerEra + day'.index ↔
      day.yearOfEra + era * 400 < day'.yearOfEra + era' * 400 ∨
        day.yearOfEra + era * 400 = day'.yearOfEra + era' * 400 ∧ day.day < day'.day := by
  have hindex := day.index_lt
  have hindex' := day'.index_lt
  have hyear := day.yearOfEra_lt
  have hyear' := day'.yearOfEra_lt
  unfold daysPerEra
  rcases Int.lt_trichotomy era era' with hlt | rfl | hgt
  · omega
  · have hday : day.index < day'.index ↔ _ := EraDay.index_lt_iff
    omega
  · omega

theorem ofDays_isBefore_iff {first second : Int} :
    (ofDays first).IsBefore (ofDays second) ↔ first < second := by
  obtain ⟨era, day, hfirst, hdate⟩ := exists_eraDay first
  obtain ⟨era', day', hsecond, hdate'⟩ := exists_eraDay second
  rw [hdate, hdate']
  have hdays : first < second ↔
      day.yearOfEra + era * 400 < day'.yearOfEra + era' * 400 ∨
        day.yearOfEra + era * 400 = day'.yearOfEra + era' * 400 ∧ day.day < day'.day := by
    rw [← era_lt_iff, ← hfirst, ← hsecond]
    omega
  have hmonth := day.month_cases
  have hmonth' := day'.month_cases
  rw [hdays, EraDay.day_lt_iff]
  simp only [IsBefore, EraDay.date]
  split <;> split <;> omega

end CivilDate

/-! ## Milliseconds -/

namespace Instant

open FilterSql.Text

/-- The milliseconds since 1970-01-01T00:00:00 UTC, what is finer being cut off. -/
def millis (instant : Instant) : Int := instant.seconds * 1000 + instant.nanos / 1000000

/-- Instants in the years that have four digits, leap seconds apart. -/
structure IsOrdinary (instant : Instant) : Prop where
  nanos_lt : instant.nanos < 1000000000
  year_nonneg : 0 ≤ instant.date.year
  year_le : instant.date.year ≤ 9999

def fields (instant : Instant) : List Nat :=
  [instant.date.year.toNat, instant.date.month, instant.date.day, instant.hour, instant.minute,
    instant.second, instant.subsecond / 1000000]

variable {first second : Instant}

theorem IsOrdinary.clock {instant : Instant} (h : instant.IsOrdinary) :
    instant.minute < 60 ∧ instant.second < 60 ∧
      (instant.hour * 60 + instant.minute) * 60 + instant.second = instant.secondOfDay ∧
        instant.subsecond = instant.nanos := by
  have hminute : instant.minute < 60 := Nat.mod_lt _ (by decide)
  have hnanos := h.nanos_lt
  have hcounts : instant.HasCounts := .inl hnanos
  rcases hcounts.second_cases with ⟨-, -, hleap⟩ | hclock
  · omega
  · exact ⟨hminute, hclock⟩

theorem seconds_eq (instant : Instant) :
    instant.seconds = instant.days * 86400 + instant.secondOfDay := by
  unfold days secondOfDay secondsPerDay
  omega

theorem time_lt_iff (hfirst : first.IsOrdinary) (hsecond : second.IsOrdinary) :
    [first.hour, first.minute, first.second, first.subsecond / 1000000] <
        [second.hour, second.minute, second.second, second.subsecond / 1000000] ↔
      first.secondOfDay * 1000 + first.nanos / 1000000 <
        second.secondOfDay * 1000 + second.nanos / 1000000 := by
  obtain ⟨hminute, hclock, hday, hsubsecond⟩ := hfirst.clock
  obtain ⟨hminute', hclock', hday', hsubsecond'⟩ := hsecond.clock
  have hnanos := hfirst.nanos_lt
  have hnanos' := hsecond.nanos_lt
  rw [← hday, ← hday', hsubsecond, hsubsecond']
  simp only [List.cons_lt_cons_iff, List.not_lt_nil, and_false, or_false]
  omega

theorem fields_lt_iff (hfirst : first.IsOrdinary) (hsecond : second.IsOrdinary) :
    first.fields < second.fields ↔ first.millis < second.millis := by
  -- Both directions are needed: the time decides where neither date is before the other.
  have hbefore : first.date.IsBefore second.date ↔ first.days < second.days :=
    CivilDate.ofDays_isBefore_iff
  have hafter : second.date.IsBefore first.date ↔ second.days < first.days :=
    CivilDate.ofDays_isBefore_iff
  have hday := first.secondOfDay_lt
  have hday' := second.secondOfDay_lt
  have hnanos := hfirst.nanos_lt
  have hnanos' := hsecond.nanos_lt
  have hyear := hfirst.year_nonneg
  have hyear' := hsecond.year_nonneg
  unfold CivilDate.IsBefore at hbefore hafter
  unfold fields millis
  rw [List.cons_lt_cons_iff, List.cons_lt_cons_iff, List.cons_lt_cons_iff,
    time_lt_iff hfirst hsecond, first.seconds_eq, second.seconds_eq]
  omega

/-- What is finer than a millisecond is not written. -/
theorem fields_eq_of_millis_eq (hfirst : first.IsOrdinary) (hsecond : second.IsOrdinary)
    (h : first.millis = second.millis) : first.fields = second.fields := by
  obtain ⟨-, -, hclock, hsubsecond⟩ := hfirst.clock
  obtain ⟨-, -, hclock', hsubsecond'⟩ := hsecond.clock
  have hnanos := hfirst.nanos_lt
  have hnanos' := hsecond.nanos_lt
  unfold millis at h
  have hmillis : first.nanos / 1000000 = second.nanos / 1000000 := by omega
  have hseconds : first.seconds = second.seconds := by omega
  have hdate : first.date = second.date := by rw [date, date, days, days, hseconds]
  have hday : first.secondOfDay = second.secondOfDay := by rw [secondOfDay, secondOfDay, hseconds]
  have hhour : first.hour = second.hour := by rw [hour, hour, hday]
  have hminute : first.minute = second.minute := by rw [minute, minute, hday]
  have hsecond : first.second = second.second := by omega
  rw [fields, fields, hdate, hhour, hminute, hsecond, hsubsecond, hsubsecond', hmillis]

/-! ## Texts -/

def template : List (Nat × Char) :=
  [(4, '-'), (2, '-'), (2, 'T'), (2, ':'), (2, ':'), (2, '.'), (3, 'Z')]

theorem fits_fields {instant : Instant} (h : instant.IsOrdinary) : Fits template instant.fields := by
  obtain ⟨hminute, hclock, -, hsubsecond⟩ := h.clock
  obtain ⟨hnanos, hlow, hhigh⟩ := h
  have hvalid : instant.date.isValid = true :=
    CivilDate.isValid_ofDays (Int.le_trans (by decide) hlow) (Int.le_trans hhigh (by decide))
  have hdate := two_digits_of_isValid hvalid
  have hhour : instant.hour < 24 := Nat.div_lt_of_lt_mul instant.secondOfDay_lt
  simp only [Fits, template, fields, List.forall₂_cons, List.Forall₂.nil, and_true]
  omega

theorem millisText_eq {instant : Instant} (h : instant.IsOrdinary) :
    instant.millisText = String.ofList (columns template instant.fields) := by
  simp [millisText, chars, columns, template, fields, yearChars, fractionChars, h.year_nonneg,
    h.year_le]

theorem length_millisText {instant : Instant} (h : instant.IsOrdinary) :
    instant.millisText.length = 24 := by
  rw [millisText_eq h, String.length_ofList, length_columns (fits_fields h)]
  rfl

theorem toNat_range_of_mem_columns {numbers : List Nat} {c : Char}
    (h : c ∈ columns template numbers) : 45 ≤ c.toNat ∧ c.toNat ≤ 90 := by
  rcases isDigit_or_mark_of_mem_columns h with hdigit | hmark
  · have hrange := toNat_of_isDigit hdigit
    omega
  · have hmarks : (template.map Prod.snd).all fun c => 45 ≤ c.toNat && c.toNat ≤ 90 := by decide
    simpa using List.all_eq_true.mp hmarks c hmark

theorem isAscii_columns (numbers : List Nat) : IsAscii (columns template numbers) := by
  intro c hc
  have hrange := toNat_range_of_mem_columns hc
  omega

theorem millisText_lt_iff (hfirst : first.IsOrdinary) (hsecond : second.IsOrdinary) :
    first.millisText.toUTF8.data.toList < second.millisText.toUTF8.data.toList ↔
      first.millis < second.millis := by
  rw [millisText_eq hfirst, millisText_eq hsecond,
    toUTF8_lt_iff (isAscii_columns _) (isAscii_columns _),
    columns_lt_iff (fits_fields hfirst) (fits_fields hsecond), fields_lt_iff hfirst hsecond]

theorem millisText_eq_iff (hfirst : first.IsOrdinary) (hsecond : second.IsOrdinary) :
    first.millisText = second.millisText ↔ first.millis = second.millis := by
  constructor
  · intro h
    have hlow := millisText_lt_iff hfirst hsecond
    have hhigh := millisText_lt_iff hsecond hfirst
    have hirrefl := List.lt_irrefl second.millisText.toUTF8.data.toList
    rw [h] at hlow hhigh
    have hnotLess : ¬ first.millis < second.millis := fun hless => hirrefl (hlow.mpr hless)
    have hnotMore : ¬ second.millis < first.millis := fun hmore => hirrefl (hhigh.mpr hmore)
    omega
  · intro h
    rw [millisText_eq hfirst, millisText_eq hsecond, fields_eq_of_millis_eq hfirst hsecond h]

end Instant

end FilterSql
