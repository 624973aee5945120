import FilterSql.Instant.Basic

/-!
# The calendar

Four hundred years have as many days as any other four hundred.  A day of theirs has a
place in its century, in a cycle of four years there, in a year of the cycle; a year
that begins in March ends with the leap day.  In these parts the date of a day is found
without rounding, and the day of a date is the same day again.
-/

namespace FilterSql

/-! ## Days of an era -/

/-- A day of four hundred years, counted in centuries, cycles of four years, years and days.  The
last day of a leap year is its 365th after the first. -/
structure EraDay where
  century : Nat
  cycle : Nat
  year : Nat
  day : Nat
  century_le : century ≤ 3
  cycle_le : cycle ≤ 24
  year_le : year ≤ 3
  day_le : day ≤ 365
  leap : day = 365 → year = 3 ∧ (cycle = 24 → century = 3)

namespace EraDay

def index (day : EraDay) : Nat := 36524 * day.century + 1461 * day.cycle + 365 * day.year + day.day

def yearOfEra (day : EraDay) : Nat := 100 * day.century + 4 * day.cycle + day.year

/-- The last century of an era and the last year of a cycle may have a day more than the others. -/
theorem exists_index {index : Nat} (h : index < 146097) : ∃ day : EraDay, day.index = index := by
  obtain ⟨century, inCentury, hindex, hcentury, hshort, hlong⟩ : ∃ century inCentury,
      index = 36524 * century + inCentury ∧ century ≤ 3 ∧ inCentury ≤ 36524 ∧
        (inCentury = 36524 → century = 3) :=
    ⟨min (index / 36524) 3, index - 36524 * min (index / 36524) 3, by omega, by omega, by omega,
      by omega⟩
  have hcycle : inCentury / 1461 ≤ 24 := by omega
  have hinCycle : inCentury = 1461 * (inCentury / 1461) + inCentury % 1461 := by omega
  obtain ⟨year, day, hday, hyear, hdays, hleap⟩ : ∃ year day,
      inCentury % 1461 = 365 * year + day ∧ year ≤ 3 ∧ day ≤ 365 ∧ (day = 365 → year = 3) :=
    ⟨min (inCentury % 1461 / 365) 3, inCentury % 1461 - 365 * min (inCentury % 1461 / 365) 3,
      by omega, by omega, by omega, by omega⟩
  refine ⟨⟨century, inCentury / 1461, year, day, hcentury, hcycle, hyear, hdays, ?_⟩, ?_⟩
  · intro hlast
    have hthird := hleap hlast
    exact ⟨hthird, fun hcycle => hlong (by omega)⟩
  · simp only [EraDay.index]
    omega

/-- The leap days before a day of the era, one more being counted on some of the days of a cycle. -/
private theorem leapDays_eq (day : EraDay) : ∃ early, early ≤ 1 ∧
    day.index / 1460 = 25 * day.century + day.cycle + early ∧
      early ≤ day.day ∧ day.day < 365 + early := by
  obtain ⟨century, cycle, year, day, hcentury, hcycle, hyear, hday, hleap⟩ := day
  simp only [index]
  refine ⟨(24 * century + cycle + 365 * year + day) / 1460, ?_, ?_, ?_, ?_⟩
  · omega
  · omega
  · omega
  · omega

/-- The last day of the era is the only one that lies a whole number of centuries after the first
and yet in the century before. -/
private theorem centuries_eq (day : EraDay) :
    day.index / 36524 = day.century + day.index / 146096 := by
  obtain ⟨century, cycle, year, day, hcentury, hcycle, hyear, hday, hleap⟩ := day
  obtain ⟨inCentury, hinCentury⟩ : ∃ n, n = 1461 * cycle + 365 * year + day := ⟨_, rfl⟩
  have hshort : inCentury ≤ 36524 := by omega
  have hlong : inCentury = 36524 → century = 3 := by omega
  simp only [index]
  rw [Nat.add_assoc, Nat.add_assoc, ← Nat.add_assoc (1461 * cycle), ← hinCentury]
  clear hinCentury
  omega

theorem yearOfEra_eq (day : EraDay) :
    (day.index - day.index / 1460 + day.index / 36524 - day.index / 146096) / 365 =
      day.yearOfEra := by
  obtain ⟨early, -, hleap, hlow, hhigh⟩ := day.leapDays_eq
  rw [day.centuries_eq, hleap]
  simp only [index, yearOfEra]
  omega

theorem dayOfYear_eq (day : EraDay) :
    day.index - (365 * day.yearOfEra + day.yearOfEra / 4 - day.yearOfEra / 100) = day.day := by
  obtain ⟨century, cycle, year, day, hcentury, hcycle, hyear, hday, hleap⟩ := day
  simp only [index, yearOfEra]
  omega

theorem yearOfEra_lt (day : EraDay) : day.yearOfEra < 400 := by
  have hcentury := day.century_le
  have hcycle := day.cycle_le
  have hyear := day.year_le
  unfold yearOfEra
  omega

/-! ## Months -/

def monthFromMarch (day : EraDay) : Nat := (5 * day.day + 2) / 153

def month (day : EraDay) : Nat :=
  if day.monthFromMarch < 10 then day.monthFromMarch + 3 else day.monthFromMarch - 9

def daysBefore (monthFromMarch : Nat) : Nat := (153 * monthFromMarch + 2) / 5

theorem daysBefore_le (day : EraDay) : daysBefore day.monthFromMarch ≤ day.day := by
  unfold daysBefore monthFromMarch
  omega

theorem monthFromMarch_le (day : EraDay) : day.monthFromMarch ≤ 11 := by
  have hday := day.day_le
  unfold monthFromMarch
  omega

theorem month_cases (day : EraDay) :
    (day.monthFromMarch ≤ 9 ∧ day.month = day.monthFromMarch + 3) ∨
      (10 ≤ day.monthFromMarch ∧ day.monthFromMarch ≤ 11 ∧ day.month = day.monthFromMarch - 9) := by
  have hlast := day.monthFromMarch_le
  unfold month
  split <;> omega

def date (day : EraDay) (era : Int) : CivilDate where
  year := day.yearOfEra + era * 400 + if day.month ≤ 2 then 1 else 0
  month := day.month
  day := day.day - daysBefore day.monthFromMarch + 1

theorem yearOfEra_days (day : EraDay) :
    (day.yearOfEra : Int) * 365 + (day.yearOfEra : Int) / 4 - (day.yearOfEra : Int) / 100 +
      day.day = day.index := by
  obtain ⟨century, cycle, year, day, hcentury, hcycle, hyear, hday, hleap⟩ := day
  simp only [index, yearOfEra]
  omega

theorem toDays_date (day : EraDay) (era : Int) :
    (day.date era).toDays = era * CivilDate.daysPerEra + day.index - CivilDate.epochOffset := by
  have hyear : (if (day.date era).month ≤ 2 then (day.date era).year - 1
      else (day.date era).year) = day.yearOfEra + era * 400 := by
    unfold date
    split <;> simp
  have hmonth : (if (day.date era).month ≤ 2 then ((day.date era).month : Int) + 9
      else ((day.date era).month : Int) - 3) = day.monthFromMarch := by
    change (if day.month ≤ 2 then (day.month : Int) + 9 else (day.month : Int) - 3) = _
    have hcases := day.month_cases
    split <;> omega
  have hday : (153 * (day.monthFromMarch : Int) + 2) / 5 + (day.date era).day - 1 = day.day := by
    have hbefore := day.daysBefore_le
    change _ + ((day.day - daysBefore day.monthFromMarch + 1 : Nat) : Int) - 1 = _
    unfold daysBefore at *
    omega
  have hlt := day.yearOfEra_lt
  have hquotient : (day.yearOfEra + era * 400) / 400 = era := by omega
  have hremainder : (day.yearOfEra + era * 400) % 400 = day.yearOfEra := by omega
  have hindex := day.yearOfEra_days
  simp only [CivilDate.toDays, hyear, hmonth, hday, hquotient, hremainder, hindex]

theorem isLeap_of_last (day : EraDay) (era : Int) (h : day.day = 365) :
    CivilDate.isLeap (day.yearOfEra + era * 400 + 1) = true := by
  obtain ⟨century, cycle, year, day, hcentury, hcycle, hyear, hday, hleap⟩ := day
  obtain ⟨hthird, hlast⟩ := hleap h
  simp only [CivilDate.isLeap, yearOfEra, Bool.and_eq_true, Bool.or_eq_true, beq_iff_eq, bne_iff_ne]
  refine ⟨by omega, ?_⟩
  by_cases hend : cycle = 24
  · have hcentury := hlast hend
    right
    omega
  · left
    omega

theorem day_le_daysInMonth (day : EraDay) (era : Int) :
    (day.date era).day ≤ CivilDate.daysInMonth (day.date era).year (day.date era).month := by
  have hday := day.day_le
  have hlow : 153 * day.monthFromMarch ≤ 5 * day.day + 2 := Nat.mul_div_le _ _
  have hhigh : 5 * day.day + 2 < 153 * (day.monthFromMarch + 1) := Nat.lt_mul_div_succ _ (by decide)
  have hcases := day.month_cases
  change day.day - daysBefore day.monthFromMarch + 1 ≤ CivilDate.daysInMonth _ day.month
  unfold CivilDate.daysInMonth daysBefore
  by_cases hfebruary : day.month = 2
  · have hmonth : day.monthFromMarch = 11 := by omega
    rw [if_pos hfebruary, hmonth]
    split
    · omega
    · next hcommon =>
      have hlast : day.day ≠ 365 := fun hlast => hcommon (by
        have hleap := day.isLeap_of_last era hlast
        unfold date
        rwa [if_pos (by omega)])
      omega
  · rw [if_neg hfebruary]
    split <;> omega

end EraDay

namespace CivilDate

theorem exists_eraDay (days : Int) : ∃ (era : Int) (day : EraDay),
    days + epochOffset = era * daysPerEra + day.index ∧ ofDays days = day.date era := by
  have hindex : ((days + epochOffset) % daysPerEra).toNat < 146097 := by
    unfold daysPerEra
    omega
  obtain ⟨day, hday⟩ := EraDay.exists_index hindex
  refine ⟨(days + epochOffset) / daysPerEra, day, ?_, ?_⟩
  · unfold daysPerEra at hday ⊢
    omega
  · simp only [ofDays, EraDay.date, EraDay.month, EraDay.monthFromMarch, EraDay.daysBefore]
    rw [← hday, day.yearOfEra_eq, day.dayOfYear_eq]
    rfl

theorem toDays_ofDays (days : Int) : (ofDays days).toDays = days := by
  obtain ⟨era, day, hdays, hdate⟩ := exists_eraDay days
  rw [hdate, day.toDays_date, ← hdays]
  omega

theorem isValid_ofDays {days : Int} (hlow : minYear ≤ (ofDays days).year)
    (hhigh : (ofDays days).year ≤ maxYear) : (ofDays days).isValid = true := by
  obtain ⟨era, day, -, hdate⟩ := exists_eraDay days
  rw [hdate] at hlow hhigh ⊢
  have hmonth : 1 ≤ (day.date era).month ∧ (day.date era).month ≤ 12 := by
    have hcases := day.month_cases
    change 1 ≤ day.month ∧ day.month ≤ 12
    omega
  have hfirst : 1 ≤ (day.date era).day := Nat.succ_pos _
  simp [isValid, hlow, hhigh, hmonth, hfirst, day.day_le_daysInMonth era]

end CivilDate

end FilterSql
