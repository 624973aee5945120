import FilterSql.Proofs.Double.Rounding

/-!
# Shortest decimals read back

The search for a shortest decimal ends inside the rounding interval of its double: a grid of
seventeen digits is finer than the interval is wide.  Whatever decimal lies in that interval is
read as that double, however its digits are spread over the point and the exponent.
-/

namespace FilterSql.Decimal

open Double (unitsOf unitsPerOne)

/-! ## Powers of ten -/

theorem powerOfTen_of_nonneg {exponent : Int} (h : 0 ≤ exponent) :
    powerOfTen exponent = (10 ^ exponent.toNat, 1) := if_pos h

theorem powerOfTen_of_neg {exponent : Int} (h : exponent < 0) :
    powerOfTen exponent = (1, 10 ^ (-exponent).toNat) := if_neg (Int.not_le.mpr h)

theorem powerOfTen_fst_pos (exponent : Int) : 0 < (powerOfTen exponent).1 := by
  by_cases h : 0 ≤ exponent
  · rw [powerOfTen_of_nonneg h]
    exact Nat.pow_pos (by decide)
  · rw [powerOfTen_of_neg (Int.not_le.mp h)]
    exact Nat.one_pos

theorem powerOfTen_snd_pos (exponent : Int) : 0 < (powerOfTen exponent).2 := by
  by_cases h : 0 ≤ exponent
  · rw [powerOfTen_of_nonneg h]
    exact Nat.one_pos
  · rw [powerOfTen_of_neg (Int.not_le.mp h)]
    exact Nat.pow_pos (by decide)

theorem powerOfTen_lt_iff (a b : Nat) (exponent : Int) :
    10 ^ a * (powerOfTen exponent).1 < 10 ^ b * (powerOfTen exponent).2 ↔ a + exponent < b := by
  by_cases h : 0 ≤ exponent
  · rw [powerOfTen_of_nonneg h, Nat.mul_one, ← Nat.pow_add, Nat.pow_lt_pow_iff_right (by decide)]
    omega
  · rw [powerOfTen_of_neg (Int.not_le.mp h), Nat.mul_one, ← Nat.pow_add,
      Nat.pow_lt_pow_iff_right (by decide)]
    omega

theorem powerOfTen_sub (exponent : Int) (count : Nat) :
    (powerOfTen (exponent - count)).1 * 10 ^ count * (powerOfTen exponent).2 =
      (powerOfTen exponent).1 * (powerOfTen (exponent - count)).2 := by
  by_cases h : 0 ≤ exponent
  · rw [powerOfTen_of_nonneg h]
    by_cases hsub : 0 ≤ exponent - count
    · rw [powerOfTen_of_nonneg hsub, Nat.mul_one, Nat.mul_one, ← Nat.pow_add]
      congr 1
      omega
    · rw [powerOfTen_of_neg (Int.not_le.mp hsub), Nat.mul_one, Nat.one_mul, ← Nat.pow_add]
      congr 1
      omega
  · rw [powerOfTen_of_neg (Int.not_le.mp h), powerOfTen_of_neg (by omega), Nat.one_mul, Nat.one_mul,
      ← Nat.pow_add]
    congr 1
    omega

/-! ## Decimals in an interval -/

def IsWithin (interval : Interval) (decimal : Decimal) : Prop :=
  interval.contains (decimal.digits * ((powerOfTen decimal.exponent).1 * (2 * unitsPerOne)))
    (powerOfTen decimal.exponent).2

variable {interval : Interval} {decimal : Decimal} {tie : Tie}

theorem Interval.contains_congr {n d n' d' : Nat} (hpos : 0 < d) (hpos' : 0 < d')
    (h : n * d' = n' * d) : interval.contains n d ↔ interval.contains n' d' := by
  have hle (bound : Nat) : bound * d ≤ n ↔ bound * d' ≤ n' := by
    rw [← Nat.mul_le_mul_right_iff hpos', h, Nat.mul_right_comm, Nat.mul_le_mul_right_iff hpos]
  have hge (bound : Nat) : n ≤ bound * d ↔ n' ≤ bound * d' := by
    rw [← Nat.mul_le_mul_right_iff hpos', h, Nat.mul_right_comm, Nat.mul_le_mul_right_iff hpos]
  have hlt (bound : Nat) : bound * d < n ↔ bound * d' < n' := by
    rw [← Nat.not_le, ← Nat.not_le, hge]
  have hgt (bound : Nat) : n < bound * d ↔ n' < bound * d' := by
    rw [← Nat.not_le, ← Nat.not_le, hle]
  rw [Interval.contains_iff, Interval.contains_iff, hle, hge, hlt, hgt]

theorem isWithin_shift (digits : Nat) (exponent : Int) (count : Nat) :
    IsWithin interval ⟨digits * 10 ^ count, exponent - count⟩ ↔
      IsWithin interval ⟨digits, exponent⟩ := by
  refine Interval.contains_congr (powerOfTen_snd_pos _) (powerOfTen_snd_pos _) ?_
  have hshift := powerOfTen_sub exponent count
  calc
    digits * 10 ^ count * ((powerOfTen (exponent - count)).1 * (2 * unitsPerOne)) *
        (powerOfTen exponent).2
    _ = digits * ((powerOfTen (exponent - count)).1 * 10 ^ count * (powerOfTen exponent).2) *
        (2 * unitsPerOne) := by ring
    _ = _ := by
      rw [hshift]
      ring

theorem isWithin_trimZeros (h : IsWithin interval decimal) (count : Nat) :
    IsWithin interval (trimZeros count decimal) := by
  induction count generalizing decimal with
  | zero => exact h
  | succ count ih =>
      unfold trimZeros
      split
      · next hzero =>
        have htimes : decimal.digits = decimal.digits / 10 * 10 ^ 1 := by omega
        have hexponent : decimal.exponent = decimal.exponent + 1 - (1 : Nat) := by omega
        refine ih ((isWithin_shift _ _ 1).mp ?_)
        rw [← htimes, ← hexponent]
        exact h
      · exact h

/-! ## Grids -/

theorem isWithin_of_gridPoint? {exponent : Int} {digits : Nat}
    (h : gridPoint? tie interval exponent = some digits) : IsWithin interval ⟨digits, exponent⟩ := by
  unfold gridPoint? at h
  dsimp only at h
  unfold IsWithin
  dsimp only
  split at h
  · next hboth =>
    obtain ⟨hbelow, habove⟩ := (Bool.and_eq_true _ _).mp hboth
    cases h
    split
    · exact habove
    · exact hbelow
  · split at h
    · next hbelow =>
      cases h
      exact hbelow
    · split at h
      · next habove =>
        cases h
        exact habove
      · cases h

/-- An interval that is wider than the steps of a grid has one of its points. -/
theorem gridPoint?_isSome {exponent : Int} (hlow : interval.low ≤ interval.middle)
    (hhigh : interval.middle < interval.high)
    (hwide : interval.low * (powerOfTen exponent).2 +
        (powerOfTen exponent).1 * (2 * unitsPerOne) < interval.high * (powerOfTen exponent).2) :
    (gridPoint? tie interval exponent).isSome := by
  have hpos := powerOfTen_snd_pos exponent
  have hlower := Nat.mul_le_mul_right (powerOfTen exponent).2 hlow
  have hupper := Nat.mul_lt_mul_of_pos_right hhigh hpos
  have hstep : 0 < (powerOfTen exponent).1 * (2 * unitsPerOne) :=
    Nat.mul_pos (powerOfTen_fst_pos exponent) (by decide)
  unfold gridPoint?
  dsimp only
  generalize (powerOfTen exponent).1 * (2 * unitsPerOne) = step at *
  generalize (powerOfTen exponent).2 = denominator at *
  have hdivision := Nat.div_add_mod' (interval.middle * denominator) step
  have hrest := Nat.mod_lt (interval.middle * denominator) hstep
  have hfits {point : Nat} (habove : interval.low * denominator < point)
      (hbelow : point < interval.high * denominator) : interval.contains point denominator :=
    Interval.contains_iff.mpr
      ⟨⟨Nat.le_of_lt habove, Nat.le_of_lt hbelow⟩, fun _ => ⟨habove, hbelow⟩⟩
  -- Where the point below the middle is too low, the next one is not yet too high.
  by_cases hbelow : interval.low * denominator < interval.middle * denominator / step * step
  · have hcontains := hfits hbelow (by omega)
    rw [hcontains]
    split
    · rfl
    · rfl
  · have hcontains : interval.contains ((interval.middle * denominator / step + 1) * step)
        denominator := by
      apply hfits <;> rw [Nat.add_one_mul] <;> omega
    rw [hcontains]
    split
    · rfl
    · split <;> rfl

theorem isWithin_searchFrom {leading : Int} (count remaining start : Nat)
    (hstart : start ≤ count) (hremaining : count < start + remaining)
    (h : (gridPoint? tie interval (leading + 1 - count)).isSome) :
    IsWithin interval (searchFrom tie interval leading remaining start) := by
  induction remaining generalizing start with
  | zero => omega
  | succ remaining ih =>
      unfold searchFrom
      dsimp only
      split
      · next digits hdigits => exact isWithin_trimZeros (isWithin_of_gridPoint? hdigits) 20
      · next hnone =>
        have hne : start ≠ count := by
          rintro rfl
          rw [hnone] at h
          cases h
        exact ih (start + 1) (by omega) (by omega)

/-! ## Seventeen digits -/

theorem digitCount_pos (n : Nat) : 0 < digitCount n := Nat.length_toDigits_pos

theorem lt_pow_digitCount (n : Nat) : n < 10 ^ digitCount n :=
  (Nat.length_toDigits_le_iff (by decide) Nat.length_toDigits_pos).mp (Nat.le_refl _)

theorem pow_digitCount_le {n : Nat} (h : n ≠ 0) : 10 ^ (digitCount n - 1) ≤ n := by
  by_cases hone : digitCount n - 1 = 0
  · rw [hone, Nat.pow_zero]
    exact Nat.one_le_iff_ne_zero.mpr h
  · have hle := Nat.length_toDigits_le_iff (b := 10) (n := n) (by decide)
      (Nat.pos_of_ne_zero hone)
    refine Nat.le_of_not_lt (hle.not.mp ?_)
    change ¬digitCount n ≤ digitCount n - 1
    omega

theorem powerOfTen_sub_le {units count shift scaled : Nat} (hscaled : 10 ^ shift = scaled)
    (h : 10 ^ count * unitsPerOne ≤ units * scaled) :
    (powerOfTen (count - shift)).1 * unitsPerOne ≤ units * (powerOfTen (count - shift)).2 := by
  subst hscaled
  have hshift := powerOfTen_sub count shift
  rw [powerOfTen_of_nonneg (Int.natCast_nonneg count), Int.toNat_natCast, Nat.mul_one] at hshift
  generalize powerOfTen (count - shift) = power at *
  refine Nat.le_of_mul_le_mul_right (c := 10 ^ shift) ?_ (Nat.pow_pos (by decide))
  calc
    power.1 * unitsPerOne * 10 ^ shift
    _ = power.1 * 10 ^ shift * unitsPerOne := Nat.mul_right_comm _ _ _
    _ = 10 ^ count * unitsPerOne * power.2 := by
      rw [hshift]
      exact Nat.mul_right_comm _ _ _
    _ ≤ units * 10 ^ shift * power.2 := Nat.mul_le_mul_right _ h
    _ = _ := Nat.mul_right_comm _ _ _

theorem powerOfTen_digitCount_le {units scaled : Nat} (hunits : 0 < units)
    (hscaled : 10 ^ 400 = scaled) (hone : unitsPerOne ≤ scaled) :
    (powerOfTen (digitCount (units * scaled / unitsPerOne) - 401)).1 * unitsPerOne ≤
      units * (powerOfTen (digitCount (units * scaled / unitsPerOne) - 401)).2 := by
  have hpos : 0 < unitsPerOne := by decide
  have hne : units * scaled / unitsPerOne ≠ 0 :=
    Nat.ne_of_gt (Nat.div_pos (Nat.le_trans hone (Nat.le_mul_of_pos_left _ hunits)) hpos)
  have hleading := (Nat.le_div_iff_mul_le hpos).mp (pow_digitCount_le hne)
  obtain ⟨count, hcount⟩ :=
    Nat.exists_eq_add_one.mpr (digitCount_pos (units * scaled / unitsPerOne))
  have hexponent : ((count + 1 : Nat) : Int) - 401 = count - (400 : Nat) := by omega
  rw [hcount, Nat.add_sub_cancel] at hleading
  rw [hcount, hexponent]
  exact powerOfTen_sub_le hscaled hleading

theorem powerOfTen_leadingExponent_le {units : Nat} (h : 0 < units) :
    (powerOfTen (leadingExponent units)).1 * unitsPerOne ≤
      units * (powerOfTen (leadingExponent units)).2 := by
  rw [leadingExponent]
  refine powerOfTen_digitCount_le h ?_ ?_
  · decide +kernel
  · decide +kernel

theorem step_le {units : Nat} (h : 0 < units) :
    (powerOfTen (leadingExponent units - 16)).1 * (2 * unitsPerOne) * 10 ^ 16 ≤
      2 * units * (powerOfTen (leadingExponent units - 16)).2 := by
  have hleading := powerOfTen_leadingExponent_le h
  have hshift := powerOfTen_sub (leadingExponent units) 16
  have hpos := powerOfTen_snd_pos (leadingExponent units)
  have hsame : leadingExponent units - (16 : Nat) = leadingExponent units - 16 := rfl
  rw [hsame] at hshift
  generalize powerOfTen (leadingExponent units - 16) = fine at *
  generalize powerOfTen (leadingExponent units) = coarse at *
  refine Nat.le_of_mul_le_mul_right (c := coarse.2) ?_ hpos
  calc
    fine.1 * (2 * unitsPerOne) * 10 ^ 16 * coarse.2
    _ = 2 * (fine.1 * 10 ^ 16 * coarse.2) * unitsPerOne := by ring
    _ = 2 * (coarse.1 * unitsPerOne) * fine.2 := by
      rw [hshift]
      ring
    _ ≤ 2 * (units * coarse.2) * fine.2 :=
      Nat.mul_le_mul_right _ (Nat.mul_le_mul_left _ hleading)
    _ = _ := by ring

/-! ## Intervals of doubles -/

/-- To the next magnitude it is one step of the scale, and no less to the one after. -/
theorem unitsOf_gaps (magnitude : Nat) :
    unitsOf (magnitude + 1) = unitsOf magnitude + 2 ^ Double.scale magnitude ∧
      unitsOf (magnitude + 1) + 2 ^ Double.scale magnitude ≤ unitsOf (magnitude + 2) := by
  have hscale : Double.scale magnitude ≤ Double.scale (magnitude + 1) := by
    unfold Double.scale Double.fractionCount
    omega
  have hsteps := Nat.pow_le_pow_right Nat.two_pos hscale
  constructor
  · rw [Double.unitsOf_succ, Double.unitsOf_eq, Nat.add_one_mul]
  · rw [Double.unitsOf_succ (magnitude + 1), Nat.add_one_mul, ← Double.unitsOf_eq]
    omega

theorem units_lt_gaps (magnitude : Nat) :
    2 * unitsOf (magnitude + 1) + unitsOf magnitude * 10 ^ 16 <
      unitsOf (magnitude + 2) * 10 ^ 16 := by
  obtain ⟨hnext, hafter⟩ := unitsOf_gaps magnitude
  have hpos := Nat.two_pow_pos (Double.scale magnitude)
  have hsize : unitsOf (magnitude + 1) ≤
      2 * Double.fractionCount * 2 ^ Double.scale magnitude := by
    rw [Double.unitsOf_succ]
    exact Nat.mul_le_mul_right _ (Double.significand_lt magnitude)
  -- Significands end at `2 ^ 53`, which is less than `10 ^ 16`.
  unfold Double.fractionCount at hsize
  omega

theorem unitsOf_pos {magnitude : Nat} (h : 0 < magnitude) : 0 < unitsOf magnitude := by
  obtain ⟨before, rfl⟩ : ∃ before, magnitude = before + 1 := ⟨magnitude - 1, by omega⟩
  rw [(unitsOf_gaps before).1]
  exact Nat.add_pos_right _ (Nat.two_pow_pos _)

/-- The interval of a positive magnitude has a decimal of seventeen digits. -/
theorem gridPoint?_seventeen {magnitude : Nat} (h : 0 < magnitude) :
    (gridPoint? tie (Interval.ofMagnitude magnitude)
      (leadingExponent (unitsOf magnitude) - 16)).isSome := by
  have hstep := step_le (unitsOf_pos h)
  have hpos := powerOfTen_snd_pos (leadingExponent (unitsOf magnitude) - 16)
  obtain ⟨before, rfl⟩ : ∃ before, magnitude = before + 1 := ⟨magnitude - 1, by omega⟩
  obtain ⟨hnext, hafter⟩ := unitsOf_gaps before
  have hgap := Nat.two_pow_pos (Double.scale before)
  have hwidth := Nat.mul_lt_mul_of_pos_right (units_lt_gaps before) hpos
  rw [Interval.ofMagnitude_succ]
  apply gridPoint?_isSome
  · dsimp only
    omega
  · dsimp only
    omega
  · dsimp only
    generalize powerOfTen (leadingExponent (unitsOf (before + 1)) - 16) = power at *
    rw [Nat.add_mul, Nat.mul_assoc 2, Nat.mul_right_comm (unitsOf before),
      Nat.mul_right_comm (unitsOf (before + 2))] at hwidth
    rw [Nat.mul_assoc 2] at hstep
    rw [Nat.add_mul, Nat.add_mul]
    omega

theorem isWithin_shortest (tie : Tie) {magnitude : Nat} (h : 0 < magnitude) :
    IsWithin (Interval.ofMagnitude magnitude) (shortest tie magnitude) := by
  refine isWithin_searchFrom 17 maxDigits 1 (by decide) (by decide) ?_
  have hexponent (leading : Int) : leading + 1 - (17 : Nat) = leading - 16 := by omega
  rw [hexponent]
  exact gridPoint?_seventeen h

/-! ## Reading back -/

theorem le_size {digits : Nat} {exponent : Int} (small : Nat)
    (hsmall : 2 * unitsPerOne ≤ 10 ^ small)
    (h : (powerOfTen exponent).2 ≤ digits * ((powerOfTen exponent).1 * (2 * unitsPerOne))) :
    0 ≤ digitCount digits + exponent + small := by
  have hbelow : (powerOfTen exponent).2 ≤
      10 ^ (digitCount digits + small) * (powerOfTen exponent).1 := by
    calc
      (powerOfTen exponent).2
      _ ≤ digits * ((powerOfTen exponent).1 * (2 * unitsPerOne)) := h
      _ ≤ 10 ^ digitCount digits * ((powerOfTen exponent).1 * 10 ^ small) :=
        Nat.mul_le_mul (Nat.le_of_lt (lt_pow_digitCount digits)) (Nat.mul_le_mul_left _ hsmall)
      _ = _ := by
        rw [Nat.pow_add]
        ring
  have hnot := (powerOfTen_lt_iff (digitCount digits + small) 0 exponent).not.mp
  rw [Nat.pow_zero, Nat.one_mul, Nat.not_lt] at hnot
  have hsize := hnot hbelow
  omega

theorem size_le {digits high large : Nat} {exponent : Int} (hne : digits ≠ 0)
    (hlarge : high < 10 ^ large * (2 * unitsPerOne))
    (h : digits * ((powerOfTen exponent).1 * (2 * unitsPerOne)) ≤ high * (powerOfTen exponent).2) :
    digitCount digits + exponent ≤ large := by
  have hbelow : digits * (powerOfTen exponent).1 < 10 ^ large * (powerOfTen exponent).2 := by
    refine Nat.lt_of_mul_lt_mul_right (a := 2 * unitsPerOne) ?_
    rw [Nat.mul_assoc, Nat.mul_right_comm]
    exact Nat.lt_of_le_of_lt h (Nat.mul_lt_mul_of_pos_right hlarge (powerOfTen_snd_pos exponent))
  have hpow := Nat.mul_le_mul_right (powerOfTen exponent).1 (pow_digitCount_le hne)
  have hsize := (powerOfTen_lt_iff (digitCount digits - 1) large exponent).mp
    (Nat.lt_of_le_of_lt hpow hbelow)
  have hcount := digitCount_pos digits
  omega

/-- Finite doubles are below `10 ^ 309`, and so are the ends of their intervals. -/
theorem high_lt {magnitude : Nat} (h : magnitude < BinaryFormat.binary64.infinity) :
    (Interval.ofMagnitude magnitude).high < 10 ^ 309 * (2 * unitsPerOne) := by
  have hscale : Double.scale magnitude ≤ 2045 := by
    have hinfinity : BinaryFormat.binary64.infinity = 2047 * Double.fractionCount := by decide
    rw [hinfinity] at h
    unfold Double.scale Double.fractionCount at *
    omega
  have hsize : unitsOf (magnitude + 1) < 10 ^ 309 * unitsPerOne := by
    calc
      unitsOf (magnitude + 1)
      _ = (Double.significand magnitude + 1) * 2 ^ Double.scale magnitude := Double.unitsOf_succ _
      _ ≤ 2 * Double.fractionCount * 2 ^ 2045 :=
        Nat.mul_le_mul (Double.significand_lt magnitude) (Nat.pow_le_pow_right Nat.two_pos hscale)
      _ < 10 ^ 309 * unitsPerOne := by decide +kernel
  have hnext : unitsOf magnitude ≤ unitsOf (magnitude + 1) := by
    rw [(unitsOf_gaps magnitude).1]
    exact Nat.le_add_right _ _
  change unitsOf magnitude + unitsOf (magnitude + 1) < _
  rw [Nat.mul_left_comm]
  generalize 10 ^ 309 * unitsPerOne = limit at *
  omega

variable {magnitude : Nat}

theorem low_pos (h : 0 < magnitude) : 0 < (Interval.ofMagnitude magnitude).low :=
  Nat.add_pos_right _ (unitsOf_pos h)

theorem digits_ne_zero (hzero : 0 < magnitude)
    (h : IsWithin (Interval.ofMagnitude magnitude) decimal) : decimal.digits ≠ 0 := by
  intro hdigits
  have hlow := (Interval.contains_iff.mp h).1.1
  rw [hdigits, Nat.zero_mul] at hlow
  exact absurd hlow (Nat.not_le.mpr (Nat.mul_pos (low_pos hzero) (powerOfTen_snd_pos _)))

theorem size_bounds (hzero : 0 < magnitude) (hfinite : magnitude < BinaryFormat.binary64.infinity)
    (h : IsWithin (Interval.ofMagnitude magnitude) decimal) :
    -324 ≤ digitCount decimal.digits + decimal.exponent ∧
      digitCount decimal.digits + decimal.exponent ≤ 309 := by
  obtain ⟨⟨hlow, hhigh⟩, -⟩ := Interval.contains_iff.mp h
  constructor
  · have hsize := le_size 324 (by decide +kernel)
      (Nat.le_trans (Nat.le_mul_of_pos_left _ (low_pos hzero)) hlow)
    omega
  · have hlarge := high_lt hfinite
    have hsize := size_le (digits_ne_zero hzero h) hlarge hhigh
    omega

/-- Whatever lies in the rounding interval of a magnitude is read as that magnitude. -/
theorem ofDecimal_of_isWithin (negative : Bool) (hzero : 0 < magnitude)
    (hfinite : magnitude < BinaryFormat.binary64.infinity)
    (h : IsWithin (Interval.ofMagnitude magnitude) decimal) :
    Double.ofDecimal negative decimal.digits decimal.exponent = .ofMagnitude negative magnitude := by
  have hne := digits_ne_zero hzero h
  have hsize := size_bounds hzero hfinite h
  obtain ⟨digits, exponent⟩ := decimal
  unfold digitCount at hsize
  dsimp only at hne hsize
  have hcontains : (Interval.ofMagnitude magnitude).contains
      (digits * (powerOfTen exponent).1 * (2 * unitsPerOne)) (powerOfTen exponent).2 := by
    rw [Nat.mul_assoc]
    exact h
  have hnearest :=
    BinaryFormat.nearest_of_contains hzero hfinite (powerOfTen_snd_pos exponent) hcontains
  have hguard : ¬(digits = 0 || (Nat.toDigits 10 digits).length + exponent < -330) := by
    simp only [Bool.or_eq_true, decide_eq_true_eq]
    omega
  have hfits : ¬310 < (Nat.toDigits 10 digits).length + exponent := by omega
  unfold Double.ofDecimal
  dsimp only
  rw [if_neg hguard, if_neg hfits]
  split
  · next hexponent =>
    rw [powerOfTen_of_nonneg hexponent] at hnearest
    rw [Double.ofRatio, Nat.pow_eq, hnearest]
  · next hexponent =>
    rw [powerOfTen_of_neg (Int.not_le.mp hexponent), Nat.mul_one] at hnearest
    rw [Double.ofRatio, Nat.pow_eq, hnearest]

end FilterSql.Decimal
