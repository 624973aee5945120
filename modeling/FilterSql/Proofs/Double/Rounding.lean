import FilterSql.Decimal.Shortest
import FilterSql.Proofs.Double.Finite
import Mathlib.Tactic.Ring

/-!
# Rounding to the nearest double

The magnitudes are the numbers `significand * 2 ^ scale`, in units, and the successor of a
magnitude is one step of its scale above it.  A quotient in the rounding interval of a
magnitude is therefore rounded to that magnitude: the cut of the rounding is its scale, or one
less when the quotient lies just below a power of two.
-/

namespace FilterSql

/-- Within half a step of a whole number, and closer than that to an odd one. -/
theorem divRoundEven_eq {numerator denominator whole : Nat} (hpos : 0 < denominator)
    (hlow : 2 * (whole * denominator) ≤ 2 * numerator + denominator)
    (hhigh : 2 * numerator ≤ 2 * (whole * denominator) + denominator)
    (hodd : whole % 2 = 1 → 2 * (whole * denominator) < 2 * numerator + denominator ∧
      2 * numerator < 2 * (whole * denominator) + denominator) :
    divRoundEven numerator denominator = whole := by
  have hdivision := Nat.div_add_mod' numerator denominator
  have hrest := Nat.mod_lt numerator hpos
  unfold divRoundEven
  dsimp only
  generalize numerator / denominator = quotient at *
  generalize numerator % denominator = rest at *
  -- The quotient is the whole number itself or the one below it.
  have hbelow : quotient < whole + 1 := by
    refine Nat.lt_of_mul_lt_mul_right (a := denominator) ?_
    rw [Nat.add_mul, Nat.one_mul]
    omega
  have habove : whole < quotient + 2 := by
    refine Nat.lt_of_mul_lt_mul_right (a := denominator) ?_
    rw [Nat.add_mul]
    omega
  obtain rfl | rfl : whole = quotient ∨ whole = quotient + 1 := by omega
  · generalize whole * denominator = product at *
    split
    · rfl
    · split <;> omega
  · rw [Nat.add_mul, Nat.one_mul] at hlow hhigh hodd
    generalize quotient * denominator = product at *
    split
    · omega
    · split <;> omega

namespace Double

/-! ## Significands -/

/-- The power of two that a magnitude's significand is scaled by. -/
def scale (magnitude : Nat) : Nat := magnitude / fractionCount - 1

def significand (magnitude : Nat) : Nat := magnitude - scale magnitude * fractionCount

theorem scale_mul_add_significand (magnitude : Nat) :
    scale magnitude * fractionCount + significand magnitude = magnitude := by
  unfold significand scale fractionCount
  omega

theorem significand_lt (magnitude : Nat) : significand magnitude < 2 * fractionCount := by
  unfold significand scale fractionCount
  omega

theorem le_significand {magnitude : Nat} (h : scale magnitude ≠ 0) :
    fractionCount ≤ significand magnitude := by
  unfold significand scale fractionCount at *
  omega

theorem leading_le (magnitude step : Nat) :
    scale magnitude = 0 ∨ fractionCount * step ≤ significand magnitude * step := by
  by_cases h : scale magnitude = 0
  · exact .inl h
  · exact .inr (Nat.mul_le_mul_right step (le_significand h))

theorem significand_mul_add_le (magnitude step : Nat) :
    significand magnitude * step + step ≤ 2 * fractionCount * step := by
  rw [← Nat.succ_mul]
  exact Nat.mul_le_mul_right step (significand_lt magnitude)

theorem significand_mod_two (magnitude : Nat) : significand magnitude % 2 = magnitude % 2 := by
  have hsplit := scale_mul_add_significand magnitude
  unfold fractionCount at hsplit
  omega

theorem scale_eq {c s : Nat} (hs : s < 2 * fractionCount) (hc : c = 0 ∨ fractionCount ≤ s) :
    scale (c * fractionCount + s) = c := by
  unfold scale fractionCount at *
  omega

theorem significand_eq {c s : Nat} (hs : s < 2 * fractionCount) (hc : c = 0 ∨ fractionCount ≤ s) :
    significand (c * fractionCount + s) = s := by
  rw [significand, scale_eq hs hc, Nat.add_sub_cancel_left]

theorem unitsOf_eq (magnitude : Nat) :
    unitsOf magnitude = significand magnitude * 2 ^ scale magnitude := by
  have hdivision := Nat.div_add_mod magnitude fractionCount
  unfold unitsOf significand scale
  dsimp only
  split
  · next hzero =>
    rw [hzero, Nat.zero_sub, Nat.zero_mul, Nat.pow_zero, Nat.sub_zero, Nat.mul_one]
    exact Nat.mod_eq_of_lt ((Nat.div_eq_zero_iff_lt (by decide)).mp hzero)
  · next hfield =>
    rw [Nat.shiftLeft_eq]
    congr 1
    rw [Nat.sub_mul, Nat.one_mul, Nat.mul_comm]
    have hone := Nat.mul_le_mul_left fractionCount (Nat.one_le_iff_ne_zero.mpr hfield)
    omega

/-- The next magnitude is one step of the scale away, also across a power of two. -/
theorem unitsOf_succ (magnitude : Nat) :
    unitsOf (magnitude + 1) = (significand magnitude + 1) * 2 ^ scale magnitude := by
  have hsplit := scale_mul_add_significand magnitude
  have hlt := significand_lt magnitude
  have hlead := @le_significand magnitude
  generalize scale magnitude = c at *
  generalize significand magnitude = s at *
  subst hsplit
  by_cases hcarry : s + 1 < 2 * fractionCount
  · have hc : c = 0 ∨ fractionCount ≤ s + 1 := by omega
    rw [Nat.add_assoc, unitsOf_eq, scale_eq hcarry hc, significand_eq hcarry hc]
  · have hs : s + 1 = 2 * fractionCount := by omega
    have hnext : c * fractionCount + s + 1 = (c + 1) * fractionCount + fractionCount := by
      rw [Nat.add_mul]
      omega
    have hsmall : fractionCount < 2 * fractionCount := by decide
    rw [hnext, unitsOf_eq, scale_eq hsmall (.inr (Nat.le_refl _)),
      significand_eq hsmall (.inr (Nat.le_refl _)), hs, Nat.pow_succ]
    ring

end Double

/-! ## The nearest magnitude -/

namespace BinaryFormat

open Double (fractionCount unitsPerOne)

theorem cutBits_eq {numerator denominator c : Nat} (hpos : 0 < denominator)
    (hlow : c = 0 ∨ fractionCount * (denominator * 2 ^ c) ≤ numerator * unitsPerOne)
    (hhigh : numerator * unitsPerOne < 2 * fractionCount * (denominator * 2 ^ c)) :
    binary64.cutBits numerator denominator = c := by
  have hcount : fractionCount = 2 ^ 52 := by decide
  have hunits : numerator <<< binary64.unitShift = numerator * unitsPerOne := by
    rw [Nat.shiftLeft_eq, unitsPerOne, Nat.shiftLeft_eq, Nat.one_mul]
  have hbelow : numerator * unitsPerOne / denominator < 2 ^ (53 + c) := by
    refine Nat.div_lt_of_lt_mul (Nat.lt_of_lt_of_eq hhigh ?_)
    rw [hcount, Nat.pow_add]
    ring
  have hlog : Nat.log2 (numerator * unitsPerOne / denominator) < 53 + c := by
    by_cases hzero : numerator * unitsPerOne / denominator = 0
    · rw [hzero, Nat.log2_zero]
      omega
    · exact (Nat.log2_lt hzero).mpr hbelow
  change Nat.log2 (numerator <<< binary64.unitShift / denominator) - 52 = c
  rw [hunits]
  obtain rfl | hlow := hlow
  · omega
  · have habove : 2 ^ (52 + c) ≤ numerator * unitsPerOne / denominator := by
      refine (Nat.le_div_iff_mul_le hpos).mpr (Nat.le_trans (Nat.le_of_eq ?_) hlow)
      rw [hcount, Nat.pow_add]
      ring
    have hne : numerator * unitsPerOne / denominator ≠ 0 :=
      Nat.ne_of_gt (Nat.lt_of_lt_of_le (Nat.two_pow_pos _) habove)
    have hge := (Nat.le_log2 hne).mpr habove
    omega

theorem nearest_eq {numerator denominator c s : Nat} (hpos : 0 < denominator)
    (hfinite : c * fractionCount + s < binary64.infinity)
    (hlow : c = 0 ∨ fractionCount * (denominator * 2 ^ c) ≤ numerator * unitsPerOne)
    (hhigh : numerator * unitsPerOne < 2 * fractionCount * (denominator * 2 ^ c))
    (hround : divRoundEven (numerator * unitsPerOne) (denominator * 2 ^ c) = s) :
    binary64.nearest numerator denominator = c * fractionCount + s := by
  have hcut := cutBits_eq hpos hlow hhigh
  have hunits : numerator <<< binary64.unitShift = numerator * unitsPerOne := by
    rw [Nat.shiftLeft_eq, unitsPerOne, Nat.shiftLeft_eq, Nat.one_mul]
  have hcount : fractionCount = 2 ^ binary64.fractionBits := by decide
  change min ((binary64.cutBits numerator denominator <<< binary64.fractionBits) +
    divRoundEven (numerator <<< binary64.unitShift)
      (denominator <<< binary64.cutBits numerator denominator)) binary64.infinity = _
  rw [hcut, hunits, Nat.shiftLeft_eq, Nat.shiftLeft_eq, hround, ← hcount]
  exact Nat.min_eq_left (Nat.le_of_lt hfinite)

end BinaryFormat

namespace Decimal.Interval

theorem contains_iff {interval : Interval} {numerator denominator : Nat} :
    interval.contains numerator denominator ↔
      (interval.low * denominator ≤ numerator ∧ numerator ≤ interval.high * denominator) ∧
        (interval.closed = false →
          interval.low * denominator < numerator ∧ numerator < interval.high * denominator) := by
  unfold contains
  cases interval.closed with
  | true => simp
  | false =>
      simp only [Bool.false_eq_true, if_false, Bool.and_eq_true, decide_eq_true_eq, forall_const]
      omega

theorem ofMagnitude_succ (magnitude : Nat) :
    ofMagnitude (magnitude + 1) =
      ⟨Double.unitsOf magnitude + Double.unitsOf (magnitude + 1),
        2 * Double.unitsOf (magnitude + 1),
        Double.unitsOf (magnitude + 1) + Double.unitsOf (magnitude + 2),
        (magnitude + 1) % 2 == 0⟩ := rfl

end Decimal.Interval

namespace BinaryFormat

open Double

variable {magnitude numerator denominator : Nat}

theorem midpoint_mul (magnitude denominator : Nat) :
    (unitsOf magnitude + unitsOf (magnitude + 1)) * denominator =
      2 * (significand magnitude * (denominator * 2 ^ scale magnitude)) +
        denominator * 2 ^ scale magnitude := by
  rw [unitsOf_succ, unitsOf_eq]
  ring

theorem nearest_of_below (hfinite : magnitude + 1 < binary64.infinity) (hpos : 0 < denominator)
    (hlow : (unitsOf magnitude + unitsOf (magnitude + 1)) * denominator ≤
      2 * (numerator * unitsPerOne))
    (hodd : magnitude % 2 = 0 → (unitsOf magnitude + unitsOf (magnitude + 1)) * denominator <
      2 * (numerator * unitsPerOne))
    (hbelow : numerator * unitsPerOne < unitsOf (magnitude + 1) * denominator) :
    binary64.nearest numerator denominator = magnitude + 1 := by
  -- Everything is compared in steps of the lower magnitude's scale.
  have hstep : 0 < denominator * 2 ^ scale magnitude := Nat.mul_pos hpos (Nat.two_pow_pos _)
  have hsucc := Nat.add_one_mul (significand magnitude) (denominator * 2 ^ scale magnitude)
  have hnext : unitsOf (magnitude + 1) * denominator =
      (significand magnitude + 1) * (denominator * 2 ^ scale magnitude) := by
    rw [unitsOf_succ]
    ring
  have hleading := leading_le magnitude (denominator * 2 ^ scale magnitude)
  have hrange := significand_mul_add_le magnitude (denominator * 2 ^ scale magnitude)
  have hparity := significand_mod_two magnitude
  have hsplit : scale magnitude * fractionCount + (significand magnitude + 1) = magnitude + 1 := by
    rw [← Nat.add_assoc, scale_mul_add_significand]
  rw [midpoint_mul] at hlow hodd
  rw [hnext] at hbelow
  rw [← hsplit] at hfinite ⊢
  apply nearest_eq hpos hfinite
  · omega
  · omega
  · apply divRoundEven_eq hstep <;> omega

theorem nearest_of_above (hfinite : magnitude < binary64.infinity) (hpos : 0 < denominator)
    (habove : unitsOf magnitude * denominator ≤ numerator * unitsPerOne)
    (hhigh : 2 * (numerator * unitsPerOne) ≤
      (unitsOf magnitude + unitsOf (magnitude + 1)) * denominator)
    (hodd : magnitude % 2 = 1 → 2 * (numerator * unitsPerOne) <
      (unitsOf magnitude + unitsOf (magnitude + 1)) * denominator) :
    binary64.nearest numerator denominator = magnitude := by
  have hstep : 0 < denominator * 2 ^ scale magnitude := Nat.mul_pos hpos (Nat.two_pow_pos _)
  have hself : unitsOf magnitude * denominator =
      significand magnitude * (denominator * 2 ^ scale magnitude) := by
    rw [unitsOf_eq]
    ring
  have hleading := leading_le magnitude (denominator * 2 ^ scale magnitude)
  have hrange := significand_mul_add_le magnitude (denominator * 2 ^ scale magnitude)
  have hparity := significand_mod_two magnitude
  rw [midpoint_mul] at hhigh hodd
  rw [hself] at habove
  rw [← scale_mul_add_significand magnitude] at hfinite
  refine Eq.trans (nearest_eq hpos hfinite ?_ ?_ ?_) (scale_mul_add_significand magnitude)
  · omega
  · omega
  · apply divRoundEven_eq hstep <;> omega

/-- What lies in the rounding interval of a magnitude is rounded to it. -/
theorem nearest_of_contains (hzero : 0 < magnitude) (hfinite : magnitude < binary64.infinity)
    (hpos : 0 < denominator)
    (hcontains : (Decimal.Interval.ofMagnitude magnitude).contains
      (numerator * (2 * unitsPerOne)) denominator) :
    binary64.nearest numerator denominator = magnitude := by
  obtain ⟨before, rfl⟩ : ∃ before, magnitude = before + 1 := ⟨magnitude - 1, by omega⟩
  rw [Decimal.Interval.ofMagnitude_succ, Nat.mul_left_comm,
    Decimal.Interval.contains_iff] at hcontains
  obtain ⟨⟨hlow, hhigh⟩, hopen⟩ := hcontains
  rw [beq_eq_false_iff_ne] at hopen
  by_cases hbelow : numerator * unitsPerOne < unitsOf (before + 1) * denominator
  · exact nearest_of_below hfinite hpos hlow (fun heven => (hopen (by omega)).1) hbelow
  · exact nearest_of_above hfinite hpos (Nat.le_of_not_lt hbelow) hhigh
      (fun hodd => (hopen (by omega)).2)

end BinaryFormat

end FilterSql
