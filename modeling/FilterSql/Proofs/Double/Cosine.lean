import FilterSql.Double.Cosine
import FilterSql.Proofs.Double.Rounding

/-!
# Cosines of finite numbers

Degrees are brought to radians without leaving the finite numbers.  All that is used of a cosine
is that it is at most one in size, which the nearest double to the cosine is: the Taylor polynomial
is at most one.
-/

namespace FilterSql.Double

open BinaryFormat (binary64)

/-! ## Sizes in units -/

theorem unitsOf_lt {magnitude exponent : Nat} (h : magnitude < (exponent + 2) * fractionCount) :
    unitsOf magnitude < 2 ^ (exponent + 53) := by
  have hfield : magnitude / fractionCount < exponent + 2 :=
    (Nat.div_lt_iff_lt_mul (by decide)).mpr h
  have hscale : scale magnitude ≤ exponent := by
    unfold scale
    omega
  have hcount : 2 * fractionCount = 2 ^ 53 := by decide
  calc
    unitsOf magnitude
    _ = significand magnitude * 2 ^ scale magnitude := unitsOf_eq magnitude
    _ < 2 ^ 53 * 2 ^ scale magnitude :=
      Nat.mul_lt_mul_of_pos_right (hcount ▸ significand_lt magnitude) (Nat.two_pow_pos _)
    _ ≤ 2 ^ 53 * 2 ^ exponent :=
      Nat.mul_le_mul_left _ (Nat.pow_le_pow_right Nat.two_pos hscale)
    _ = 2 ^ (exponent + 53) := by rw [Nat.add_comm, Nat.pow_add]

theorem units_lt_of_isFinite {x : Double} (h : x.isFinite) : x.units < 2 ^ (2045 + 53) :=
  unitsOf_lt (Nat.lt_of_lt_of_le (of_decide_eq_true h) (by decide))

theorem mul_shiftLeft_div_lt {a b first second places size : Nat} (ha : a < 2 ^ first)
    (hb : b < 2 ^ second) (h : first + second ≤ places + size) :
    ((a * b) <<< places) / ((1 <<< places) * (1 <<< places)) < 2 ^ size := by
  have hproduct : a * b < 2 ^ places * 2 ^ size := by
    calc
      a * b
      _ < 2 ^ first * 2 ^ second := Nat.mul_lt_mul'' ha hb
      _ = 2 ^ (first + second) := (Nat.pow_add ..).symm
      _ ≤ 2 ^ (places + size) := Nat.pow_le_pow_right Nat.two_pos h
      _ = 2 ^ places * 2 ^ size := Nat.pow_add ..
  rw [Nat.shiftLeft_eq, Nat.shiftLeft_eq, Nat.one_mul,
    Nat.mul_div_mul_right _ _ (Nat.two_pow_pos _)]
  exact Nat.div_lt_of_lt_mul hproduct

theorem isFinite_mul {x y : Double} {first second : Nat} (hx : x.units < 2 ^ first)
    (hy : y.units < 2 ^ second) (h : first + second ≤ binary64.unitShift + 2096) :
    (x.mul y).isFinite :=
  isFinite_ofRatio (mul_shiftLeft_div_lt hx hy h) (Nat.le_refl _)

/-! ## Angles -/

theorem units_radiansPerDegree_lt : radiansPerDegree.units < 2 ^ 1069 := by decide +kernel

theorem isFinite_toRadians {x : Double} (h : x.isFinite) : x.toRadians.isFinite :=
  isFinite_mul (units_lt_of_isFinite h) units_radiansPerDegree_lt (by decide)

/-! ## Cosines -/

/-- What is relied on of a cosine: that of a finite number is at most one in size, and so finite. -/
structure Cosine where
  of : Double → Double
  le_one {x : Double} : x.isFinite → (of x).units ≤ unitsPerOne

namespace Cosine

theorem isFinite_square (cosine : Cosine) {x : Double} (h : x.isFinite) :
    ((cosine.of x).mul (cosine.of x)).isFinite := by
  have hunits : (cosine.of x).units < 2 ^ (binary64.unitShift + 1) :=
    Nat.lt_of_le_of_lt (cosine.le_one h) (by decide +kernel)
  exact isFinite_mul hunits hunits (by decide)

end Cosine

/-! ### The nearest double -/

theorem cosineScaled_le_one (angle : Nat) : cosineScaled angle ≤ seriesOne := by
  unfold cosineScaled
  exact cosineFrom_le_one _ _ _

theorem exists_cos_eq (x : Double) :
    ∃ negative numerator, numerator ≤ seriesOne ∧ x.cos = ofRatio negative numerator seriesOne := by
  unfold cos
  extract_lets turn angle half
  split
  · exact ⟨true, _, cosineScaled_le_one _, rfl⟩
  · exact ⟨false, _, cosineScaled_le_one _, rfl⟩

def oneBits : Nat := 1023 <<< 52

theorem shiftLeft_div_lt {numerator denominator : Nat} (h : numerator < denominator)
    (places : Nat) : (numerator <<< places) / denominator < 2 ^ places := by
  rw [Nat.shiftLeft_eq]
  exact Nat.div_lt_of_lt_mul (Nat.mul_lt_mul_of_pos_right h (Nat.two_pow_pos places))

theorem nearest_le_one {numerator : Nat} (h : numerator ≤ seriesOne) :
    binary64.nearest numerator seriesOne ≤ oneBits := by
  obtain hlt | rfl := Nat.lt_or_eq_of_le h
  · exact Nat.le_trans (binary64.nearest_le_of_lt (shiftLeft_div_lt hlt _)) (by decide)
  · decide +kernel

theorem unitsOf_mono : Monotone unitsOf := by
  refine monotone_nat_of_le_succ fun magnitude => ?_
  rw [unitsOf_succ, unitsOf_eq]
  exact Nat.mul_le_mul_right _ (Nat.le_succ _)

theorem magnitude_cos_le (x : Double) : x.cos.magnitude ≤ oneBits := by
  obtain ⟨negative, numerator, hle, heq⟩ := exists_cos_eq x
  rw [heq, magnitude_ofRatio]
  exact nearest_le_one hle

def Cosine.nearest : Cosine where
  of := cos
  le_one {x} _ := Nat.le_trans (unitsOf_mono (magnitude_cos_le x)) (by decide +kernel)

end FilterSql.Double
