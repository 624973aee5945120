import FilterSql.Double.Basic
import Mathlib.Algebra.Group.Nat.Defs

/-!
# Finite doubles

Rounding moves a number by less than one step of its exponent.  The double nearest to a
quotient, such as a whole number of 64 bits, is therefore finite when the quotient is well
below infinity.
-/

namespace FilterSql

namespace BinaryFormat

def cutBits (format : BinaryFormat) (numerator denominator : Nat) : Nat :=
  Nat.log2 ((numerator <<< format.unitShift) / denominator) - format.fractionBits

theorem div_cut_lt (format : BinaryFormat) (numerator denominator : Nat) :
    (numerator <<< format.unitShift) / (denominator <<< format.cutBits numerator denominator) <
      2 ^ (format.fractionBits + 1) := by
  have hlog : (numerator <<< format.unitShift) / denominator <
      2 ^ (Nat.log2 ((numerator <<< format.unitShift) / denominator) + 1) := Nat.lt_log2_self
  have hcut : Nat.log2 ((numerator <<< format.unitShift) / denominator) + 1 ≤
      format.fractionBits + 1 + format.cutBits numerator denominator := by
    unfold cutBits
    omega
  rw [Nat.shiftLeft_eq denominator, ← Nat.div_div_eq_div_mul]
  apply Nat.div_lt_of_lt_mul
  calc
    _ < 2 ^ (Nat.log2 ((numerator <<< format.unitShift) / denominator) + 1) := hlog
    _ ≤ 2 ^ (format.fractionBits + 1 + format.cutBits numerator denominator) :=
      Nat.pow_le_pow_right Nat.two_pos hcut
    _ = _ := by rw [Nat.pow_add, Nat.mul_comm]

theorem nearest_le (format : BinaryFormat) (numerator denominator : Nat) :
    format.nearest numerator denominator ≤
      (format.cutBits numerator denominator + 2) <<< format.fractionBits := by
  have hround := (divRoundEven_bounds (numerator <<< format.unitShift)
    (denominator <<< format.cutBits numerator denominator)).2
  have hrest := format.div_cut_lt numerator denominator
  calc
    format.nearest numerator denominator
    _ ≤ (format.cutBits numerator denominator <<< format.fractionBits) +
          divRoundEven (numerator <<< format.unitShift)
            (denominator <<< format.cutBits numerator denominator) := Nat.min_le_left _ _
    _ ≤ (format.cutBits numerator denominator <<< format.fractionBits) +
          2 ^ (format.fractionBits + 1) := by omega
    _ = _ := by
      rw [Nat.shiftLeft_eq, Nat.shiftLeft_eq, Nat.add_mul, Nat.pow_succ, Nat.mul_comm _ 2]

theorem cutBits_le (format : BinaryFormat) {numerator denominator size : Nat}
    (h : (numerator <<< format.unitShift) / denominator < 2 ^ size) :
    format.cutBits numerator denominator ≤ size - 1 - format.fractionBits := by
  have hlog : Nat.log2 ((numerator <<< format.unitShift) / denominator) ≤ size - 1 := by
    by_cases hzero : (numerator <<< format.unitShift) / denominator = 0
    · rw [hzero]
      exact Nat.zero_le _
    · exact Nat.le_sub_one_of_lt ((Nat.log2_lt hzero).mpr h)
  exact Nat.sub_le_sub_right hlog _

theorem nearest_le_of_lt (format : BinaryFormat) {numerator denominator size : Nat}
    (h : (numerator <<< format.unitShift) / denominator < 2 ^ size) :
    format.nearest numerator denominator ≤
      (size - 1 - format.fractionBits + 2) <<< format.fractionBits := by
  refine Nat.le_trans (format.nearest_le numerator denominator) ?_
  rw [Nat.shiftLeft_eq, Nat.shiftLeft_eq]
  exact Nat.mul_le_mul_right _ (Nat.add_le_add_right (format.cutBits_le h) 2)

end BinaryFormat

namespace Double

theorem magnitude_ofMagnitude {negative : Bool} {magnitude : Nat} (h : magnitude < signBit) :
    (ofMagnitude negative magnitude).magnitude = magnitude := by
  change (magnitude + if negative then signBit else 0) % 2 ^ 64 % signBit = magnitude
  have hsign : signBit = 2 ^ 63 := by decide
  rw [hsign] at h ⊢
  split <;> omega

theorem ofMagnitude_magnitude (x : Double) : ofMagnitude x.isNegative x.magnitude = x := by
  have hbits := x.bits.toNat_lt
  have hsign : signBit = 2 ^ 63 := by decide
  obtain ⟨bits⟩ := x
  rw [ofMagnitude, Double.mk.injEq, ← UInt64.toNat_inj, UInt64.toNat_ofNat']
  simp only [isNegative, magnitude, hsign, decide_eq_true_eq] at *
  split <;> omega

theorem magnitude_ofRatio (negative : Bool) (numerator denominator : Nat) :
    (ofRatio negative numerator denominator).magnitude =
      BinaryFormat.binary64.nearest numerator denominator :=
  magnitude_ofMagnitude (Nat.lt_of_le_of_lt
    (BinaryFormat.binary64.nearest_le_infinity numerator denominator) (by decide))

/-- A quotient of at most 2096 binary places, in units, is rounded to a finite number. -/
theorem isFinite_ofRatio {negative : Bool} {numerator denominator size : Nat}
    (h : (numerator <<< BinaryFormat.binary64.unitShift) / denominator < 2 ^ size)
    (hsize : size ≤ 2096) : (ofRatio negative numerator denominator).isFinite := by
  rw [isFinite, magnitude_ofRatio]
  apply decide_eq_true
  calc
    BinaryFormat.binary64.nearest numerator denominator
    _ ≤ (size - 1 - 52 + 2) <<< 52 := BinaryFormat.binary64.nearest_le_of_lt h
    _ ≤ 2046 <<< 52 := by
      rw [Nat.shiftLeft_eq, Nat.shiftLeft_eq]
      exact Nat.mul_le_mul_right _ (by omega)
    _ < BinaryFormat.binary64.infinity := by decide

theorem isFinite_ofInt {n : Int} (h : n.natAbs < UInt64.size) : (ofInt n).isFinite := by
  have hunits : (n.natAbs <<< BinaryFormat.binary64.unitShift) / 1 <
      2 ^ (64 + BinaryFormat.binary64.unitShift) := by
    rw [Nat.div_one, Nat.shiftLeft_eq, Nat.pow_add]
    exact Nat.mul_lt_mul_of_pos_right h (Nat.two_pow_pos _)
  exact isFinite_ofRatio hunits (by decide)

end Double

end FilterSql
