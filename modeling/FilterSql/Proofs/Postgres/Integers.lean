import FilterSql.Postgres.Encode
import Mathlib.Algebra.Group.Nat.Defs

/-!
# Integers in binary

Reading what was written, the most significant byte first.  An integer that so many bytes can
hold in two's complement is read back from its bytes.
-/

namespace FilterSql.Postgres

/-! ## Big-endian numbers -/

def ofBigEndian (bytes : Bytes) : Nat :=
  bytes.foldl (fun n byte => 256 * n + byte.toNat) 0

theorem ofBigEndian_cons (byte : UInt8) (bytes : Bytes) :
    ofBigEndian (byte :: bytes) = 256 ^ bytes.length * byte.toNat + ofBigEndian bytes := by
  have hfold (start : Nat) : bytes.foldl (fun n byte => 256 * n + byte.toNat) start =
      256 ^ bytes.length * start + ofBigEndian bytes := by
    unfold ofBigEndian
    induction bytes generalizing start with
    | nil => simp
    | cons next bytes ih =>
        rw [List.foldl_cons, List.foldl_cons, ih, ih (256 * 0 + next.toNat), List.length_cons,
          Nat.pow_succ, Nat.mul_add, Nat.mul_zero, Nat.zero_add, Nat.mul_assoc, Nat.add_assoc]
  rw [ofBigEndian, List.foldl_cons, hfold, Nat.mul_zero, Nat.zero_add]

@[simp] theorem length_bigEndian (width n : Nat) : (bigEndian width n).length = width := by
  simp [bigEndian]

theorem bigEndian_succ (width n : Nat) :
    bigEndian (width + 1) n = UInt8.ofNat (n >>> (8 * width)) :: bigEndian width n := by
  simp [bigEndian, List.range_succ]

theorem ofBigEndian_bigEndian (width n : Nat) :
    ofBigEndian (bigEndian width n) = n % 256 ^ width := by
  induction width with
  | zero => rw [Nat.pow_zero, Nat.mod_one]; rfl
  | succ width ih =>
      have hpower : 2 ^ (8 * width) = 256 ^ width := Nat.pow_mul 2 8 width
      rw [bigEndian_succ, ofBigEndian_cons, length_bigEndian, ih, UInt8.toNat_ofNat',
        Nat.shiftRight_eq_div_pow, hpower, Nat.pow_succ 256, Nat.mod_mul, Nat.add_comm]

/-! ## Two's complement -/

def ofSigned (bytes : Bytes) : Int :=
  let n := ofBigEndian bytes
  if 2 * n < 1 <<< (8 * bytes.length) then n else n - (1 <<< (8 * bytes.length) : Nat)

def FitsSigned (width : Nat) (n : Int) : Prop :=
  -((1 <<< (8 * width - 1) : Nat) : Int) ≤ n ∧ n < (1 <<< (8 * width - 1) : Nat)

instance (width : Nat) (n : Int) : Decidable (FitsSigned width n) :=
  inferInstanceAs (Decidable (_ ∧ _))

@[simp] theorem length_signedBytes (width : Nat) (n : Int) :
    (signedBytes width n).length = width := length_bigEndian _ _

theorem ofSigned_signedBytes {width : Nat} (hwidth : 0 < width) {n : Int}
    (h : FitsSigned width n) : ofSigned (signedBytes width n) = n := by
  have hsize : 1 <<< (8 * width) = 2 * (1 <<< (8 * width - 1)) := by
    have hbits : 8 * width = 8 * width - 1 + 1 := by omega
    rw [hbits, Nat.one_shiftLeft, Nat.one_shiftLeft, Nat.pow_succ, Nat.mul_comm]
    rfl
  have hpower : 256 ^ width = 1 <<< (8 * width) := by
    rw [Nat.one_shiftLeft]
    exact (Nat.pow_mul 2 8 width).symm
  unfold FitsSigned at h
  unfold ofSigned signedBytes
  rw [ofBigEndian_bigEndian, length_bigEndian, hpower]
  generalize 1 <<< (8 * width) = size at *
  generalize 1 <<< (8 * width - 1) = bound at *
  -- A negative integer is written as the number a whole turn above it.
  have hturn : n % (size : Int) = if 0 ≤ n then n else n + size := by
    split
    · exact Int.emod_eq_of_lt (by omega) (by omega)
    · rw [← Int.add_emod_right, Int.emod_eq_of_lt (by omega) (by omega)]
  have hplace : (n % (size : Int)).toNat % size = (n % (size : Int)).toNat :=
    Nat.mod_eq_of_lt (by split at hturn <;> omega)
  rw [hplace]
  dsimp only
  split at hturn <;> split <;> omega

end FilterSql.Postgres
