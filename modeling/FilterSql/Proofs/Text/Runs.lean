import FilterSql.Decimal.Literal
import FilterSql.Text.Blank
import Mathlib.Algebra.Group.Nat.Defs
import Mathlib.Data.List.TakeWhile

/-!
# Runs of characters

A reader that takes characters of one kind stops at the first of another kind.  The
digits of a number are such a run.
-/

namespace FilterSql.Text

variable {p : Char → Bool} {run rest : List Char}

def StartsWithout (p : Char → Bool) (text : List Char) : Prop := ∀ c ∈ text.head?, ¬ p c

theorem StartsWithout.takeWhile_eq_nil (h : StartsWithout p rest) : rest.takeWhile p = [] := by
  cases rest with
  | nil => rfl
  | cons c rest => exact List.takeWhile_cons_of_neg (h c rfl)

theorem StartsWithout.dropWhile_eq_self (h : StartsWithout p rest) : rest.dropWhile p = rest := by
  cases rest with
  | nil => rfl
  | cons c rest => exact List.dropWhile_cons_of_neg (h c rfl)

theorem takeWhile_run (hrun : ∀ c ∈ run, p c) (hrest : StartsWithout p rest) :
    (run ++ rest).takeWhile p = run := by
  rw [List.takeWhile_append_of_pos hrun, hrest.takeWhile_eq_nil, List.append_nil]

theorem dropWhile_run (hrun : ∀ c ∈ run, p c) (hrest : StartsWithout p rest) :
    (run ++ rest).dropWhile p = rest := by
  rw [List.dropWhile_append_of_pos hrun, hrest.dropWhile_eq_self]

theorem startsWithout_dropWhile (p : Char → Bool) (text : List Char) :
    StartsWithout p (text.dropWhile p) := by
  intro c hc
  have hstop := List.head?_dropWhile_not p text
  rw [hc] at hstop
  simpa using hstop

/-! ## Digits -/

theorem isDigit_of_mem_digits {n : Nat} {c : Char} (h : c ∈ Nat.toDigits 10 n) : c.isDigit :=
  Nat.isDigit_of_mem_toDigits (by decide) (by decide) h

theorem takeWhile_digits (n : Nat) (hrest : StartsWithout Char.isDigit rest) :
    (Nat.toDigits 10 n ++ rest).takeWhile Char.isDigit = Nat.toDigits 10 n :=
  takeWhile_run (fun _ hc => isDigit_of_mem_digits hc) hrest

theorem dropWhile_digits (n : Nat) (hrest : StartsWithout Char.isDigit rest) :
    (Nat.toDigits 10 n ++ rest).dropWhile Char.isDigit = rest :=
  dropWhile_run (fun _ hc => isDigit_of_mem_digits hc) hrest

theorem toNat_of_isDigit {c : Char} (h : c.isDigit) : 48 ≤ c.toNat ∧ c.toNat ≤ 57 := by
  simp only [Char.isDigit, Bool.and_eq_true, decide_eq_true_eq, ge_iff_le,
    UInt32.le_iff_toNat_le] at h
  exact h

theorem isBlank_of_isDigit {c : Char} (h : c.isDigit) : isBlank c = false := by
  have hrange := toNat_of_isDigit h
  simp [isBlank]
  omega

/-! ## Numbers of digits -/

open Decimal.Literal (digitValue digitsValue)

theorem digitsValue_digits (n : Nat) : digitsValue (Nat.toDigits 10 n) = n :=
  Nat.ofDigitChars_toDigits (by decide) (by decide)

theorem digitsValue_append_zeros (digits : List Char) (count : Nat) :
    digitsValue (digits ++ List.replicate count '0') = digitsValue digits * 10 ^ count := by
  change Nat.ofDigitChars 10 (digits ++ List.replicate count '0') 0 = _
  rw [Nat.ofDigitChars_append, Nat.ofDigitChars_replicate_zero, Nat.mul_comm]
  rfl

theorem digitsValue_zeros_append (digits : List Char) (count : Nat) :
    digitsValue (List.replicate count '0' ++ digits) = digitsValue digits := by
  change Nat.ofDigitChars 10 (List.replicate count '0' ++ digits) 0 = _
  rw [Nat.ofDigitChars_append, Nat.ofDigitChars_replicate_zero, Nat.mul_zero]
  rfl

theorem digitsValue_cons (c : Char) (digits : List Char) :
    digitsValue (c :: digits) = 10 ^ digits.length * digitValue c + digitsValue digits := by
  change Nat.ofDigitChars 10 (c :: digits) 0 = _
  rw [Nat.ofDigitChars_cons, Nat.ofDigitChars_eq_ofDigitChars_zero, Nat.mul_zero, Nat.zero_add]
  rfl

theorem digitValue_lt {c : Char} (h : c.isDigit) : digitValue c < 10 := by
  have hrange := toNat_of_isDigit h
  change c.toNat - 48 < 10
  omega

theorem digitsValue_lt {digits : List Char} (h : ∀ c ∈ digits, c.isDigit) :
    digitsValue digits < 10 ^ digits.length := by
  induction digits with
  | nil => exact Nat.one_pos
  | cons c digits ih =>
      obtain ⟨hc, hdigits⟩ := List.forall_mem_cons.mp h
      have hfirst : 10 ^ digits.length * (digitValue c + 1) ≤ 10 ^ digits.length * 10 :=
        Nat.mul_le_mul_left _ (digitValue_lt hc)
      rw [digitsValue_cons, List.length_cons, Nat.pow_succ]
      have hrest := ih hdigits
      rw [Nat.mul_add, Nat.mul_one] at hfirst
      omega

theorem digitValue_eq_zero_iff {c : Char} (h : c.isDigit) : digitValue c = 0 ↔ c = '0' := by
  have hrange := toNat_of_isDigit h
  change c.toNat - 48 = 0 ↔ _
  rw [← Char.toNat_inj]
  change _ ↔ c.toNat = 48
  omega

theorem digitsValue_eq_zero_iff {digits : List Char} (h : ∀ c ∈ digits, c.isDigit) :
    digitsValue digits = 0 ↔ ∀ c ∈ digits, c = '0' := by
  induction digits with
  | nil => simp [digitsValue]
  | cons c digits ih =>
      obtain ⟨hc, hdigits⟩ := List.forall_mem_cons.mp h
      rw [digitsValue_cons, Nat.add_eq_zero_iff, Nat.mul_eq_zero, ih hdigits,
        digitValue_eq_zero_iff hc, List.forall_mem_cons]
      simp

end FilterSql.Text
