import FilterSql.Proofs.Instant.Reading
import Mathlib.Data.List.Forall2

/-!
# Columns of digits

Numbers that are written in columns of fixed widths sort as texts in the way they sort as numbers,
by the first column in which they differ.  The texts are ASCII, so their bytes sort alike.
-/

namespace FilterSql.Text

open Decimal.Literal (digitValue digitsValue)

/-! ## Texts in parts -/

theorem append_lt_append_iff {α : Type} [LT α] {first second restFirst restSecond : List α}
    (h : first.length = second.length) :
    first ++ restFirst < second ++ restSecond ↔
      first < second ∨ first = second ∧ restFirst < restSecond := by
  induction first generalizing second with
  | nil =>
      obtain rfl : second = [] := List.eq_nil_of_length_eq_zero h.symm
      simp
  | cons a first ih =>
      cases second with
      | nil => cases h
      | cons b second =>
          simp only [List.cons_append, List.cons_lt_cons_iff, List.cons.injEq,
            ih (Nat.succ.inj h)]
          tauto

/-! ## Digits of one length -/

theorem mul_add_lt_mul_add_iff {weight a b v w : Nat} (hv : v < weight) (hw : w < weight) :
    weight * a + v < weight * b + w ↔ a < b ∨ a = b ∧ v < w := by
  have hstep {a b : Nat} (h : a < b) : weight * a + weight ≤ weight * b := by
    rw [← Nat.mul_succ]
    exact Nat.mul_le_mul_left weight h
  rcases Nat.lt_trichotomy a b with hlt | rfl | hgt
  · have hbelow := hstep hlt
    omega
  · omega
  · have habove := hstep hgt
    omega

theorem digitValue_lt_iff {c d : Char} (hc : c.isDigit) (hd : d.isDigit) :
    digitValue c < digitValue d ↔ c < d := by
  have hrange := toNat_of_isDigit hc
  have hrange' := toNat_of_isDigit hd
  rw [Char.lt_def, UInt32.lt_iff_toNat_lt]
  change c.toNat - 48 < d.toNat - 48 ↔ c.toNat < d.toNat
  omega

theorem digitValue_inj {c d : Char} (hc : c.isDigit) (hd : d.isDigit) :
    digitValue c = digitValue d ↔ c = d := by
  have hrange := toNat_of_isDigit hc
  have hrange' := toNat_of_isDigit hd
  rw [← Char.toNat_inj]
  change c.toNat - 48 = d.toNat - 48 ↔ c.toNat = d.toNat
  omega

theorem digits_lt_iff {first second : List Char} (hfirst : ∀ c ∈ first, c.isDigit)
    (hsecond : ∀ c ∈ second, c.isDigit) (h : first.length = second.length) :
    first < second ↔ digitsValue first < digitsValue second := by
  induction first generalizing second with
  | nil =>
      obtain rfl : second = [] := List.eq_nil_of_length_eq_zero h.symm
      simp
  | cons c first ih =>
      cases second with
      | nil => cases h
      | cons d second =>
          obtain ⟨hc, hfirst⟩ := List.forall_mem_cons.mp hfirst
          obtain ⟨hd, hsecond⟩ := List.forall_mem_cons.mp hsecond
          have hlength : first.length = second.length := Nat.succ.inj h
          have hlt := digitsValue_lt hsecond
          rw [← hlength] at hlt
          rw [List.cons_lt_cons_iff, ih hfirst hsecond hlength, digitsValue_cons, digitsValue_cons,
            ← hlength, mul_add_lt_mul_add_iff (digitsValue_lt hfirst) hlt, digitValue_lt_iff hc hd,
            digitValue_inj hc hd]

/-! ## Bytes -/

def IsAscii (text : List Char) : Prop := ∀ c ∈ text, c.toNat < 128

theorem toUTF8_ofList {text : List Char} (h : IsAscii text) :
    (String.ofList text).toUTF8.data.toList = text.map fun c => c.val.toUInt8 := by
  change (String.ofList text).toByteArray.data.toList = _
  rw [String.toByteArray_ofList, List.utf8Encode, List.toList_data_toByteArray]
  induction text with
  | nil => rfl
  | cons c text ih =>
      obtain ⟨hc, htext⟩ := List.forall_mem_cons.mp h
      have hone : c.utf8Size = 1 := by
        rw [Char.utf8Size_eq_one_iff, UInt32.le_iff_toNat_le, Char.toNat_val]
        exact Nat.le_of_lt_succ hc
      rw [List.flatMap_cons, String.utf8EncodeChar_eq_singleton hone, ih htext]
      rfl

theorem toNat_toUInt8 {c : Char} (h : c.toNat < 128) : c.val.toUInt8.toNat = c.toNat := by
  rw [UInt32.toNat_toUInt8, Char.toNat_val]
  omega

/-- The bytes of ASCII texts sort as the texts do. -/
theorem toUTF8_lt_iff {first second : List Char} (hfirst : IsAscii first)
    (hsecond : IsAscii second) :
    (String.ofList first).toUTF8.data.toList < (String.ofList second).toUTF8.data.toList ↔
      first < second := by
  rw [toUTF8_ofList hfirst, toUTF8_ofList hsecond]
  induction first generalizing second with
  | nil => cases second <;> simp
  | cons c first ih =>
      cases second with
      | nil => simp
      | cons d second =>
          obtain ⟨hc, hfirst⟩ := List.forall_mem_cons.mp hfirst
          obtain ⟨hd, hsecond⟩ := List.forall_mem_cons.mp hsecond
          have hlt : c.val.toUInt8 < d.val.toUInt8 ↔ c < d := by
            rw [UInt8.lt_iff_toNat_lt, toNat_toUInt8 hc, toNat_toUInt8 hd, Char.lt_def,
              UInt32.lt_iff_toNat_lt, Char.toNat_val, Char.toNat_val]
          have heq : c.val.toUInt8 = d.val.toUInt8 ↔ c = d := by
            rw [← UInt8.toNat_inj, toNat_toUInt8 hc, toNat_toUInt8 hd, Char.toNat_inj]
          simp only [List.map_cons, List.cons_lt_cons_iff, ih hfirst hsecond, hlt, heq]

end FilterSql.Text

namespace FilterSql.Instant

open FilterSql.Text

/-! ## Columns -/

theorem padded_lt_iff {width n m : Nat} (hwidth : 0 < width) (hn : n < 10 ^ width)
    (hm : m < 10 ^ width) : padded width n < padded width m ↔ n < m := by
  have hlength : (padded width n).length = (padded width m).length := by
    rw [length_padded hwidth hn, length_padded hwidth hm]
  rw [digits_lt_iff (fun _ => isDigit_of_mem_padded) (fun _ => isDigit_of_mem_padded) hlength,
    digitsValue_padded, digitsValue_padded]

theorem padded_inj {width n m : Nat} : padded width n = padded width m ↔ n = m := by
  constructor
  · intro h
    rw [← digitsValue_padded width n, h, digitsValue_padded]
  · rintro rfl
    rfl

/-- Numbers one after another, each padded to its width and with its mark behind it. -/
def columns : List (Nat × Char) → List Nat → List Char
  | (width, mark) :: widths, n :: numbers => padded width n ++ mark :: columns widths numbers
  | _, _ => []

def Fits : List (Nat × Char) → List Nat → Prop :=
  List.Forall₂ fun column n => 0 < column.1 ∧ n < 10 ^ column.1

variable {template : List (Nat × Char)} {first second : List Nat}

theorem length_columns (h : Fits template first) :
    (columns template first).length =
      template.foldr (fun column length => column.1 + (length + 1)) 0 := by
  induction h with
  | nil => rfl
  | cons hcolumn _ ih =>
      rw [columns, List.length_append, length_padded hcolumn.1 hcolumn.2, List.length_cons, ih,
        List.foldr_cons]

theorem columns_lt_iff (hfirst : Fits template first) (hsecond : Fits template second) :
    columns template first < columns template second ↔ first < second := by
  induction hfirst generalizing second with
  | nil =>
      cases hsecond
      simp [columns]
  | cons hn _ ih =>
      cases hsecond with
      | cons hm hrest =>
          have hlength := (length_padded hn.1 hn.2).trans (length_padded hm.1 hm.2).symm
          rw [columns, columns, append_lt_append_iff hlength,
            padded_lt_iff hn.1 hn.2 hm.2, padded_inj, List.cons_lt_cons_iff, ih hrest,
            List.cons_lt_cons_iff]
          simp

theorem isDigit_or_mark_of_mem_columns {numbers : List Nat} {c : Char}
    (h : c ∈ columns template numbers) : c.isDigit ∨ c ∈ template.map Prod.snd := by
  induction template, numbers using columns.induct with
  | case1 width mark widths n numbers ih =>
      rw [columns, List.mem_append, List.mem_cons] at h
      rw [List.map_cons, List.mem_cons]
      rcases h with hdigit | rfl | hrest
      · exact .inl (isDigit_of_mem_padded hdigit)
      · exact .inr (.inl rfl)
      · exact (ih hrest).imp_right .inr
  | case2 widths numbers hshort =>
      rw [columns] at h
      · cases h
      · exact hshort

end FilterSql.Instant
