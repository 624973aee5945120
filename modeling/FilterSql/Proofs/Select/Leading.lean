import FilterSql.Proofs.Decimal.Numerals
import FilterSql.Select.Number

/-!
# The integer at the beginning of a text

A limit that arrives as a text is the integer that the text begins with.  Blanks may stand before
it and a sign, and whatever follows its digits is of no account.
-/

namespace FilterSql.NumberOrText

open Text
open Decimal (IsDigits)
open Decimal.Literal (digitsValue splitSign)

variable {negative : Bool} {sign digits rest text : List Char}

/-! ## Signs -/

inductive IsSign : Bool → List Char → Prop
  | none : IsSign false []
  | plus : IsSign false ['+']
  | minus : IsSign true ['-']

theorem IsSign.splitSign_append (h : IsSign negative sign) (hdigits : IsDigits digits) :
    splitSign (sign ++ (digits ++ rest)) = (negative, digits ++ rest) := by
  cases h with
  | none =>
      have hplain : splitSign (Decimal.signChars false ++ (digits ++ rest)) =
          (false, digits ++ rest) :=
        Decimal.splitSign_signChars hdigits.ne_nil hdigits.digit
      exact hplain
  | plus => rfl
  | minus => rfl

theorem exists_isSign (text : List Char) :
    ∃ sign, IsSign (splitSign text).1 sign ∧ text = sign ++ (splitSign text).2 := by
  unfold splitSign
  split
  · exact ⟨['-'], .minus, rfl⟩
  · exact ⟨['+'], .plus, rfl⟩
  · exact ⟨[], .none, rfl⟩

theorem IsSign.startsWithout_isBlank (h : IsSign negative sign) (hdigits : IsDigits digits) :
    StartsWithout isBlank (sign ++ (digits ++ rest)) := by
  obtain ⟨d, digits, rfl⟩ := List.exists_cons_of_ne_nil hdigits.ne_nil
  have hdigit : isBlank d = false :=
    isBlank_of_isDigit (hdigits.digit d List.mem_cons_self)
  cases h <;> rintro c ⟨⟩
  · simp [hdigit]
  · decide
  · decide

/-! ## Leading integers -/

/-- Behind blanks the text begins with a sign and these digits, and no digit comes next. -/
structure LeadsWith (negative : Bool) (digits text : List Char) : Prop where
  isDigits : IsDigits digits
  parts : ∃ blanks sign rest, (∀ c ∈ blanks, isBlank c) ∧ IsSign negative sign ∧
    StartsWithout Char.isDigit rest ∧ text = blanks ++ (sign ++ (digits ++ rest))

theorem toInt_ofInt_signed (negative : Bool) {size : Nat}
    (h : (size : Int) ≤ Int64.maxValue.toInt) :
    (Int64.ofInt (if negative then -(size : Int) else size)).toInt =
      if negative then -(size : Int) else size := by
  rw [Int64.toInt_maxValue] at h
  apply Int64.toInt_ofInt_of_le <;> split <;> omega

theorem leadingInt?_of_leadsWith (h : LeadsWith negative digits text) :
    leadingInt? text =
      if Int64.maxValue.toInt < (digitsValue digits : Int) then none
      else some (Int64.ofInt
        (if negative then -(digitsValue digits : Int) else digitsValue digits)) := by
  obtain ⟨hdigits, blanks, sign, rest, hblanks, hsign, hrest, rfl⟩ := h
  have htrim : trimStart (blanks ++ (sign ++ (digits ++ rest))) = sign ++ (digits ++ rest) :=
    dropWhile_run hblanks (hsign.startsWithout_isBlank hdigits)
  have hdigit : digits.isEmpty = false := by simp [hdigits.ne_nil]
  unfold leadingInt?
  rw [htrim, hsign.splitSign_append hdigits]
  simp only [takeWhile_run hdigits.digit hrest, hdigit, Bool.false_or, decide_eq_true_eq]

theorem leadsWith_takeWhile {text : List Char}
    (hne : (splitSign (trimStart text)).2.takeWhile Char.isDigit ≠ []) :
    LeadsWith (splitSign (trimStart text)).1
      ((splitSign (trimStart text)).2.takeWhile Char.isDigit) text := by
  obtain ⟨sign, hsign, htrim⟩ := exists_isSign (trimStart text)
  refine ⟨⟨hne, fun c => List.mem_takeWhile_imp⟩, text.takeWhile isBlank, sign,
    (splitSign (trimStart text)).2.dropWhile Char.isDigit, fun c => List.mem_takeWhile_imp, hsign,
    startsWithout_dropWhile _ _, ?_⟩
  rw [List.takeWhile_append_dropWhile, ← htrim]
  exact List.takeWhile_append_dropWhile.symm

theorem exists_leadsWith {n : Int64} (h : leadingInt? text = some n) :
    ∃ negative digits, LeadsWith negative digits text := by
  refine ⟨_, _, leadsWith_takeWhile fun hnil => ?_⟩
  unfold leadingInt? at h
  simp [hnil] at h

/-- What is read is the signed number that the text leads with, where it has at most 63 bits. -/
theorem leadingInt?_eq_some_iff {n : Int64} :
    leadingInt? text = some n ↔ ∃ negative digits, LeadsWith negative digits text ∧
      (digitsValue digits : Int) ≤ Int64.maxValue.toInt ∧
      n.toInt = if negative then -(digitsValue digits : Int) else digitsValue digits := by
  constructor
  · intro h
    obtain ⟨negative, digits, hleads⟩ := exists_leadsWith h
    rw [leadingInt?_of_leadsWith hleads] at h
    split at h
    · cases h
    · next hsize =>
      cases h
      exact ⟨negative, digits, hleads, Int.not_lt.mp hsize,
        toInt_ofInt_signed negative (Int.not_lt.mp hsize)⟩
  · rintro ⟨negative, digits, hleads, hsize, hn⟩
    rw [leadingInt?_of_leadsWith hleads, if_neg (Int.not_lt.mpr hsize), Option.some_inj,
      ← Int64.toInt_inj, toInt_ofInt_signed negative hsize, hn]

/-! ## Signs of 64 bits -/

def signFactor (negative : Bool) : Int64 := if negative then -1 else 1

theorem toInt_signFactor (negative : Bool) :
    (signFactor negative).toInt = if negative then -1 else 1 := by
  cases negative <;> simp [signFactor]

theorem smulOverflow_signFactor (negative : Bool) {size : Int64} (h : 0 ≤ size.toInt) :
    (signFactor negative).toBitVec.smulOverflow size.toBitVec = false := by
  have hsize := size.toInt_lt
  simp only [BitVec.smulOverflow, Int64.toInt_toBitVec, toInt_signFactor]
  cases negative <;> simp <;> omega

theorem toInt_signFactor_mul (negative : Bool) {size : Int64} (h : 0 ≤ size.toInt) :
    (signFactor negative * size).toInt = if negative then -size.toInt else size.toInt := by
  have hexact : ((signFactor negative).toBitVec * size.toBitVec).toInt =
      (signFactor negative).toInt * size.toInt := by
    apply BitVec.toInt_mul_of_not_smulOverflow
    simp [smulOverflow_signFactor negative h]
  rw [← Int64.toInt_toBitVec, Int64.toBitVec_mul, hexact, toInt_signFactor]
  cases negative <;> simp

theorem exists_size_of_leadsWith (h : LeadsWith negative digits text)
    (hsize : (digitsValue digits : Int) ≤ Int64.maxValue.toInt) :
    ∃ size : Int64, size.toInt = digitsValue digits ∧
      leadingInt? text = some (signFactor negative * size) ∧
      (signFactor negative).toBitVec.smulOverflow size.toBitVec = false := by
  have hvalue : (Int64.ofNat (digitsValue digits)).toInt = digitsValue digits := by
    apply Int64.toInt_ofNat_of_lt
    rw [Int64.toInt_maxValue] at hsize
    omega
  have hpos : 0 ≤ (Int64.ofNat (digitsValue digits)).toInt := by omega
  refine ⟨_, hvalue, ?_, smulOverflow_signFactor negative hpos⟩
  apply leadingInt?_eq_some_iff.mpr
  refine ⟨negative, digits, h, hsize, ?_⟩
  rw [toInt_signFactor_mul negative hpos, hvalue]

/-! ## Written integers -/

theorem isSign_signChars (negative : Bool) : IsSign negative (Decimal.signChars negative) := by
  cases negative with
  | false => exact .none
  | true => exact .minus

theorem leadsWith_toString (n : Int) {suffix : List Char}
    (h : StartsWithout Char.isDigit suffix) :
    LeadsWith (n < 0) (Decimal.digitChars n.natAbs) ((toString n).toList ++ suffix) := by
  refine ⟨Decimal.isDigits_digitChars n.natAbs, [], _, suffix, by simp, isSign_signChars _, h, ?_⟩
  rw [Json.toList_toString_int, List.append_assoc, List.nil_append]

theorem leadingInt?_toString_append {n : Int64} (hn : n ≠ Int64.minValue) {suffix : List Char}
    (h : StartsWithout Char.isDigit suffix) :
    leadingInt? ((toString n.toInt).toList ++ suffix) = some n := by
  have hleast : n.toInt ≠ Int64.minValue.toInt := fun heq => hn (Int64.toInt_inj.mp heq)
  have hlow := n.le_toInt
  have hhigh := n.toInt_lt
  rw [Int64.toInt_minValue] at hleast
  apply leadingInt?_eq_some_iff.mpr
  refine ⟨_, _, leadsWith_toString n.toInt h, ?_, ?_⟩
  · rw [Decimal.digitsValue_digitChars, Int64.toInt_maxValue]
    omega
  · rw [Decimal.digitsValue_digitChars]
    simp only [decide_eq_true_eq]
    split <;> omega

/-- What is read is the integer that the text leads with, provided that its size has 63 bits.  A
sign never takes such a size out of 64 bits, and an integer that is written out is read back as a
limit, whatever follows its digits. -/
theorem leading_integer_exact (written suffix : String) (value : Int64) :
    (leadingInt? written.toList = some value ↔
      ∃ negative digits, LeadsWith negative digits written.toList ∧
        (digitsValue digits : Int) ≤ Int64.maxValue.toInt ∧
        value.toInt = if negative then -(digitsValue digits : Int) else digitsValue digits) ∧
    (∀ negative digits, LeadsWith negative digits written.toList →
      (digitsValue digits : Int) ≤ Int64.maxValue.toInt →
      ∃ size : Int64, size.toInt = digitsValue digits ∧
        leadingInt? written.toList = some (signFactor negative * size) ∧
        (signFactor negative).toBitVec.smulOverflow size.toBitVec = false) ∧
    (value ≠ Int64.minValue → value ≠ 0 → StartsWithout Char.isDigit suffix.toList →
      (NumberOrText.text (toString value.toInt ++ suffix)).toLimit? = some value) := by
  refine ⟨leadingInt?_eq_some_iff, fun negative digits => exists_size_of_leadsWith, ?_⟩
  intro hleast _ hsuffix
  rw [toLimit?, String.toList_append]
  exact leadingInt?_toString_append hleast hsuffix

theorem leading_integer_exact_least :
    LeadsWith true "9223372036854775807".toList "\u3000-9223372036854775807px".toList ∧
      (∃ size : Int64, size.toInt = 9223372036854775807 ∧
        leadingInt? "\u3000-9223372036854775807px".toList = some (signFactor true * size) ∧
        (signFactor true).toBitVec.smulOverflow size.toBitVec = false) ∧
      StartsWithout Char.isDigit "px".toList ∧
      (NumberOrText.text (toString (Int64.toInt (-9223372036854775807)) ++ "px")).toLimit? =
        some (-9223372036854775807) := by
  have hsuffix : StartsWithout Char.isDigit "px".toList := by
    rintro c ⟨⟩
    decide
  have hleads : LeadsWith true "9223372036854775807".toList
      "\u3000-9223372036854775807px".toList :=
    { isDigits := ⟨by decide, List.all_eq_true.mp (by decide)⟩
      parts := ⟨['\u3000'], ['-'], "px".toList, List.all_eq_true.mp (by decide), .minus, hsuffix,
        by decide⟩ }
  obtain ⟨-, hread, hwritten⟩ :=
    leading_integer_exact "\u3000-9223372036854775807px" "px" (-9223372036854775807)
  exact ⟨hleads, hread true _ hleads (by decide), hsuffix,
    hwritten (by decide) (by decide) hsuffix⟩

end FilterSql.NumberOrText
