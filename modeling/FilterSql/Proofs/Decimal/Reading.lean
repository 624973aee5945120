import FilterSql.Decimal.Layout
import FilterSql.Decimal.Literal
import FilterSql.Proofs.Decimal.Shortest
import FilterSql.Proofs.Text.Runs
import Mathlib.Data.List.TakeDrop

/-!
# Doubles are read back from their texts

A written double is a run of digits, perhaps with a point among them, and perhaps an exponent.
The digits of its shortest decimal are only moved between these parts, which leaves the decimal
in the rounding interval.
-/

namespace FilterSql.Decimal

open FilterSql.Text
open Literal (digitsValue splitSign splitDigits exponent? read?)

/-! ## Digits -/

theorem isDigit_of_mem_zeros {count : Nat} {c : Char} (h : c ∈ zeros count) : c.isDigit := by
  rw [List.eq_of_mem_replicate h]
  rfl

theorem length_digitChars_pos (n : Nat) : 0 < (digitChars n).length := Nat.length_toDigits_pos

theorem isDigit_of_mem_digitChars {n : Nat} {c : Char} (h : c ∈ digitChars n) : c.isDigit :=
  isDigit_of_mem_digits h

theorem digitsValue_digitChars (n : Nat) : digitsValue (digitChars n) = n := digitsValue_digits n

/-! ## The parts of a literal -/

variable {whole fraction rest : List Char} {exponent : Int} {negative : Bool}

theorem head_of_exponent? (h : exponent? rest = some exponent) {c : Char}
    (hc : c ∈ rest.head?) : c = 'e' ∨ c = 'E' := by
  cases rest with
  | nil => cases hc
  | cons mark rest =>
      cases hc
      rw [exponent?, Option.ite_none_right_eq_some] at h
      simp only [Bool.and_eq_true, Bool.or_eq_true, beq_iff_eq] at h
      exact h.1.1.1

theorem startsWithout_of_exponent? (h : exponent? rest = some exponent) :
    StartsWithout Char.isDigit rest := by
  intro c hc
  obtain rfl | rfl := head_of_exponent? h hc <;> decide

theorem splitDigits_whole (hwhole : ∀ c ∈ whole, c.isDigit) (h : exponent? rest = some exponent) :
    splitDigits (whole ++ rest) = (whole, [], rest) := by
  have hstop := startsWithout_of_exponent? h
  unfold splitDigits
  rw [List.span_eq_takeWhile_dropWhile, takeWhile_run hwhole hstop, dropWhile_run hwhole hstop]
  dsimp only
  split
  · next rest =>
    rcases head_of_exponent? h rfl with hpoint | hpoint <;> cases hpoint
  · rfl

theorem splitDigits_fraction (hwhole : ∀ c ∈ whole, c.isDigit)
    (hfraction : ∀ c ∈ fraction, c.isDigit) (h : exponent? rest = some exponent) :
    splitDigits (whole ++ '.' :: (fraction ++ rest)) = (whole, fraction, rest) := by
  have hpoint : StartsWithout Char.isDigit ('.' :: (fraction ++ rest)) := by
    rintro c ⟨⟩
    decide
  have hstop := startsWithout_of_exponent? h
  unfold splitDigits
  rw [List.span_eq_takeWhile_dropWhile, takeWhile_run hwhole hpoint, dropWhile_run hwhole hpoint]
  simp only
  rw [List.span_eq_takeWhile_dropWhile, takeWhile_run hfraction hstop,
    dropWhile_run hfraction hstop]

def signChars (negative : Bool) : List Char := if negative then ['-'] else []

theorem splitSign_signChars (hne : whole ≠ []) (hwhole : ∀ c ∈ whole, c.isDigit) :
    splitSign (signChars negative ++ (whole ++ rest)) = (negative, whole ++ rest) := by
  cases negative with
  | true => rfl
  | false =>
      obtain ⟨c, whole, rfl⟩ := List.exists_cons_of_ne_nil hne
      have hdigit := hwhole c List.mem_cons_self
      change splitSign (c :: (whole ++ rest)) = _
      unfold splitSign
      split
      · next heq =>
        cases heq
        cases hdigit
      · next heq =>
        cases heq
        cases hdigit
      · rfl

theorem read?_whole (hne : whole ≠ []) (hwhole : ∀ c ∈ whole, c.isDigit)
    (h : exponent? rest = some exponent) :
    read? (signChars negative ++ (whole ++ rest)) =
      some (.ofDecimal negative (digitsValue whole) exponent) := by
  unfold read?
  rw [splitSign_signChars hne hwhole]
  dsimp only
  rw [splitDigits_whole hwhole h]
  simp [hne, h]

theorem read?_fraction (hne : whole ≠ []) (hwhole : ∀ c ∈ whole, c.isDigit)
    (hfraction : ∀ c ∈ fraction, c.isDigit) (h : exponent? rest = some exponent) :
    read? (signChars negative ++ (whole ++ '.' :: (fraction ++ rest))) =
      some (.ofDecimal negative (digitsValue (whole ++ fraction)) (exponent - fraction.length)) := by
  unfold read?
  rw [splitSign_signChars hne hwhole]
  dsimp only
  rw [splitDigits_fraction hwhole hfraction h]
  simp [hne, h]

theorem signed_natAbs (n : Int) :
    (if decide (n < 0) then -(n.natAbs : Int) else n.natAbs) = n := by
  simp only [decide_eq_true_eq]
  split <;> omega

theorem exponent?_written (exponent : Int) :
    exponent? ('e' :: (if exponent < 0 then '-' else '+') :: digitChars exponent.natAbs) =
      some exponent := by
  have hsplit : splitSign ((if exponent < 0 then '-' else '+') :: digitChars exponent.natAbs) =
      (decide (exponent < 0), digitChars exponent.natAbs) := by
    by_cases hsign : exponent < 0
    · rw [if_pos hsign, decide_eq_true hsign]
      rfl
    · rw [if_neg hsign, decide_eq_false hsign]
      rfl
  have hdigits : (digitChars exponent.natAbs).all Char.isDigit :=
    List.all_eq_true.mpr fun _ hc => isDigit_of_mem_digitChars hc
  have hne : (digitChars exponent.natAbs).isEmpty = false :=
    List.isEmpty_eq_false_iff.mpr Nat.toDigits_ne_nil
  rw [exponent?, hsplit]
  dsimp only
  rw [hdigits, hne, digitsValue_digitChars, signed_natAbs]
  rfl

/-! ## The two forms -/

/-- The text is read as the decimal, but for zeros that moved from the exponent to the digits. -/
def IsReadAs (text : List Char) (decimal : Decimal) : Prop :=
  ∃ count : Nat, ∀ negative, read? (signChars negative ++ text) =
    some (.ofDecimal negative (decimal.digits * 10 ^ count) (decimal.exponent - count))

variable {decimal : Decimal}

theorem isReadAs_whole (count : Nat) (hne : whole ≠ []) (hwhole : ∀ c ∈ whole, c.isDigit)
    (h : exponent? rest = some exponent)
    (hvalue : digitsValue whole = decimal.digits * 10 ^ count)
    (hexponent : exponent = decimal.exponent - count) : IsReadAs (whole ++ rest) decimal :=
  ⟨count, fun _ => by rw [read?_whole hne hwhole h, hvalue, hexponent]⟩

theorem isReadAs_fraction (count : Nat) (hne : whole ≠ []) (hwhole : ∀ c ∈ whole, c.isDigit)
    (hfraction : ∀ c ∈ fraction, c.isDigit) (h : exponent? rest = some exponent)
    (hvalue : digitsValue (whole ++ fraction) = decimal.digits * 10 ^ count)
    (hexponent : exponent - fraction.length = decimal.exponent - count) :
    IsReadAs (whole ++ '.' :: (fraction ++ rest)) decimal :=
  ⟨count, fun _ => by rw [read?_fraction hne hwhole hfraction h, hvalue, hexponent]⟩

theorem isReadAs_scientific (decimal : Decimal) : IsReadAs decimal.scientific decimal := by
  have hcount := length_digitChars_pos decimal.digits
  have hmark := exponent?_written (decimal.exponent + (digitChars decimal.digits).length - 1)
  have hfirst : (digitChars decimal.digits).take 1 ≠ [] :=
    List.ne_nil_of_length_pos (by rw [List.length_take]; omega)
  unfold scientific
  dsimp only
  split
  · next hone =>
    have hall : (digitChars decimal.digits).take 1 = digitChars decimal.digits :=
      List.take_of_length_le (Nat.le_of_eq hone)
    rw [List.append_nil]
    refine isReadAs_whole 0 hfirst (fun c hc => ?_) hmark ?_ ?_
    · exact isDigit_of_mem_digitChars (List.mem_of_mem_take hc)
    · rw [hall, digitsValue_digitChars, Nat.pow_zero, Nat.mul_one]
    · omega
  · next hmore =>
    rw [List.append_assoc]
    refine isReadAs_fraction 0 hfirst (fun c hc => ?_) (fun c hc => ?_) hmark ?_ ?_
    · exact isDigit_of_mem_digitChars (List.mem_of_mem_take hc)
    · exact isDigit_of_mem_digitChars (List.mem_of_mem_drop hc)
    · rw [List.take_append_drop, digitsValue_digitChars, Nat.pow_zero, Nat.mul_one]
    · rw [List.length_drop]
      omega

def EndsWhole (wholeEnd : List Char) : Prop :=
  wholeEnd = [] ∨ ∃ count, wholeEnd = '.' :: zeros count

theorem isReadAs_whole_end {wholeEnd : List Char} (hend : EndsWhole wholeEnd)
    (h : 0 ≤ decimal.exponent) :
    IsReadAs (digitChars decimal.digits ++ zeros decimal.exponent.toNat ++ wholeEnd) decimal := by
  have hne : digitChars decimal.digits ++ zeros decimal.exponent.toNat ≠ [] :=
    List.append_ne_nil_of_left_ne_nil (List.ne_nil_of_length_pos (length_digitChars_pos _)) _
  have hall (c : Char) (hc : c ∈ digitChars decimal.digits ++ zeros decimal.exponent.toNat) :
      c.isDigit := by
    rcases List.mem_append.mp hc with hc | hc
    · exact isDigit_of_mem_digitChars hc
    · exact isDigit_of_mem_zeros hc
  obtain rfl | ⟨count, rfl⟩ := hend
  · refine isReadAs_whole decimal.exponent.toNat hne hall rfl ?_ ?_
    · rw [zeros, digitsValue_append_zeros, digitsValue_digitChars]
    · omega
  · rw [← List.append_nil (zeros count)]
    refine isReadAs_fraction (decimal.exponent.toNat + count) hne hall
      (fun c hc => isDigit_of_mem_zeros hc) rfl ?_ ?_
    · rw [zeros, zeros, digitsValue_append_zeros, digitsValue_append_zeros,
        digitsValue_digitChars, Nat.pow_add, Nat.mul_assoc]
    · rw [zeros, List.length_replicate]
      omega

theorem isReadAs_point_inside {digits : List Char} {places : Nat}
    (hdigits : digits = digitChars decimal.digits) (hplaces : decimal.exponent = -places)
    (h : places < digits.length) :
    IsReadAs (digits.take (digits.length - places) ++ '.' :: digits.drop (digits.length - places))
      decimal := by
  subst hdigits
  rw [← List.append_nil ((digitChars decimal.digits).drop _)]
  refine isReadAs_fraction 0 (List.ne_nil_of_length_pos ?_) (fun c hc => ?_) (fun c hc => ?_)
    rfl ?_ ?_
  · rw [List.length_take]
    omega
  · exact isDigit_of_mem_digitChars (List.mem_of_mem_take hc)
  · exact isDigit_of_mem_digitChars (List.mem_of_mem_drop hc)
  · rw [List.take_append_drop, digitsValue_digitChars, Nat.pow_zero, Nat.mul_one]
  · rw [List.length_drop]
    omega

theorem isReadAs_point_before {digits : List Char} {places : Nat}
    (hdigits : digits = digitChars decimal.digits) (hplaces : decimal.exponent = -places)
    (h : digits.length ≤ places) :
    IsReadAs ('0' :: '.' :: zeros (places - digits.length) ++ digits) decimal := by
  have htext : '0' :: '.' :: zeros (places - digits.length) ++ digits =
      ['0'] ++ '.' :: ((zeros (places - digits.length) ++ digits) ++ []) := by
    simp only [List.cons_append, List.nil_append, List.append_nil]
  rw [htext]
  subst hdigits
  refine isReadAs_fraction 0 (List.cons_ne_nil _ _) (List.forall_mem_singleton.mpr rfl)
    (fun c hc => ?_) rfl ?_ ?_
  · rcases List.mem_append.mp hc with hc | hc
    · exact isDigit_of_mem_zeros hc
    · exact isDigit_of_mem_digitChars hc
  · change digitsValue (List.replicate 1 '0' ++ _) = _
    rw [digitsValue_zeros_append, zeros, digitsValue_zeros_append, digitsValue_digitChars,
      Nat.pow_zero, Nat.mul_one]
  · rw [List.length_append, zeros, List.length_replicate]
    omega

theorem isReadAs_positional {wholeEnd : List Char} (hend : EndsWhole wholeEnd) (decimal : Decimal) :
    IsReadAs (decimal.positional wholeEnd) decimal := by
  unfold positional
  dsimp only
  split
  · next hwhole => exact isReadAs_whole_end hend hwhole
  · next hplaces =>
    split
    · next hinside => exact isReadAs_point_inside rfl (by omega) hinside
    · next hbefore => exact isReadAs_point_before rfl (by omega) (Nat.le_of_not_lt hbefore)

/-! ## Characters -/

def isNumeric (c : Char) : Bool := c.isDigit || c == '-' || c == '+' || c == '.' || c == 'e'

theorem isNumeric_of_isDigit {c : Char} (h : c.isDigit) : isNumeric c := by
  simp [isNumeric, h]

theorem isNumeric_of_mem_signChars {c : Char} (h : c ∈ signChars negative) : isNumeric c := by
  unfold signChars at h
  split at h
  · rw [List.mem_singleton.mp h]
    rfl
  · cases h

theorem isNumeric_of_mem_positional {wholeEnd : List Char} (hend : EndsWhole wholeEnd) {c : Char}
    (h : c ∈ decimal.positional wholeEnd) : isNumeric c := by
  have hdigits {n : Nat} (hc : c ∈ digitChars n) : isNumeric c :=
    isNumeric_of_isDigit (isDigit_of_mem_digitChars hc)
  have hzeros {count : Nat} (hc : c ∈ zeros count) : isNumeric c :=
    isNumeric_of_isDigit (isDigit_of_mem_zeros hc)
  have hpoint (hc : c = '.') : isNumeric c := by
    rw [hc]
    rfl
  have hzero (hc : c = '0') : isNumeric c := by
    rw [hc]
    rfl
  have hwhole (hc : c ∈ wholeEnd) : isNumeric c := by
    obtain rfl | ⟨count, rfl⟩ := hend
    · cases hc
    · exact (List.mem_cons.mp hc).elim hpoint hzeros
  unfold positional at h
  dsimp only at h
  split at h
  · simp only [List.mem_append] at h
    exact h.elim (fun h => h.elim hdigits hzeros) hwhole
  · split at h
    · simp only [List.mem_append, List.mem_cons] at h
      obtain h | h | h := h
      · exact hdigits (List.mem_of_mem_take h)
      · exact hpoint h
      · exact hdigits (List.mem_of_mem_drop h)
    · simp only [List.cons_append, List.mem_append, List.mem_cons] at h
      obtain h | h | h | h := h
      · exact hzero h
      · exact hpoint h
      · exact hzeros h
      · exact hdigits h

theorem isNumeric_of_mem_scientific {c : Char} (h : c ∈ decimal.scientific) : isNumeric c := by
  have hdigits {n : Nat} (hc : c ∈ digitChars n) : isNumeric c :=
    isNumeric_of_isDigit (isDigit_of_mem_digitChars hc)
  unfold scientific at h
  simp only [List.mem_append, List.mem_cons] at h
  obtain (h | h) | h | h | h := h
  · exact hdigits (List.mem_of_mem_take h)
  · split at h
    · cases h
    · obtain h | h := List.mem_cons.mp h
      · rw [h]
        rfl
      · exact hdigits (List.mem_of_mem_drop h)
  · rw [h]
    rfl
  · rw [h]
    split <;> rfl
  · exact hdigits h

/-- With a point after whole numbers every number has one, or an exponent. -/
theorem exists_mark_positional {wholeEnd : List Char} (hend : '.' ∈ wholeEnd) :
    ∃ c ∈ decimal.positional wholeEnd, c = '.' ∨ c = 'e' := by
  unfold positional
  dsimp only
  refine ⟨'.', ?_, .inl rfl⟩
  split
  · simp [hend]
  · split <;> simp

theorem exists_mark_scientific (decimal : Decimal) : ∃ c ∈ decimal.scientific, c = '.' ∨ c = 'e' :=
  ⟨'e', by simp [scientific], .inr rfl⟩

/-! ## Doubles -/

theorem ofDecimal_mul_pow {magnitude : Nat} (negative : Bool) (count : Nat) (hzero : 0 < magnitude)
    (hfinite : magnitude < BinaryFormat.binary64.infinity)
    (h : IsWithin (Interval.ofMagnitude magnitude) decimal) :
    Double.ofDecimal negative (decimal.digits * 10 ^ count) (decimal.exponent - count) =
      .ofMagnitude negative magnitude :=
  ofDecimal_of_isWithin negative hzero hfinite
    ((isWithin_shift decimal.digits decimal.exponent count).mpr h)

end Decimal

namespace Layout

variable {layout : Layout} {x : Double}

def decimal (layout : Layout) (x : Double) : Decimal :=
  if x.isZero then ⟨0, 0⟩ else .shortest layout.tie x.magnitude

theorem write_cases (layout : Layout) (x : Double) :
    ∃ text, layout.write x = Decimal.signChars x.isNegative ++ text ∧
      (text = (layout.decimal x).positional layout.wholeEnd ∨
        text = (layout.decimal x).scientific) := by
  have hwrite : layout.write x =
      if layout.isPositional ((layout.decimal x).exponent +
          Decimal.digitCount (layout.decimal x).digits - 1) then
        Decimal.signChars x.isNegative ++ (layout.decimal x).positional layout.wholeEnd
      else Decimal.signChars x.isNegative ++ (layout.decimal x).scientific := rfl
  rw [hwrite]
  split
  · exact ⟨_, rfl, .inl rfl⟩
  · exact ⟨_, rfl, .inr rfl⟩

theorem isNumeric_of_mem_write (hend : Decimal.EndsWhole layout.wholeEnd) {c : Char}
    (h : c ∈ layout.write x) : Decimal.isNumeric c := by
  obtain ⟨text, hwrite, hform⟩ := layout.write_cases x
  rw [hwrite] at h
  rcases List.mem_append.mp h with hsign | htext
  · exact Decimal.isNumeric_of_mem_signChars hsign
  · obtain rfl | rfl := hform
    · exact Decimal.isNumeric_of_mem_positional hend htext
    · exact Decimal.isNumeric_of_mem_scientific htext

theorem exists_mark_write (hend : '.' ∈ layout.wholeEnd) (x : Double) :
    ∃ c ∈ layout.write x, c = '.' ∨ c = 'e' := by
  obtain ⟨text, hwrite, hform⟩ := layout.write_cases x
  have hmark : ∃ c ∈ text, c = '.' ∨ c = 'e' := by
    obtain rfl | rfl := hform
    · exact Decimal.exists_mark_positional hend
    · exact Decimal.exists_mark_scientific _
  obtain ⟨c, hc, hmark⟩ := hmark
  refine ⟨c, ?_, hmark⟩
  rw [hwrite]
  exact List.mem_append_right _ hc

/-- A finite double is read back from its text in any layout. -/
theorem read?_write (hend : Decimal.EndsWhole layout.wholeEnd) (h : x.isFinite) :
    Decimal.Literal.read? (layout.write x) = some x := by
  obtain ⟨text, hwrite, hform⟩ := layout.write_cases x
  have hreads : Decimal.IsReadAs text (layout.decimal x) := by
    obtain rfl | rfl := hform
    · exact Decimal.isReadAs_positional hend _
    · exact Decimal.isReadAs_scientific _
  obtain ⟨count, hread⟩ := hreads
  have hself := Double.ofMagnitude_magnitude x
  rw [hwrite, hread]
  congr 1
  unfold decimal
  split
  · next hzero =>
    rw [eq_of_beq hzero] at hself
    rw [Nat.zero_mul]
    exact hself
  · next hzero =>
    have hpos : 0 < x.magnitude := Nat.pos_of_ne_zero fun heq => hzero (beq_iff_eq.mpr heq)
    rw [Decimal.ofDecimal_mul_pow x.isNegative count hpos (of_decide_eq_true h)
      (Decimal.isWithin_shortest layout.tie hpos)]
    exact hself

end Layout

end FilterSql
