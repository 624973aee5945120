import FilterSql.Proofs.Decimal.Reading
import FilterSql.Proofs.Json.Elements

/-!
# Numerals

Whole numbers are written as digits, and doubles for people as digits with an optional fraction,
both perhaps behind a minus sign.  No finite double needs an exponent or a name.
-/

namespace FilterSql.Decimal

variable {negative : Bool} {text : List Char}

/-! ## Grammar -/

structure IsDigits (text : List Char) : Prop where
  ne_nil : text ≠ []
  digit : ∀ c ∈ text, c.isDigit

def IsWhole (text : List Char) : Prop :=
  ∃ negative digits, IsDigits digits ∧ text = signChars negative ++ digits

def IsNumeral (text : List Char) : Prop :=
  IsWhole text ∨
    ∃ whole fraction, IsWhole whole ∧ IsDigits fraction ∧ text = whole ++ '.' :: fraction

/-! ## Written numbers -/

theorem isDigits_digitChars (n : Nat) : IsDigits (digitChars n) :=
  ⟨List.ne_nil_of_length_pos (length_digitChars_pos n), fun _ => isDigit_of_mem_digitChars⟩

theorem isWhole_toString (n : Int) : IsWhole (toString n).toList :=
  ⟨_, _, isDigits_digitChars n.natAbs, Json.toList_toString_int n⟩

theorem isNumeral_digits (negative : Bool) (h : IsDigits text) :
    IsNumeral (signChars negative ++ text) :=
  .inl ⟨negative, text, h, rfl⟩

theorem isNumeral_fraction (negative : Bool) {whole fraction : List Char} (hwhole : IsDigits whole)
    (hfraction : IsDigits fraction) :
    IsNumeral (signChars negative ++ (whole ++ '.' :: fraction)) :=
  .inr ⟨_, fraction, ⟨negative, whole, hwhole, rfl⟩, hfraction, (List.append_assoc ..).symm⟩

theorem isNumeral_positional (negative : Bool) (decimal : Decimal) :
    IsNumeral (signChars negative ++ decimal.positional []) := by
  have hdigits := isDigits_digitChars decimal.digits
  have hcount := length_digitChars_pos decimal.digits
  unfold positional
  dsimp only
  split
  · rw [List.append_nil]
    refine isNumeral_digits negative ⟨List.append_ne_nil_of_left_ne_nil hdigits.ne_nil _, ?_⟩
    exact List.forall_mem_append.mpr ⟨hdigits.digit, fun _ => isDigit_of_mem_zeros⟩
  · next hplaces =>
    split
    · next hinside =>
      refine isNumeral_fraction negative ⟨?_, ?_⟩ ⟨?_, ?_⟩
      · exact List.ne_nil_of_length_pos (by rw [List.length_take]; omega)
      · exact fun c hc => hdigits.digit c (List.mem_of_mem_take hc)
      · exact List.ne_nil_of_length_pos (by rw [List.length_drop]; omega)
      · exact fun c hc => hdigits.digit c (List.mem_of_mem_drop hc)
    · have hzero : IsDigits ['0'] := ⟨List.cons_ne_nil _ _, List.forall_mem_singleton.mpr rfl⟩
      refine isNumeral_fraction negative hzero ⟨?_, ?_⟩
      · exact List.append_ne_nil_of_right_ne_nil _ hdigits.ne_nil
      · exact List.forall_mem_append.mpr ⟨fun _ => isDigit_of_mem_zeros, hdigits.digit⟩

end FilterSql.Decimal

namespace FilterSql.Double

open Decimal

theorem toList_display {x : Double} (h : x.isFinite) :
    x.display.toList = Layout.plain.write x := by
  have hnumber : x.isNaN = false := by
    have hbelow := of_decide_eq_true h
    exact decide_eq_false (Nat.not_lt_of_lt hbelow)
  rw [display, hnumber, if_neg Bool.false_ne_true, if_pos h, String.toList_ofList]

theorem isNumeral_display {x : Double} (h : x.isFinite) : IsNumeral x.display.toList := by
  rw [toList_display h]
  exact isNumeral_positional x.isNegative (Layout.plain.decimal x)

theorem read?_display {x : Double} (h : x.isFinite) :
    Literal.read? x.display.toList = some x := by
  rw [toList_display h]
  exact Layout.read?_write (.inl rfl) h

end FilterSql.Double
