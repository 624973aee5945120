import FilterSql.Proofs.Instant.Order
import FilterSql.Proofs.Json.Places
import FilterSql.Sqlite

/-!
# Dates sort as text

A date is bound as text, and conditions compare the text.  In the years that are written with four
digits the texts have one length, and their bytes sort by time, to the millisecond.  A date in an
array is the same text between quotes.
-/

namespace FilterSql

/-! ## Dates in arrays -/

namespace Value

/-- What stands at a place of nested arrays; documents are not entered. -/
def item? : List Nat → Value → Option Value
  | [], value => some value
  | place :: places, .array items => items[place]?.bind (item? places)
  | _ :: _, _ => none

theorem item?_toJson {places : List Nat} {value part : Value}
    (h : value.item? places = some part) : value.toJson.item? places = some part.toJson := by
  induction places generalizing value with
  | nil =>
      cases h
      rfl
  | cons place places ih =>
      cases value with
      | array items =>
          rw [item?, Option.bind_eq_some_iff] at h
          obtain ⟨item, hitem, hpart⟩ := h
          simp [toJson, Json.item?, hitem, ih hpart]
      | null | string | integer | float | boolean | date | json => cases h

end Value

namespace Sqlite

open Instant (IsOrdinary)

structure IsDateText (instant : Instant) (text : String) : Prop where
  bound : Parameter.ofValue (.date instant) = .ok (.text text)
  length : text.length = 24
  inArrays : ∀ items places, (Value.array items).item? places = some (.date instant) →
    ∃ content, Parameter.ofValue (.array items) = .ok (.json content) ∧
      Json.textAt? places content.toList = some ('"' :: text.toList ++ ['"'])

theorem isDateText_millisText {instant : Instant} (h : instant.IsOrdinary) :
    IsDateText instant instant.millisText where
  bound := rfl
  length := Instant.length_millisText h
  inArrays := by
    intro items places hitem
    have hplain : Json.quoteChars instant.millisText.toList =
        '"' :: instant.millisText.toList ++ ['"'] := by
      refine Json.quoteChars_of_plain fun c hc => ?_
      rw [Instant.millisText_eq h, String.toList_ofList] at hc
      have hrange := Instant.toNat_range_of_mem_columns hc
      have hother {d : Char} (hd : d.toNat < 45 ∨ 90 < d.toNat) : c ≠ d := by
        rintro rfl
        omega
      exact ⟨hother (by decide), hother (by decide), by omega⟩
    refine ⟨_, rfl, ?_⟩
    rw [Json.text, String.toList_ofList, Json.textAt?_chars (Value.item?_toJson hitem)]
    change some (Json.quoteChars instant.millisText.toList) = _
    rw [hplain]

/-- The texts of two dates compare byte by byte as the dates do, cut down to milliseconds. -/
theorem dates_sort_as_text {first second : Instant} (hfirst : first.IsOrdinary)
    (hsecond : second.IsOrdinary) :
    ∃ text other, IsDateText first text ∧ IsDateText second other ∧
      (text.toUTF8.data.toList < other.toUTF8.data.toList ↔ first.millis < second.millis) ∧
      (text = other ↔ first.millis = second.millis) :=
  ⟨first.millisText, second.millisText, isDateText_millisText hfirst,
    isDateText_millisText hsecond, Instant.millisText_lt_iff hfirst hsecond,
    Instant.millisText_eq_iff hfirst hsecond⟩

theorem dates_sort_as_text_epoch :
    (⟨-1, 999999999⟩ : Instant).IsOrdinary ∧ (⟨0, 0⟩ : Instant).IsOrdinary ∧
      ∃ text other, IsDateText ⟨-1, 999999999⟩ text ∧ IsDateText ⟨0, 0⟩ other ∧
        text.toUTF8.data.toList < other.toUTF8.data.toList ∧ text ≠ other := by
  have hbefore : (⟨-1, 999999999⟩ : Instant).IsOrdinary := by
    constructor <;> decide +kernel
  have hepoch : (⟨0, 0⟩ : Instant).IsOrdinary := by
    constructor <;> decide +kernel
  obtain ⟨text, other, htext, hother, hlt, heq⟩ := dates_sort_as_text hbefore hepoch
  exact ⟨hbefore, hepoch, text, other, htext, hother, hlt.mpr (by decide), heq.not.mpr (by decide)⟩

end Sqlite

end FilterSql
