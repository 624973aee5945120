import FilterSql.Proofs.Json.Elements
import FilterSql.Proofs.Json.Records

/-!
# Places in nested arrays

A place is an index for each array on the way to it.  What stands there can be found in the value,
or in its compact text, by cutting one array after the other.
-/

namespace FilterSql.Json

/-- What stands at a place of nested arrays; objects are not entered. -/
def item? : List Nat → Json → Option Json
  | [], value => some value
  | place :: places, .array items => items[place]?.bind (item? places)
  | _ :: _, _ => none

def textAt? : List Nat → List Char → Option (List Char)
  | [], text => some text
  | place :: places, text =>
    (elementTexts? (String.ofList text)).bind fun texts => texts[place]?.bind (textAt? places)

/-- What stands in an array stands in one of its items, one place less deep. -/
theorem exists_of_item?_cons {place : Nat} {places : List Nat} {value part : Json}
    (h : item? (place :: places) value = some part) :
    ∃ items item, value = .array items ∧ items[place]? = some item ∧
      item? places item = some part := by
  cases value with
  | array items =>
      rw [item?, Option.bind_eq_some_iff] at h
      obtain ⟨item, hitem, hpart⟩ := h
      exact ⟨items, item, rfl, hitem, hpart⟩
  | null | bool | integer | float | string | object => cases h

theorem IsHereditary.item? {admits : Json → Prop} (h : IsHereditary admits) {places : List Nat}
    {value part : Json} (hvalue : admits value) (hpart : value.item? places = some part) :
    admits part := by
  induction places generalizing value with
  | nil =>
      cases hpart
      exact hvalue
  | cons place places ih =>
      obtain ⟨items, item, rfl, hitem, hpart⟩ := exists_of_item?_cons hpart
      exact ih (h.items hvalue item (List.mem_of_getElem? hitem)) hpart

theorem textAt?_chars {places : List Nat} {value part : Json}
    (h : item? places value = some part) : textAt? places value.chars = some part.chars := by
  induction places generalizing value with
  | nil =>
      cases h
      rfl
  | cons place places ih =>
      obtain ⟨items, item, rfl, hitem, hpart⟩ := exists_of_item?_cons h
      have helements := elementTexts?_text items
      rw [text] at helements
      simp [textAt?, helements, hitem, ih hpart]

end FilterSql.Json
