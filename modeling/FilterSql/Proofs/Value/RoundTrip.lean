import FilterSql.Proofs.Double.Finite
import FilterSql.Proofs.Json.Places
import FilterSql.Value

/-!
# JSON values that come back

A JSON value that becomes a bound value and is then written as JSON again is the same value,
except that a whole number above the signed 64 bits comes back as the double nearest to it.  What
is inside an object is not touched.
-/

namespace FilterSql.Value

open Json (HasJsonNumbers)

theorem toJson_ofJson_integer {n : Int} (h : HasJsonNumbers (.integer n)) :
    (ofJson (.integer n)).toJson =
      if n ≤ Int64.maxValue.toInt then .integer n else .float (.ofInt n) := by
  have hfinite : (Double.ofInt n).isFinite := Double.isFinite_ofInt h.natAbs_lt
  cases h with
  | integer hlow _ =>
      have hmin : Int64.minValue.toInt = -2 ^ 63 := by decide
      have hmax : Int64.maxValue.toInt = 2 ^ 63 - 1 := by decide
      rw [ofJson, ofInt]
      split
      · next hrange =>
        have hvalue : (Int64.ofInt n).toInt = n := Int64.toInt_ofInt_of_le (by omega) (by omega)
        rw [if_pos hrange.2, toJson, hvalue]
      · next hrange =>
        have hlarge : ¬ n ≤ Int64.maxValue.toInt := fun hsmall => hrange ⟨hlow, hsmall⟩
        rw [if_neg hlarge, toJson, Json.ofDouble, if_pos hfinite]

theorem toJson_ofJson_array (items : List Json) :
    (ofJson (.array items)).toJson = .array (items.map fun item => (ofJson item).toJson) := by
  rw [ofJson, toJson, listOfJson_eq_map, itemsToJson_eq_map, List.map_map]
  rfl

theorem toJson_ofJson_object (members : List (String × Json)) :
    (ofJson (.object members)).toJson = .object members := by
  rw [ofJson, toJson]

theorem item?_toJson_ofJson {places : List Nat} {json part : Json}
    (h : json.item? places = some part) :
    (ofJson json).toJson.item? places = some (ofJson part).toJson := by
  induction places generalizing json with
  | nil =>
      cases h
      rfl
  | cons place places ih =>
      obtain ⟨items, item, rfl, hitem, hpart⟩ := Json.exists_of_item?_cons h
      rw [toJson_ofJson_array, Json.item?, List.getElem?_map, hitem]
      exact ih hpart

/-- No whole number outside of objects is above the signed 64 bits. -/
def FitsSigned (json : Json) : Prop :=
  ∀ places n, json.item? places = some (.integer n) → n ≤ Int64.maxValue.toInt

theorem FitsSigned.item {items : List Json} (h : FitsSigned (.array items)) {item : Json}
    (hitem : item ∈ items) : FitsSigned item := by
  intro places n hn
  obtain ⟨place, hplace⟩ := List.mem_iff_getElem?.mp hitem
  refine h (place :: places) n ?_
  rw [Json.item?, hplace]
  exact hn

theorem toJson_ofJson {json : Json} (h : json.HasJsonNumbers) (hfits : FitsSigned json) :
    (ofJson json).toJson = json := by
  induction h with
  | null => rfl
  | bool value => rfl
  | integer hlow hhigh =>
      rw [toJson_ofJson_integer (.integer hlow hhigh), if_pos (hfits [] _ rfl)]
  | float hfinite => rw [ofJson, toJson, Json.ofDouble, if_pos hfinite]
  | string text => rfl
  | @array items _ ih =>
      have hitems : items.map (fun item => (ofJson item).toJson) = items.map id :=
        List.map_congr_left fun item hitem => ih item hitem (hfits.item hitem)
      rw [toJson_ofJson_array, hitems, List.map_id]
  | object => exact toJson_ofJson_object _

/-- A JSON value comes back as it is exactly when no whole number above the signed 64 bits stands in
it outside of all objects.  Such a number comes back as a double, and every object as it is. -/
theorem toJson_ofJson_eq_self_iff {json : Json} (h : json.HasJsonNumbers) :
    ((ofJson json).toJson = json ↔
        ∀ places n, json.item? places = some (.integer n) → n ≤ Int64.maxValue.toInt) ∧
      (∀ places n, json.item? places = some (.integer n) → Int64.maxValue.toInt < n →
        (ofJson json).toJson.item? places = some (.float (.ofInt n))) ∧
      ∀ places members, json.item? places = some (.object members) →
        (ofJson json).toJson.item? places = some (.object members) := by
  have hinteger {places : List Nat} {n : Int} (hn : json.item? places = some (.integer n)) :
      HasJsonNumbers (.integer n) := Json.isHereditary_hasJsonNumbers.item? h hn
  have hlarge {places : List Nat} {n : Int} (hn : json.item? places = some (.integer n))
      (hmax : Int64.maxValue.toInt < n) :
      (ofJson json).toJson.item? places = some (.float (.ofInt n)) := by
    rw [item?_toJson_ofJson hn, toJson_ofJson_integer (hinteger hn), if_neg (Int.not_le.mpr hmax)]
  refine ⟨⟨fun hself places n hn => ?_, toJson_ofJson h⟩, fun _ _ => hlarge, ?_⟩
  · by_contra hmax
    have hdouble := hlarge hn (Int.not_le.mp hmax)
    rw [hself, hn] at hdouble
    cases hdouble
  · intro places members hmembers
    rw [item?_toJson_ofJson hmembers, toJson_ofJson_object]

theorem toJson_ofJson_eq_self_iff_least :
    let least : Int := 9223372036854775808
    let kept : Json := .object [("id", .integer least)]
    let json : Json := .array [kept, .array [.integer (least - 1), .integer least]]
    json.HasJsonNumbers ∧ (ofJson json).toJson ≠ json ∧
      (ofJson json).toJson.item? [1, 1] = some (.float (.ofInt least)) ∧
      (ofJson json).toJson.item? [0] = some kept ∧ (ofJson kept).toJson = kept := by
  intro least kept json
  have hinteger {n : Int} (hlow : Int64.minValue.toInt ≤ n) (hhigh : n < UInt64.size) :
      HasJsonNumbers (.integer n) := .integer hlow hhigh
  have hkept : kept.HasJsonNumbers :=
    .object (List.forall_mem_singleton.mpr (hinteger (by decide) (by decide)))
  have hnumbers : json.HasJsonNumbers := by
    refine .array (List.forall_mem_cons.mpr ⟨hkept, List.forall_mem_singleton.mpr (.array ?_)⟩)
    exact List.forall_mem_cons.mpr ⟨hinteger (by decide) (by decide),
      List.forall_mem_singleton.mpr (hinteger (by decide) (by decide))⟩
  obtain ⟨hiff, hdouble, hobject⟩ := toJson_ofJson_eq_self_iff hnumbers
  refine ⟨hnumbers, fun hself => ?_, hdouble [1, 1] least rfl (by decide), hobject [0] _ rfl, ?_⟩
  · exact absurd (hiff.mp hself [1, 1] least rfl) (by decide)
  · refine (toJson_ofJson_eq_self_iff hkept).1.mpr fun places n hn => ?_
    cases places <;> simp [kept, Json.item?] at hn

end FilterSql.Value
