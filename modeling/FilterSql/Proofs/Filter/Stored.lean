import FilterSql.Filter.Wire
import FilterSql.Proofs.Filter.Parts
import FilterSql.Proofs.Json.Records

/-!
# Stored filters are read back

The stored form of a filter tells every shape apart, so that reading it gives the
same filter again.  Of the values only two kinds lose anything: doubles that are
not finite, which JSON does not have, and dates whose text does not stand for them.
-/

namespace FilterSql

/-! ## Storable values -/

/-- Its doubles are finite, and its dates are those that their texts are read as. -/
inductive Value.IsStorable : Value → Prop where
  | null : IsStorable .null
  | string (text : String) : IsStorable (.string text)
  | integer (n : Int64) : IsStorable (.integer n)
  | float {x : Double} : x.isFinite → IsStorable (.float x)
  | boolean (b : Bool) : IsStorable (.boolean b)
  | date {instant : Instant} : Instant.ofText? instant.text = some instant →
      IsStorable (.date instant)
  | array {items : List Value} : (∀ item ∈ items, IsStorable item) → IsStorable (.array items)
  | json (document : Json) : IsStorable (.json document)

def AreStorable (payloads : List Payload) : Prop :=
  ∀ value, .value value ∈ payloads → value.IsStorable

namespace AreStorable

@[simp] theorem value_cons {value : Value} {payloads : List Payload} :
    AreStorable (.value value :: payloads) ↔ value.IsStorable ∧ AreStorable payloads := by
  simp [AreStorable]

@[simp] theorem nil : AreStorable [] := nofun

@[simp] theorem append {first second : List Payload} :
    AreStorable (first ++ second) ↔ AreStorable first ∧ AreStorable second := by
  simp only [AreStorable, List.mem_append, or_imp, forall_and]

end AreStorable

namespace Wire

open Json

/-! ## Values -/

theorem decodeInteger?_toInt (n : Int64) : decodeInteger? (.integer n.toInt) = some n := by
  have hrange := And.intro n.minValue_le_toInt n.toInt_le
  rw [decodeInteger?, if_pos hrange, Int64.ofInt_toInt]

mutual

theorem decodeValue?_encodeValue {value : Value} (h : value.IsStorable) :
    decodeValue? (encodeValue value) = some value := by
  cases h with
  | null => rfl
  | string text => rfl
  | integer n => simp [encodeValue, variant, decodeValue?, decodeInteger?_toInt]
  | float hfinite => simp [encodeValue, variant, decodeValue?, ofDouble, hfinite, decodeFloat?]
  | boolean b => rfl
  | date hdate => simp [encodeValue, variant, decodeValue?, decodeText?, hdate]
  | array hitems => simp [encodeValue, variant, decodeValue?, decodeValues?_encodeValues hitems]
  | json document => rfl

theorem decodeValues?_encodeValues {items : List Value} (h : ∀ item ∈ items, item.IsStorable) :
    decodeValues? (encodeValues items) = some items := by
  cases items with
  | nil => rfl
  | cons first rest =>
      rw [List.forall_mem_cons] at h
      simp [encodeValues, decodeValues?, decodeValue?_encodeValue h.1,
        decodeValues?_encodeValues h.2]

end

/-! ## Operands -/

theorem isUnit_variant {name tag : String} (h : tag ≠ name) (content : Json) :
    isUnit name (variant tag content) = false := by
  cases content with
  | null => exact beq_false_of_ne h
  | bool | integer | float | string | array | object => rfl

theorem decodeOperand?_encodeOperand {operand : Operand} (h : AreStorable operand.payloads) :
    decodeOperand? (encodeOperand operand) = some operand := by
  cases operand with
  | null => rfl
  | column name => rfl
  | literal value =>
      rw [Operand.payloads, AreStorable.value_cons] at h
      have hunit : isUnit "Null" (variant "Literal" (encodeValue value)) = false :=
        isUnit_variant (by decide) (encodeValue value)
      rw [variant] at hunit
      simp [encodeOperand, variant, decodeOperand?, hunit, decodeValue?_encodeValue h.1]

/-! ## Conditions on JSON columns -/

theorem mapM_map_eq_some {α : Type} {encode : α → Json} {decode : Json → Option α} {xs : List α}
    (h : ∀ x ∈ xs, decode (encode x) = some x) : (xs.map encode).mapM decode = some xs := by
  induction xs with
  | nil => rfl
  | cons first rest ih =>
      rw [List.forall_mem_cons] at h
      simp [List.mapM_cons, h.1, ih h.2]

theorem decodeStep?_encodeStep (step : PathStep) : decodeStep? (encodeStep step) = some step := by
  cases step with
  | key name => rfl
  | index n => simp [encodeStep, variant, decodeStep?]

theorem decodePath?_encodePath (path : JsonPath) : decodePath? (encodePath path) = some path := by
  cases path with
  | one step => simp [encodePath, variant, decodePath?, decodeStep?_encodeStep]
  | steps list =>
      have hlist : (list.map encodeStep).mapM decodeStep? = some list :=
        mapM_map_eq_some fun step _ => decodeStep?_encodeStep step
      simp [encodePath, variant, decodePath?, hlist]

theorem encodeValue_ne_null (value : Value) : encodeValue value ≠ .null := by
  cases value <;> exact nofun

theorem decodeBound?_of_ne_null {json : Json} (h : json ≠ .null) :
    decodeBound? (some json) = (decodeValue? json).map some := by
  cases json with
  | null => exact absurd rfl h
  | bool | integer | float | string | array | object => rfl

/-- No value is written as null, so that an absent bound is told from a bound that is null. -/
theorem decodeBound?_encodeBound {bound : Option Value} (h : ∀ value ∈ bound, value.IsStorable) :
    decodeBound? (some (encodeBound bound)) = some bound := by
  cases bound with
  | none => rfl
  | some value =>
      have hvalue : decodeValue? (encodeValue value) = some value :=
        decodeValue?_encodeValue (h value rfl)
      change decodeBound? (some (encodeValue value)) = _
      rw [decodeBound?_of_ne_null (encodeValue_ne_null value), hvalue]
      rfl

theorem decodePredicate?_encodePredicate {predicate : JsonPredicate}
    (h : AreStorable predicate.payloads) :
    decodePredicate? (encodePredicate predicate) = some predicate := by
  cases predicate with
  | contains needle =>
      rw [JsonPredicate.payloads, AreStorable.value_cons] at h
      simp [encodePredicate, variant, decodePredicate?, decodeValue?_encodeValue h.1]
  | between atLeast atMost =>
      have hleast : ∀ value ∈ atLeast, value.IsStorable := fun value hvalue =>
        h value (List.mem_map_of_mem (List.mem_append_left _ (Option.mem_toList.mpr hvalue)))
      have hmost : ∀ value ∈ atMost, value.IsStorable := fun value hvalue =>
        h value (List.mem_map_of_mem (List.mem_append_right _ (Option.mem_toList.mpr hvalue)))
      simp [encodePredicate, variant, decodePredicate?, decodeBound?_encodeBound hleast,
        decodeBound?_encodeBound hmost]
  | equals value =>
      rw [JsonPredicate.payloads, AreStorable.value_cons] at h
      simp [encodePredicate, variant, decodePredicate?, decodeValue?_encodeValue h.1]

theorem decodeJsonCondition?_encodeJsonCondition {condition : JsonCondition}
    (h : AreStorable condition.payloads) :
    decodeJsonCondition? (encodeJsonCondition condition) = some condition := by
  cases condition with
  | «at» path value =>
      rw [JsonCondition.payloads, AreStorable.value_cons] at h
      simp [encodeJsonCondition, variant, decodeJsonCondition?, decodePath?_encodePath,
        decodeValue?_encodeValue h.1]
  | each entries =>
      change ((entries.map _).mapM decodePair?).map JsonCondition.each = some (.each entries)
      rw [mapM_map_eq_some]
      · rfl
      · intro entry hentry
        have hpredicate : AreStorable entry.2.payloads := fun value hvalue =>
          h value (List.mem_flatMap.mpr ⟨entry, hentry, hvalue⟩)
        simp [decodePair?, decodePredicate?_encodePredicate hpredicate]

/-! ## Ranges -/

theorem decodeRangeBound?_encodeRangeBound (bound : RangeBound) :
    decodeRangeBound? (encodeRangeBound bound) = some bound := by
  cases bound <;> rfl

/-! ## Sub-selects -/

theorem nullable_encodeText (text : Option String) :
    Decoder.string.nullable (encodeText text) = .ok text := by
  cases text <;> rfl

theorem any_eq_ok (json : Json) : Decoder.any json = .ok json := rfl

theorem list_any_eq_ok (items : List Json) : Decoder.any.list (.array items) = .ok items := by
  have hitems : items.mapM (fun item => (pure item : Except DecodeError Json)) =
      pure (items.map id) := List.mapM_pure
  rwa [List.map_id] at hitems

theorem decodeSelect?_encodeSelect (select : SubSelect) (filter : Json) :
    decodeSelect? (encodeSelect select filter) = some select := by
  simp [decodeSelect?, encodeSelect, Shape.decode, Shape.required, Shape.optional, Shape.field,
    Shape.locate?, nullable_encodeText, Decoder.string, any_eq_ok, Except.toOption]

theorem decodeKey?_encodeKey (key : JoinKey) : decodeKey? (encodeKey key) = some key := by
  cases key <;> rfl

theorem decodeLevel?_encodeLevel (level : JoinLevel) :
    decodeLevel? (encodeLevel level) = some level := by
  simp [decodeLevel?, encodeLevel, Shape.decode, Shape.required, Shape.field, Shape.locate?,
    Decoder.string, any_eq_ok, decodeKey?_encodeKey, Except.toOption]

theorem decodeChain?_encodeChain (chain : JoinChain) (filter : Json) :
    decodeChain? (encodeChain chain filter) = some chain := by
  have hlevels : (chain.levels.map encodeLevel).mapM decodeLevel? = some chain.levels :=
    mapM_map_eq_some fun level _ => decodeLevel?_encodeLevel level
  simp [decodeChain?, encodeChain, Shape.decode, Shape.required, Shape.optional, Shape.field,
    Shape.locate?, nullable_encodeText, any_eq_ok, list_any_eq_ok, hlevels, Except.toOption]

/-! ## Full-text searches -/

theorem decode_encode_searchField (field : SearchField) :
    SearchField.decode field.encode = .ok field := by
  obtain ⟨name, sqlType, isForeignKey, refTable, includeSearch, summaryField⟩ := field
  -- A member is there for a text that is, and left out for one that is not.
  cases sqlType <;> cases refTable <;> cases summaryField <;> rfl

theorem decode_encode_search (search : TextSearch) :
    TextSearch.decode search.encode = .ok search := by
  obtain ⟨fields, table, term, schema⟩ := search
  have hfields : SearchField.decode.list (.array (fields.map SearchField.encode)) = .ok fields := by
    refine Gives.mapM_eq_ok_iff.mpr (List.forall₂_map_left_iff.mpr (List.forall₂_same.mpr ?_))
    exact fun field _ => decode_encode_searchField field
  cases table <;> cases schema <;>
    simp [TextSearch.decode, TextSearch.encode, SearchField.member?, Shape.decode,
      Shape.required, Shape.field, Shape.locate?, Shape.absent, hfields, Decoder.string,
      Decoder.nullable, Except.map]

/-! ## Filters -/

theorem decodeFilter?_encodeClauses (clauses : List Json) :
    decodeFilter? (encodeClauses clauses) = decodeClauses? clauses := by
  simp [encodeClauses, decodeFilter?, memberClauses?]

theorem decodeRange?_encode {bound : RangeBound} {value : Value} {inclusive : Bool}
    (h : value.IsStorable) :
    decodeRange? [("bound", encodeRangeBound bound), ("value", encodeValue value),
      ("inclusive", .bool inclusive)] = some (.range bound value inclusive) := by
  simp [decodeRange?, decodeRangeBound?_encodeRangeBound, decodeValue?_encodeValue h, decodeBool?]

mutual

theorem decodeClause?_encodeClause {clause : Clause} (h : AreStorable clause.payloads) :
    decodeClause? (encodeClause clause) = some clause := by
  cases clause with
  | search search =>
      simp [encodeClause, variant, decodeClause?, decode_encode_search, Except.toOption]
  | or alternatives =>
      simp [encodeClause, variant, decodeClause?, decodeFilters?_encodeFilters h]
  | not negated =>
      simp [encodeClause, variant, decodeClause?, decodeFilter?_encodeClauses,
        decodeClauses?_encodeFilter h]
  | notColumn name => rfl
  | notValue value =>
      rw [Clause.payloads, AreStorable.value_cons] at h
      simp [encodeClause, variant, decodeClause?, decodeValue?_encodeValue h.1]
  | compare left right =>
      rw [Clause.payloads, AreStorable.append] at h
      simp [encodeClause, variant, decodeClause?, decodeOperand?_encodeOperand h.1,
        decodeOperand?_encodeOperand h.2]
  | field key condition =>
      simp [encodeClause, variant, decodeClause?, decodeText?, memberCondition?,
        decodeCondition?_encodeCondition h]

theorem decodeClauses?_encodeFilter {clauses : List Clause}
    (h : AreStorable (Filter.payloads clauses)) :
    decodeClauses? (encodeFilter clauses) = some clauses := by
  cases clauses with
  | nil => rfl
  | cons first rest =>
      rw [Filter.payloads, AreStorable.append] at h
      simp [encodeFilter, decodeClauses?, decodeClause?_encodeClause h.1,
        decodeClauses?_encodeFilter h.2]

theorem decodeFilters?_encodeFilters {filters : List (List Clause)}
    (h : AreStorable (Filter.payloadsOfAll filters)) :
    decodeFilters? (encodeFilters filters) = some filters := by
  cases filters with
  | nil => rfl
  | cons first rest =>
      rw [Filter.payloadsOfAll, AreStorable.append] at h
      simp [encodeFilters, decodeFilters?, decodeFilter?_encodeClauses,
        decodeClauses?_encodeFilter h.1, decodeFilters?_encodeFilters h.2]

theorem decodeCondition?_encodeCondition {condition : Condition}
    (h : AreStorable condition.payloads) :
    decodeCondition? (encodeCondition condition) = some condition := by
  cases condition with
  | oneOf members =>
      rw [Condition.payloads, AreStorable.value_cons] at h
      simp [encodeCondition, variant, decodeCondition?, decodeValue?_encodeValue h.1]
  | slug text => rfl
  | anyOf alternatives =>
      simp [encodeCondition, variant, decodeCondition?, decodeConditions?_encodeConditions h]
  | allOf conditions =>
      simp [encodeCondition, variant, decodeCondition?, decodeConditions?_encodeConditions h]
  | contains needle =>
      rw [Condition.payloads, AreStorable.value_cons] at h
      simp [encodeCondition, variant, decodeCondition?, decodeValue?_encodeValue h.1]
  | range bound value inclusive =>
      rw [Condition.payloads, AreStorable.value_cons] at h
      simp [encodeCondition, variant, decodeCondition?, decodeRange?_encode h.1]
  | inSelect select filter =>
      have hselect := decodeSelect?_encodeSelect select (encodeClauses (encodeFilter filter))
      rw [encodeSelect] at hselect
      simp [encodeCondition, variant, decodeCondition?, encodeSelect, hselect, memberFilter?,
        decodeFilter?_encodeClauses, decodeClauses?_encodeFilter h]
  | inChain chain filter =>
      have hchain := decodeChain?_encodeChain chain (encodeClauses (encodeFilter filter))
      rw [encodeChain] at hchain
      simp [encodeCondition, variant, decodeCondition?, encodeChain, hchain, memberFilter?,
        decodeFilter?_encodeClauses, decodeClauses?_encodeFilter h]
  | json condition =>
      simp [encodeCondition, variant, decodeCondition?, decodeJsonCondition?_encodeJsonCondition h]
  | isNull => rfl
  | equals operand =>
      simp [encodeCondition, variant, decodeCondition?, decodeOperand?_encodeOperand h]

theorem decodeConditions?_encodeConditions {conditions : List Condition}
    (h : AreStorable (Condition.payloadsOfAll conditions)) :
    decodeConditions? (encodeConditions conditions) = some conditions := by
  cases conditions with
  | nil => rfl
  | cons first rest =>
      rw [Condition.payloadsOfAll, AreStorable.append] at h
      simp [encodeConditions, decodeConditions?, decodeCondition?_encodeCondition h.1,
        decodeConditions?_encodeConditions h.2]

end

end Wire

end FilterSql
