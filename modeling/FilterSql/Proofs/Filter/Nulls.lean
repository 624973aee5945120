import FilterSql.Proofs.Filter.Readings

/-!
# Null in filters that were read

Reading never makes null a value to compare with: a null is tested for by
`is null`, without a placeholder.  Among the values of a filter null stands only
where any value is taken as it is given: in a list of members, as a needle, as a
bound, or at a place of a JSON column.
-/

namespace FilterSql

/-! ## Invariants of parts -/

namespace Part

/-- Nothing in the part is compared with null as a value, or left empty where it could be absent. -/
def IsProper : Part → Prop
  | .clause (.compare left right) => left ≠ .literal .null ∧ right ≠ .literal .null
  | .clause (.notValue value) => value ≠ .null
  | .condition (.equals operand) => operand ≠ .null ∧ operand ≠ .literal .null
  | .condition (.inSelect select _) =>
    select.tenant ≠ some "" ∧ select.through ≠ some "" ∧ select.valueField ≠ some ""
  | .condition (.inChain chain _) =>
    chain.levels ≠ [] ∧ (∀ level ∈ chain.levels, level.key.column ≠ "") ∧ chain.schema ≠ some ""
  | _ => True

/-- Parts that take a value as it is given, be it null. -/
def TakesNull : Part → Prop
  | .condition (.oneOf _) | .condition (.contains _) | .condition (.range _ _ _)
  | .condition (.json _) => True
  | _ => False

end Part

variable {admits : Json → Prop}

theorem Value.ofJson_ne_null {json : Json} (h : json ≠ .null) : Value.ofJson json ≠ .null := by
  cases json with
  | null => exact absurd rfl h
  | integer n =>
      simp only [ofJson, ofInt]
      split <;> exact nofun
  | bool | float | string | array | object => exact nofun

theorem Operand.IsRead.ne_literal_null {operand : Operand} (h : operand.IsRead admits) :
    operand ≠ .literal .null := by
  cases h with
  | null | column => exact nofun
  | literal _ hjson => exact fun heq => Value.ofJson_ne_null hjson (Operand.literal.inj heq)

theorem Part.IsRead.isProper {part : Part} (h : part.IsRead admits) : part.IsProper := by
  cases h with
  | notValue _ hjson => exact Value.ofJson_ne_null hjson
  | compare hleft hright => exact ⟨hleft.ne_literal_null, hright.ne_literal_null⟩
  | equals hread hnull => exact ⟨hnull, hread.ne_literal_null⟩
  | inSelect filter hselect => exact hselect
  | inChain filter hchain => exact ⟨List.cons_ne_nil _ _, hchain.2, hchain.1⟩
  | search | or | not | notColumn | field | oneOf | slug | anyOf | allOf | contains | range | json
  | isNull => exact trivial

/-! ## Null among the values -/

theorem Payload.bound_eq_null {dialect : Dialect} {payload : Payload}
    (h : payload.bound dialect = .null) : payload = .value .null := by
  cases payload with
  | value content =>
      cases dialect <;>
      · cases h
        rfl
  | term text => cases dialect <;> cases h

theorem Operand.IsRead.null_not_mem {operand : Operand} (h : operand.IsRead admits) :
    Payload.value .null ∉ operand.payloads := by
  cases h with
  | null | column => exact nofun
  | literal _ hjson =>
      intro hmem
      exact Value.ofJson_ne_null hjson (Payload.value.inj (List.mem_singleton.mp hmem)).symm

theorem Part.IsRead.takesNull {part : Part} (h : part.IsRead admits) {dialect : Dialect}
    (hnull : .null ∈ part.bound dialect) : part.TakesNull := by
  obtain ⟨payload, hmem, hbound⟩ := List.mem_map.mp hnull
  rw [Payload.bound_eq_null hbound] at hmem
  cases h with
  | oneOf | contains | range | json => exact trivial
  | notValue _ hjson =>
      exact Value.ofJson_ne_null hjson (Payload.value.inj (List.mem_singleton.mp hmem)).symm
  | compare hleft hright =>
      rcases List.mem_append.mp hmem with hmem | hmem
      · exact hleft.null_not_mem hmem
      · exact hright.null_not_mem hmem
  | equals hread => exact hread.null_not_mem hmem
  | slug text => cases List.mem_singleton.mp hmem
  | search search => cases List.mem_singleton.mp hmem
  | or | not | notColumn | field | anyOf | allOf | inSelect | inChain | isNull =>
      exact nomatch hmem

/-! ## Tests for null -/

/-- The places where a null is tested for, and how the tests are written. -/
structure TestsNull (strictness : Strictness) (options : CompileOptions) : Prop where
  field {members : List (String × Json)} {read : Filter} {place : Nat} {key : String} :
    FilterJson.clauses strictness members = .ok read → members[place]? = some (key, .null) →
      read[place]? = some (.field key .isNull)
  /-- In the list under a field, or in a list inside another. -/
  element {key : String} {items : List Json} {asked : Condition} {place : Nat} :
    FilterJson.clause strictness key (.array items) = .ok (.field key asked) ∨
        FilterJson.condition strictness key (.array items) = .ok asked →
      items[place]? = some .null →
        ∃ list, asked = .allOf list ∧ list[place]? = some .isNull
  /-- In the list of alternatives. -/
  alternative {key : String} {members : List (String × Json)} {items : List Json}
      {list : List Condition} {place : Nat} :
    FilterJson.clause strictness key (.object members) = .ok (.field key (.anyOf list)) ∨
        FilterJson.condition strictness key (.object members) = .ok (.anyOf list) →
      Json.lookup? "or" members = some (.array items) → items[place]? = some .null →
        list[place]? = some .isNull
  /-- On a side of a comparison. -/
  side {left right : Json} {read : Clause} :
    FilterJson.clause strictness "eq" (.array [left, right]) = .ok read →
      ∃ first second, read = .compare first second ∧ (left = .null → first = .null) ∧
        (right = .null → second = .null)
  /-- The test of a field binds nothing. -/
  isNull (key : String) (bindings : Bindings) :
    (Compile.conditionOn options key .isNull).render bindings =
      (columnRef key ++ " is null", bindings)
  /-- A comparison with null binds nothing but the other side. -/
  comparison (scope : Option String) (other : Operand) (bindings : Bindings) :
    let side := (Compile.operand options.dialect other).render bindings
    (Compile.clause options scope (.compare .null other)).render bindings =
        (side.1 ++ " is null", side.2) ∧
      (Compile.clause options scope (.compare other .null)).render bindings =
        (side.1 ++ " is null", side.2)

namespace FilterJson

open Json

variable {strictness : Strictness} {key : String}

theorem clauses_eq_mapM (members : List (String × Json)) :
    clauses strictness members =
      members.mapM fun member => clause strictness member.1 member.2 := by
  induction members with
  | nil => rfl
  | cons first rest ih =>
      rw [List.mapM_cons, clauses, ih]
      rfl

theorem conditions_eq_mapM (items : List Json) :
    conditions strictness key items = items.mapM (condition strictness key) := by
  induction items with
  | nil => rfl
  | cons first rest ih =>
      rw [List.mapM_cons, conditions, ih]
      rfl

/-- A full-text search is no null, so that a null is always that of a field. -/
theorem clause_null {read : Clause} (h : clause strictness key .null = .ok read) :
    read = .field key .isNull := by
  unfold clause at h
  split at h
  · cases h
  · cases h
    rfl

theorem condition_of_clause {json : Json} {asked : Condition}
    (h : clause strictness key json = .ok (.field key asked)) :
    condition strictness key json = .ok asked := by
  cases json with
  | array items =>
      unfold clause at h
      split at h
      · obtain ⟨_, -, ⟨⟩⟩ := Gives.exists_of_map h
      split at h
      · obtain ⟨_, -, ⟨⟩⟩ := Gives.exists_of_map h
      split at h
      · obtain ⟨_, -, h⟩ := Gives.exists_of_bind h
        obtain ⟨_, -, ⟨⟩⟩ := Gives.exists_of_bind h
      · obtain ⟨list, hlist, ⟨⟩⟩ := Gives.exists_of_map h
        rw [condition, hlist]
        rfl
  | object members =>
      unfold clause at h
      split at h
      · obtain ⟨_, -, ⟨⟩⟩ := Gives.exists_of_map h
      split at h
      · split at h
        · cases h
        · obtain ⟨_, -, ⟨⟩⟩ := Gives.exists_of_map h
      · obtain ⟨condition, hcondition, ⟨⟩⟩ := Gives.exists_of_map h
        exact hcondition
  | null =>
      cases clause_null h
      rfl
  | bool | integer | float | string =>
      unfold clause at h
      split at h
      · obtain ⟨_, -, ⟨⟩⟩ := Gives.exists_of_map h
      split at h
      · cases h
      · cases h
        rfl

theorem alternatives?_eq (members : List (String × Json)) :
    alternatives? strictness key members =
      match lookup? "or" members with
      | some (.array items) => some (conditions strictness key items)
      | _ => none := by
  induction members with
  | nil => rfl
  | cons first rest ih =>
      obtain ⟨name, value⟩ := first
      rw [lookup?_cons]
      by_cases hname : name = "or"
      · rw [if_pos hname, alternatives?.eq_def]
        cases value <;> simp [hname]
      · rw [if_neg hname, ← ih]
        conv_lhs => rw [alternatives?.eq_def]
        simp [hname]

theorem conditions_of_anyOf {members : List (String × Json)} {items : List Json}
    {list : List Condition} (h : condition strictness key (.object members) = .ok (.anyOf list))
    (hor : lookup? "or" members = some (.array items)) :
    conditions strictness key items = .ok list := by
  unfold condition tagged at h
  rw [alternatives?_eq, hor] at h
  split at h
  · cases h
  split at h
  · cases h
  split at h
  · obtain ⟨_, -, ⟨⟩⟩ := Gives.exists_of_map h
  · obtain ⟨_, hlist, ⟨⟩⟩ := Gives.exists_of_map h
    exact hlist

theorem isNull_of_conditions {items : List Json} {list : List Condition} {place : Nat}
    (h : conditions strictness key items = .ok list) (hplace : items[place]? = some .null) :
    list[place]? = some .isNull := by
  rw [conditions_eq_mapM] at h
  obtain ⟨asked, hasked, hcondition⟩ := Gives.getElem?_mapM h hplace
  cases hcondition
  exact hasked

theorem testsNull (strictness : Strictness) (options : CompileOptions) :
    TestsNull strictness options where
  field h hplace := by
    rw [clauses_eq_mapM] at h
    obtain ⟨read, hread, hclause⟩ := Gives.getElem?_mapM h hplace
    rw [hread, clause_null hclause]
  element h hplace := by
    obtain ⟨list, hlist, ⟨⟩⟩ := Gives.exists_of_map (h.elim condition_of_clause id)
    exact ⟨list, rfl, isNull_of_conditions hlist hplace⟩
  alternative h hor hplace :=
    isNull_of_conditions (conditions_of_anyOf (h.elim condition_of_clause id) hor) hplace
  side h := by
    obtain ⟨first, hfirst, h⟩ := Gives.exists_of_bind h
    obtain ⟨second, hsecond, ⟨⟩⟩ := Gives.exists_of_bind h
    refine ⟨first, second, rfl, ?_, ?_⟩
    · rintro rfl
      cases hfirst
      rfl
    · rintro rfl
      cases hsecond
      rfl
  isNull key bindings := by
    simp [Compile.conditionOn, Compile.isNull, Fragment.text, Fragment.render]
  comparison scope other bindings := by
    cases other with
    | null => exact ⟨rfl, rfl⟩
    | literal | column =>
        simp [Compile.clause, Compile.comparison, Fragment.render_append, Fragment.text,
          Fragment.render]

end FilterJson

/-- A filter that was read compares nothing with null and leaves nothing empty that could be absent,
at any depth.  The nulls at its fields, in the lists of their conditions and on the sides of its
comparisons are tested for without a placeholder, and a null among its values was given as the list
of an `in`, a needle, a bound, or in a condition on a JSON column. -/
theorem ofJson_tests_null {strictness : Strictness} {value : Json} {filter : Filter}
    (h : Filter.ofJson strictness value = .ok filter) (options : CompileOptions) :
    (∀ part ∈ Filter.parts filter, part.IsProper) ∧
      (filter.compile options).values =
        (Filter.parts filter).flatMap (Part.bound options.dialect) ∧
      (∀ part ∈ Filter.parts filter, .null ∈ part.bound options.dialect → part.TakesNull) ∧
      TestsNull strictness options := by
  have hread : ∀ part ∈ Filter.parts filter, part.IsRead fun _ => True :=
    isRead_of_ofJson ⟨fun _ _ _ => trivial, fun _ _ _ => trivial⟩ trivial h
  refine ⟨?_, ?_, ?_, ?_⟩
  · intro part hpart
    exact (hread part hpart).isProper
  · exact Filter.values_compile_eq_flatMap options filter
  · intro part hpart hnull
    exact (hread part hpart).takesNull hnull
  · exact FilterJson.testsNull strictness options

theorem ofJson_tests_null_mixed :
    let value := Json.object
      [("a", .null), ("b", .object [("or", .array [.null, .integer 1])]),
        ("eq", .array [.object [("$raw", .string "c")], .null]),
        ("d", .object [("in", .null)]),
        ("e", .object [("inSelect", .object
          [("table", .string "t"), ("field", .string "f"), ("tenant", .string ""),
            ("where", .object [("g", .null)])])])]
    ∃ filter, Filter.ofJson .strict value = .ok filter ∧
      (∀ part ∈ Filter.parts filter, part.IsProper) ∧
      (filter.compile .default).values = [.integer 1, .null] := by
  intro value
  have hread : Filter.ofJson .strict value = .ok
      [.field "a" .isNull, .field "b" (.anyOf [.isNull, .equals (.literal (.integer 1))]),
        .compare (.column "c") .null, .field "d" (.oneOf .null),
        .field "e" (.inSelect ⟨"t", "f", none, none, none⟩ [.field "g" .isNull])] := rfl
  obtain ⟨hproper, hvalues, -, -⟩ := ofJson_tests_null hread .default
  exact ⟨_, hread, hproper, hvalues⟩

end FilterSql
