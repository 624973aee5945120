import FilterSql.Proofs.Json.Records
import FilterSql.Sqlite

/-!
# Doubles that are not finite

SQLite has no place for a double that is not finite: the first one among the bound values is
reported.  Inside a list such a double is not looked for, and the list is bound as if null stood
in its place.
-/

namespace FilterSql

/-! ## Where they stand -/

namespace Value

def nonFinite? : Value → Option Double
  | .float x => if x.isFinite then none else some x
  | _ => none

mutual

/-- The doubles that are not finite, those in lists of any depth included, in their order. -/
def nonFinite : Value → List Double
  | .float x => if x.isFinite then [] else [x]
  | .array items => nonFiniteOfAll items
  | _ => []

def nonFiniteOfAll : List Value → List Double
  | [] => []
  | item :: rest => item.nonFinite ++ nonFiniteOfAll rest

end

mutual

/-- The value with null for each double that is not finite, in lists of any depth too. -/
def cleared : Value → Value
  | .float x => if x.isFinite then .float x else .null
  | .array items => .array (clearedItems items)
  | value => value

def clearedItems : List Value → List Value
  | [] => []
  | item :: rest => item.cleared :: clearedItems rest

end

mutual

theorem toJson_cleared : (value : Value) → value.cleared.toJson = value.toJson
  | .float x => by
    unfold cleared
    split
    · rfl
    · next hinfinite => rw [toJson, toJson, Json.ofDouble, if_neg hinfinite]
  | .array items => by
    unfold cleared
    rw [toJson, toJson, itemsToJson_clearedItems items]
  | .null | .string _ | .integer _ | .boolean _ | .date _ | .json _ => by unfold cleared; rfl

theorem itemsToJson_clearedItems :
    (items : List Value) → itemsToJson (clearedItems items) = itemsToJson items
  | [] => rfl
  | item :: rest => by
    rw [clearedItems, itemsToJson, itemsToJson, toJson_cleared item, itemsToJson_clearedItems rest]

end

end Value

/-! ## Binding -/

namespace Sqlite

theorem ofValue_eq_error_iff {value : Value} {error : BindError} :
    Parameter.ofValue value = .error error ↔
      ∃ x, value.nonFinite? = some x ∧ error = .nonFinite x := by
  unfold Parameter.ofValue Value.nonFinite?
  cases value with
  | float x =>
      by_cases h : x.isFinite
      · simp [h]
      · simp [h, eq_comm]
  | null | string | integer | boolean | date | array | json => simp

theorem exists_ofValue_iff {value : Value} :
    (∃ parameter, Parameter.ofValue value = .ok parameter) ↔ value.nonFinite? = none := by
  unfold Parameter.ofValue Value.nonFinite?
  cases value with
  | float x => by_cases h : x.isFinite <;> simp [h]
  | null | string | integer | boolean | date | array | json => simp

theorem mapM_ofValue_eq_error_iff {values : List Value} {error : BindError} :
    values.mapM Parameter.ofValue = .error error ↔
      ∃ x, values.findSome? Value.nonFinite? = some x ∧ error = .nonFinite x := by
  simp only [Gives.mapM_eq_error_iff, List.findSome?_eq_some_iff, ofValue_eq_error_iff,
    exists_ofValue_iff]
  constructor
  · rintro ⟨before, value, after, hvalues, hbefore, x, hx, herror⟩
    exact ⟨x, ⟨before, value, after, hvalues, hx, hbefore⟩, herror⟩
  · rintro ⟨x, ⟨before, value, after, hvalues, hx, hbefore⟩, herror⟩
    exact ⟨before, value, after, hvalues, hbefore, x, hx, herror⟩

theorem ofClause_eq_error_iff {compiled : WhereClause} {error : BindError} :
    Query.ofClause compiled = .error error ↔
      compiled.values.mapM Parameter.ofValue = .error error := by
  change (compiled.values.mapM Parameter.ofValue >>= fun parameters =>
    .ok (⟨compiled.sql, parameters⟩ : Query)) = _ ↔ _
  cases compiled.values.mapM Parameter.ofValue with
  | error other => constructor <;> (rintro ⟨⟩; rfl)
  | ok parameters => exact ⟨nofun, nofun⟩

theorem ofClause_eq_ok_iff {compiled : WhereClause} {query : Query} :
    Query.ofClause compiled = .ok query ↔ query.sql = compiled.sql ∧
      List.Forall₂ (fun value parameter => Parameter.ofValue value = .ok parameter)
        compiled.values query.parameters := by
  rw [← Gives.mapM_eq_ok_iff]
  constructor
  · intro h
    obtain ⟨parameters, hparameters, heq⟩ := Gives.exists_of_bind h
    cases heq
    exact ⟨rfl, hparameters⟩
  · obtain ⟨sql, parameters⟩ := query
    rintro ⟨hsql, hparameters⟩
    cases (hsql : sql = compiled.sql)
    change (compiled.values.mapM Parameter.ofValue >>= _) = _
    rw [hparameters]
    rfl

section Compile

variable {options : CompileOptions} {filter : Option Filter}

theorem compile_eq_error_iff {error : BindError} :
    Query.compile options filter = .error error ↔
      ∃ x, (FilterSql.compile (options.withDialect .sqlite) filter).values.findSome?
        Value.nonFinite? = some x ∧ error = .nonFinite x :=
  ofClause_eq_error_iff.trans mapM_ofValue_eq_error_iff

theorem compile_eq_ok_iff {query : Query} :
    Query.compile options filter = .ok query ↔
      query.sql = (FilterSql.compile (options.withDialect .sqlite) filter).sql ∧
        List.Forall₂ (fun value parameter => Parameter.ofValue value = .ok parameter)
          (FilterSql.compile (options.withDialect .sqlite) filter).values query.parameters :=
  ofClause_eq_ok_iff

/-- The first double that is not finite, wherever it stands, is the error; without one there is
a parameter for each value. -/
def RejectsNonFinite (options : CompileOptions) (filter : Option Filter) : Prop :=
  let compiled := FilterSql.compile (options.withDialect .sqlite) filter
  match (compiled.values.flatMap Value.nonFinite).head? with
  | some x => Query.compile options filter = .error (.nonFinite x)
  | none => ∃ parameters, Query.compile options filter = .ok ⟨compiled.sql, parameters⟩ ∧
      List.Forall₂ (fun value parameter => Parameter.ofValue value = .ok parameter)
        compiled.values parameters

theorem rejectsNonFinite_iff :
    RejectsNonFinite options filter ↔
      ((FilterSql.compile (options.withDialect .sqlite) filter).values.flatMap
          Value.nonFinite).head? =
        (FilterSql.compile (options.withDialect .sqlite) filter).values.findSome?
          Value.nonFinite? := by
  have herror (error : BindError) := @compile_eq_error_iff options filter error
  have hok (query : Query) := @compile_eq_ok_iff options filter query
  unfold RejectsNonFinite
  dsimp only
  generalize FilterSql.compile (options.withDialect .sqlite) filter = compiled at *
  cases hfirst : (compiled.values.flatMap Value.nonFinite).head? with
  | some x =>
      dsimp only
      rw [herror]
      constructor
      · rintro ⟨y, hy, ⟨⟩⟩
        exact hy.symm
      · intro h
        exact ⟨x, h.symm, rfl⟩
  | none =>
      dsimp only
      cases halone : compiled.values.findSome? Value.nonFinite? with
      | some y =>
          have hfails := (herror (.nonFinite y)).mpr ⟨y, halone, rfl⟩
          rw [hfails]
          exact ⟨nofun, nofun⟩
      | none =>
          refine iff_of_true ?_ rfl
          cases hresult : Query.compile options filter with
          | error error =>
              obtain ⟨y, hy, -⟩ := (herror error).mp hresult
              rw [halone] at hy
              cases hy
          | ok query =>
              obtain ⟨hsql, hplaces⟩ := (hok query).mp hresult
              exact ⟨query.parameters, by rw [← hsql], hplaces⟩

end Compile

/-- Of the doubles that are not finite, those that are values themselves are rejected, and in a
list they become null.  So the first of them all is the error unless it stands in a list. -/
theorem compile_rejects (options : CompileOptions) (filter : Option Filter) :
    let compiled := FilterSql.compile (options.withDialect .sqlite) filter
    (∀ error, Query.compile options filter = .error error ↔
        ∃ x, compiled.values.findSome? Value.nonFinite? = some x ∧ error = .nonFinite x) ∧
      (∀ query, Query.compile options filter = .ok query ↔ query.sql = compiled.sql ∧
        List.Forall₂ (fun value parameter => Parameter.ofValue value = .ok parameter)
          compiled.values query.parameters) ∧
      (∀ items, Parameter.ofValue (.array items) =
        .ok (.json (Value.array items).cleared.toJson.text)) ∧
      (RejectsNonFinite options filter ↔
        (compiled.values.flatMap Value.nonFinite).head? =
          compiled.values.findSome? Value.nonFinite?) := by
  intro compiled
  exact ⟨fun error => compile_eq_error_iff, fun query => compile_eq_ok_iff,
    fun items => by rw [Value.toJson_cleared, Parameter.ofValue], rejectsNonFinite_iff⟩

/-- A NaN in a list of members is bound as null. -/
theorem not_rejectsNonFinite_member :
    ¬ RejectsNonFinite .sqlite
      (some [.field "a" (.oneOf (.array [.float ⟨0x7ff8000000000000⟩]))]) := by
  intro h
  have hquery : Query.compile .sqlite
      (some [.field "a" (.oneOf (.array [.float ⟨0x7ff8000000000000⟩]))]) =
        .error (.nonFinite ⟨0x7ff8000000000000⟩) := h
  cases hquery

end Sqlite

end FilterSql
