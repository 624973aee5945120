import FilterSql.Proofs.Sql.Describes
import FilterSql.Proofs.Sql.Placeholders

/-!
# Shorthands

A list of conditions on one field, and a condition on several places of one JSON
column, say no more than can be said one field at a time.  A shorthand compiles to
the very fragment of what it is short for.  Text, values and numbers are then the
same from every state of a compiler, and behind every alias.
-/

namespace FilterSql

namespace Compiler

inductive IsShortFor (key : String) : Call → Call → Prop where
  | allOf (conditions : List Condition) :
      IsShortFor key (.condition key (.allOf conditions))
        (.clauses (conditions.map (.field key)))
  | anyOf (alternatives : List Condition) :
      IsShortFor key (.condition key (.anyOf alternatives))
        (.clause (.or (alternatives.map fun asked => [.field key asked])))
  /-- Several places of a JSON column. -/
  | each (entries : List (String × JsonPredicate)) :
      IsShortFor key (.condition key (.json (.each entries)))
        (.clauses (entries.map fun entry => .field key (.json (.each [entry]))))
  /-- A range with two bounds, among whatever other places. -/
  | between (before after : List (String × JsonPredicate)) (place : String)
      (atLeast atMost : Value) :
      IsShortFor key
        (.condition key (.json (.each
          (before ++ (place, .between (some atLeast) (some atMost)) :: after))))
        (.condition key (.json (.each
          (before ++ (place, .between (some atLeast) none) ::
            (place, .between none (some atMost)) :: after))))
  /-- The one value at one place. -/
  | at (name : String) (value : Value) :
      IsShortFor key (.condition key (.json (.at (.one (.key name)) value)))
        (.condition key (.json (.each [(name, .equals value)])))

/-! ## Fragments -/

theorem call_congr {compiler : Compiler} {first second : Call}
    (h : first.fragment compiler.options = second.fragment compiler.options) :
    compiler.call first = compiler.call second := by
  rw [call_eq_render, call_eq_render, h]

theorem alternativesOf_fields (options : CompileOptions) (key : String)
    (alternatives : List Condition) :
    Compile.alternativesOf options none (alternatives.map fun asked => [.field key asked]) =
      alternatives.map (Compile.conditionOn options key) := by
  induction alternatives with
  | nil => rfl
  | cons first rest ih =>
      simp [Compile.alternativesOf, Compile.conjunction, Compile.clause, scopedKey, ih]

theorem IsShortFor.fragment_eq {key : String} {short long : Call} (h : IsShortFor key short long)
    (options : CompileOptions) : short.fragment options = long.fragment options := by
  cases h with
  | allOf conditions =>
      simp [Call.fragment, Filter.fragment, Compile.conditionOn, Compile.clause, scopedKey,
        Function.comp_def]
  | anyOf alternatives =>
      simp only [Call.fragment, Compile.clause, alternativesOf_fields, Compile.conditionOn,
        Compile.conditionsOn_eq_map]
  | each entries =>
      simp [Call.fragment, Filter.fragment, Compile.conditionOn, Compile.clause, scopedKey,
        Compile.jsonCondition, Compile.conjunction, Function.comp_def]
  | between before after place atLeast atMost =>
      simp only [Call.fragment, Compile.conditionOn]
      rw [Compile.jsonCondition_eq, Compile.jsonCondition_eq (.each (before ++ _))]
      simp [JsonCondition.conjuncts, JsonPredicate.sides]
  | «at» name value =>
      simp [Call.fragment, Compile.conditionOn, Compile.jsonCondition, Compile.jsonEntry]

/-! ## Aliases -/

def Call.filter : Call → Filter
  | .clauses filter => filter
  | .clause requirement => [requirement]
  | .condition key asked => [.field key asked]

def Call.qualify (table : String) : Call → Call
  | .clauses filter => .clauses (Filter.qualifyClauses table filter)
  | .clause requirement => .clause (Filter.qualifyClause table requirement)
  | .condition key asked => .condition (qualifiedKey table key) asked

theorem call_filter (compiler : Compiler) (call : Call) :
    compiler.call (.clauses call.filter) = compiler.call call := by
  apply call_congr
  cases call with
  | clauses filter => rfl
  | clause | condition =>
      simp [Call.fragment, Call.filter, Filter.fragment, Compile.conjunction, Compile.clause,
        scopedKey]

theorem filter_qualify (call : Call) (name : String) :
    call.filter.qualify name = (call.qualify (Filter.bareAlias name)).filter := by
  cases call <;> rfl

theorem qualify_fields {α : Type} (table key : String) (ask : α → Condition) (list : List α) :
    (Call.clauses (list.map fun part => .field key (ask part))).qualify table =
      .clauses (list.map fun part => .field (qualifiedKey table key) (ask part)) := by
  simp [Call.qualify, Filter.qualifyClauses_eq_map, Filter.qualifyClause, Function.comp_def]

theorem qualifyFilters_fields (table key : String) (alternatives : List Condition) :
    Filter.qualifyFilters table (alternatives.map fun asked => [.field key asked]) =
      alternatives.map fun asked => [.field (qualifiedKey table key) asked] := by
  induction alternatives with
  | nil => rfl
  | cons first rest ih =>
      simp [Filter.qualifyFilters, Filter.qualifyClauses, Filter.qualifyClause, ih]

theorem IsShortFor.qualify {key : String} {short long : Call} (h : IsShortFor key short long)
    (table : String) :
    IsShortFor (qualifiedKey table key) (short.qualify table) (long.qualify table) := by
  cases h with
  | allOf conditions =>
      rw [qualify_fields]
      exact .allOf conditions
  | anyOf alternatives =>
      rw [Call.qualify, Filter.qualifyClause, qualifyFilters_fields]
      exact .anyOf alternatives
  | each entries =>
      rw [qualify_fields]
      exact .each entries
  | between before after place atLeast atMost => exact .between before after place atLeast atMost
  | «at» name value => exact .at name value

/-! ## Texts, values and numbers -/

/-- A call with a shorthand gives the text, the values and the numbers of the call with what it is
short for; so it does when both are put behind an alias. -/
theorem call_eq_of_isShortFor {key : String} {short long : Call} (h : IsShortFor key short long)
    (compiler : Compiler) (name : String) :
    compiler.call short = compiler.call long ∧
      compiler.call (.clauses (short.filter.qualify name)) =
        compiler.call (.clauses (long.filter.qualify name)) := by
  refine ⟨call_congr (h.fragment_eq _), ?_⟩
  rw [filter_qualify, filter_qualify, call_filter, call_filter]
  exact call_congr ((h.qualify _).fragment_eq _)

theorem call_eq_of_isShortFor_after_seven :
    let compiler : Compiler := ⟨.postgres, 7, []⟩
    let alternatives : List Condition := [.isNull, .range .above (.integer 1) true]
    IsShortFor "n" (.condition "n" (.anyOf alternatives))
        (.clause (.or [[.field "n" .isNull], [.field "n" (.range .above (.integer 1) true)]])) ∧
      compiler.call (.condition "n" (.anyOf alternatives)) =
        compiler.call (.clause
          (.or [[.field "n" .isNull], [.field "n" (.range .above (.integer 1) true)]])) ∧
      compiler.call (.clauses (Filter.qualify [.field "n" (.anyOf alternatives)] "t")) =
        compiler.call (.clauses (Filter.qualify
          [.or [[.field "n" .isNull], [.field "n" (.range .above (.integer 1) true)]]] "t")) := by
  intro compiler alternatives
  have hshort : IsShortFor "n" (.condition "n" (.anyOf alternatives)) (.clause
      (.or [[.field "n" .isNull], [.field "n" (.range .above (.integer 1) true)]])) :=
    .anyOf alternatives
  exact ⟨hshort, call_eq_of_isShortFor hshort compiler "t"⟩

end Compiler

end FilterSql
