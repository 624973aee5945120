import FilterSql.Proofs.Sql.Emission

/-!
# The values that a filter binds

A filter binds its payloads: the values and search terms that stand in its tree,
in the order in which they stand there.  Neither the settings nor the scope have
a say in what they are; the dialect only decides how the term of a search for a
single word is bound.
-/

namespace FilterSql

/-! ## Payloads -/

inductive Payload where
  | value (content : Value)
  /-- The term of a full-text search. -/
  | term (text : String)

/-- The value that is bound; Postgres marks a single word as the beginning of words. -/
def Payload.bound : Dialect → Payload → Value
  | _, .value content => content
  | .sqlite, .term text => .string text
  | .postgres, .term text =>
    .string (if Compile.isSingleWord text then text ++ ":*" else text)

def Operand.payloads : Operand → List Payload
  | .literal value => [.value value]
  | .null | .column _ => []

def JsonPredicate.payloads : JsonPredicate → List Payload
  | .contains needle => [.value needle]
  | .between atLeast atMost => (atLeast.toList ++ atMost.toList).map .value
  | .equals value => [.value value]

def JsonCondition.payloads : JsonCondition → List Payload
  | .at _ value => [.value value]
  | .each entries => entries.flatMap fun entry => entry.2.payloads

mutual

def Clause.payloads : Clause → List Payload
  | .search search => [.term search.term]
  | .or alternatives => Filter.payloadsOfAll alternatives
  | .not negated => Filter.payloads negated
  | .notColumn _ => []
  | .notValue value => [.value value]
  | .compare left right => left.payloads ++ right.payloads
  | .field _ condition => Condition.payloads condition

def Filter.payloads : List Clause → List Payload
  | [] => []
  | first :: rest => Clause.payloads first ++ Filter.payloads rest

def Filter.payloadsOfAll : List (List Clause) → List Payload
  | [] => []
  | first :: rest => Filter.payloads first ++ Filter.payloadsOfAll rest

def Condition.payloads : Condition → List Payload
  | .oneOf members => [.value members]
  | .slug text => [.value (.string text)]
  | .anyOf alternatives => Condition.payloadsOfAll alternatives
  | .allOf conditions => Condition.payloadsOfAll conditions
  | .contains needle => [.value needle]
  | .range _ value _ => [.value value]
  | .inSelect _ filter => Filter.payloads filter
  | .inChain _ filter => Filter.payloads filter
  | .json condition => condition.payloads
  | .isNull => []
  | .equals operand => operand.payloads

def Condition.payloadsOfAll : List Condition → List Payload
  | [] => []
  | first :: rest => Condition.payloads first ++ Condition.payloadsOfAll rest

end

theorem Filter.payloads_append (first second : Filter) :
    Filter.payloads (first ++ second) = Filter.payloads first ++ Filter.payloads second := by
  induction first with
  | nil => rfl
  | cons requirement rest ih =>
      rw [List.cons_append, payloads, payloads, ih, List.append_assoc]

/-! ## Values of compiled fragments -/

namespace Fragment

@[simp] theorem values_nil : values [] = [] := rfl

@[simp] theorem values_text (sql : String) : values (text sql) = [] := rfl

@[simp] theorem values_hole (value : Value) : values (hole value) = [value] := rfl

@[simp] theorem values_parens (fragment : Fragment) : values (parens fragment) = fragment.values := by
  unfold parens
  split <;> simp

theorem values_flatten (parts : List Fragment) :
    values parts.flatten = parts.flatMap values := by
  induction parts with
  | nil => rfl
  | cons first rest ih => simp [ih]

end Fragment

namespace Compile

open Fragment

/-! ### Single conditions -/

section Leaves

variable {dialect : Dialect} {key : String}

private theorem values_operand (compared : Operand) :
    (operand dialect compared).values = compared.payloads.map (Payload.bound dialect) := by
  cases compared with
  | null | column => rfl
  | literal value =>
      rw [operand]
      unfold literal
      split <;> rfl

private theorem values_comparison (left right : Operand) :
    (comparison dialect left right).values =
      (left.payloads ++ right.payloads).map (Payload.bound dialect) := by
  have hnull : Operand.null.payloads = [] := rfl
  unfold comparison
  split <;> simp [values_operand, hnull]

private theorem values_equals (compared : Operand) :
    (equals dialect key compared).values = compared.payloads.map (Payload.bound dialect) := by
  cases compared with
  | null => rfl
  | literal | column => simp [equals, values_operand]

private theorem values_jsonEntry (place : String) (predicate : JsonPredicate) :
    (jsonEntry dialect key place predicate).values =
      predicate.payloads.map (Payload.bound dialect) := by
  cases predicate with
  | contains needle => rfl
  | equals value => rfl
  | between atLeast atMost =>
      cases atLeast <;> cases atMost <;> rfl

private theorem values_jsonCondition (condition : JsonCondition) :
    (jsonCondition dialect key condition).values =
      condition.payloads.map (Payload.bound dialect) := by
  cases condition with
  | «at» path value => rfl
  | each entries =>
      rw [jsonCondition, values_join, values_flatten, List.flatMap_map, JsonCondition.payloads,
        List.map_flatMap]
      simp only [values_jsonEntry]

private theorem values_textSearch (options : CompileOptions) (scope : Option String)
    (search : TextSearch) :
    (textSearch options scope search).values =
      [(Payload.term search.term).bound options.dialect] := by
  unfold textSearch
  cases options.dialect with
  | sqlite => rfl
  | postgres =>
      by_cases hword : isSingleWord search.term <;> simp [hword, Payload.bound]

private theorem values_membership (select : String) (parts : List Fragment) :
    (membership key select parts).values = values parts.flatten := by
  unfold membership
  cases parts <;> simp [conjunction, values_join]

end Leaves

/-! ### Whole trees -/

variable {options : CompileOptions}

mutual

theorem values_clause (scope : Option String) (requirement : Clause) :
    (clause options scope requirement).values =
      requirement.payloads.map (Payload.bound options.dialect) := by
  cases requirement with
  | search search => exact values_textSearch options scope search
  | or alternatives =>
      rw [clause, disjunction, values_parens, values_join, values_alternativesOf scope alternatives,
        Clause.payloads]
  | not negated =>
      rw [clause, negation, values_append, values_append, values_text, values_text,
        List.nil_append, List.append_nil, conjunction, values_join, values_clauses scope negated,
        Clause.payloads]
  | notColumn name => rfl
  | notValue value => rfl
  | compare left right => exact values_comparison left right
  | field key condition => exact values_conditionOn (scopedKey scope key) condition

theorem values_clauses (scope : Option String) (filter : List Clause) :
    values (clauses options scope filter).flatten =
      (Filter.payloads filter).map (Payload.bound options.dialect) := by
  cases filter with
  | nil => rfl
  | cons first rest =>
      rw [clauses, List.flatten_cons, values_append, values_clause scope first,
        values_clauses scope rest, Filter.payloads, List.map_append]

theorem values_alternativesOf (scope : Option String) (alternatives : List (List Clause)) :
    values (alternativesOf options scope alternatives).flatten =
      (Filter.payloadsOfAll alternatives).map (Payload.bound options.dialect) := by
  cases alternatives with
  | nil => rfl
  | cons first rest =>
      rw [alternativesOf, List.flatten_cons, values_append, conjunction, values_join,
        values_clauses scope first, values_alternativesOf scope rest, Filter.payloadsOfAll,
        List.map_append]

theorem values_conditionOn (key : String) (condition : Condition) :
    (conditionOn options key condition).values =
      condition.payloads.map (Payload.bound options.dialect) := by
  cases condition with
  | oneOf members =>
      rw [conditionOn]
      unfold oneOf
      split <;> rfl
  | slug text => rfl
  | anyOf alternatives =>
      rw [conditionOn, disjunction, values_parens, values_join, values_conditionsOn key alternatives,
        Condition.payloads]
  | allOf conditions =>
      rw [conditionOn, conjunction, values_join, values_conditionsOn key conditions,
        Condition.payloads]
  | contains needle => rfl
  | range bound value inclusive => rfl
  | inSelect select filter =>
      rw [conditionOn, values_membership, values_clauses (selectScope select) filter,
        Condition.payloads]
  | inChain chain filter =>
      rw [conditionOn, values_membership, values_clauses (some (chainScope chain)) filter,
        Condition.payloads]
  | json condition => exact values_jsonCondition condition
  | isNull => rfl
  | equals operand => exact values_equals operand

theorem values_conditionsOn (key : String) (conditions : List Condition) :
    values (conditionsOn options key conditions).flatten =
      (Condition.payloadsOfAll conditions).map (Payload.bound options.dialect) := by
  cases conditions with
  | nil => rfl
  | cons first rest =>
      rw [conditionsOn, List.flatten_cons, values_append, values_conditionOn key first,
        values_conditionsOn key rest, Condition.payloadsOfAll, List.map_append]

end

end Compile

/-! ## Values of compiled filters -/

theorem Filter.values_fragment (options : CompileOptions) (filter : Filter) :
    (Filter.fragment options filter).values =
      (Filter.payloads filter).map (Payload.bound options.dialect) := by
  rw [Filter.fragment, Compile.conjunction, Fragment.values_join, Compile.values_clauses]

theorem Filter.values_compile (options : CompileOptions) (filter : Filter) :
    (filter.compile options).values =
      (Filter.payloads filter).map (Payload.bound options.dialect) := by
  rw [Filter.compile_eq_render]
  split
  · next hempty =>
      rw [List.isEmpty_iff.mp hempty]
      rfl
  · have hvalues := Fragment.render_values (filter.fragment options) options.bindings
    rw [Filter.values_fragment] at hvalues
    exact hvalues

end FilterSql
