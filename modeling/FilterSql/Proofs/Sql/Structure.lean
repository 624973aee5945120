import FilterSql.Proofs.Sql.Atoms

/-!
# The boolean structure of filters

What a filter means, apart from its single conditions: which of them have to hold
together, which are alternatives and which are negated.  The structure is told on
the tree, with the texts that the single conditions have from given bindings on.
-/

namespace FilterSql

/-! ## Filters without empty groups

An empty group has no text, so it leaves nothing where the tree has a condition.
Inside a sub-select a filter stands in brackets of its own, and may be anything.
-/

def JsonCondition.IsComplete : JsonCondition → Prop
  | .at _ _ => True
  | .each entries => entries ≠ [] ∧ ∀ entry ∈ entries, entry.2 ≠ .between none none

mutual

def Clause.IsComplete : Clause → Prop
  | .search _ | .notColumn _ | .notValue _ | .compare _ _ => True
  | .or alternatives => alternatives ≠ [] ∧ Filter.AreComplete alternatives
  | .not negated => negated ≠ [] ∧ Filter.IsComplete negated
  | .field _ condition => Condition.IsComplete condition

def Filter.IsComplete : List Clause → Prop
  | [] => True
  | first :: rest => Clause.IsComplete first ∧ Filter.IsComplete rest

def Filter.AreComplete : List (List Clause) → Prop
  | [] => True
  | first :: rest => (first ≠ [] ∧ Filter.IsComplete first) ∧ Filter.AreComplete rest

def Condition.IsComplete : Condition → Prop
  | .oneOf _ | .slug _ | .contains _ | .range _ _ _ | .inSelect _ _ | .inChain _ _ | .isNull
  | .equals _ => True
  | .anyOf alternatives => alternatives ≠ [] ∧ Condition.AreComplete alternatives
  | .allOf conditions => conditions ≠ [] ∧ Condition.AreComplete conditions
  | .json condition => condition.IsComplete

def Condition.AreComplete : List Condition → Prop
  | [] => True
  | first :: rest => Condition.IsComplete first ∧ Condition.AreComplete rest

end

theorem Filter.areComplete_iff {filters : List Filter} :
    Filter.AreComplete filters ↔
      ∀ filter ∈ filters, filter ≠ [] ∧ Filter.IsComplete filter := by
  induction filters with
  | nil => simp [Filter.AreComplete]
  | cons first rest ih => simp [Filter.AreComplete, ih]

theorem Condition.areComplete_iff {conditions : List Condition} :
    Condition.AreComplete conditions ↔ ∀ condition ∈ conditions, condition.IsComplete := by
  induction conditions with
  | nil => simp [Condition.AreComplete]
  | cons first rest ih => simp [Condition.AreComplete, ih]

/-! ## Conjuncts -/

/-- A range with two bounds is one condition for each. -/
def JsonPredicate.sides : JsonPredicate → List JsonPredicate
  | .between (some atLeast) (some atMost) =>
    [.between (some atLeast) none, .between none (some atMost)]
  | predicate => [predicate]

def JsonCondition.conjuncts : JsonCondition → List JsonCondition
  | .at path value => [.at path value]
  | .each entries => entries.flatMap fun (place, predicate) =>
    predicate.sides.map fun side => .each [(place, side)]

mutual

def Condition.conjuncts : Condition → List Condition
  | .allOf conditions => Condition.conjunctsOfAll conditions
  | .json condition => condition.conjuncts.map .json
  | condition => [condition]

def Condition.conjunctsOfAll : List Condition → List Condition
  | [] => []
  | first :: rest => Condition.conjuncts first ++ Condition.conjunctsOfAll rest

end

def Clause.conjuncts : Clause → List Clause
  | .field key condition => condition.conjuncts.map (.field key)
  | requirement => [requirement]

def Filter.conjuncts (filter : Filter) : Filter := filter.flatMap Clause.conjuncts

/-! ## Factors -/

namespace Compile

mutual

def clauseFactors (options : CompileOptions) (scope : Option String) :
    Clause → Bindings → List Factor
  | .search search, bindings => [.atom ((textSearch options scope search).chars bindings)]
  | .or alternatives, bindings => [.group (alternativeFactors options scope alternatives bindings)]
  | .not negated, bindings => [.negation [filterFactors options scope negated bindings]]
  | .notColumn name, _ => [.negation [[.atom (columnRef name).toList]]]
  | .notValue value, bindings => [.negation [[.atom ((Fragment.hole value).chars bindings)]]]
  | .compare left right, bindings =>
    [.atom ((comparison options.dialect left right).chars bindings)]
  | .field key condition, bindings =>
    conditionFactors options (scopedKey scope key) condition bindings

def filterFactors (options : CompileOptions) (scope : Option String) :
    List Clause → Bindings → List Factor
  | [], _ => []
  | first :: rest, bindings =>
    clauseFactors options scope first bindings ++
      filterFactors options scope rest ((clause options scope first).bound bindings)

def alternativeFactors (options : CompileOptions) (scope : Option String) :
    List (List Clause) → Bindings → List (List Factor)
  | [], _ => []
  | first :: rest, bindings =>
    filterFactors options scope first bindings ::
      alternativeFactors options scope rest
        ((conjunction (clauses options scope first)).bound bindings)

def conditionFactors (options : CompileOptions) (key : String) :
    Condition → Bindings → List Factor
  | .anyOf alternatives, bindings =>
    [.group (alternativeConditionFactors options key alternatives bindings)]
  | .allOf conditions, bindings => conditionsFactors options key conditions bindings
  | .json condition, bindings =>
    (Fragment.charsOfEach (condition.conjuncts.map (jsonCondition options.dialect key))
      bindings).map .atom
  | condition, bindings => [.atom ((conditionOn options key condition).chars bindings)]

def conditionsFactors (options : CompileOptions) (key : String) :
    List Condition → Bindings → List Factor
  | [], _ => []
  | first :: rest, bindings =>
    conditionFactors options key first bindings ++
      conditionsFactors options key rest ((conditionOn options key first).bound bindings)

def alternativeConditionFactors (options : CompileOptions) (key : String) :
    List Condition → Bindings → List (List Factor)
  | [], _ => []
  | first :: rest, bindings =>
    conditionFactors options key first bindings ::
      alternativeConditionFactors options key rest
        ((conditionOn options key first).bound bindings)

end

end Compile

end FilterSql
