import FilterSql.Filter.OfJson
import FilterSql.Proofs.Sql.Emission
import FilterSql.Proofs.Sql.Operands

/-!
# Which filters compile without gaps

An empty group has no text.  Where it stands in a join, in brackets or behind a
`where` it leaves a gap, and nothing else does.
-/

namespace FilterSql

/-! ## Filters without empty groups -/

def JsonPredicate.isFilled : JsonPredicate → Bool
  | .between none none => false
  | _ => true

def JsonCondition.isFilled : JsonCondition → Bool
  | .at _ _ => true
  | .each entries => !entries.isEmpty && entries.all fun entry => entry.2.isFilled

mutual

def Clause.isFilled : Clause → Bool
  | .search _ | .notColumn _ | .notValue _ | .compare _ _ => true
  | .or alternatives => !alternatives.isEmpty && Filter.areFilled alternatives
  | .not negated => !negated.isEmpty && Filter.isFilled negated
  | .field _ condition => Condition.isFilled condition

/-- No group in the filter is empty; the filter itself may be, as in a sub-select. -/
def Filter.isFilled : List Clause → Bool
  | [] => true
  | first :: rest => Clause.isFilled first && Filter.isFilled rest

def Filter.areFilled : List (List Clause) → Bool
  | [] => true
  | first :: rest => (!first.isEmpty && Filter.isFilled first) && Filter.areFilled rest

def Condition.isFilled : Condition → Bool
  | .oneOf _ | .slug _ | .contains _ | .range _ _ _ | .isNull | .equals _ => true
  | .anyOf conditions | .allOf conditions => !conditions.isEmpty && Condition.areFilled conditions
  | .inSelect _ filter | .inChain _ filter => Filter.isFilled filter
  | .json condition => condition.isFilled

def Condition.areFilled : List Condition → Bool
  | [] => true
  | first :: rest => Condition.isFilled first && Condition.areFilled rest

end

theorem Filter.isFilled_eq_all (filter : Filter) :
    Filter.isFilled filter = (filter.map Clause.isFilled).all id := by
  induction filter with
  | nil => rfl
  | cons first rest ih => simp [Filter.isFilled, ih]

theorem Filter.areFilled_eq_all (filters : List Filter) :
    Filter.areFilled filters =
      (filters.map fun filter => !filter.isEmpty && Filter.isFilled filter).all id := by
  induction filters with
  | nil => rfl
  | cons first rest ih => simp [Filter.areFilled, ih]

theorem Condition.areFilled_eq_all (conditions : List Condition) :
    Condition.areFilled conditions = (conditions.map Condition.isFilled).all id := by
  induction conditions with
  | nil => rfl
  | cons first rest ih => simp [Condition.areFilled, ih]

namespace Compile

open Fragment

/-! ## Groups -/

section Groups

variable {parts : List Fragment} {verdicts : List Bool}

theorem supplies?_disjunction (h : parts.map supplies? = verdicts.map some) :
    (disjunction parts).supplies? = some (!verdicts.isEmpty && verdicts.all id) := by
  have hjoin := supplies?_join (.inr rfl) h
  unfold disjunction parens
  split
  · exact hjoin
  · exact supplies?_brackets (.inl rfl) hjoin

theorem supplies?_negation {part : Fragment} {supplied : Bool} (h : part.supplies? = some supplied) :
    (negation part).supplies? = some supplied :=
  supplies?_brackets (.inr rfl) h

end Groups

/-! ## Conditions on JSON columns -/

variable {dialect : Dialect} {key : String}

private theorem supplies?_jsonEntry (place : String) (predicate : JsonPredicate) :
    (jsonEntry dialect key place predicate).supplies? = some predicate.isFilled := by
  cases predicate with
  | contains needle => exact supplies?_jsonContains _ needle
  | equals value => exact supplies?_jsonEquals _ value
  | between atLeast atMost =>
      have hsides : (jsonBound dialect key (.one (.key place)) ">=" atLeast ++
          jsonBound dialect key (.one (.key place)) "<=" atMost).map supplies? =
            ((atLeast.toList.map fun _ => true) ++ atMost.toList.map fun _ => true).map some := by
        rw [List.map_append, List.map_append, supplies?_jsonBound _ (.inl rfl),
          supplies?_jsonBound _ (.inr rfl)]
      rw [jsonEntry, supplies?_join (.inl rfl) hsides]
      cases atLeast <;> cases atMost <;> rfl

private theorem supplies?_jsonCondition (condition : JsonCondition) :
    (jsonCondition dialect key condition).supplies? = some condition.isFilled := by
  cases condition with
  | «at» path value => exact supplies?_jsonEquals path value
  | each entries =>
      have hparts {part : String × JsonPredicate → Fragment}
          (h : ∀ entry, (part entry).supplies? = some entry.2.isFilled) :
          (entries.map part).map supplies? =
            (entries.map fun entry => entry.2.isFilled).map some := by
        simp [h]
      rw [jsonCondition, supplies?_join (.inl rfl)
        (hparts fun entry => supplies?_jsonEntry entry.1 entry.2)]
      simp [JsonCondition.isFilled]

/-! ## Whole trees -/

variable {options : CompileOptions}

mutual

theorem supplies?_clause (scope : Option String) (requirement : Clause) :
    (clause options scope requirement).supplies? = some requirement.isFilled := by
  cases requirement with
  | search search => exact supplies?_textSearch options scope search
  | or alternatives =>
      rw [clause, supplies?_disjunction (supplies?_alternativesOf scope alternatives),
        Clause.isFilled, Filter.areFilled_eq_all, List.isEmpty_map]
  | not negated =>
      have hpart : (conjunction (clauses options scope negated)).supplies? = _ :=
        supplies?_join (.inl rfl) (supplies?_clauses scope negated)
      rw [clause, supplies?_negation hpart, Clause.isFilled, Filter.isFilled_eq_all,
        List.isEmpty_map]
  | notColumn name => exact supplies?_negation (supplies?_column name)
  | notValue value => exact supplies?_negation rfl
  | compare left right => exact supplies?_comparison left right
  | field key condition => exact supplies?_conditionOn (scopedKey scope key) condition

theorem supplies?_clauses (scope : Option String) (filter : List Clause) :
    (clauses options scope filter).map supplies? = (filter.map Clause.isFilled).map some := by
  cases filter with
  | nil => rfl
  | cons first rest =>
      rw [clauses, List.map_cons, List.map_cons, List.map_cons, supplies?_clause scope first,
        supplies?_clauses scope rest]

theorem supplies?_alternativesOf (scope : Option String) (alternatives : List (List Clause)) :
    (alternativesOf options scope alternatives).map supplies? =
      (alternatives.map fun filter => !filter.isEmpty && Filter.isFilled filter).map some := by
  cases alternatives with
  | nil => rfl
  | cons first rest =>
      have hpart : (conjunction (clauses options scope first)).supplies? = _ :=
        supplies?_join (.inl rfl) (supplies?_clauses scope first)
      rw [alternativesOf, List.map_cons, List.map_cons, List.map_cons, hpart,
        supplies?_alternativesOf scope rest, Filter.isFilled_eq_all, List.isEmpty_map]

theorem supplies?_conditionOn (key : String) (condition : Condition) :
    (conditionOn options key condition).supplies? = some condition.isFilled := by
  cases condition with
  | oneOf members => exact supplies?_oneOf members
  | slug text => exact supplies?_slug text
  | anyOf alternatives =>
      rw [conditionOn, supplies?_disjunction (supplies?_conditionsOn key alternatives),
        Condition.isFilled, Condition.areFilled_eq_all, List.isEmpty_map]
  | allOf conditions =>
      have hparts : (conjunction (conditionsOn options key conditions)).supplies? = _ :=
        supplies?_join (.inl rfl) (supplies?_conditionsOn key conditions)
      rw [conditionOn, hparts, Condition.isFilled, Condition.areFilled_eq_all, List.isEmpty_map]
  | contains needle => exact supplies?_contains needle
  | range bound value inclusive => exact supplies?_range bound value inclusive
  | inSelect select filter =>
      rw [conditionOn, supplies?_inSelect select (supplies?_clauses (selectScope select) filter),
        Condition.isFilled, Filter.isFilled_eq_all]
  | inChain chain filter =>
      rw [conditionOn,
        supplies?_inChain chain (supplies?_clauses (some (chainScope chain)) filter),
        Condition.isFilled, Filter.isFilled_eq_all]
  | json condition => exact supplies?_jsonCondition condition
  | isNull => exact supplies?_isNull
  | equals operand => exact supplies?_equals operand

theorem supplies?_conditionsOn (key : String) (conditions : List Condition) :
    (conditionsOn options key conditions).map supplies? =
      (conditions.map Condition.isFilled).map some := by
  cases conditions with
  | nil => rfl
  | cons first rest =>
      rw [conditionsOn, List.map_cons, List.map_cons, List.map_cons,
        supplies?_conditionOn key first, supplies?_conditionsOn key rest]

end

end Compile

/-! ## Compiled filters -/

theorem Filter.supplies?_fragment (options : CompileOptions) (filter : Filter) :
    (filter.fragment options).supplies? = some (!filter.isEmpty && Filter.isFilled filter) := by
  have hparts : (filter.fragment options).supplies? = _ :=
    Fragment.supplies?_join (.inl rfl) (Compile.supplies?_clauses none filter)
  rw [hparts, Filter.isFilled_eq_all, List.isEmpty_map]

private theorem verdict_compile (options : CompileOptions) {filter : Filter} (h : filter ≠ []) :
    Stand.verdict (follow (some (.word [] true)) (filter.compile options).sql.toList) =
      some (Filter.isFilled filter) := by
  have hkeyword : follow (some (.word [] true)) "WHERE ".toList = some (.word [] true) := rfl
  have hrendered := Fragment.follow_chars (some (.word [] true)) (filter.fragment options)
    options.bindings
  have hfragment := Filter.supplies?_fragment options filter
  rw [Fragment.chars] at hrendered
  rw [Fragment.supplies?] at hfragment
  rw [Filter.sql_compile_of_ne_nil options h, String.toList_append, follow_append, hkeyword,
    hrendered, hfragment]
  simp [h]

/-- A filter compiles to nothing if it is empty, and else to an expression behind `WHERE`, which
has no gap if and only if no group in the filter is empty. -/
theorem isGapless_compile (options : CompileOptions) (filter : Filter) :
    (filter = [] → (filter.compile options).sql = "") ∧
      (filter ≠ [] → ∃ expression, (filter.compile options).sql = "WHERE " ++ expression ∧
        (Filter.isFilled filter → expression ≠ "")) ∧
      isGapless (filter.compile options).sql.toList = Filter.isFilled filter := by
  by_cases hempty : filter = []
  · subst hempty
    exact ⟨fun _ => rfl, fun h => absurd rfl h, rfl⟩
  · have hverdict := verdict_compile options hempty
    have hsql := Filter.sql_compile_of_ne_nil options hempty
    refine ⟨fun h => absurd h hempty, fun _ => ⟨_, hsql, ?_⟩, ?_⟩
    · intro hfilled hexpression
      -- A bare `WHERE` leaves an operand due.
      have hbare : Stand.verdict (follow (some (.word [] true)) "WHERE ".toList) = some false := rfl
      rw [hsql, hexpression, String.append_empty, hbare, hfilled] at hverdict
      cases hverdict
    · unfold isGapless
      rw [hverdict, hsql, String.toList_append]
      simp

theorem isGapless_compile_empty_sub_select :
    (∃ expression, (Filter.compile .postgres [.field "b" (.inSelect (.plain "t" "c") [])]).sql =
        "WHERE " ++ expression ∧ expression ≠ "") ∧
      isGapless (Filter.compile .postgres [.field "b" (.inSelect (.plain "t" "c") [])]).sql.toList =
        true := by
  obtain ⟨-, hexpression, hgapless⟩ :=
    isGapless_compile .postgres [.field "b" (.inSelect (.plain "t" "c") [])]
  obtain ⟨expression, hsql, hfilled⟩ := hexpression (List.cons_ne_nil _ _)
  exact ⟨⟨expression, hsql, hfilled rfl⟩, hgapless⟩

/-- A list of alternatives without any is accepted, and compiles to a bare `WHERE`. -/
theorem not_isGapless_no_alternatives :
    Filter.ofJson .strict (.object [("or", .array [])]) = .ok [.or []] ∧
      (Filter.compile .sqlite [.or []]).sql = "WHERE " ∧
      isGapless (Filter.compile .sqlite [.or []]).sql.toList = false := by
  refine ⟨rfl, rfl, ?_⟩
  decide

end FilterSql
