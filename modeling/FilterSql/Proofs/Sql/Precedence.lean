import FilterSql.Proofs.Sql.Describes
import Mathlib.Data.List.Forall2

/-!
# Precedence keeps the structure of filters

Conjunctions are written bare, and disjunctions and negations in brackets.  Read
with the precedence of SQL, the text of a filter without empty groups has the
structure of the filter, whatever its names, paths and values are.
-/

namespace FilterSql

namespace Compile

open Fragment

variable {options : CompileOptions}

/-! ## Conjuncts of compiled trees -/

private theorem conjuncts_json (key : String) (condition : JsonCondition) :
    (Condition.json condition).conjuncts.map (conditionOn options key) =
      condition.conjuncts.map (jsonCondition options.dialect key) := by
  simp [Condition.conjuncts, Function.comp_def, conditionOn]

mutual

private theorem values_conjuncts (key : String) (condition : Condition) :
    values (condition.conjuncts.map (conditionOn options key)).flatten =
      values (conditionOn options key condition) := by
  cases condition with
  | allOf conditions =>
      rw [Condition.conjuncts, values_conjunctsOfAll key conditions, conditionOn, conjunction,
        values_join]
  | json condition =>
      rw [conjuncts_json, conditionOn, jsonCondition_eq condition, conjunction, values_join]
  | oneOf | slug | anyOf | contains | range | inSelect | inChain | isNull | equals =>
      simp [Condition.conjuncts]

private theorem values_conjunctsOfAll (key : String) (conditions : List Condition) :
    values ((Condition.conjunctsOfAll conditions).map (conditionOn options key)).flatten =
      values (conditionsOn options key conditions).flatten := by
  cases conditions with
  | nil => rfl
  | cons first rest =>
      rw [Condition.conjunctsOfAll, List.map_append, List.flatten_append, values_append,
        values_conjuncts key first, values_conjunctsOfAll key rest, conditionsOn,
        List.flatten_cons, values_append]

end

mutual

private theorem chars_conjuncts (key : String) (condition : Condition)
    (h : condition.IsComplete) (bindings : Bindings) :
    charsOfEach (condition.conjuncts.map (conditionOn options key)) bindings =
      (conditionFactors options key condition bindings).map Factor.text := by
  have hdescribes : Describes (conditionFactors options key condition bindings)
      ((conditionOn options key condition).chars bindings) :=
    describes_condition key condition h bindings
  cases condition with
  | allOf conditions => exact chars_conjunctsOfAll key conditions h.2 bindings
  | json condition =>
      have hatoms (texts : List (List Char)) : (texts.map Factor.atom).map Factor.text = texts := by
        simp [Function.comp_def, Factor.text]
      rw [conjuncts_json, conditionFactors, hatoms]
  | oneOf | slug | anyOf | contains | range | inSelect | inChain | isNull | equals =>
      exact congrArg (fun text => [text]) hdescribes.text_singleton.symm

private theorem chars_conjunctsOfAll (key : String) (conditions : List Condition)
    (h : Condition.AreComplete conditions) (bindings : Bindings) :
    charsOfEach ((Condition.conjunctsOfAll conditions).map (conditionOn options key)) bindings =
      (conditionsFactors options key conditions bindings).map Factor.text := by
  cases conditions with
  | nil => rfl
  | cons first rest =>
      have hvalues : values (first.conjuncts.map (conditionOn options key)).flatten =
          values (conditionOn options key first) := values_conjuncts key first
      -- The conjuncts of the first bind what the first binds, so the rest is numbered alike.
      rw [Condition.conjunctsOfAll, List.map_append, charsOfEach_append,
        bound_congr hvalues bindings, chars_conjuncts key first h.1,
        chars_conjunctsOfAll key rest h.2, conditionsFactors, List.map_append]

end

section Clauses

variable {scope : Option String}

private theorem conjuncts_field (key : String) (condition : Condition) :
    (Clause.field key condition).conjuncts.map (clause options scope) =
      condition.conjuncts.map (conditionOn options (scopedKey scope key)) := by
  simp [Clause.conjuncts, Function.comp_def, clause]

private theorem values_clauseConjuncts (requirement : Clause) :
    values (requirement.conjuncts.map (clause options scope)).flatten =
      values (clause options scope requirement) := by
  cases requirement with
  | field key condition =>
      rw [conjuncts_field, values_conjuncts, clause]
  | search | or | not | notColumn | notValue | compare => simp [Clause.conjuncts]

private theorem chars_clauseConjuncts (requirement : Clause) (h : requirement.IsComplete)
    (bindings : Bindings) :
    charsOfEach (requirement.conjuncts.map (clause options scope)) bindings =
      (clauseFactors options scope requirement bindings).map Factor.text := by
  have hdescribes : Describes (clauseFactors options scope requirement bindings)
      ((clause options scope requirement).chars bindings) :=
    describes_clause scope requirement h bindings
  cases requirement with
  | field key condition =>
      rw [conjuncts_field, chars_conjuncts _ condition h, clauseFactors]
  | search | or | not | notColumn | notValue | compare =>
      exact congrArg (fun text => [text]) hdescribes.text_singleton.symm

private theorem chars_filterConjuncts (filter : Filter) (h : Filter.IsComplete filter)
    (bindings : Bindings) :
    charsOfEach (filter.conjuncts.map (clause options scope)) bindings =
      (filterFactors options scope filter bindings).map Factor.text := by
  induction filter generalizing bindings with
  | nil => rfl
  | cons first rest ih =>
      have hconjuncts : Filter.conjuncts (first :: rest) =
          first.conjuncts ++ Filter.conjuncts rest := List.flatMap_cons
      have hvalues : values (first.conjuncts.map (clause options scope)).flatten =
          values (clause options scope first) := values_clauseConjuncts first
      rw [hconjuncts, List.map_append, charsOfEach_append, bound_congr hvalues bindings,
        chars_clauseConjuncts first h.1, ih h.2, filterFactors, List.map_append]

end Clauses

end Compile

/-! ## Reading compiled filters -/

/-- Outside literals and brackets the text has `and`s only, and the parts lie between them. -/
structure IsConjunction (text : List Char) (parts : List (List Char)) : Prop where
  nested : IsNested text
  noDisjunction : cutOr text = [text]
  parts : cutAnd text = parts

/-- One pair of brackets, and the alternatives lie between the `or`s inside. -/
def IsDisjunction (text : List Char) (alternatives : List (List Char)) : Prop :=
  ∃ body, text = groupOpening ++ body ++ [')'] ∧ IsNested body ∧ cutOr body = alternatives

theorem Describes.isConjunction {factors : List Factor} {text : List Char}
    (h : Describes factors text) : IsConjunction text (factors.map Factor.text) := by
  obtain ⟨hfactors, hsound, rfl⟩ := h
  exact ⟨Factor.isNested_conjunction hsound, (Factor.isUncut_conjunction hsound).cut_eq,
    Factor.cut_conjunction hfactors hsound⟩

theorem Describes.read_eq {factors : List Factor} {text : List Char}
    (h : Describes factors text) : read text = [factors] := by
  obtain ⟨hfactors, hsound, rfl⟩ := h
  exact Factor.read_conjunction hfactors hsound

namespace Compile

open Fragment

private theorem isDisjunction_disjunction {groups : List (List Factor)} {parts : List Fragment}
    {bindings : Bindings} (hparts : parts ≠ [])
    (h : List.Forall₂ Describes groups (charsOfEach parts bindings)) :
    IsDisjunction ((disjunction parts).chars bindings) (charsOfEach parts bindings) := by
  obtain ⟨hsound, htexts⟩ := Describes.alternatives h
  have hgroups : groups ≠ [] := by
    rintro rfl
    exact charsOfEach_ne_nil hparts (List.forall₂_nil_left_iff.mp h)
  refine ⟨_, (describes_disjunction hparts h).1, ?_, ?_⟩
  · rw [← htexts]
    exact Factor.isNested_disjunction hsound
  · rw [← htexts]
    exact Factor.cut_disjunction hgroups hsound

/-- Read with `not` over `and` over `or`, the text of a filter without empty groups has the
structure of the filter, at every place where filters and conditions are put together. -/
theorem reads_as_structured (options : CompileOptions) (scope : Option String) :
    (∀ filter : Filter, filter ≠ [] → Filter.IsComplete filter → ∀ bindings,
      IsConjunction ((conjunction (clauses options scope filter)).chars bindings)
        (charsOfEach (filter.conjuncts.map (clause options scope)) bindings) ∧
      read ((conjunction (clauses options scope filter)).chars bindings) =
        [filterFactors options scope filter bindings]) ∧
    (∀ alternatives, (Clause.or alternatives).IsComplete →
      (∀ bindings, IsDisjunction ((clause options scope (.or alternatives)).chars bindings)
        (charsOfEach (alternativesOf options scope alternatives) bindings)) ∧
      ∀ alternative ∈ alternatives, ∀ bindings,
        IsConjunction ((conjunction (clauses options scope alternative)).chars bindings)
          (charsOfEach ((Filter.conjuncts alternative).map (clause options scope)) bindings)) ∧
    (∀ key alternatives, (Condition.anyOf alternatives).IsComplete →
      (∀ bindings, IsDisjunction ((conditionOn options key (.anyOf alternatives)).chars bindings)
        (charsOfEach (conditionsOn options key alternatives) bindings)) ∧
      ∀ alternative ∈ alternatives, ∀ bindings,
        IsConjunction ((conditionOn options key alternative).chars bindings)
          (charsOfEach (alternative.conjuncts.map (conditionOn options key)) bindings)) ∧
    ∀ negated bindings, (clause options scope (.not negated)).chars bindings =
      negationOpening ++ (conjunction (clauses options scope negated)).chars bindings ++ [')'] := by
  have hfilter (filter : Filter) (hne : filter ≠ []) (h : Filter.IsComplete filter)
      (bindings : Bindings) :
      IsConjunction ((conjunction (clauses options scope filter)).chars bindings)
        (charsOfEach (filter.conjuncts.map (clause options scope)) bindings) := by
    rw [chars_filterConjuncts filter h]
    exact (describes_filter scope filter hne h bindings).isConjunction
  refine ⟨fun filter hne h bindings => ⟨hfilter filter hne h bindings, ?_⟩,
    fun alternatives h => ⟨fun bindings => ?_, fun alternative halternative => ?_⟩,
    fun key alternatives h => ⟨fun bindings => ?_, fun alternative halternative bindings => ?_⟩,
    fun negated bindings => chars_negation _⟩
  · exact (describes_filter scope filter hne h bindings).read_eq
  · exact isDisjunction_disjunction (alternativesOf_ne_nil h.1)
      (describes_alternatives scope alternatives h.2 bindings)
  · obtain ⟨hne, hcomplete⟩ := Filter.areComplete_iff.mp h.2 alternative halternative
    exact hfilter alternative hne hcomplete
  · exact isDisjunction_disjunction (conditionsOn_ne_nil h.1)
      (describes_alternativeConditions key alternatives h.2 bindings)
  · have hcomplete := Condition.areComplete_iff.mp h.2 alternative halternative
    rw [chars_conjuncts key alternative hcomplete]
    exact (describes_condition key alternative hcomplete bindings).isConjunction

theorem reads_as_structured_group_and_negation :
    read ((conjunction (clauses (.ofDialect .sqlite) none
        [.or [[.field "a" (.allOf [.isNull, .isNull])], [.field "b" .isNull]],
          .not [.field "c" (.anyOf [.isNull, .equals (.column "d")])]])).chars .sqlite) =
      [filterFactors (.ofDialect .sqlite) none
        [.or [[.field "a" (.allOf [.isNull, .isNull])], [.field "b" .isNull]],
          .not [.field "c" (.anyOf [.isNull, .equals (.column "d")])]] .sqlite] := by
  refine ((reads_as_structured (.ofDialect .sqlite) none).1 _ (by simp) ?_ .sqlite).2
  simp [Filter.IsComplete, Clause.IsComplete, Filter.AreComplete, Condition.IsComplete,
    Condition.AreComplete]

end Compile

end FilterSql
