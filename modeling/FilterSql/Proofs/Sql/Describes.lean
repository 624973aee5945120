import FilterSql.Proofs.Sql.Structure

/-!
# Compiled text has the structure of its tree

A text is described by factors when it is their conjunction.  Conditions, clauses
and filters without empty groups compile to text that their factors describe.
-/

namespace FilterSql

/-! ## Texts with a structure -/

/-- The text is that of a conjunction of sound factors. -/
structure Describes (factors : List Factor) (text : List Char) : Prop where
  nonempty : factors ≠ []
  sound : ∀ factor ∈ factors, factor.IsSound
  text_eq : List.intercalate conjunctionMark (factors.map Factor.text) = text

namespace Describes

variable {factors others : List Factor} {text after : List Char}

theorem atom (h : IsAtom text) : Describes [.atom text] text := by
  refine ⟨by simp, fun factor hfactor => ?_, by simp [Factor.text]⟩
  rw [List.mem_singleton.mp hfactor]
  exact h

theorem append (h : Describes factors text) (hafter : Describes others after) :
    Describes (factors ++ others) (text ++ conjunctionMark ++ after) := by
  refine ⟨by simp [h.nonempty], fun factor hfactor => ?_, ?_⟩
  · rcases List.mem_append.mp hfactor with hfactor | hfactor
    · exact h.sound factor hfactor
    · exact hafter.sound factor hfactor
  · have hfactors : factors.map Factor.text ≠ [] := by simpa using h.nonempty
    have hothers : others.map Factor.text ≠ [] := by simpa using hafter.nonempty
    rw [List.map_append, intercalate_append hfactors hothers, h.text_eq, hafter.text_eq]

theorem text_ne_nil (h : Describes factors text) : text ≠ [] := by
  cases hfactors : factors with
  | nil => exact absurd hfactors h.nonempty
  | cons first rest =>
      have hfirst := Factor.clashes_text (h.sound first (by simp [hfactors]))
      obtain ⟨later, hlater⟩ := exists_intercalate_cons conjunctionMark first.text
        (rest.map Factor.text)
      have htext := h.text_eq
      rw [hfactors, List.map_cons, hlater] at htext
      rintro rfl
      rw [(List.append_eq_nil_iff.mp htext).1] at hfirst
      exact hfirst.2 List.nil_prefix

theorem alternatives {groups : List (List Factor)} {parts : List (List Char)}
    (h : List.Forall₂ Describes groups parts) :
    Factor.AreSoundAlternatives groups ∧ Factor.alternativeTexts groups = parts := by
  induction h with
  | nil => exact ⟨trivial, rfl⟩
  | cons hfirst _ ih =>
      refine ⟨⟨hfirst.nonempty, Factor.areSound_iff.mpr hfirst.sound, ih.1⟩, ?_⟩
      rw [Factor.alternativeTexts, Factor.texts_eq_map, hfirst.text_eq, ih.2]

theorem group {groups : List (List Factor)} {parts : List (List Char)} (hgroups : groups ≠ [])
    (h : List.Forall₂ Describes groups parts) :
    Describes [.group groups]
      (groupOpening ++ List.intercalate disjunctionMark parts ++ [')']) := by
  obtain ⟨hsound, htexts⟩ := alternatives h
  refine ⟨by simp, fun factor hfactor => ?_, ?_⟩
  · rw [List.mem_singleton.mp hfactor]
    exact ⟨hgroups, hsound⟩
  · rw [List.map_singleton, List.intercalate_singleton, Factor.text, htexts]

theorem negation (h : Describes factors text) :
    Describes [.negation [factors]] (negationOpening ++ text ++ [')']) := by
  obtain ⟨hsound, htexts⟩ := alternatives (.cons h .nil)
  refine ⟨by simp, fun factor hfactor => ?_, ?_⟩
  · rw [List.mem_singleton.mp hfactor]
    exact ⟨by simp, hsound⟩
  · rw [List.map_singleton, List.intercalate_singleton, Factor.text, htexts,
      List.intercalate_singleton]

theorem text_singleton {factor : Factor} (h : Describes [factor] text) : factor.text = text := by
  simpa using h.text_eq

end Describes

/-! ## Texts of groups and negations -/

namespace Fragment

private theorem chars_of_isBlank {fragment : Fragment} (h : fragment.isBlank)
    (bindings : Bindings) : fragment.chars bindings = [] := by
  rw [eq_replicate_of_isBlank h]
  induction fragment.length with
  | zero => rfl
  | succ count ih =>
      rw [List.replicate_succ, chars_text_cons, ih]
      rfl

theorem describes_atoms {parts : List Fragment} (hparts : parts ≠ [])
    (h : ∀ part ∈ parts, IsAtomic part) (bindings : Bindings) :
    Describes ((charsOfEach parts bindings).map .atom)
      ((join " and " parts).chars bindings) := by
  induction parts generalizing bindings with
  | nil => exact absurd rfl hparts
  | cons first rest ih =>
      have hfirst := Describes.atom ((h first List.mem_cons_self).isAtom bindings)
      cases rest with
      | nil => simpa [charsOfEach] using hfirst
      | cons second rest =>
          have hrest := ih (by simp) (fun part hpart => h part (List.mem_cons_of_mem _ hpart))
            (first.bound bindings)
          have happend := hfirst.append hrest
          rw [join_cons_cons, chars_append, chars_text_cons, ← List.append_assoc]
          exact happend

end Fragment

namespace Compile

open Fragment

section Groups

variable {bindings : Bindings}

private theorem chars_or (parts : List Fragment) :
    (Fragment.join " or " parts).chars bindings =
      List.intercalate disjunctionMark (charsOfEach parts bindings) :=
  chars_join " or " parts bindings

private theorem chars_text (sql : String) : (text sql).chars bindings = sql.toList := by
  simp [text]

theorem chars_negation (part : Fragment) :
    (negation part).chars bindings = negationOpening ++ part.chars bindings ++ [')'] := by
  rw [negation, chars_append, chars_append, chars_text, chars_text]
  rfl

private theorem chars_disjunction {parts : List Fragment}
    (h : (Fragment.join " or " parts).chars bindings ≠ []) :
    (disjunction parts).chars bindings =
      groupOpening ++ List.intercalate disjunctionMark (charsOfEach parts bindings) ++ [')'] := by
  have hblank : ¬ (Fragment.join " or " parts).isBlank := fun hblank =>
    h (chars_of_isBlank hblank bindings)
  rw [disjunction, parens, if_neg hblank, chars_append, chars_append, chars_text, chars_text]
  exact congrArg (groupOpening ++ · ++ [')']) (chars_or parts)

theorem describes_disjunction {groups : List (List Factor)} {parts : List Fragment}
    (hparts : parts ≠ [])
    (h : List.Forall₂ Describes groups (charsOfEach parts bindings)) :
    (disjunction parts).chars bindings =
        groupOpening ++ List.intercalate disjunctionMark (charsOfEach parts bindings) ++ [')'] ∧
      Describes [.group groups] ((disjunction parts).chars bindings) := by
  cases parts with
  | nil => exact absurd rfl hparts
  | cons first rest =>
      cases h with
      | cons hfirst hrest =>
          have hbody : (Fragment.join " or " (first :: rest)).chars bindings ≠ [] := by
            obtain ⟨after, hafter⟩ := exists_intercalate_cons disjunctionMark
              (first.chars bindings) (charsOfEach rest (first.bound bindings))
            rw [chars_or, charsOfEach, hafter]
            exact List.append_ne_nil_of_left_ne_nil hfirst.text_ne_nil after
          have htext := chars_disjunction hbody
          refine ⟨htext, ?_⟩
          rw [htext]
          exact Describes.group (by simp) (.cons hfirst hrest)

end Groups

/-! ## The structure of compiled trees -/

section Json

variable {dialect : Dialect} {key : String}

private theorem jsonCondition_each (place : String) (predicate : JsonPredicate) :
    jsonCondition dialect key (.each [(place, predicate)]) =
      jsonEntry dialect key place predicate :=
  join_singleton " and " _

private theorem jsonEntry_eq (place : String) (predicate : JsonPredicate) :
    jsonEntry dialect key place predicate =
      conjunction (predicate.sides.map fun side =>
        jsonCondition dialect key (.each [(place, side)])) := by
  simp only [jsonCondition_each]
  cases predicate with
  | contains | equals => exact (join_singleton " and " _).symm
  | between atLeast atMost =>
      cases atLeast with
      | none => exact (join_singleton " and " _).symm
      | some lower =>
          cases atMost with
          | none => exact (join_singleton " and " _).symm
          | some upper => simp [JsonPredicate.sides, jsonEntry, jsonBound, conjunction]

private theorem sides_ne_nil (predicate : JsonPredicate) : predicate.sides ≠ [] := by
  unfold JsonPredicate.sides
  split <;> simp

/-- Conditions on several places are written like one condition for each. -/
theorem jsonCondition_eq (condition : JsonCondition) :
    jsonCondition dialect key condition =
      conjunction (condition.conjuncts.map (jsonCondition dialect key)) := by
  cases condition with
  | «at» path value => exact (join_singleton " and " _).symm
  | each entries =>
      have hgroups : ∀ group ∈ entries.map fun entry => entry.2.sides.map fun side =>
          jsonCondition dialect key (.each [(entry.1, side)]), group ≠ [] := by
        intro group hgroup
        obtain ⟨entry, -, rfl⟩ := List.mem_map.mp hgroup
        simpa using sides_ne_nil entry.2
      have hparts : entries.map (fun entry => jsonEntry dialect key entry.1 entry.2) =
          (entries.map fun entry => entry.2.sides.map fun side =>
            jsonCondition dialect key (.each [(entry.1, side)])).map conjunction := by
        rw [List.map_map]
        exact List.map_congr_left fun entry _ => jsonEntry_eq entry.1 entry.2
      have hconjuncts : ((JsonCondition.each entries).conjuncts.map (jsonCondition dialect key)) =
          (entries.map fun entry => entry.2.sides.map fun side =>
            jsonCondition dialect key (.each [(entry.1, side)])).flatten := by
        simp [JsonCondition.conjuncts, List.flatMap, Function.comp_def]
      rw [hconjuncts]
      exact (congrArg (Fragment.join " and ") hparts).trans
        (@intercalate_flatten _ (text " and ") _ hgroups)

private theorem atomic_between {place : String} {value : Value} :
    IsAtomic (jsonEntry dialect key place (.between (some value) none)) ∧
      IsAtomic (jsonEntry dialect key place (.between none (some value))) := by
  have hpath (operator : String) (hoperator : operator = ">=" ∨ operator = "<=") :
      ∀ part ∈ jsonBound dialect key (.one (.key place)) operator (some value),
        IsAtomic part := atomic_jsonBound (.one (.key place)) hoperator (some value)
  exact ⟨hpath ">=" (.inl rfl) _ (List.mem_singleton.mpr (join_singleton " and " _)),
    hpath "<=" (.inr rfl) _ (List.mem_singleton.mpr (join_singleton " and " _))⟩

private theorem atomic_jsonEntry (place : String) {predicate side : JsonPredicate}
    (h : predicate ≠ .between none none) (hside : side ∈ predicate.sides) :
    IsAtomic (jsonEntry dialect key place side) := by
  cases predicate with
  | contains needle =>
      rw [List.mem_singleton.mp hside]
      exact atomic_jsonContains _ needle
  | equals value =>
      rw [List.mem_singleton.mp hside]
      exact atomic_jsonEquals _ value
  | between atLeast atMost =>
      cases atLeast with
      | none =>
          cases atMost with
          | none => exact absurd rfl h
          | some upper =>
              rw [List.mem_singleton.mp hside]
              exact atomic_between.2
      | some lower =>
          cases atMost with
          | none =>
              rw [List.mem_singleton.mp hside]
              exact atomic_between.1
          | some upper =>
              rcases List.mem_cons.mp hside with rfl | hside
              · exact atomic_between.1
              · rw [List.mem_singleton.mp hside]
                exact atomic_between.2

private theorem describes_json {condition : JsonCondition} (h : condition.IsComplete)
    (bindings : Bindings) :
    Describes ((charsOfEach (condition.conjuncts.map (jsonCondition dialect key))
        bindings).map .atom)
      ((jsonCondition dialect key condition).chars bindings) := by
  have hatomic : ∀ part ∈ condition.conjuncts.map (jsonCondition dialect key),
      IsAtomic part := by
    intro part hpart
    obtain ⟨conjunct, hconjunct, rfl⟩ := List.mem_map.mp hpart
    cases condition with
    | «at» path value =>
        rw [List.mem_singleton.mp hconjunct]
        exact atomic_jsonEquals path value
    | each entries =>
        obtain ⟨⟨place, predicate⟩, hentry, hsides⟩ := List.mem_flatMap.mp hconjunct
        obtain ⟨side, hside, rfl⟩ := List.mem_map.mp hsides
        rw [jsonCondition_each]
        exact atomic_jsonEntry place (h.2 _ hentry) hside
  have hparts : condition.conjuncts.map (jsonCondition dialect key) ≠ [] := by
    cases condition with
    | «at» path value => simp [JsonCondition.conjuncts]
    | each entries =>
        cases entries with
        | nil => exact absurd rfl h.1
        | cons first rest =>
            have hsides : first.2.sides ≠ [] := sides_ne_nil first.2
            simp [JsonCondition.conjuncts, hsides]
  rw [jsonCondition_eq]
  exact describes_atoms hparts hatomic bindings

end Json

variable {options : CompileOptions}

private theorem describes_append {first : Fragment} {rest : List Fragment} (hrest : rest ≠ [])
    {factors others : List Factor} {bindings : Bindings}
    (hfirst : Describes factors (first.chars bindings))
    (hothers : Describes others ((conjunction rest).chars (first.bound bindings))) :
    Describes (factors ++ others) ((conjunction (first :: rest)).chars bindings) := by
  cases rest with
  | nil => exact absurd rfl hrest
  | cons second rest =>
      have happend := hfirst.append hothers
      rw [conjunction, join_cons_cons, chars_append, chars_text_cons, ← List.append_assoc]
      exact happend

theorem conditionsOn_ne_nil {key : String} {conditions : List Condition}
    (h : conditions ≠ []) : conditionsOn options key conditions ≠ [] := by
  simpa using h

private theorem clauses_ne_nil {scope : Option String} {filter : Filter} (h : filter ≠ []) :
    clauses options scope filter ≠ [] := by
  simpa using h

theorem alternativesOf_ne_nil {scope : Option String} {alternatives : List Filter}
    (h : alternatives ≠ []) : alternativesOf options scope alternatives ≠ [] := by
  cases alternatives with
  | nil => exact absurd rfl h
  | cons first rest => simp [alternativesOf]

theorem charsOfEach_ne_nil {parts : List Fragment} {bindings : Bindings}
    (h : parts ≠ []) : charsOfEach parts bindings ≠ [] := by
  cases parts with
  | nil => exact absurd rfl h
  | cons first rest => simp [charsOfEach]

private theorem balanced_clauses {scope : Option String} (hscope : IsBare scope)
    (filter : Filter) : ∀ part ∈ clauses options scope filter, IsBalanced false part :=
  isKept_balanced.clauses hscope filter fun name _ => admitsName_false name

mutual

theorem describes_condition (key : String) (condition : Condition) (h : condition.IsComplete)
    (bindings : Bindings) :
    Describes (conditionFactors options key condition bindings)
      ((conditionOn options key condition).chars bindings) := by
  cases condition with
  | oneOf members => exact .atom ((atomic_oneOf members).isAtom bindings)
  | slug value => exact .atom ((atomic_slug value).isAtom bindings)
  | anyOf alternatives =>
      exact (describes_disjunction (conditionsOn_ne_nil h.1)
        (describes_alternativeConditions key alternatives h.2 bindings)).2
  | allOf conditions => exact describes_conditions key conditions h.1 h.2 bindings
  | contains needle => exact .atom ((atomic_contains needle).isAtom bindings)
  | range bound value inclusive =>
      exact .atom ((atomic_range bound value inclusive).isAtom bindings)
  | inSelect select filter =>
      exact .atom ((atomic_membership (passes_selectText select)
        (balanced_clauses (isBare_selectScope select) filter)).isAtom bindings)
  | inChain chain filter =>
      exact .atom ((atomic_membership (passes_chainSelectText _ chain)
        (balanced_clauses (isBare_chainScope chain) filter)).isAtom bindings)
  | json condition => exact describes_json h bindings
  | isNull => exact .atom (atomic_isNull.isAtom bindings)
  | equals operand => exact .atom ((atomic_equals operand).isAtom bindings)

private theorem describes_conditions (key : String) (conditions : List Condition)
    (hconditions : conditions ≠ []) (h : Condition.AreComplete conditions)
    (bindings : Bindings) :
    Describes (conditionsFactors options key conditions bindings)
      ((conjunction (conditionsOn options key conditions)).chars bindings) := by
  cases conditions with
  | nil => exact absurd rfl hconditions
  | cons first rest =>
      have hfirst := describes_condition key first h.1 bindings
      cases rest with
      | nil =>
          rw [conditionsFactors, conditionsFactors, List.append_nil, conditionsOn, conditionsOn,
            conjunction, join_singleton]
          exact hfirst
      | cons second rest =>
          exact describes_append (conditionsOn_ne_nil (by simp)) hfirst
            (describes_conditions key (second :: rest) (by simp) h.2 _)

theorem describes_alternativeConditions (key : String) (alternatives : List Condition)
    (h : Condition.AreComplete alternatives) (bindings : Bindings) :
    List.Forall₂ Describes (alternativeConditionFactors options key alternatives bindings)
      (charsOfEach (conditionsOn options key alternatives) bindings) := by
  cases alternatives with
  | nil => exact .nil
  | cons first rest =>
      exact .cons (describes_condition key first h.1 bindings)
        (describes_alternativeConditions key rest h.2 _)

end

mutual

theorem describes_clause (scope : Option String) (requirement : Clause)
    (h : requirement.IsComplete) (bindings : Bindings) :
    Describes (clauseFactors options scope requirement bindings)
      ((clause options scope requirement).chars bindings) := by
  cases requirement with
  | search search => exact .atom ((atomic_textSearch options scope search).isAtom bindings)
  | or alternatives =>
      exact (describes_disjunction (alternativesOf_ne_nil h.1)
        (describes_alternatives scope alternatives h.2 bindings)).2
  | not negated =>
      rw [clause, chars_negation]
      exact (describes_filter scope negated h.1 h.2 bindings).negation
  | notColumn name =>
      have hcolumn := Describes.atom ((atomic_column name).isAtom bindings)
      rw [clause, chars_negation]
      rw [chars_text] at hcolumn ⊢
      exact hcolumn.negation
  | notValue value =>
      rw [clause, chars_negation]
      exact (Describes.atom ((atomic_value value).isAtom bindings)).negation
  | compare left right => exact .atom ((atomic_comparison left right).isAtom bindings)
  | field key condition => exact describes_condition (scopedKey scope key) condition h bindings

/-- The text of a filter that is not empty has the structure of the filter. -/
theorem describes_filter (scope : Option String) (filter : Filter) (hfilter : filter ≠ [])
    (h : Filter.IsComplete filter) (bindings : Bindings) :
    Describes (filterFactors options scope filter bindings)
      ((conjunction (clauses options scope filter)).chars bindings) := by
  cases filter with
  | nil => exact absurd rfl hfilter
  | cons first rest =>
      have hfirst := describes_clause scope first h.1 bindings
      cases rest with
      | nil =>
          rw [filterFactors, filterFactors, List.append_nil, clauses, clauses, conjunction,
            join_singleton]
          exact hfirst
      | cons second rest =>
          exact describes_append (clauses_ne_nil (by simp)) hfirst
            (describes_filter scope (second :: rest) (by simp) h.2 _)

theorem describes_alternatives (scope : Option String) (alternatives : List Filter)
    (h : Filter.AreComplete alternatives) (bindings : Bindings) :
    List.Forall₂ Describes (alternativeFactors options scope alternatives bindings)
      (charsOfEach (alternativesOf options scope alternatives) bindings) := by
  cases alternatives with
  | nil => exact .nil
  | cons first rest =>
      exact .cons (describes_filter scope first h.1.1 h.1.2 bindings)
        (describes_alternatives scope rest h.2 _)

end

end Compile

end FilterSql
