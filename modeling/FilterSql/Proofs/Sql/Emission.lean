import FilterSql.Proofs.Sql.Rendering
import FilterSql.Sql.Emit

/-!
# What the compiler emits

From any bindings, the compiler writes the text that the fragment of a clause renders
to, and leaves the bindings that the fragment leaves.
-/

namespace FilterSql

namespace Fragment

@[simp] theorem render_nil (bindings : Bindings) : render [] bindings = ("", bindings) := rfl

@[simp] theorem render_text (sql : String) (bindings : Bindings) :
    (text sql).render bindings = (sql, bindings) := by
  simp [text, render]

@[simp] theorem render_hole (value : Value) (bindings : Bindings) :
    (hole value).render bindings = bindings.push value := by
  simp [hole, render]

/-! ## Blank fragments -/

theorem push_ne_empty (bindings : Bindings) (value : Value) : (bindings.push value).1 ≠ "" := by
  cases hdialect : bindings.dialect <;> simp [Bindings.push, Bindings.token, hdialect]

theorem isBlank_iff (fragment : Fragment) (bindings : Bindings) :
    fragment.isBlank ↔ (fragment.render bindings).1 = "" := by
  induction fragment generalizing bindings with
  | nil => simp [isBlank]
  | cons piece rest ih =>
      cases piece with
      | text sql => simpa [isBlank, render] using fun _ => ih bindings
      | hole value => simp [isBlank, render, push_ne_empty]

theorem render_parens (fragment : Fragment) (bindings : Bindings) :
    (parens fragment).render bindings =
      (Emit.parens (fragment.render bindings).1, (fragment.render bindings).2) := by
  unfold parens Emit.parens
  by_cases hblank : fragment.isBlank
  · rw [if_pos hblank, if_pos ((isBlank_iff fragment bindings).mp hblank)]
  · rw [if_neg hblank, if_neg (mt (isBlank_iff fragment bindings).mpr hblank)]
    simp [render_append, String.append_assoc]

/-! ## Parts -/

def renderEach : List Fragment → Bindings → List String × Bindings
  | [], bindings => ([], bindings)
  | first :: rest, bindings =>
    let (sql, next) := first.render bindings
    let (others, last) := renderEach rest next
    (sql :: others, last)

@[simp] theorem renderEach_append (first second : List Fragment) (bindings : Bindings) :
    renderEach (first ++ second) bindings =
      ((renderEach first bindings).1 ++ (renderEach second (renderEach first bindings).2).1,
        (renderEach second (renderEach first bindings).2).2) := by
  induction first generalizing bindings with
  | nil => rfl
  | cons part rest ih => simp [renderEach, ih]

theorem render_join (separator : String) (parts : List Fragment) (bindings : Bindings) :
    (join separator parts).render bindings =
      (String.intercalate separator (renderEach parts bindings).1,
        (renderEach parts bindings).2) := by
  induction parts generalizing bindings with
  | nil => rfl
  | cons first rest ih =>
      cases rest with
      | nil => simp [renderEach]
      | cons second rest =>
          have hrest := ih (first.render bindings).2
          simp only [renderEach] at hrest
          simp [render_append, render, hrest, renderEach, String.intercalate_cons_cons,
            String.append_assoc]

end Fragment

namespace Emit

open Fragment

@[simp] theorem run_arg (value : Value) (bindings : Bindings) :
    ((arg value).run bindings).run = bindings.push value := rfl

/-! ## Leaves -/

section Leaves

variable (dialect : Dialect) (key : String) (bindings : Bindings)

@[simp] theorem run_literal (value : Value) :
    ((literal dialect value).run bindings).run =
      (Compile.literal dialect value).render bindings := by
  cases dialect <;> cases value <;> simp [literal, Compile.literal, render_append]

@[simp] theorem run_operand (compared : Operand) :
    ((operand dialect compared).run bindings).run =
      (Compile.operand dialect compared).render bindings := by
  cases compared <;> simp [operand, Compile.operand]

@[simp] theorem run_comparison (left right : Operand) :
    ((comparison dialect left right).run bindings).run =
      (Compile.comparison dialect left right).render bindings := by
  cases left <;> cases right <;>
    simp [comparison, Compile.comparison, render_append, String.append_assoc]

@[simp] theorem run_oneOf (members : Value) :
    ((oneOf dialect key members).run bindings).run =
      (Compile.oneOf dialect key members).render bindings := by
  cases dialect <;> simp [oneOf, Compile.oneOf, render_append, String.append_assoc]

@[simp] theorem run_slug (text : String) :
    ((slug dialect key text).run bindings).run =
      (Compile.slug dialect key text).render bindings := by
  simp [slug, Compile.slug, render_append]

@[simp] theorem run_containing (text : String) (needle : Value) :
    ((containing dialect text needle).run bindings).run =
      (Compile.containing dialect text needle).render bindings := by
  simp [containing, Compile.containing, render_append, String.append_assoc]

@[simp] theorem run_range (bound : RangeBound) (value : Value) (inclusive : Bool) :
    ((range key bound value inclusive).run bindings).run =
      (Compile.range key bound value inclusive).render bindings := by
  simp [range, Compile.range, render_append]

@[simp] theorem run_equals (compared : Operand) :
    ((equals dialect key compared).run bindings).run =
      (Compile.equals dialect key compared).render bindings := by
  cases compared <;> simp [equals, Compile.equals, Compile.isNull, render_append]

@[simp] theorem run_textSearch (options : CompileOptions) (scope : Option String)
    (search : TextSearch) :
    ((textSearch options scope search).run bindings).run =
      (Compile.textSearch options scope search).render bindings := by
  unfold textSearch Compile.textSearch
  cases options.dialect with
  | sqlite => simp [render_append, String.append_assoc]
  | postgres =>
      by_cases hword : Compile.isSingleWord search.term <;>
        simp [hword, render_append, String.append_assoc]

@[simp] theorem run_jsonEquals (path : JsonPath) (value : Value) :
    ((jsonEquals dialect key path value).run bindings).run =
      (Compile.jsonEquals dialect key path value).render bindings := by
  simp [jsonEquals, Compile.jsonEquals, render_append]

@[simp] theorem run_jsonBound (path : JsonPath) (operator : String) (bound : Option Value) :
    ((jsonBound dialect key path operator bound).run bindings).run =
      renderEach (Compile.jsonBound dialect key path operator bound) bindings := by
  cases bound <;> simp [jsonBound, Compile.jsonBound, renderEach, render_append]

@[simp] theorem run_jsonEntry (place : String) (predicate : JsonPredicate) :
    ((jsonEntry dialect key place predicate).run bindings).run =
      (Compile.jsonEntry dialect key place predicate).render bindings := by
  cases predicate <;> simp [jsonEntry, Compile.jsonEntry, render_join, conjunction]

@[simp] theorem run_jsonEntries (entries : List (String × JsonPredicate)) :
    ((jsonEntries dialect key entries).run bindings).run =
      renderEach (entries.map fun (place, predicate) =>
        Compile.jsonEntry dialect key place predicate) bindings := by
  induction entries generalizing bindings with
  | nil => rfl
  | cons first rest ih => simp [jsonEntries, renderEach, ih]

@[simp] theorem run_jsonCondition (condition : JsonCondition) :
    ((jsonCondition dialect key condition).run bindings).run =
      (Compile.jsonCondition dialect key condition).render bindings := by
  cases condition <;> simp [jsonCondition, Compile.jsonCondition, render_join, conjunction]

end Leaves

/-! ## Joins -/

theorem render_conjunction (parts : List Fragment) (bindings : Bindings) :
    (Compile.conjunction parts).render bindings =
      (conjunction (renderEach parts bindings).1, (renderEach parts bindings).2) :=
  render_join " and " parts bindings

theorem render_disjunction (parts : List Fragment) (bindings : Bindings) :
    (Compile.disjunction parts).render bindings =
      (disjunction (renderEach parts bindings).1, (renderEach parts bindings).2) := by
  rw [Compile.disjunction, render_parens, render_join, disjunction]

theorem render_negation (part : Fragment) (bindings : Bindings) :
    (Compile.negation part).render bindings =
      (negation (part.render bindings).1, (part.render bindings).2) := by
  simp [Compile.negation, negation, render_append, String.append_assoc]

theorem render_membership (key select : String) (parts : List Fragment) (bindings : Bindings) :
    (Compile.membership key select parts).render bindings =
      (membership key select (renderEach parts bindings).1, (renderEach parts bindings).2) := by
  cases parts <;>
    simp [Compile.membership, membership, subWhere, renderEach, render_append,
      render_conjunction, String.append_assoc]

/-! ## Clauses and conditions -/

variable (options : CompileOptions)

mutual

theorem run_clause (scope : Option String) (requirement : Clause) (bindings : Bindings) :
    ((clause options scope requirement).run bindings).run =
      (Compile.clause options scope requirement).render bindings := by
  cases requirement with
  | search search => simp [clause, Compile.clause]
  | or alternatives =>
      have halternatives := run_alternativesOf scope alternatives bindings
      simp [clause, Compile.clause, halternatives, render_disjunction]
  | not negated =>
      have hnegated := run_clauses scope negated bindings
      simp [clause, Compile.clause, hnegated, render_conjunction, render_negation]
  | notColumn name => simp [clause, Compile.clause, render_negation]
  | notValue value => simp [clause, Compile.clause, render_negation]
  | compare left right => simp [clause, Compile.clause]
  | field key condition => exact run_conditionOn (scopedKey scope key) condition bindings

theorem run_clauses (scope : Option String) (filter : List Clause) (bindings : Bindings) :
    ((clauses options scope filter).run bindings).run =
      renderEach (Compile.clauses options scope filter) bindings := by
  cases filter with
  | nil => rfl
  | cons first rest =>
      have hfirst := run_clause scope first bindings
      have hrest := run_clauses scope rest
      simp [clauses, hfirst, hrest, renderEach]

theorem run_alternativesOf (scope : Option String) (alternatives : List (List Clause))
    (bindings : Bindings) :
    ((alternativesOf options scope alternatives).run bindings).run =
      renderEach (Compile.alternativesOf options scope alternatives) bindings := by
  cases alternatives with
  | nil => rfl
  | cons first rest =>
      have hfirst := run_clauses scope first bindings
      have hrest := run_alternativesOf scope rest
      simp [alternativesOf, Compile.alternativesOf, hfirst, hrest, renderEach, render_conjunction]

theorem run_conditionOn (key : String) (condition : Condition) (bindings : Bindings) :
    ((conditionOn options key condition).run bindings).run =
      (Compile.conditionOn options key condition).render bindings := by
  cases condition with
  | oneOf | slug | contains | range | json | equals => simp [conditionOn, Compile.conditionOn]
  | isNull => simp [conditionOn, Compile.conditionOn, Compile.isNull]
  | anyOf alternatives =>
      have halternatives := run_conditionsOn key alternatives bindings
      simp [conditionOn, Compile.conditionOn, halternatives, render_disjunction]
  | allOf conditions =>
      have hconditions := run_conditionsOn key conditions bindings
      simp [conditionOn, Compile.conditionOn, hconditions, render_conjunction]
  | inSelect select filter =>
      have hfilter := run_clauses (Compile.selectScope select) filter bindings
      simp [conditionOn, Compile.conditionOn, hfilter, render_membership]
  | inChain chain filter =>
      have hfilter := run_clauses (some (Compile.chainScope chain)) filter bindings
      simp [conditionOn, Compile.conditionOn, hfilter, render_membership]

theorem run_conditionsOn (key : String) (conditions : List Condition) (bindings : Bindings) :
    ((conditionsOn options key conditions).run bindings).run =
      renderEach (Compile.conditionsOn options key conditions) bindings := by
  cases conditions with
  | nil => rfl
  | cons first rest =>
      have hfirst := run_conditionOn key first bindings
      have hrest := run_conditionsOn key rest
      simp [conditionsOn, hfirst, hrest, renderEach]

end

end Emit

/-! ## Calls and whole filters -/

namespace Compiler

def Call.fragment (options : CompileOptions) : Call → Fragment
  | .clauses filter => filter.fragment options
  | .clause requirement => Compile.clause options none requirement
  | .condition key asked => Compile.conditionOn options key asked

/-- A call writes the text of its fragment and binds its values. -/
theorem call_eq_render (compiler : Compiler) (call : Call) :
    compiler.call call =
      (((call.fragment compiler.options).render compiler.bindings).1,
        { compiler with
          count := ((call.fragment compiler.options).render compiler.bindings).2.count
          values := ((call.fragment compiler.options).render compiler.bindings).2.values }) := by
  have hemit : ((call.emit compiler.options).run compiler.bindings).run =
      (call.fragment compiler.options).render compiler.bindings := by
    cases call with
    | clauses filter =>
        simp [Call.emit, Call.fragment, Filter.fragment, Emit.run_clauses,
          Emit.render_conjunction]
    | clause requirement => exact Emit.run_clause _ none requirement _
    | condition key asked => exact Emit.run_conditionOn _ key asked _
  rw [Compiler.call, hemit]

end Compiler

theorem Filter.compile_eq_render (options : CompileOptions) (filter : Filter) :
    filter.compile options =
      if filter.isEmpty then .empty
      else ⟨"WHERE " ++ ((filter.fragment options).render options.bindings).1,
        ((filter.fragment options).render options.bindings).2.values⟩ := by
  rw [Filter.compile, Compiler.call_eq_render]
  rfl

theorem Filter.sql_compile_of_ne_nil (options : CompileOptions) {filter : Filter}
    (h : filter ≠ []) : (filter.compile options).sql =
      "WHERE " ++ ((filter.fragment options).render options.bindings).1 := by
  rw [Filter.compile_eq_render, if_neg (by simpa using h)]

end FilterSql
