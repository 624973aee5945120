import FilterSql.Proofs.Sql.Payloads

/-!
# The layout of compiled text

A layout is the text of a fragment before its holes are numbered.  The text of a
compiled filter is its layout with a placeholder in each hole, and the layout
comes from the form of the filter: from all of it but its payloads, of which it
tells only texts from other values and single words from several.
-/

namespace FilterSql

/-! ## Layouts -/

namespace Fragment

/-- The texts of a fragment, with an open place for each hole. -/
def layout (fragment : Fragment) : List (Option String) :=
  fragment.map fun piece => match piece with
    | .text sql => some sql
    | .hole _ => none

/-- The text of a layout, its open places numbered on from `count`. -/
def fill (dialect : Dialect) : UInt64 → List (Option String) → String
  | _, [] => ""
  | count, some sql :: rest => sql ++ fill dialect count rest
  | count, none :: rest => Bindings.token dialect (count + 1) ++ fill dialect (count + 1) rest

/-- Of the bindings, rendered text shows the dialect and the count only. -/
theorem render_fst (fragment : Fragment) (bindings : Bindings) :
    (fragment.render bindings).1 = fill bindings.dialect bindings.count fragment.layout := by
  induction fragment generalizing bindings with
  | nil => rfl
  | cons piece rest ih =>
      cases piece with
      | text sql => exact congrArg (sql ++ ·) (ih bindings)
      | hole value =>
          exact congrArg (Bindings.token bindings.dialect (bindings.count + 1) ++ ·)
            (ih (bindings.push value).2)

theorem fill_sqlite (first second : UInt64) (layout : List (Option String)) :
    fill .sqlite first layout = fill .sqlite second layout := by
  induction layout generalizing first second with
  | nil => rfl
  | cons place rest ih =>
      cases place with
      | some sql => exact congrArg (sql ++ ·) (ih first second)
      | none => exact congrArg ("?" ++ ·) (ih (first + 1) (second + 1))

@[simp] theorem layout_nil : layout [] = [] := rfl

@[simp] theorem layout_text (sql : String) : layout (text sql) = [some sql] := rfl

@[simp] theorem layout_hole (value : Value) : layout (hole value) = [none] := rfl

@[simp] theorem layout_append (first second : Fragment) :
    layout (first ++ second) = layout first ++ layout second :=
  List.map_append

theorem length_values (fragment : Fragment) :
    fragment.values.length = fragment.layout.count none := by
  induction fragment with
  | nil => rfl
  | cons piece rest ih =>
      cases piece with
      | text sql =>
          have hvalues : values (.text sql :: rest) = values rest := rfl
          have hlayout : layout (.text sql :: rest) = some sql :: layout rest := rfl
          rw [hvalues, hlayout, List.count_cons_of_ne (by simp), ih]
      | hole value =>
          have hvalues : values (.hole value :: rest) = value :: values rest := rfl
          have hlayout : layout (.hole value :: rest) = none :: layout rest := rfl
          rw [hvalues, hlayout, List.count_cons_self, List.length_cons, ih]

theorem isBlank_eq_layout (fragment : Fragment) :
    fragment.isBlank = fragment.layout.all (· == some "") := by
  induction fragment with
  | nil => rfl
  | cons piece rest ih =>
      rw [isBlank] at ih ⊢
      cases piece with
      | text sql => simp [layout, ih]
      | hole value => simp [layout]

theorem layout_parens {first second : Fragment} (h : layout first = layout second) :
    layout (parens first) = layout (parens second) := by
  unfold parens
  rw [isBlank_eq_layout, isBlank_eq_layout, h]
  split <;> simp [h]

theorem layout_join (separator : String) (parts : List Fragment) :
    layout (join separator parts) = List.intercalate [some separator] (parts.map layout) := by
  induction parts with
  | nil => rfl
  | cons first rest ih =>
      cases rest with
      | nil => simp
      | cons second rest =>
          have hrest : layout (.text separator :: join separator (second :: rest)) =
              some separator :: layout (join separator (second :: rest)) := rfl
          rw [join_cons_cons, layout_append, hrest, ih]
          simp [List.intercalate_cons_cons]

end Fragment

/-! ## Forms -/

/-- Of a literal only whether it is a text, which Postgres has to be told. -/
def Operand.form : Operand → Operand
  | .null => .null
  | .literal value => .literal (if value.isString then .string "" else .null)
  | .column name => .column name

/-- The shortest term that is searched in the same way. -/
def TextSearch.form (search : TextSearch) : TextSearch :=
  { search with term := if Compile.isSingleWord search.term then "" else " " }

def JsonPredicate.form : JsonPredicate → JsonPredicate
  | .contains _ => .contains .null
  | .between atLeast atMost => .between (atLeast.map fun _ => .null) (atMost.map fun _ => .null)
  | .equals _ => .equals .null

def JsonCondition.form : JsonCondition → JsonCondition
  | .at path _ => .at path .null
  | .each entries => .each (entries.map fun entry => (entry.1, entry.2.form))

mutual

def Clause.form : Clause → Clause
  | .search search => .search search.form
  | .or alternatives => .or (Filter.formOfAll alternatives)
  | .not negated => .not (Filter.form negated)
  | .notColumn name => .notColumn name
  | .notValue _ => .notValue .null
  | .compare left right => .compare left.form right.form
  | .field key condition => .field key (Condition.form condition)

/-- All of a filter but the values that it binds. -/
def Filter.form : List Clause → List Clause
  | [] => []
  | first :: rest => Clause.form first :: Filter.form rest

def Filter.formOfAll : List (List Clause) → List (List Clause)
  | [] => []
  | first :: rest => Filter.form first :: Filter.formOfAll rest

def Condition.form : Condition → Condition
  | .oneOf _ => .oneOf .null
  | .slug _ => .slug ""
  | .anyOf alternatives => .anyOf (Condition.formOfAll alternatives)
  | .allOf conditions => .allOf (Condition.formOfAll conditions)
  | .contains _ => .contains .null
  | .range bound _ inclusive => .range bound .null inclusive
  | .inSelect select filter => .inSelect select (Filter.form filter)
  | .inChain chain filter => .inChain chain (Filter.form filter)
  | .json condition => .json condition.form
  | .isNull => .isNull
  | .equals operand => .equals operand.form

def Condition.formOfAll : List Condition → List Condition
  | [] => []
  | first :: rest => Condition.form first :: Condition.formOfAll rest

end

@[simp] theorem Filter.form_eq_nil {filter : Filter} : Filter.form filter = [] ↔ filter = [] := by
  cases filter <;> simp [Filter.form]

/-! ## Settings -/

/-- Settings that lay filters out alike, whatever parameters are bound before. -/
structure CompileOptions.Agrees (first second : CompileOptions) : Prop where
  dialect : first.dialect = second.dialect
  config : first.dialect = .postgres → Compile.configName first = Compile.configName second

theorem CompileOptions.Agrees.refl (options : CompileOptions) : options.Agrees options :=
  ⟨rfl, fun _ => rfl⟩

theorem CompileOptions.agrees_startingAfter (options : CompileOptions) (count : UInt64) :
    (options.startingAfter count).Agrees options :=
  ⟨rfl, fun _ => rfl⟩

/-! ## The layout of a tree is that of its form -/

namespace Compile

open Fragment

section Leaves

variable {dialect : Dialect} {key : String}

private theorem layout_operand (compared : Operand) :
    layout (operand dialect compared.form) = layout (operand dialect compared) := by
  cases compared with
  | null | column => rfl
  | literal value =>
      cases dialect with
      | sqlite => rfl
      | postgres =>
          cases value <;> rfl

private theorem layout_comparison (left right : Operand) :
    layout (comparison dialect left.form right.form) = layout (comparison dialect left right) := by
  have hleft : layout (operand dialect left.form) = layout (operand dialect left) :=
    layout_operand left
  have hright : layout (operand dialect right.form) = layout (operand dialect right) :=
    layout_operand right
  cases left <;> cases right <;> simp_all [comparison, Operand.form]

private theorem layout_equals (compared : Operand) :
    layout (equals dialect key compared.form) = layout (equals dialect key compared) := by
  have hoperand : layout (operand dialect compared.form) = layout (operand dialect compared) :=
    layout_operand compared
  cases compared <;> simp_all [equals, Operand.form]

private theorem layout_jsonEntry (place : String) (predicate : JsonPredicate) :
    layout (jsonEntry dialect key place predicate.form) =
      layout (jsonEntry dialect key place predicate) := by
  cases predicate with
  | contains | equals => rfl
  | between atLeast atMost => cases atLeast <;> cases atMost <;> rfl

private theorem layout_jsonCondition (condition : JsonCondition) :
    layout (jsonCondition dialect key condition.form) =
      layout (jsonCondition dialect key condition) := by
  cases condition with
  | «at» path value => rfl
  | each entries =>
      simp only [JsonCondition.form, jsonCondition, layout_join, List.map_map, Function.comp_def,
        layout_jsonEntry]

private theorem layout_oneOf (first second : Value) :
    layout (oneOf dialect key first) = layout (oneOf dialect key second) := by
  cases dialect <;> rfl

private theorem layout_textSearch {first second : CompileOptions} (h : first.Agrees second)
    (scope : Option String) (search : TextSearch) :
    layout (textSearch first scope search.form) = layout (textSearch second scope search) := by
  have hword : isSingleWord search.form.term = isSingleWord search.term := by
    by_cases hterm : isSingleWord search.term <;> simp [TextSearch.form, hterm] <;> decide
  have hdocument : searchDocument first.dialect search.form (search.form.table <|> scope) =
      searchDocument first.dialect search (search.table <|> scope) := rfl
  unfold textSearch
  rw [hdocument, hword, ← h.dialect]
  cases hdialect : first.dialect with
  | sqlite => rfl
  | postgres =>
      rw [h.config hdialect]
      by_cases hterm : isSingleWord search.term <;> simp [hterm]

private theorem layout_membership {select : String} {first second : List Fragment}
    (h : first.map layout = second.map layout) :
    layout (membership key select first) = layout (membership key select second) := by
  have hempty : first.isEmpty = second.isEmpty := by
    simpa using congrArg List.isEmpty h
  unfold membership conjunction
  rw [hempty]
  cases second.isEmpty <;> simp [layout_join, h]

end Leaves

variable {first second : CompileOptions}

mutual

theorem layout_clause (h : first.Agrees second) (scope : Option String) (requirement : Clause) :
    layout (clause first scope requirement.form) = layout (clause second scope requirement) := by
  cases requirement with
  | search search => exact layout_textSearch h scope search
  | or alternatives =>
      rw [Clause.form, clause, clause]
      refine layout_parens ?_
      rw [layout_join, layout_join, layout_alternativesOf h scope alternatives]
  | not negated =>
      rw [Clause.form, clause, clause, negation, negation]
      simp only [layout_append, conjunction, layout_join, layout_clauses h scope negated]
  | notColumn name => rfl
  | notValue value => rfl
  | compare left right =>
      rw [Clause.form, clause, clause, h.dialect]
      exact layout_comparison left right
  | field key condition => exact layout_conditionOn h (scopedKey scope key) condition

theorem layout_clauses (h : first.Agrees second) (scope : Option String)
    (filter : List Clause) :
    (clauses first scope (Filter.form filter)).map layout =
      (clauses second scope filter).map layout := by
  cases filter with
  | nil => rfl
  | cons requirement rest =>
      rw [Filter.form, clauses, clauses, List.map_cons, List.map_cons,
        layout_clause h scope requirement, layout_clauses h scope rest]

theorem layout_alternativesOf (h : first.Agrees second) (scope : Option String)
    (alternatives : List (List Clause)) :
    (alternativesOf first scope (Filter.formOfAll alternatives)).map layout =
      (alternativesOf second scope alternatives).map layout := by
  cases alternatives with
  | nil => rfl
  | cons alternative rest =>
      rw [Filter.formOfAll, alternativesOf, alternativesOf, List.map_cons, List.map_cons,
        conjunction, conjunction, layout_join, layout_join, layout_clauses h scope alternative,
        layout_alternativesOf h scope rest]

theorem layout_conditionOn (h : first.Agrees second) (key : String) (condition : Condition) :
    layout (conditionOn first key condition.form) = layout (conditionOn second key condition) := by
  cases condition with
  | oneOf members =>
      rw [Condition.form, conditionOn, conditionOn, h.dialect]
      exact layout_oneOf .null members
  | slug text =>
      rw [Condition.form, conditionOn, conditionOn, h.dialect]
      rfl
  | anyOf alternatives =>
      rw [Condition.form, conditionOn, conditionOn]
      refine layout_parens ?_
      rw [layout_join, layout_join, layout_conditionsOn h key alternatives]
  | allOf conditions =>
      rw [Condition.form, conditionOn, conditionOn, conjunction, conjunction, layout_join,
        layout_join, layout_conditionsOn h key conditions]
  | contains needle =>
      rw [Condition.form, conditionOn, conditionOn, h.dialect]
      rfl
  | range bound value inclusive => rfl
  | inSelect select filter =>
      exact layout_membership (layout_clauses h (selectScope select) filter)
  | inChain chain filter =>
      rw [Condition.form, conditionOn, conditionOn, h.dialect]
      exact layout_membership (layout_clauses h (some (chainScope chain)) filter)
  | json condition =>
      rw [Condition.form, conditionOn, conditionOn, h.dialect]
      exact layout_jsonCondition condition
  | isNull => rfl
  | equals operand =>
      rw [Condition.form, conditionOn, conditionOn, h.dialect]
      exact layout_equals operand

theorem layout_conditionsOn (h : first.Agrees second) (key : String)
    (conditions : List Condition) :
    (conditionsOn first key (Condition.formOfAll conditions)).map layout =
      (conditionsOn second key conditions).map layout := by
  cases conditions with
  | nil => rfl
  | cons condition rest =>
      rw [Condition.formOfAll, conditionsOn, conditionsOn, List.map_cons, List.map_cons,
        layout_conditionOn h key condition, layout_conditionsOn h key rest]

end

end Compile

/-! ## Layouts of filters -/

namespace Filter

open Fragment

theorem layout_fragment_form {first second : CompileOptions} (h : first.Agrees second)
    (filter : Filter) :
    layout (Filter.fragment first (Filter.form filter)) =
      layout (Filter.fragment second filter) := by
  rw [fragment, fragment, Compile.conjunction, Compile.conjunction, layout_join, layout_join,
    Compile.layout_clauses h none filter]

theorem layout_fragment_congr {first second : CompileOptions} (h : first.Agrees second)
    (filter : Filter) :
    layout (filter.fragment first) = layout (filter.fragment second) :=
  (layout_fragment_form (.refl first) filter).symm.trans (layout_fragment_form h filter)

theorem layout_fragment_of_form_eq (options : CompileOptions) {first second : Filter}
    (h : Filter.form first = Filter.form second) :
    layout (first.fragment options) = layout (second.fragment options) := by
  rw [← layout_fragment_form (.refl options) first, h, layout_fragment_form (.refl options)]

theorem sql_compile (options : CompileOptions) (filter : Filter) :
    (filter.compile options).sql =
      if filter = [] then ""
      else "WHERE " ++ fill options.dialect options.initialParamIndex
        (layout (filter.fragment options)) := by
  rw [compile_eq_render]
  cases filter with
  | nil => rfl
  | cons first rest => exact congrArg ("WHERE " ++ ·) (render_fst _ options.bindings)

end Filter

end FilterSql
