import FilterSql.Proofs.Sql.Selects

/-!
# All compiled fragments

The compiler writes single conditions and puts them together.  What holds of
every single condition, and is kept by every way of putting them together, holds
of all that it writes.
-/

namespace FilterSql

/-! ## The names of a filter

Field keys and compared columns are the names that may hold dots and double
quotes; those of the filters inside sub-selects belong to them.
-/

mutual

def Clause.names : Clause → List String
  | .search _ => []
  | .or alternatives => Filter.namesOfAll alternatives
  | .not negated => Filter.names negated
  | .notColumn name => [name]
  | .notValue _ => []
  | .compare left right => left.names ++ right.names
  | .field key condition => key :: Condition.names condition

def Filter.names : List Clause → List String
  | [] => []
  | first :: rest => Clause.names first ++ Filter.names rest

def Filter.namesOfAll : List (List Clause) → List String
  | [] => []
  | first :: rest => Filter.names first ++ Filter.namesOfAll rest

def Condition.names : Condition → List String
  | .oneOf _ | .slug _ | .contains _ | .range _ _ _ | .json _ | .isNull => []
  | .anyOf alternatives => Condition.namesOfAll alternatives
  | .allOf conditions => Condition.namesOfAll conditions
  | .inSelect _ filter => Filter.names filter
  | .inChain _ filter => Filter.names filter
  | .equals operand => operand.names

def Condition.namesOfAll : List Condition → List String
  | [] => []
  | first :: rest => Condition.names first ++ Condition.namesOfAll rest

end

namespace Compile

/-! ## What every way of compiling keeps -/

/-- Holds of single conditions on admitted names, and of what is put together from them. -/
structure IsKept (options : CompileOptions) (admits : String → Prop) (holds : Fragment → Prop) :
    Prop where
  qualified {table key : String} (bare : '"' ∉ table.toList) :
    admits key → admits (qualifiedKey table key)
  search (scope : Option String) (search : TextSearch) :
    holds (textSearch options scope search)
  column {name : String} : admits name → holds (Fragment.text (columnRef name))
  value (value : Value) : holds (Fragment.hole value)
  comparison {left right : Operand} : (∀ name ∈ left.names, admits name) →
    (∀ name ∈ right.names, admits name) → holds (comparison options.dialect left right)
  oneOf {key : String} (members : Value) :
    admits key → holds (oneOf options.dialect key members)
  slug {key : String} (text : String) : admits key → holds (slug options.dialect key text)
  contains {key : String} (needle : Value) :
    admits key → holds (containing options.dialect (columnRef key) needle)
  range {key : String} (bound : RangeBound) (value : Value) (inclusive : Bool) :
    admits key → holds (range key bound value inclusive)
  json {key : String} (condition : JsonCondition) :
    admits key → holds (jsonCondition options.dialect key condition)
  isNull {key : String} : admits key → holds (isNull key)
  equals {key : String} {operand : Operand} : admits key →
    (∀ name ∈ operand.names, admits name) → holds (equals options.dialect key operand)
  conjunction {parts : List Fragment} :
    (∀ part ∈ parts, holds part) → holds (conjunction parts)
  disjunction {parts : List Fragment} :
    (∀ part ∈ parts, holds part) → holds (disjunction parts)
  negation {part : Fragment} : holds part → holds (negation part)
  inSelect {key : String} (select : SubSelect) {parts : List Fragment} : admits key →
    (∀ part ∈ parts, holds part) → holds (membership key (selectText select) parts)
  inChain {key : String} (chain : JoinChain) {parts : List Fragment} : admits key →
    (∀ part ∈ parts, holds part) →
      holds (membership key (chainSelectText options.dialect chain) parts)

def IsBare (scope : Option String) : Prop := ∀ table ∈ scope, '"' ∉ table.toList

theorem isBare_none : IsBare none := by
  intro table htable
  cases htable

theorem isBare_selectScope (select : SubSelect) : IsBare (selectScope select) := by
  unfold selectScope
  split
  · intro table htable
    cases htable
    decide
  · exact isBare_none

theorem isBare_chainScope (chain : JoinChain) : IsBare (some (chainScope chain)) := by
  intro table htable hquote
  cases htable
  have hplain := isPlain_of_mem_sanitize _ _ hquote
  cases hplain

namespace IsKept

variable {options : CompileOptions} {admits : String → Prop} {holds : Fragment → Prop}

private theorem admits_scopedKey (h : IsKept options admits holds) {scope : Option String}
    (hscope : IsBare scope) {key : String} (hkey : admits key) : admits (scopedKey scope key) := by
  cases scope with
  | none => exact hkey
  | some table => exact h.qualified (hscope table rfl) hkey

mutual

theorem clause (h : IsKept options admits holds) {scope : Option String}
    (hscope : IsBare scope) (requirement : Clause)
    (hnames : ∀ name ∈ requirement.names, admits name) :
    holds (Compile.clause options scope requirement) := by
  cases requirement with
  | search search => exact h.search scope search
  | or alternatives => exact h.disjunction (alternativesOf h hscope alternatives hnames)
  | not negated => exact h.negation (h.conjunction (clauses h hscope negated hnames))
  | notColumn name => exact h.negation (h.column (hnames name List.mem_cons_self))
  | notValue value => exact h.negation (h.value value)
  | compare left right =>
      exact h.comparison (fun name hname => hnames name (List.mem_append_left _ hname))
        (fun name hname => hnames name (List.mem_append_right _ hname))
  | field key condition =>
      exact conditionOn h (h.admits_scopedKey hscope (hnames key List.mem_cons_self)) condition
        fun name hname => hnames name (List.mem_cons_of_mem _ hname)

theorem clauses (h : IsKept options admits holds) {scope : Option String}
    (hscope : IsBare scope) (filter : List Clause)
    (hnames : ∀ name ∈ Filter.names filter, admits name) :
    ∀ part ∈ Compile.clauses options scope filter, holds part := by
  cases filter with
  | nil => exact fun part hpart => nomatch hpart
  | cons first rest =>
      intro part hpart
      rcases List.mem_cons.mp hpart with rfl | hpart
      · exact clause h hscope first fun name hname => hnames name (List.mem_append_left _ hname)
      · exact clauses h hscope rest
          (fun name hname => hnames name (List.mem_append_right _ hname)) part hpart

theorem alternativesOf (h : IsKept options admits holds) {scope : Option String}
    (hscope : IsBare scope) (alternatives : List (List Clause))
    (hnames : ∀ name ∈ Filter.namesOfAll alternatives, admits name) :
    ∀ part ∈ Compile.alternativesOf options scope alternatives, holds part := by
  cases alternatives with
  | nil => exact fun part hpart => nomatch hpart
  | cons first rest =>
      intro part hpart
      rcases List.mem_cons.mp hpart with rfl | hpart
      · exact h.conjunction (clauses h hscope first
          fun name hname => hnames name (List.mem_append_left _ hname))
      · exact alternativesOf h hscope rest
          (fun name hname => hnames name (List.mem_append_right _ hname)) part hpart

theorem conditionOn (h : IsKept options admits holds) {key : String} (hkey : admits key)
    (condition : Condition) (hnames : ∀ name ∈ condition.names, admits name) :
    holds (Compile.conditionOn options key condition) := by
  cases condition with
  | oneOf members => exact h.oneOf members hkey
  | slug text => exact h.slug text hkey
  | anyOf alternatives => exact h.disjunction (conditionsOn h hkey alternatives hnames)
  | allOf conditions => exact h.conjunction (conditionsOn h hkey conditions hnames)
  | contains needle => exact h.contains needle hkey
  | range bound value inclusive => exact h.range bound value inclusive hkey
  | inSelect select filter =>
      exact h.inSelect select hkey (clauses h (isBare_selectScope select) filter hnames)
  | inChain chain filter =>
      exact h.inChain chain hkey (clauses h (isBare_chainScope chain) filter hnames)
  | json condition => exact h.json condition hkey
  | isNull => exact h.isNull hkey
  | equals operand => exact h.equals hkey hnames

theorem conditionsOn (h : IsKept options admits holds) {key : String} (hkey : admits key)
    (conditions : List Condition) (hnames : ∀ name ∈ Condition.namesOfAll conditions, admits name) :
    ∀ part ∈ Compile.conditionsOn options key conditions, holds part := by
  cases conditions with
  | nil => exact fun part hpart => nomatch hpart
  | cons first rest =>
      intro part hpart
      rcases List.mem_cons.mp hpart with rfl | hpart
      · exact conditionOn h hkey first
          fun name hname => hnames name (List.mem_append_left _ hname)
      · exact conditionsOn h hkey rest
          (fun name hname => hnames name (List.mem_append_right _ hname)) part hpart

end

theorem fragment (h : IsKept options admits holds) (filter : Filter)
    (hnames : ∀ name ∈ Filter.names filter, admits name) : holds (filter.fragment options) :=
  h.conjunction (h.clauses isBare_none filter hnames)

end IsKept

/-! ## Brackets and literals close -/

section Balanced

open Fragment

variable {paired : Bool} {options : CompileOptions}

theorem hasPairedQuotes_qualifiedKey {table key : String} (htable : '"' ∉ table.toList)
    (hkey : HasPairedQuotes key) : HasPairedQuotes (qualifiedKey table key) := by
  have hcount : List.count '"' table.toList = 0 := List.count_eq_zero.mpr htable
  unfold HasPairedQuotes qualifiedKey at *
  simpa [hcount, Nat.even_add_one] using hkey

/-- Compiled fragments close the brackets and literals they open, wherever they stand. -/
theorem isKept_balanced : IsKept options (AdmitsName paired) (IsBalanced paired) where
  qualified htable hkey hpaired := hasPairedQuotes_qualifiedKey htable (hkey hpaired)
  search scope search := (phrase_textSearch options scope search).balanced
  column hname := (phrase_column hname).balanced
  value value := (phrase_value value).balanced
  comparison hleft hright := (phrase_comparison hleft hright).balanced
  oneOf members hkey := (phrase_oneOf hkey members).balanced
  slug text hkey := (phrase_slug hkey text).balanced
  contains needle hkey := (phrase_contains hkey needle).balanced
  range bound value inclusive hkey := (phrase_range hkey bound value inclusive).balanced
  json condition hkey := balanced_jsonCondition hkey condition
  isNull hkey := (phrase_isNull hkey).balanced
  equals hkey hnames := (phrase_equals hkey hnames).balanced
  conjunction hparts := balanced_conjunction hparts
  disjunction hparts := (phrase_disjunction hparts).balanced
  negation hpart := (phrase_negation hpart).balanced
  inSelect select _ hkey hparts :=
    (phrase_membership hkey (passes_selectText select) hparts).balanced
  inChain chain _ hkey hparts :=
    (phrase_membership hkey (passes_chainSelectText _ chain) hparts).balanced

end Balanced

end Compile

end FilterSql
