import FilterSql.Filter.Qualify
import FilterSql.Sql.JsonMatch
import FilterSql.Sql.Joins

/-!
# Filters as fragments

The text of a filter and its values in one, clause by clause and before any
placeholder is numbered.  `scope` is the table that the filter's own fields belong
to, inside a sub-select that has given it an alias; compiling in a scope is
compiling the qualified filter.
-/

namespace FilterSql.Compile

/-! ## Leaves -/

/-- A value compared for equality; Postgres has to be told that a text is one. -/
def literal (dialect : Dialect) (value : Value) : Fragment :=
  match dialect, value with
  | .postgres, .string _ => Fragment.hole value ++ Fragment.text "::text"
  | _, _ => Fragment.hole value

def operand (dialect : Dialect) : Operand → Fragment
  | .null => Fragment.text "null"
  | .literal value => literal dialect value
  | .column name => Fragment.text (columnRef name)

def comparison (dialect : Dialect) : Operand → Operand → Fragment
  | .null, .null => Fragment.text "null is null"
  | .null, other => operand dialect other ++ Fragment.text " is null"
  | other, .null => operand dialect other ++ Fragment.text " is null"
  | left, right => operand dialect left ++ Fragment.text "=" ++ operand dialect right

def oneOf (dialect : Dialect) (key : String) (members : Value) : Fragment :=
  match dialect with
  | .sqlite =>
    Fragment.text (columnRef key ++ " IN (SELECT value FROM json_each(") ++
      Fragment.hole members ++ Fragment.text "))"
  | .postgres =>
    Fragment.text (columnRef key ++ " = ANY (") ++ Fragment.hole members ++ Fragment.text ")"

/-- The slug of a column: lower case, blanks as hyphens, and on Postgres nothing but words. -/
def slugOf (dialect : Dialect) (key : String) : String :=
  let hyphens := "REPLACE(LOWER(" ++ columnRef key ++ "),' ','-')"
  match dialect with
  | .sqlite => hyphens
  | .postgres => "REGEXP_REPLACE(" ++ hyphens ++ ",'[^\\w-]','','g')"

def slug (dialect : Dialect) (key text : String) : Fragment :=
  Fragment.text (slugOf dialect key ++ "=") ++ Fragment.hole (.string text)

def rangeOperator (bound : RangeBound) (inclusive : Bool) : String :=
  match bound, inclusive with
  | .above, false => ">"
  | .above, true => ">="
  | .below, false => "<"
  | .below, true => "<="

def range (key : String) (bound : RangeBound) (value : Value) (inclusive : Bool) : Fragment :=
  Fragment.text (columnRef key ++ rangeOperator bound inclusive) ++ Fragment.hole value

def isNull (key : String) : Fragment := Fragment.text (columnRef key ++ " is null")

def equals (dialect : Dialect) (key : String) : Operand → Fragment
  | .null => isNull key
  | other => Fragment.text (columnRef key ++ "=") ++ operand dialect other

/-! ## Joins of parts -/

def conjunction (parts : List Fragment) : Fragment := Fragment.join " and " parts

def disjunction (parts : List Fragment) : Fragment := Fragment.parens (Fragment.join " or " parts)

def negation (part : Fragment) : Fragment :=
  Fragment.text "not (" ++ part ++ Fragment.text ")"

def membership (key select : String) (parts : List Fragment) : Fragment :=
  let filter := if parts.isEmpty then [] else Fragment.text " where " ++ conjunction parts
  Fragment.text (columnRef key ++ " in (" ++ select) ++ filter ++ Fragment.text ")"

/-! ## Clauses and conditions -/

mutual

def clause (options : CompileOptions) (scope : Option String) : Clause → Fragment
  | .search search => textSearch options scope search
  | .or alternatives => disjunction (alternativesOf options scope alternatives)
  | .not negated => negation (conjunction (clauses options scope negated))
  | .notColumn name => negation (Fragment.text (columnRef name))
  | .notValue value => negation (Fragment.hole value)
  | .compare left right => comparison options.dialect left right
  | .field key condition => conditionOn options (scopedKey scope key) condition

def clauses (options : CompileOptions) (scope : Option String) : List Clause → List Fragment
  | [] => []
  | first :: rest => clause options scope first :: clauses options scope rest

def alternativesOf (options : CompileOptions) (scope : Option String) :
    List (List Clause) → List Fragment
  | [] => []
  | first :: rest =>
    conjunction (clauses options scope first) :: alternativesOf options scope rest

def conditionOn (options : CompileOptions) (key : String) : Condition → Fragment
  | .oneOf members => oneOf options.dialect key members
  | .slug text => slug options.dialect key text
  | .anyOf alternatives => disjunction (conditionsOn options key alternatives)
  | .allOf conditions => conjunction (conditionsOn options key conditions)
  | .contains needle => containing options.dialect (columnRef key) needle
  | .range bound value inclusive => range key bound value inclusive
  | .inSelect select filter =>
    membership key (selectText select) (clauses options (selectScope select) filter)
  | .inChain chain filter =>
    membership key (chainSelectText options.dialect chain)
      (clauses options (some (chainScope chain)) filter)
  | .json condition => jsonCondition options.dialect key condition
  | .isNull => isNull key
  | .equals operand => equals options.dialect key operand

def conditionsOn (options : CompileOptions) (key : String) : List Condition → List Fragment
  | [] => []
  | first :: rest => conditionOn options key first :: conditionsOn options key rest

end

@[simp] theorem clauses_eq_map (options : CompileOptions) (scope : Option String)
    (filter : Filter) : clauses options scope filter = filter.map (clause options scope) := by
  induction filter with
  | nil => rfl
  | cons first rest ih => simp [clauses, ih]

@[simp] theorem conditionsOn_eq_map (options : CompileOptions) (key : String)
    (conditions : List Condition) :
    conditionsOn options key conditions = conditions.map (conditionOn options key) := by
  induction conditions with
  | nil => rfl
  | cons first rest ih => simp [conditionsOn, ih]

end FilterSql.Compile

namespace FilterSql

def Filter.fragment (options : CompileOptions) (filter : Filter) : Fragment :=
  Compile.conjunction (Compile.clauses options none filter)

end FilterSql
