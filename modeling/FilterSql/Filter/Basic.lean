import FilterSql.Filter.TextSearch
import FilterSql.JsonPath
import FilterSql.Value

/-!
# Filters

A filter is an ordered list of clauses that all have to hold.  The order counts,
because it is the order in which values are bound to placeholders.
-/

namespace FilterSql

/-! ## Leaves -/

inductive Operand where
  | null
  /-- A value, which is bound. -/
  | literal (value : Value)
  /-- Another column, which is named in the SQL text. -/
  | column (name : String)
  deriving Repr, Inhabited

def Operand.ofValue : Value → Operand
  | .null => .null
  | value => .literal value

inductive RangeBound where
  | above
  | below
  deriving DecidableEq, Repr

inductive JsonPredicate where
  | contains (needle : Value)
  | between (atLeast atMost : Option Value)
  | equals (value : Value)
  deriving Repr, Inhabited

inductive JsonCondition where
  /-- One place, which has to hold one value. -/
  | at (path : JsonPath) (value : Value)
  /-- Several places, each with its own predicate. -/
  | each (entries : List (String × JsonPredicate))
  deriving Repr, Inhabited

/-! ## Sub-selects -/

/-- One table from which a field is selected, in plain form or joined to another. -/
structure SubSelect where
  table : String
  field : String
  tenant : Option String
  /-- Set together with `valueField` to join `table` to this table. -/
  through : Option String
  valueField : Option String
  deriving DecidableEq, Repr

namespace SubSelect

def plain (table field : String) : SubSelect := ⟨table, field, none, none, none⟩

def withTenant (select : SubSelect) (tenant : String) : SubSelect :=
  { select with tenant := some tenant }

def joining (select : SubSelect) (through valueField : String) : SubSelect :=
  { select with through := some through, valueField := some valueField }

end SubSelect

/-- How a table of a chain hangs on the one before it. -/
inductive JoinKey where
  /-- By a column of the table before. -/
  | foreign (column : String)
  /-- By a column of its own that refers to the table before. -/
  | inbound (column : String)
  deriving DecidableEq, Repr

structure JoinLevel where
  table : String
  key : JoinKey
  deriving DecidableEq, Repr

/-- A chain of joined tables, outermost first; there is always a first one. -/
structure JoinChain where
  schema : Option String
  first : JoinLevel
  rest : List JoinLevel
  deriving DecidableEq, Repr

namespace JoinChain

def levels (chain : JoinChain) : List JoinLevel := chain.first :: chain.rest

def ofLevels? (schema : Option String) : List JoinLevel → Option JoinChain
  | [] => none
  | first :: rest => some ⟨schema, first, rest⟩

@[simp] theorem ofLevels?_levels (chain : JoinChain) :
    ofLevels? chain.schema chain.levels = some chain := rfl

theorem ofLevels?_eq_none_iff {schema : Option String} {levels : List JoinLevel} :
    ofLevels? schema levels = none ↔ levels = [] := by
  cases levels <;> simp [ofLevels?]

end JoinChain

/-! ## The tree -/

mutual

inductive Clause where
  | search (search : TextSearch)
  | or (alternatives : List (List Clause))
  | not (negated : List Clause)
  /-- Negates a column, typically a boolean one. -/
  | notColumn (name : String)
  | notValue (value : Value)
  | compare (left right : Operand)
  | field (key : String) (condition : Condition)

inductive Condition where
  /-- Membership in a list that is bound as one value. -/
  | oneOf (members : Value)
  /-- Equality after both sides are turned into slugs. -/
  | slug (text : String)
  | anyOf (alternatives : List Condition)
  | allOf (conditions : List Condition)
  /-- A substring, whatever its case. -/
  | contains (needle : Value)
  | range (bound : RangeBound) (value : Value) (inclusive : Bool)
  | inSelect (select : SubSelect) (filter : List Clause)
  | inChain (chain : JoinChain) (filter : List Clause)
  | json (condition : JsonCondition)
  | isNull
  | equals (operand : Operand)

end

instance : Inhabited Condition := ⟨.isNull⟩

instance : Inhabited Clause := ⟨.compare .null .null⟩

/-- A filter; the empty one lets everything through. -/
abbrev Filter := List Clause

/-! ## Building filters -/

namespace Condition

def ofValue : Value → Condition
  | .null => .isNull
  | value => .equals (.literal value)

def greater (value : Value) : Condition := .range .above value false

def atLeast (value : Value) : Condition := .range .above value true

def less (value : Value) : Condition := .range .below value false

def atMost (value : Value) : Condition := .range .below value true

def equalsColumn (name : String) : Condition := .equals (.column name)

end Condition

namespace Filter

def empty : Filter := []

def and (filter : Filter) (clause : Clause) : Filter := filter ++ [clause]

def withField (filter : Filter) (key : String) (condition : Condition) : Filter :=
  filter.and (.field key condition)

def withAlternatives (filter : Filter) (alternatives : List Filter) : Filter :=
  filter.and (.or alternatives)

def without (filter negated : Filter) : Filter := filter.and (.not negated)

def withComparison (filter : Filter) (left right : Operand) : Filter :=
  filter.and (.compare left right)

def withSearch (filter : Filter) (search : TextSearch) : Filter :=
  filter.and (.search search)

end Filter

end FilterSql
