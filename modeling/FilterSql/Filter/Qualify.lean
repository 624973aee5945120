import FilterSql.Filter.Basic

/-!
# Qualified filters

Inside a sub-select several tables are in scope.  Qualifying a filter points its
own fields, and its full-text searches that name no table, at one of them.
Sub-selects inside it keep a scope of their own, and comparisons of operands are
left as they are.
-/

namespace FilterSql

def qualifiedKey (table key : String) : String := "\"" ++ table ++ "\".\"" ++ key ++ "\""

def scopedKey (scope : Option String) (key : String) : String :=
  match scope with
  | some table => qualifiedKey table key
  | none => key

namespace Filter

def bareAlias (name : String) : String :=
  String.ofList ((name.toList.dropWhile (· == '"')).reverse.dropWhile (· == '"')).reverse

mutual

def qualifyClause (table : String) : Clause → Clause
  | .search search => .search { search with table := search.table <|> some table }
  | .or alternatives => .or (qualifyFilters table alternatives)
  | .not negated => .not (qualifyClauses table negated)
  | .notColumn name => .notColumn name
  | .notValue value => .notValue value
  | .compare left right => .compare left right
  | .field key condition => .field (qualifiedKey table key) condition

def qualifyClauses (table : String) : List Clause → List Clause
  | [] => []
  | clause :: rest => qualifyClause table clause :: qualifyClauses table rest

def qualifyFilters (table : String) : List (List Clause) → List (List Clause)
  | [] => []
  | filter :: rest => qualifyClauses table filter :: qualifyFilters table rest

end

/-- Points the filter at a table, given by its alias with or without double quotes. -/
def qualify (filter : Filter) (name : String) : Filter :=
  qualifyClauses (bareAlias name) filter

theorem qualifyClauses_eq_map (table : String) (clauses : List Clause) :
    qualifyClauses table clauses = clauses.map (qualifyClause table) := by
  induction clauses with
  | nil => rfl
  | cons clause rest ih => simp [qualifyClauses, ih]

@[simp] theorem length_qualify (filter : Filter) (name : String) :
    (filter.qualify name).length = filter.length := by
  simp [qualify, qualifyClauses_eq_map]

end Filter

end FilterSql
