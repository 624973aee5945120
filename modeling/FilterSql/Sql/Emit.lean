import FilterSql.Sql.Compile

/-!
# The compiler

Compiling goes over a filter once.  Each clause gives its SQL text and binds its
values on the way, on bindings that all clauses and sub-selects share.
`FilterSql.Compile` tells texts and values apart from any bindings, as fragments.
-/

namespace FilterSql

/-- A step of the compiler: what it gives, and the bindings after it. -/
abbrev Emit := StateM Bindings

namespace Emit

open Compile (jsonPlace likeOperator rangeOperator slugOf)

def arg (value : Value) : Emit String := modifyGet fun bindings => bindings.push value

/-! ## Leaves -/

def literal (dialect : Dialect) (value : Value) : Emit String := do
  let token ← arg value
  match dialect, value with
  | .postgres, .string _ => return token ++ "::text"
  | _, _ => return token

def operand (dialect : Dialect) : Operand → Emit String
  | .null => return "null"
  | .literal value => literal dialect value
  | .column name => return columnRef name

def comparison (dialect : Dialect) : Operand → Operand → Emit String
  | .null, .null => return "null is null"
  | .null, other => return (← operand dialect other) ++ " is null"
  | other, .null => return (← operand dialect other) ++ " is null"
  | left, right => do
    let left ← operand dialect left
    let right ← operand dialect right
    return left ++ "=" ++ right

def oneOf (dialect : Dialect) (key : String) (members : Value) : Emit String := do
  let token ← arg members
  match dialect with
  | .sqlite => return columnRef key ++ " IN (SELECT value FROM json_each(" ++ token ++ "))"
  | .postgres => return columnRef key ++ " = ANY (" ++ token ++ ")"

def slug (dialect : Dialect) (key text : String) : Emit String := do
  let token ← arg (.string text)
  return slugOf dialect key ++ "=" ++ token

def containing (dialect : Dialect) (text : String) (needle : Value) : Emit String := do
  let token ← arg needle
  return text ++ " " ++ likeOperator dialect ++ " '%' || " ++ token ++ " || '%'"

def range (key : String) (bound : RangeBound) (value : Value) (inclusive : Bool) :
    Emit String := do
  let token ← arg value
  return columnRef key ++ rangeOperator bound inclusive ++ token

def equals (dialect : Dialect) (key : String) : Operand → Emit String
  | .null => return columnRef key ++ " is null"
  | other => do
    let right ← operand dialect other
    return columnRef key ++ "=" ++ right

def textSearch (options : CompileOptions) (scope : Option String) (search : TextSearch) :
    Emit String :=
  let document := Compile.searchDocument options.dialect search (search.table <|> scope)
  match options.dialect with
  | .sqlite => do
    let token ← arg (.string search.term)
    return document ++ " LIKE '%' || " ++ token ++ " || '%'"
  | .postgres => do
    let config := Compile.configName options
    let (function, term) :=
      if Compile.isSingleWord search.term then ("to_tsquery", search.term ++ ":*")
      else ("plainto_tsquery", search.term)
    let token ← arg (.string term)
    return "to_tsvector('" ++ config ++ "', " ++ document ++ ") @@ " ++ function ++ "('" ++
      config ++ "', " ++ token ++ ")"

/-! ## Joins of parts -/

def conjunction (parts : List String) : String := String.intercalate " and " parts

def parens (sql : String) : String := if sql = "" then sql else "(" ++ sql ++ ")"

def disjunction (parts : List String) : String := parens (String.intercalate " or " parts)

def negation (part : String) : String := "not (" ++ part ++ ")"

/-- A single part is used as it is, several are joined. -/
def andArray : List String → String
  | [part] => part
  | parts => conjunction parts

@[simp] theorem andArray_eq_conjunction (parts : List String) :
    andArray parts = conjunction parts := by
  unfold andArray
  split <;> simp [conjunction]

def subWhere (parts : List String) : String :=
  if parts.isEmpty then "" else " where " ++ conjunction parts

def membership (key select : String) (parts : List String) : String :=
  columnRef key ++ " in (" ++ select ++ subWhere parts ++ ")"

/-! ## JSON columns -/

def jsonEquals (dialect : Dialect) (key : String) (path : JsonPath) (value : Value) :
    Emit String := do
  let token ← arg value
  return jsonPlace dialect key path true ++ "=" ++ token

def jsonBound (dialect : Dialect) (key : String) (path : JsonPath) (operator : String) :
    Option Value → Emit (List String)
  | none => return []
  | some value => do
    let token ← arg value
    return [jsonPlace dialect key path false ++ " " ++ operator ++ " " ++ token]

def jsonEntry (dialect : Dialect) (key place : String) (predicate : JsonPredicate) :
    Emit String :=
  let path := JsonPath.one (.key place)
  match predicate with
  | .contains needle => containing dialect (jsonPlace dialect key path true) needle
  | .between atLeast atMost => do
    let lower ← jsonBound dialect key path ">=" atLeast
    let upper ← jsonBound dialect key path "<=" atMost
    return andArray (lower ++ upper)
  | .equals value => jsonEquals dialect key path value

def jsonEntries (dialect : Dialect) (key : String) :
    List (String × JsonPredicate) → Emit (List String)
  | [] => return []
  | (place, predicate) :: rest => do
    let part ← jsonEntry dialect key place predicate
    let parts ← jsonEntries dialect key rest
    return part :: parts

def jsonCondition (dialect : Dialect) (key : String) : JsonCondition → Emit String
  | .at path value => jsonEquals dialect key path value
  | .each entries => return andArray (← jsonEntries dialect key entries)

/-! ## Clauses and conditions -/

mutual

def clause (options : CompileOptions) (scope : Option String) : Clause → Emit String
  | .search search => textSearch options scope search
  | .or alternatives => return disjunction (← alternativesOf options scope alternatives)
  | .not negated => return negation (conjunction (← clauses options scope negated))
  | .notColumn name => return negation (columnRef name)
  | .notValue value => return negation (← arg value)
  | .compare left right => comparison options.dialect left right
  | .field key condition => conditionOn options (scopedKey scope key) condition

def clauses (options : CompileOptions) (scope : Option String) :
    List Clause → Emit (List String)
  | [] => return []
  | first :: rest => do
    let part ← clause options scope first
    let parts ← clauses options scope rest
    return part :: parts

def alternativesOf (options : CompileOptions) (scope : Option String) :
    List (List Clause) → Emit (List String)
  | [] => return []
  | first :: rest => do
    let parts ← clauses options scope first
    let others ← alternativesOf options scope rest
    return conjunction parts :: others

def conditionOn (options : CompileOptions) (key : String) : Condition → Emit String
  | .oneOf members => oneOf options.dialect key members
  | .slug text => slug options.dialect key text
  | .anyOf alternatives => return disjunction (← conditionsOn options key alternatives)
  | .allOf conditions => return conjunction (← conditionsOn options key conditions)
  | .contains needle => containing options.dialect (columnRef key) needle
  | .range bound value inclusive => range key bound value inclusive
  | .inSelect select filter => do
    let parts ← clauses options (Compile.selectScope select) filter
    return membership key (Compile.selectText select) parts
  | .inChain chain filter => do
    let parts ← clauses options (some (Compile.chainScope chain)) filter
    return membership key (Compile.chainSelectText options.dialect chain) parts
  | .json condition => jsonCondition options.dialect key condition
  | .isNull => return columnRef key ++ " is null"
  | .equals operand => equals options.dialect key operand

def conditionsOn (options : CompileOptions) (key : String) :
    List Condition → Emit (List String)
  | [] => return []
  | first :: rest => do
    let part ← conditionOn options key first
    let parts ← conditionsOn options key rest
    return part :: parts

end

end Emit

/-! ## Compilers -/

def CompileOptions.bindings (options : CompileOptions) : Bindings :=
  .new options.dialect options.initialParamIndex

/-- What a compiler has bound so far, under options that stay the same. -/
structure Compiler where
  options : CompileOptions
  count : UInt64
  values : List Value

namespace Compiler

def new (options : CompileOptions) : Compiler := ⟨options, options.initialParamIndex, []⟩

def bindings (compiler : Compiler) : Bindings :=
  ⟨compiler.options.dialect, compiler.count, compiler.values⟩

inductive Call where
  | clauses (filter : Filter)
  | clause (clause : Clause)
  | condition (key : String) (condition : Condition)

def Call.emit (options : CompileOptions) : Call → Emit String
  | .clauses filter => return Emit.conjunction (← Emit.clauses options none filter)
  | .clause requirement => Emit.clause options none requirement
  | .condition key asked => Emit.conditionOn options key asked

def call (compiler : Compiler) (call : Call) : String × Compiler :=
  let (sql, bindings) := ((call.emit compiler.options).run compiler.bindings).run
  (sql, { compiler with count := bindings.count, values := bindings.values })

end Compiler

/-! ## Whole filters -/

/-- A compiled filter: nothing or `WHERE …`, and the values of its placeholders in order. -/
structure WhereClause where
  sql : String
  values : List Value
  deriving Repr

namespace WhereClause

def empty : WhereClause := ⟨"", []⟩

def isEmpty (compiled : WhereClause) : Bool := compiled.sql == ""

end WhereClause

/-- Compiles a filter in one call of a new compiler; the empty one needs no `WHERE`. -/
def Filter.compile (options : CompileOptions) (filter : Filter) : WhereClause :=
  if filter.isEmpty then .empty
  else
    let (sql, compiler) := (Compiler.new options).call (.clauses filter)
    ⟨"WHERE " ++ sql, compiler.values⟩

def compile (options : CompileOptions) (filter : Option Filter) : WhereClause :=
  match filter with
  | some filter => filter.compile options
  | none => .empty

def Filter.toSql (filter : Filter) (dialect : Dialect) : WhereClause :=
  filter.compile (.ofDialect dialect)

end FilterSql
