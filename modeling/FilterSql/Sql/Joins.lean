import FilterSql.Filter.Basic
import FilterSql.Sql.TextMatch

/-!
# Sub-selects in SQL

The tables, joins and selected columns of sub-selects; the filter inside is
compiled elsewhere and comes after them.
-/

namespace FilterSql.Compile

/-! ## One table, or one table through another -/

def selectAlias : String := "ss1"

def throughAlias : String := "ss2"

/-- The scope of the filter inside: the joined table has an alias, a single table none. -/
def selectScope (select : SubSelect) : Option String :=
  match select.through, select.valueField with
  | some _, some _ => some throughAlias
  | _, _ => none

def selectText (select : SubSelect) : String :=
  let tenant := match select.tenant with
    | some tenant => nameRef tenant ++ "."
    | none => ""
  let table := tenant ++ nameRef select.table
  match select.through, select.valueField with
  | some through, some valueField =>
    let first := nameRef selectAlias
    let second := nameRef throughAlias
    "select " ++ first ++ "." ++ nameRef valueField ++ " from " ++ table ++ " " ++ first ++
      " join " ++ tenant ++ nameRef through ++ " " ++ second ++ " on " ++ second ++ ".id = " ++
      first ++ "." ++ nameRef select.field
  | _, _ => "select " ++ nameRef select.field ++ " from " ++ table

/-! ## A chain of tables -/

def levelAlias (level : JoinLevel) (place : Nat) : String :=
  sanitize (level.table ++ "SubJ" ++ toString place)

def chainScope (chain : JoinChain) : String := levelAlias chain.first 0

structure ChainText where
  column : String
  tables : List String
  deriving DecidableEq, Repr

def aliasedTable (schema : String) (level : JoinLevel) (place : Nat) : String :=
  schema ++ nameRef level.table ++ " " ++ nameRef (levelAlias level place)

def joinText (schema : String) (previous : String) (level : JoinLevel) (place : Nat) : String :=
  let name := nameRef (levelAlias level place)
  let condition := match level.key with
    | .foreign column => previous ++ "." ++ nameRef column ++ " = " ++ name ++ ".id"
    | .inbound column => previous ++ ".\"id\" = " ++ name ++ "." ++ nameRef column
  "join " ++ aliasedTable schema level place ++ " on " ++ condition

/--
The joins of all levels from `place` on.  The last level gives the column: a
foreign key is read from the table before, which makes the join needless, and
an inbound key gives the id of its own table.
-/
def joins (schema : String) (previous : String) (place : Nat) : List JoinLevel → ChainText
  | [] => ⟨"", []⟩
  | [level] =>
    match level.key with
    | .foreign column => ⟨previous ++ "." ++ nameRef column, []⟩
    | .inbound _ =>
      ⟨nameRef (levelAlias level place) ++ ".\"id\"", [joinText schema previous level place]⟩
  | level :: rest =>
    let later := joins schema (nameRef (levelAlias level place)) (place + 1) rest
    ⟨later.column, joinText schema previous level place :: later.tables⟩

def chainText (dialect : Dialect) (chain : JoinChain) : ChainText :=
  let schema := schemaText dialect chain.schema
  let name := nameRef (chainScope chain)
  let source := "from " ++ aliasedTable schema chain.first 0
  match chain.rest with
  | [] =>
    match chain.first.key with
    | .foreign column => ⟨name ++ "." ++ nameRef column, [source]⟩
    | .inbound _ => ⟨name ++ ".\"id\"", [source]⟩
  | rest =>
    let later := joins schema name 1 rest
    ⟨later.column, source :: later.tables⟩

def chainSelectText (dialect : Dialect) (chain : JoinChain) : String :=
  let text := chainText dialect chain
  "select " ++ text.column ++ " " ++ String.intercalate " " text.tables

end FilterSql.Compile
