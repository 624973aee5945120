import FilterSql.Decimal.Layout
import FilterSql.Sql.Emit

/-!
# SQLite parameters

Bound values in the storage classes of SQLite.  Arrays and JSON documents are
bound as JSON text, booleans as 0 and 1, dates as text that sorts by time.
-/

namespace FilterSql.Sqlite

inductive Parameter where
  | text (content : String)
  | integer (n : Int64)
  | real (x : Double)
  /-- JSON text. -/
  | json (content : String)
  | null
  deriving DecidableEq, Repr

inductive Stored where
  | text (content : String)
  | integer (n : Int64)
  | real (x : Double)
  | null
  deriving DecidableEq, Repr

def Parameter.stored : Parameter → Stored
  | .text content => .text content
  | .integer n => .integer n
  | .real x => .real x
  | .json content => .text content
  | .null => .null

inductive BindError where
  | nonFinite (x : Double)
  deriving DecidableEq, Repr

def BindError.message : BindError → String
  | .nonFinite x => "Cannot bind non-finite float " ++ x.display

def Parameter.ofValue : Value → Except BindError Parameter
  | .null => .ok .null
  | .string content => .ok (.text content)
  | .integer n => .ok (.integer n)
  | .float x => if x.isFinite then .ok (.real x) else .error (.nonFinite x)
  | .boolean b => .ok (.integer (if b then 1 else 0))
  | .date instant => .ok (.text instant.millisText)
  | .array items => .ok (.json (Value.array items).toJson.text)
  | .json document => .ok (.json document.text)

structure Query where
  sql : String
  parameters : List Parameter
  deriving Repr

namespace Query

def isEmpty (query : Query) : Bool := query.sql == ""

def stored (query : Query) : List Stored := query.parameters.map Parameter.stored

def ofClause (compiled : WhereClause) : Except BindError Query := do
  let parameters ← compiled.values.mapM Parameter.ofValue
  .ok ⟨compiled.sql, parameters⟩

/-- Compiles for SQLite, whatever dialect the settings name. -/
def compile (options : CompileOptions) (filter : Option Filter) : Except BindError Query :=
  ofClause (FilterSql.compile (options.withDialect .sqlite) filter)

end Query

end FilterSql.Sqlite
