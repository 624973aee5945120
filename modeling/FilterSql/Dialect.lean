import FilterSql.Json.Record

/-!
# Dialects and settings

The SQL dialects, and what one compilation is told about the query around it.
-/

namespace FilterSql

inductive Dialect where
  | postgres
  | sqlite
  deriving DecidableEq, Repr, Inhabited

namespace Dialect

def name : Dialect → String
  | .postgres => "postgres"
  | .sqlite => "sqlite"

def default : Dialect := .postgres

def ofName? (name : String) : Option Dialect :=
  if name = "postgres" ∨ name = "postgresql" ∨ name = "pg" then some .postgres
  else if name = "sqlite" ∨ name = "sqlite3" then some .sqlite
  else none

def toJson (dialect : Dialect) : Json := .string dialect.name

def variant (name : String) : Except DecodeError Dialect :=
  if name = "postgres" then .ok .postgres
  else if name = "sqlite" then .ok .sqlite
  else .error (.unknownVariant name "postgres" "sqlite")

/-- A dialect is written as its name, alone or as the only member of an object, with null. -/
def decode : Json.Decoder Dialect
  | .string name => variant name
  | .object [(name, content)] => do
    let dialect ← variant name
    match content with
    | .null => .ok dialect
    | other => .error (.invalidType other "unit")
  | .object members => .error (.invalidValue (.object members) "map with a single key")
  | other => .error (.invalidType other "string or map")

end Dialect

/-! ## Settings -/

structure CompileOptions where
  dialect : Dialect
  /-- How many parameters the enclosing query binds already. -/
  initialParamIndex : UInt64
  /-- The Postgres configuration of full-text search. -/
  textSearchConfig : String
  deriving DecidableEq, Repr

namespace CompileOptions

def defaultTextSearchConfig : String := "english"

def ofDialect (dialect : Dialect) : CompileOptions := ⟨dialect, 0, defaultTextSearchConfig⟩

def postgres : CompileOptions := .ofDialect .postgres

def sqlite : CompileOptions := .ofDialect .sqlite

def default : CompileOptions := .ofDialect .default

instance : Inhabited CompileOptions := ⟨default⟩

def withDialect (options : CompileOptions) (dialect : Dialect) : CompileOptions :=
  { options with dialect }

def startingAfter (options : CompileOptions) (count : UInt64) : CompileOptions :=
  { options with initialParamIndex := count }

def shape : Json.Shape where
  name := "CompileOptions"
  fields := ["dialect", "initialParamIndex", "textSearchConfig"]

def decode : Json.Decoder CompileOptions :=
  shape.decode fun record =>
    CompileOptions.mk
      <$> shape.field record "dialect" (.fromEither default.dialect) Dialect.decode
      <*> shape.field record "initialParamIndex" (.fromEither default.initialParamIndex)
        Json.Decoder.count
      <*> shape.field record "textSearchConfig" (.fromEither default.textSearchConfig)
        Json.Decoder.string

def encode (options : CompileOptions) : Json :=
  .object [
    ("dialect", options.dialect.toJson),
    ("initialParamIndex", .integer options.initialParamIndex.toNat),
    ("textSearchConfig", .string options.textSearchConfig)]

end CompileOptions

end FilterSql
