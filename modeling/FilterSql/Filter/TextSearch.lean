import FilterSql.Json.Record

/-!
# Full-text searches

A search for one term over several fields of a table.  A field of type `text`
is searched itself; a foreign key may have a summary field of the table it
refers to searched in its place.
-/

namespace FilterSql

structure SearchField where
  name : String
  /-- The SQL type of the column, where it is known. -/
  sqlType : Option String
  isForeignKey : Bool
  /-- The table a foreign key refers to. -/
  refTable : Option String
  /-- Whether the row that a foreign key refers to is searched too. -/
  includeSearch : Bool
  /-- The column of the referred row that is searched. -/
  summaryField : Option String
  deriving DecidableEq, Repr

structure TextSearch where
  fields : List SearchField
  table : Option String
  term : String
  schema : Option String
  deriving DecidableEq, Repr

namespace SearchField

def text (name : String) : SearchField where
  name := name
  sqlType := some "text"
  isForeignKey := false
  refTable := none
  includeSearch := false
  summaryField := none

def foreignKey (name refTable summaryField : String) : SearchField where
  name := name
  sqlType := none
  isForeignKey := true
  refTable := some refTable
  includeSearch := true
  summaryField := some summaryField

def isText (field : SearchField) : Bool := field.sqlType == some "text"

/-! ## JSON form -/

open Json

def typeShape : Shape := ⟨"FieldType", ["sql_name"]⟩

def decodeType : Decoder String :=
  typeShape.decode fun record => typeShape.required record "sql_name" Decoder.string

def attributesShape : Shape := ⟨"FieldAttributes", ["include_fts", "summary_field"]⟩

def decodeAttributes : Decoder (Bool × Option String) :=
  attributesShape.decode fun record =>
    Prod.mk
      <$> attributesShape.field record "include_fts" (.fromEither false) Decoder.boolean
      <*> attributesShape.field record "summary_field" (.fromEither none)
        Decoder.string.nullable

def shape : Shape :=
  ⟨"FtsField", ["name", "type", "is_fkey", "reftable_name", "attributes"]⟩

def decode : Decoder SearchField :=
  shape.decode fun record =>
    (fun name sqlType isForeignKey refTable (includeSearch, summaryField) =>
      ⟨name, sqlType, isForeignKey, refTable, includeSearch, summaryField⟩)
      <$> shape.required record "name" Decoder.string
      <*> shape.field record "type" (.fromEither none) decodeType.nullable
      <*> shape.field record "is_fkey" (.fromEither false) Decoder.boolean
      <*> shape.field record "reftable_name" (.fromEither none) Decoder.string.nullable
      <*> shape.field record "attributes" (.fromEither (false, none)) decodeAttributes

def member? (name : String) (text : Option String) : List (String × Json) :=
  text.toList.map fun value => (name, .string value)

def encode (field : SearchField) : Json :=
  .object (
    ("name", .string field.name) ::
    (field.sqlType.toList.map fun sqlType =>
      ("type", .object [("sql_name", .string sqlType)])) ++
    ("is_fkey", .bool field.isForeignKey) ::
    member? "reftable_name" field.refTable ++
    [("attributes", .object (
      ("include_fts", .bool field.includeSearch) ::
      member? "summary_field" field.summaryField))])

end SearchField

namespace TextSearch

open Json

def shape : Shape := ⟨"FtsSearch", ["fields", "table", "searchTerm", "schema"]⟩

def decode : Decoder TextSearch :=
  shape.decode fun record =>
    TextSearch.mk
      <$> shape.required record "fields" SearchField.decode.list
      <*> shape.field record "table" (.fromEither none) Decoder.string.nullable
      <*> shape.required record "searchTerm" Decoder.string
      <*> shape.field record "schema" (.fromEither none) Decoder.string.nullable

def encode (search : TextSearch) : Json :=
  .object (
    ("fields", .array (search.fields.map SearchField.encode)) ::
    SearchField.member? "table" search.table ++
    ("searchTerm", .string search.term) ::
    SearchField.member? "schema" search.schema)

end TextSearch

end FilterSql
