import FilterSql.Filter.TextSearch
import FilterSql.Identifier
import FilterSql.Sql.Fragment

/-!
# Full-text search in SQL

Postgres matches a search vector against a query, SQLite looks for the term as a
substring of the fields put together.
-/

namespace FilterSql.Compile

def searchColumn (table : Option String) (name : String) : String :=
  match table with
  | some table => nameRef table ++ "." ++ nameRef name
  | none => nameRef name

def schemaText (dialect : Dialect) (schema : Option String) : String :=
  match dialect, schema with
  | .postgres, some schema => nameRef schema ++ "."
  | _, _ => ""

def textPiece (table : Option String) (field : SearchField) : String :=
  "coalesce(" ++ searchColumn table field.name ++ ",'')"

/-- The summary of the row a foreign key refers to, where both its names are known. -/
def summaryPiece? (dialect : Dialect) (search : TextSearch) (table : Option String)
    (field : SearchField) : Option String :=
  match field.refTable, field.summaryField with
  | some refTable, some summary =>
    some ("coalesce((select " ++ nameRef summary ++ " from " ++
      schemaText dialect search.schema ++ nameRef refTable ++ " rt where rt.id=" ++
      searchColumn table field.name ++ "),'')")
  | _, _ => none

/-- All that is searched, as one SQL text expression: text fields first, then summaries. -/
def searchDocument (dialect : Dialect) (search : TextSearch) (table : Option String) : String :=
  let texts := (search.fields.filter SearchField.isText).map (textPiece table)
  let summaries :=
    (search.fields.filter fun field => field.isForeignKey && field.includeSearch).filterMap
      (summaryPiece? dialect search table)
  match texts ++ summaries with
  | [] => "''"
  | pieces => String.intercalate " || ' ' || " pieces

def configName (options : CompileOptions) : String :=
  let name := sanitize options.textSearchConfig
  if name = "" then CompileOptions.defaultTextSearchConfig else name

/-- A single word is searched as the beginning of words, several words as they are. -/
def isSingleWord (term : String) : Bool := !term.toList.contains ' '

/-- A full-text search; `scope` is the table that is meant where the search names none. -/
def textSearch (options : CompileOptions) (scope : Option String) (search : TextSearch) :
    Fragment :=
  let document := searchDocument options.dialect search (search.table <|> scope)
  match options.dialect with
  | .sqlite =>
    Fragment.text (document ++ " LIKE '%' || ") ++ Fragment.hole (.string search.term) ++
      Fragment.text " || '%'"
  | .postgres =>
    let config := configName options
    let (function, term) :=
      if isSingleWord search.term then ("to_tsquery", search.term ++ ":*")
      else ("plainto_tsquery", search.term)
    Fragment.text ("to_tsvector('" ++ config ++ "', " ++ document ++ ") @@ " ++ function ++
        "('" ++ config ++ "', ") ++
      Fragment.hole (.string term) ++ Fragment.text ")"

end FilterSql.Compile
