import FilterSql.Decimal.Layout
import FilterSql.Decimal.Literal
import FilterSql.Decimal.Shortest
import FilterSql.Dialect
import FilterSql.Double.Basic
import FilterSql.Double.Cosine
import FilterSql.Filter.Basic
import FilterSql.Filter.Error
import FilterSql.Filter.OfJson
import FilterSql.Filter.Qualify
import FilterSql.Filter.TextSearch
import FilterSql.Filter.Wire
import FilterSql.Identifier
import FilterSql.Instant.Basic
import FilterSql.Instant.Printer
import FilterSql.Instant.Reader
import FilterSql.Json.Basic
import FilterSql.Json.Printer
import FilterSql.Json.Reader
import FilterSql.Json.Record
import FilterSql.JsonPath
import FilterSql.Postgres.Encode
import FilterSql.Postgres.Type
import FilterSql.Proofs.Sql.Names
import FilterSql.Proofs.Sql.Phrase
import FilterSql.Proofs.Sql.Rendering
import FilterSql.Proofs.Sql.Scan
import FilterSql.Select.Number
import FilterSql.Select.Options
import FilterSql.Sql.Bindings
import FilterSql.Sql.Compile
import FilterSql.Sql.Emit
import FilterSql.Sql.Fragment
import FilterSql.Sql.Joins
import FilterSql.Sql.JsonMatch
import FilterSql.Sql.TextMatch
import FilterSql.Sqlite
import FilterSql.Text.Blank
import FilterSql.Text.Quoted
import FilterSql.Text.Unprintable
import FilterSql.Value
import FilterSql.Proofs.Sql.Terms
import FilterSql.Proofs.Sql.Selects
import FilterSql.Proofs.Sql.Trees
import FilterSql.Proofs.Sql.Literals
import FilterSql.Proofs.Sql.Emission
import FilterSql.Proofs.Sql.Confinement
import FilterSql.Proofs.Sql.Placeholders
import FilterSql.Proofs.Sql.Identifiers
import FilterSql.Proofs.Sql.Cut
import FilterSql.Proofs.Sql.Reading
import FilterSql.Proofs.Sql.Atoms
import FilterSql.Proofs.Sql.Structure
import FilterSql.Proofs.Sql.Precedence
import FilterSql.Proofs.Sql.Layout
import FilterSql.Proofs.Sql.Dialects
import FilterSql.Proofs.Sql.Noninterference
import FilterSql.Proofs.Sql.Splicing
import FilterSql.Proofs.Sql.Gaps
import FilterSql.Proofs.Sql.Operands
import FilterSql.Proofs.Sql.Gapless
import FilterSql.Proofs.Filter.Strictness
import FilterSql.Proofs.Sql.QualifiedNames
import FilterSql.Proofs.Sql.RenderedNames
import FilterSql.Proofs.Sql.OwnColumns
import FilterSql.Proofs.Sql.Qualification
import FilterSql.Proofs.Sql.Chains
import FilterSql.Proofs.Json.Strings
import FilterSql.Proofs.Json.Tokens
import FilterSql.Proofs.Json.Texts
import FilterSql.Proofs.JsonPath.Decoding
import FilterSql.Proofs.Filter.Parts
import FilterSql.Proofs.Filter.Readings
import FilterSql.Proofs.Filter.Nulls
import FilterSql.Proofs.Double.Finite
import FilterSql.Proofs.Sqlite.Binding
import FilterSql.Proofs.Filter.Stored
import FilterSql.Proofs.Filter.Decoded
import FilterSql.Proofs.Instant.Calendar
import FilterSql.Proofs.Instant.Reading
import FilterSql.Proofs.Filter.Tags
import FilterSql.Proofs.JsonPath.Members
import FilterSql.Proofs.Sql.Shorthands
import FilterSql.Proofs.Double.Rounding
import FilterSql.Proofs.Decimal.Shortest
import FilterSql.Proofs.Decimal.Reading
import FilterSql.Proofs.Json.Elements
import FilterSql.Proofs.Sqlite.Elements
import FilterSql.Proofs.Sqlite.NonFinite
import FilterSql.Proofs.Postgres.Integers
import FilterSql.Proofs.Postgres.Documents
import FilterSql.Proofs.Postgres.Arrays
import FilterSql.Proofs.Double.Cosine
import FilterSql.Proofs.Decimal.Numerals
import FilterSql.Proofs.Select.Grammar
import FilterSql.Proofs.Json.Places
import FilterSql.Proofs.Value.RoundTrip
import FilterSql.Proofs.Select.Stored
import FilterSql.Proofs.Select.Texts
import FilterSql.Proofs.Select.Leading
import FilterSql.Proofs.Instant.Columns
import FilterSql.Proofs.Instant.Order
import FilterSql.Proofs.Select.Limits
import FilterSql.Proofs.Sqlite.Dates
