import FilterSql.Dialect

/-!
# Errors in filters

Why a JSON value, or a name, could not be understood, and the words for it.
-/

namespace FilterSql

inductive DescriptorFault where
  | search (error : DecodeError)
  | slug (found : Json)
  | select (error : DecodeError)
  | chain (error : DecodeError)
  | jsonCondition (found : Json)
  | pathIndex (found : Json)
  | pathStep (found : Json)
  deriving Repr, Inhabited

namespace DescriptorFault

def part : DescriptorFault → String
  | .search _ => "_fts descriptor"
  | .slug _ => "slugify value"
  | .select _ => "inSelect"
  | .chain _ => "inSelectWithLevels"
  | .jsonCondition _ => "json condition"
  | .pathIndex _ => "json path"
  | .pathStep _ => "json path"

def reason : DescriptorFault → String
  | .search error => error.message
  | .slug found => "expected a string, got " ++ found.kind
  | .select error => error.message
  | .chain error => error.message
  | .jsonCondition found => "expected [path, value] or an object, got " ++ found.text
  | .pathIndex found => "array index must be a non-negative integer, got " ++ found.text
  | .pathStep found => "unsupported path element " ++ found.text

end DescriptorFault

inductive ParseError where
  | invalidJson
  | notAnObject (found : Json)
  | unrecognizedCondition (field : String) (condition : Json)
  | invalidDescriptor (field : String) (fault : DescriptorFault)
  | emptyJoinLevels
  | missingJoinKey (table : String)
  | unknownDialect (name : String)
  | invalidOperand (operand : Json)
  deriving Repr, Inhabited

namespace ParseError

def message : ParseError → String
  | .invalidJson => "Invalid JSON"
  | .notAnObject found => "Where object must be a JSON object, got " ++ found.kind
  | .unrecognizedCondition field condition =>
    "Unrecognized condition for field " ++ field ++ ": " ++ condition.text
  | .invalidDescriptor field fault =>
    "Invalid " ++ fault.part ++ " for field " ++ field ++ ": " ++ fault.reason
  | .emptyJoinLevels => "inSelectWithLevels requires at least one join level"
  | .missingJoinKey table => "Join level for table " ++ table ++ " has neither fkey nor inboundKey"
  | .unknownDialect name => "Unknown dialect: " ++ name
  | .invalidOperand operand =>
    "eq operands must be scalars, null or \x7b\"$raw\": ...\x7d, got " ++ operand.text

end ParseError

def Dialect.parse (text : String) : Except ParseError Dialect :=
  let name := text.map Char.toLower
  match Dialect.ofName? name with
  | some dialect => .ok dialect
  | none => .error (.unknownDialect name)

end FilterSql
