/-!
# Postgres parameter types

The types that a parameter can have, with the names and numbers by which
Postgres knows them.
-/

namespace FilterSql.Postgres

structure DeclaredType where
  schema : String
  name : String
  objectId : UInt32
  deriving DecidableEq, Repr

def DeclaredType.typeName (type : DeclaredType) : String :=
  if type.schema = "public" ∨ type.schema = "pg_catalog" then type.name
  else type.schema ++ "." ++ type.name

inductive ScalarType where
  | bool
  | bytea
  | char
  | name
  | int8
  | int2
  | int4
  | text
  | oid
  | json
  | float4
  | float8
  | unknown
  | bpchar
  | varchar
  | date
  | time
  | timestamp
  | timestamptz
  | numeric
  | uuid
  | jsonb
  | int4range
  /-- Any other type. -/
  | declared (type : DeclaredType)
  deriving DecidableEq, Repr

namespace ScalarType

def all : List ScalarType :=
  [.bool, .bytea, .char, .name, .int8, .int2, .int4, .text, .oid, .json, .float4, .float8,
    .unknown, .bpchar, .varchar, .date, .time, .timestamp, .timestamptz, .numeric, .uuid,
    .jsonb, .int4range]

def typeName : ScalarType → String
  | .bool => "bool"
  | .bytea => "bytea"
  | .char => "char"
  | .name => "name"
  | .int8 => "int8"
  | .int2 => "int2"
  | .int4 => "int4"
  | .text => "text"
  | .oid => "oid"
  | .json => "json"
  | .float4 => "float4"
  | .float8 => "float8"
  | .unknown => "unknown"
  | .bpchar => "bpchar"
  | .varchar => "varchar"
  | .date => "date"
  | .time => "time"
  | .timestamp => "timestamp"
  | .timestamptz => "timestamptz"
  | .numeric => "numeric"
  | .uuid => "uuid"
  | .jsonb => "jsonb"
  | .int4range => "int4range"
  | .declared type => type.typeName

def objectId : ScalarType → UInt32
  | .bool => 16
  | .bytea => 17
  | .char => 18
  | .name => 19
  | .int8 => 20
  | .int2 => 21
  | .int4 => 23
  | .text => 25
  | .oid => 26
  | .json => 114
  | .float4 => 700
  | .float8 => 701
  | .unknown => 705
  | .bpchar => 1042
  | .varchar => 1043
  | .date => 1082
  | .time => 1083
  | .timestamp => 1114
  | .timestamptz => 1184
  | .numeric => 1700
  | .uuid => 2950
  | .jsonb => 3802
  | .int4range => 3904
  | .declared type => type.objectId

def isText : ScalarType → Bool
  | .text | .varchar | .bpchar | .name | .unknown => true
  | _ => false

def isJson : ScalarType → Bool
  | .json | .jsonb => true
  | _ => false

/--
What stands in front of a string, in the types that take strings.  The types of
label trees have their version there.
-/
def stringLead? : ScalarType → Option (List UInt8)
  | .declared type =>
    if type.name = "citext" then some []
    else if type.name = "ltree" ∨ type.name = "lquery" ∨ type.name = "ltxtquery" then some [1]
    else none
  | type => if type.isText then some [] else none

def ofName? (name : String) : Option ScalarType :=
  all.find? fun type => type.typeName == name

end ScalarType

inductive ParameterType where
  | scalar (type : ScalarType)
  | array (element : ScalarType)
  deriving DecidableEq, Repr

namespace ParameterType

def typeName : ParameterType → String
  | .scalar type => type.typeName
  | .array (.declared element) => { element with name := "_" ++ element.name }.typeName
  | .array element => "_" ++ element.typeName

def ofName? (name : String) : Option ParameterType :=
  match name.toList with
  | '_' :: rest => (ScalarType.ofName? (String.ofList rest)).map .array
  | _ => (ScalarType.ofName? name).map .scalar

end ParameterType

end FilterSql.Postgres
