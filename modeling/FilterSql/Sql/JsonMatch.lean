import FilterSql.Filter.Basic
import FilterSql.Identifier
import FilterSql.Sql.Fragment

/-!
# Conditions on JSON columns in SQL

A place of a JSON document becomes an expression that takes it out of the
column; what is asked of it is compared with that expression.
-/

namespace FilterSql.Compile

def likeOperator : Dialect → String
  | .postgres => "ILIKE"
  | .sqlite => "LIKE"

def containing (dialect : Dialect) (text : String) (needle : Value) : Fragment :=
  Fragment.text (text ++ " " ++ likeOperator dialect ++ " '%' || ") ++ Fragment.hole needle ++
    Fragment.text " || '%'"

/--
What stands at a place of a JSON column.  As text, Postgres takes the scalar out
of its JSON form by way of an array of one element.
-/
def jsonPlace (dialect : Dialect) (key : String) (path : JsonPath) (asText : Bool) : String :=
  match dialect, asText with
  | .sqlite, _ => "json_extract(" ++ columnRef key ++ ", '" ++ path.literal ++ "')"
  | .postgres, true =>
    "jsonb_build_array(jsonb_path_query_first(" ++ columnRef key ++ ", '" ++ path.literal ++
      "'))->>0"
  | .postgres, false =>
    "jsonb_path_query_first(" ++ columnRef key ++ ", '" ++ path.literal ++ "')"

def jsonEquals (dialect : Dialect) (key : String) (path : JsonPath) (value : Value) : Fragment :=
  Fragment.text (jsonPlace dialect key path true ++ "=") ++ Fragment.hole value

def jsonBound (dialect : Dialect) (key : String) (path : JsonPath) (operator : String)
    (bound : Option Value) : List Fragment :=
  bound.toList.map fun value =>
    Fragment.text (jsonPlace dialect key path false ++ " " ++ operator ++ " ") ++
      Fragment.hole value

def jsonEntry (dialect : Dialect) (key place : String) (predicate : JsonPredicate) : Fragment :=
  let path := JsonPath.one (.key place)
  match predicate with
  | .contains needle => containing dialect (jsonPlace dialect key path true) needle
  | .between atLeast atMost =>
    Fragment.join " and "
      (jsonBound dialect key path ">=" atLeast ++ jsonBound dialect key path "<=" atMost)
  | .equals value => jsonEquals dialect key path value

def jsonCondition (dialect : Dialect) (key : String) : JsonCondition → Fragment
  | .at path value => jsonEquals dialect key path value
  | .each entries =>
    Fragment.join " and " (entries.map fun (place, predicate) => jsonEntry dialect key place predicate)

end FilterSql.Compile
