import FilterSql.Filter.Basic
import FilterSql.Filter.Error
import FilterSql.Json.Reader

/-!
# Filters from JSON

A filter is written as an object whose members are clauses.  Under the reserved
names `_fts`, `or`, `not` and `eq` stand clauses of their own; every other
member is a field with its condition.

A condition object is known by its tag.  Where it has several, the first of
these decides: a lone `$raw`, `in`, `slugify`, `or` with an array, `ilike`,
`gt`, `lt`, `inSelect`, `inSelectWithLevels`, `json`.  The tags `in` and
`slugify` also turn a reserved name back into a field.
-/

namespace FilterSql

/-- What becomes of condition objects without a known tag. -/
inductive Strictness where
  /-- They are compared as JSON values. -/
  | lenient
  /-- They are refused. -/
  | strict
  deriving DecidableEq, Repr

namespace FilterJson

open Json

/-! ## Small parts -/

def rawColumn? : List (String × Json) → Option String
  | [(name, .string column)] => if name = "$raw" then some column else none
  | _ => none

def operand (strictness : Strictness) : Json → Except ParseError Operand
  | .null => .ok .null
  | .object members =>
    match rawColumn? members, strictness with
    | some column, _ => .ok (.column column)
    | none, .strict => .error (.invalidOperand (.object members))
    | none, .lenient => .ok (.literal (.json (.object members)))
  | other => .ok (.literal (.ofJson other))

/-- A slug is a text; other values count as their JSON text, unless that is too lenient. -/
def slug (strictness : Strictness) (key : String) : Json → Except ParseError String
  | .string text => .ok text
  | other =>
    match strictness with
    | .lenient => .ok other.text
    | .strict => .error (.invalidDescriptor key (.slug other))

def search (key : String) (value : Json) : Except ParseError TextSearch :=
  (TextSearch.decode value).mapError fun error => .invalidDescriptor key (.search error)

/-! ## Conditions on JSON columns -/

def pathStep (key : String) : Json → Except ParseError PathStep
  | .string name => .ok (.key name)
  | .integer n =>
    if 0 ≤ n then .ok (.index n.toNat)
    else .error (.invalidDescriptor key (.pathIndex (.integer n)))
  | .float x => .error (.invalidDescriptor key (.pathIndex (.float x)))
  | other => .error (.invalidDescriptor key (.pathStep other))

def path (key : String) : Json → Except ParseError JsonPath
  | .array steps => (steps.mapM (pathStep key)).map .steps
  | step => (pathStep key step).map .one

def predicate : Json → JsonPredicate
  | .object members =>
    match (lookup? "ilike" members).filter isTruthy with
    | some needle => .contains (.ofJson needle)
    | none =>
      if hasMember "gte" members || hasMember "lte" members then
        .between ((lookup? "gte" members).map .ofJson) ((lookup? "lte" members).map .ofJson)
      else .equals (.ofJson (.object members))
  | other => .equals (.ofJson other)

def jsonCondition (key : String) : Json → Except ParseError JsonCondition
  | .array (place :: value :: _) => do
    let place ← path key place
    .ok (.at place (.ofJson value))
  | .object members =>
    .ok (.each (members.map fun (place, value) => (place, predicate value)))
  | other => .error (.invalidDescriptor key (.jsonCondition other))

/-! ## Sub-selects, the nested filter apart -/

def nonEmpty (text : Option String) : Option String := text.filter (· != "")

def selectShape : Shape :=
  ⟨"Descriptor", ["table", "field", "where", "tenant", "through", "valField"]⟩

def selectRecord : Decoder SubSelect :=
  selectShape.decode fun record =>
    (fun table field (_ : Json) tenant through valueField =>
      ⟨table, field, nonEmpty tenant, nonEmpty through, nonEmpty valueField⟩)
      <$> selectShape.required record "table" Decoder.string
      <*> selectShape.required record "field" Decoder.string
      <*> selectShape.field record "where" (.fromEither .null) Decoder.any
      <*> selectShape.optional record "tenant" Decoder.string
      <*> selectShape.optional record "through" Decoder.string
      <*> selectShape.optional record "valField" Decoder.string

def select (key : String) (descriptor : Json) : Except ParseError SubSelect :=
  (selectRecord descriptor).mapError fun error => .invalidDescriptor key (.select error)

def levelShape : Shape := ⟨"LevelDescriptor", ["table", "fkey", "inboundKey"]⟩

def levelRecord : Decoder (String × Option String × Option String) :=
  levelShape.decode fun record =>
    (fun table foreign inbound => (table, nonEmpty foreign, nonEmpty inbound))
      <$> levelShape.required record "table" Decoder.string
      <*> levelShape.optional record "fkey" Decoder.string
      <*> levelShape.optional record "inboundKey" Decoder.string

/-- A foreign key goes before an inbound one. -/
def level : String × Option String × Option String → Except ParseError JoinLevel
  | (table, some column, _) => .ok ⟨table, .foreign column⟩
  | (table, none, some column) => .ok ⟨table, .inbound column⟩
  | (table, none, none) => .error (.missingJoinKey table)

def chainShape : Shape := ⟨"Descriptor", ["where", "schema", "joinLevels"]⟩

def chainRecord :
    Decoder (Option String × List (String × Option String × Option String)) :=
  chainShape.decode fun record =>
    (fun (_ : Json) schema levels => (nonEmpty schema, levels))
      <$> chainShape.field record "where" (.fromEither .null) Decoder.any
      <*> chainShape.optional record "schema" Decoder.string
      <*> chainShape.required record "joinLevels" levelRecord.list

/-- The schema and the levels of a chain, which may still be empty. -/
def chainParts (key : String) (descriptor : Json) :
    Except ParseError (Option String × List JoinLevel) := do
  let (schema, records) ←
    (chainRecord descriptor).mapError fun error => .invalidDescriptor key (.chain error)
  let levels ← records.mapM level
  .ok (schema, levels)

def chain (schema : Option String) (levels : List JoinLevel) : Except ParseError JoinChain :=
  match JoinChain.ofLevels? schema levels with
  | some chain => .ok chain
  | none => .error .emptyJoinLevels

/-! ## Condition objects -/

/-- What the members of a condition object hold when read as nested parts of a filter. -/
structure Nested where
  /-- The conditions under `or`, when there is an array of them. -/
  alternatives : Option (Except ParseError (List Condition))
  /-- The filter inside the descriptor under `inSelect`. -/
  select : Except ParseError Filter
  /-- The filter inside the descriptor under `inSelectWithLevels`. -/
  chain : Except ParseError Filter

/-- A condition object, by the first of its tags. -/
def tagged (strictness : Strictness) (key : String) (members : List (String × Json))
    (nested : Nested) : Except ParseError Condition :=
  match rawColumn? members with
  | some column => .ok (.equals (.column column))
  | none =>
  match lookup? "in" members with
  | some list => .ok (.oneOf (.ofJson list))
  | none =>
  match lookup? "slugify" members with
  | some value => (slug strictness key value).map .slug
  | none =>
  match nested.alternatives with
  | some alternatives => alternatives.map .anyOf
  | none =>
  match lookup? "ilike" members with
  | some needle => .ok (.contains (.ofJson needle))
  | none =>
  let inclusive := ((lookup? "equal" members).map isTruthy).getD false
  match lookup? "gt" members with
  | some value => .ok (.range .above (.ofJson value) inclusive)
  | none =>
  match lookup? "lt" members with
  | some value => .ok (.range .below (.ofJson value) inclusive)
  | none =>
  match lookup? "inSelect" members with
  | some descriptor => do
    let select ← select key descriptor
    let filter ← nested.select
    .ok (.inSelect select filter)
  | none =>
  match lookup? "inSelectWithLevels" members with
  | some descriptor => do
    let (schema, levels) ← chainParts key descriptor
    let filter ← nested.chain
    let chain ← chain schema levels
    .ok (.inChain chain filter)
  | none =>
  match lookup? "json" members with
  | some value => (jsonCondition key value).map .json
  | none =>
  match strictness with
  | .strict => .error (.unrecognizedCondition key (.object members))
  | .lenient => .ok (.equals (.literal (.json (.object members))))

/-! ## Filters, clauses and conditions -/

mutual

def filter (strictness : Strictness) : Json → Except ParseError Filter
  | .null => .ok []
  | .object members => clauses strictness members
  | other => .error (.notAnObject other)

def clauses (strictness : Strictness) : List (String × Json) → Except ParseError (List Clause)
  | [] => .ok []
  | (key, value) :: rest => do
    let first ← clause strictness key value
    let others ← clauses strictness rest
    .ok (first :: others)

def filters (strictness : Strictness) : List Json → Except ParseError (List Filter)
  | [] => .ok []
  | value :: rest => do
    let first ← filter strictness value
    let others ← filters strictness rest
    .ok (first :: others)

def clause (strictness : Strictness) (key : String) : Json → Except ParseError Clause
  | .array items =>
    if key = "_fts" then (search key (.array items)).map .search
    else if key = "or" then (filters strictness items).map .or
    else
      match key, items with
      | "eq", [left, right] => do
        let left ← operand strictness left
        let right ← operand strictness right
        .ok (.compare left right)
      | _, _ => (conditions strictness key items).map fun list => .field key (.allOf list)
  | .object members =>
    if key = "_fts" then (search key (.object members)).map .search
    else if key = "not" ∧ ¬ (hasMember "in" members ∨ hasMember "slugify" members) then
      match rawColumn? members with
      | some column => .ok (.notColumn column)
      | none => (clauses strictness members).map .not
    else
      (tagged strictness key members
        { alternatives := alternatives? strictness key members
          select := nestedFilter strictness "inSelect" 2 members
          chain := nestedFilter strictness "inSelectWithLevels" 0 members }).map (.field key)
  | .null =>
    if key = "_fts" then (search key .null).map .search
    else .ok (.field key .isNull)
  | scalar =>
    if key = "_fts" then (search key scalar).map .search
    else if key = "not" then .ok (.notValue (.ofJson scalar))
    else .ok (.field key (.equals (.literal (.ofJson scalar))))

def condition (strictness : Strictness) (key : String) : Json → Except ParseError Condition
  | .null => .ok .isNull
  | .array items => (conditions strictness key items).map .allOf
  | .object members =>
    tagged strictness key members
      { alternatives := alternatives? strictness key members
        select := nestedFilter strictness "inSelect" 2 members
        chain := nestedFilter strictness "inSelectWithLevels" 0 members }
  | scalar => .ok (.equals (.literal (.ofJson scalar)))

def conditions (strictness : Strictness) (key : String) :
    List Json → Except ParseError (List Condition)
  | [] => .ok []
  | value :: rest => do
    let first ← condition strictness key value
    let others ← conditions strictness key rest
    .ok (first :: others)

def alternatives? (strictness : Strictness) (key : String) :
    List (String × Json) → Option (Except ParseError (List Condition))
  | [] => none
  | (name, value) :: rest =>
    if name = "or" then
      match value with
      | .array items => some (conditions strictness key items)
      | _ => none
    else alternatives? strictness key rest

/-- The filter inside the descriptor under a tag; `place` is its place in array form. -/
def nestedFilter (strictness : Strictness) (tag : String) (place : Nat) :
    List (String × Json) → Except ParseError Filter
  | [] => .ok []
  | (name, descriptor) :: rest =>
    if name = tag then
      match descriptor with
      | .object members => memberFilter strictness members
      | .array items => itemFilter strictness place items
      | _ => .ok []
    else nestedFilter strictness tag place rest

def memberFilter (strictness : Strictness) : List (String × Json) → Except ParseError Filter
  | [] => .ok []
  | (name, value) :: rest =>
    if name = "where" then filter strictness value else memberFilter strictness rest

def itemFilter (strictness : Strictness) : Nat → List Json → Except ParseError Filter
  | _, [] => .ok []
  | 0, value :: _ => filter strictness value
  | place + 1, _ :: rest => itemFilter strictness place rest

end

end FilterJson

/-! ## Filters -/

namespace Filter

def ofJson (strictness : Strictness) (value : Json) : Except ParseError Filter :=
  FilterJson.filter strictness value

def ofText (text : String) : Except ParseError Filter :=
  match Json.read? text with
  | some value => ofJson .lenient value
  | none => .error .invalidJson

end Filter

end FilterSql
