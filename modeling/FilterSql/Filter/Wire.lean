import FilterSql.Filter.Basic
import FilterSql.Instant.Reader

/-!
# The stored form of filters

A filter tree as JSON that tells every shape apart: a variant is its name, or an
object whose only member has that name and holds the contents.  Absent texts of
a sub-select and absent bounds are written as null, those of a full-text search
are left out.
-/

namespace FilterSql

namespace Wire

open Json

/-! ## Variants -/

def variant (name : String) (content : Json) : Json := .object [(name, content)]

/-- A variant without contents is a name alone, or holds null. -/
def isUnit (name : String) : Json → Bool
  | .string text => text == name
  | .object [(tag, .null)] => tag == name
  | _ => false

def encodeText (text : Option String) : Json := (text.map Json.string).getD .null

/-! ## Values -/

mutual

def encodeValue : Value → Json
  | .null => .string "Null"
  | .string text => variant "String" (.string text)
  | .integer n => variant "Integer" (.integer n.toInt)
  | .float x => variant "Float" (.ofDouble x)
  | .boolean b => variant "Boolean" (.bool b)
  | .date instant => variant "Date" (.string instant.text)
  | .array items => variant "Array" (.array (encodeValues items))
  | .json document => variant "Json" document

def encodeValues : List Value → List Json
  | [] => []
  | item :: rest => encodeValue item :: encodeValues rest

end

def decodeFloat? : Json → Option Double
  | .integer n => some (.ofInt n)
  | .float x => some x
  | _ => none

def decodeInteger? : Json → Option Int64
  | .integer n =>
    if Int64.minValue.toInt ≤ n ∧ n ≤ Int64.maxValue.toInt then some (Int64.ofInt n) else none
  | _ => none

def decodeText? : Json → Option String
  | .string text => some text
  | _ => none

def decodeBool? : Json → Option Bool
  | .bool b => some b
  | _ => none

mutual

def decodeValue? : Json → Option Value
  | .string name => if name = "Null" then some .null else none
  | .object [(tag, content)] =>
    match tag with
    | "Null" => match content with
      | .null => some .null
      | _ => none
    | "String" => (decodeText? content).map .string
    | "Integer" => (decodeInteger? content).map .integer
    | "Float" => (decodeFloat? content).map .float
    | "Boolean" => (decodeBool? content).map .boolean
    | "Date" => ((decodeText? content).bind Instant.ofText?).map .date
    | "Array" => match content with
      | .array items => (decodeValues? items).map .array
      | _ => none
    | "Json" => some (.json content)
    | _ => none
  | _ => none

def decodeValues? : List Json → Option (List Value)
  | [] => some []
  | item :: rest => do
    let first ← decodeValue? item
    let others ← decodeValues? rest
    some (first :: others)

end

/-! ## Operands -/

def encodeOperand : Operand → Json
  | .null => .string "Null"
  | .literal value => variant "Literal" (encodeValue value)
  | .column name => variant "Raw" (.string name)

def decodeOperand? (json : Json) : Option Operand :=
  if isUnit "Null" json then some .null
  else match json with
    | .object [("Literal", value)] => (decodeValue? value).map .literal
    | .object [("Raw", .string name)] => some (.column name)
    | _ => none

/-! ## Conditions on JSON columns -/

def encodeStep : PathStep → Json
  | .key name => variant "Key" (.string name)
  | .index n => variant "Index" (.integer n)

def decodeStep? : Json → Option PathStep
  | .object [("Key", .string name)] => some (.key name)
  | .object [("Index", .integer n)] => if 0 ≤ n then some (.index n.toNat) else none
  | _ => none

def encodePath : JsonPath → Json
  | .one step => variant "Elem" (encodeStep step)
  | .steps list => variant "Elems" (.array (list.map encodeStep))

def decodePath? : Json → Option JsonPath
  | .object [("Elem", step)] => (decodeStep? step).map .one
  | .object [("Elems", .array list)] => (list.mapM decodeStep?).map .steps
  | _ => none

def encodeBound (value : Option Value) : Json := (value.map encodeValue).getD .null

def decodeBound? : Option Json → Option (Option Value)
  | none => some none
  | some .null => some none
  | some json => (decodeValue? json).map some

def encodePredicate : JsonPredicate → Json
  | .contains needle => variant "ILike" (encodeValue needle)
  | .between atLeast atMost =>
    variant "Range" (.object [("gte", encodeBound atLeast), ("lte", encodeBound atMost)])
  | .equals value => variant "Equals" (encodeValue value)

def decodePredicate? : Json → Option JsonPredicate
  | .object [("ILike", needle)] => (decodeValue? needle).map .contains
  | .object [("Range", .object members)] => do
    let atLeast ← decodeBound? (lookup? "gte" members)
    let atMost ← decodeBound? (lookup? "lte" members)
    some (.between atLeast atMost)
  | .object [("Equals", value)] => (decodeValue? value).map .equals
  | _ => none

def encodeJsonCondition : JsonCondition → Json
  | .at path value => variant "Path" (.array [encodePath path, encodeValue value])
  | .each entries =>
    variant "Map" (.array (entries.map fun (place, predicate) =>
      .array [.string place, encodePredicate predicate]))

def decodePair? : Json → Option (String × JsonPredicate)
  | .array [.string place, predicate] => (decodePredicate? predicate).map (place, ·)
  | _ => none

def decodeJsonCondition? : Json → Option JsonCondition
  | .object [("Path", .array [path, value])] => do
    let path ← decodePath? path
    let value ← decodeValue? value
    some (.at path value)
  | .object [("Map", .array entries)] => (entries.mapM decodePair?).map .each
  | _ => none

/-! ## Ranges -/

def encodeRangeBound : RangeBound → Json
  | .above => .string "Gt"
  | .below => .string "Lt"

def decodeRangeBound? (json : Json) : Option RangeBound :=
  if isUnit "Gt" json then some .above
  else if isUnit "Lt" json then some .below
  else none

def decodeRange? (members : List (String × Json)) : Option Condition := do
  let bound ← (lookup? "bound" members).bind decodeRangeBound?
  let value ← (lookup? "value" members).bind decodeValue?
  let inclusive ← (lookup? "inclusive" members).bind decodeBool?
  some (.range bound value inclusive)

/-! ## Sub-selects, the nested filter apart -/

def selectShape : Shape :=
  ⟨"InSelect", ["table", "field", "where", "tenant", "through", "val_field"]⟩

def decodeSelect? (json : Json) : Option SubSelect :=
  (selectShape.decode (fun record =>
    (fun table field (_ : Json) tenant through valueField =>
      SubSelect.mk table field tenant through valueField)
      <$> selectShape.required record "table" Decoder.string
      <*> selectShape.required record "field" Decoder.string
      <*> selectShape.required record "where" Decoder.any
      <*> selectShape.optional record "tenant" Decoder.string
      <*> selectShape.optional record "through" Decoder.string
      <*> selectShape.optional record "val_field" Decoder.string) json).toOption

def encodeSelect (select : SubSelect) (filter : Json) : Json :=
  .object [
    ("table", .string select.table),
    ("field", .string select.field),
    ("where", filter),
    ("tenant", encodeText select.tenant),
    ("through", encodeText select.through),
    ("val_field", encodeText select.valueField)]

def encodeKey : JoinKey → Json
  | .foreign column => variant "Fkey" (.string column)
  | .inbound column => variant "Inbound" (.string column)

def decodeKey? : Json → Option JoinKey
  | .object [("Fkey", .string column)] => some (.foreign column)
  | .object [("Inbound", .string column)] => some (.inbound column)
  | _ => none

def encodeLevel (level : JoinLevel) : Json :=
  .object [("table", .string level.table), ("key", encodeKey level.key)]

def levelShape : Shape := ⟨"JoinLevel", ["table", "key"]⟩

def decodeLevel? (json : Json) : Option JoinLevel := do
  let (table, key) ← (levelShape.decode (fun record =>
    Prod.mk
      <$> levelShape.required record "table" Decoder.string
      <*> levelShape.required record "key" Decoder.any) json).toOption
  let key ← decodeKey? key
  some ⟨table, key⟩

def chainShape : Shape := ⟨"InSelectWithLevels", ["where", "schema", "join_levels"]⟩

def decodeChain? (json : Json) : Option JoinChain := do
  let (schema, levels) ← (chainShape.decode (fun record =>
    (fun (_ : Json) schema levels => (schema, levels))
      <$> chainShape.required record "where" Decoder.any
      <*> chainShape.optional record "schema" Decoder.string
      <*> chainShape.required record "join_levels" (Decoder.list Decoder.any)) json).toOption
  let levels ← levels.mapM decodeLevel?
  JoinChain.ofLevels? schema levels

def encodeChain (chain : JoinChain) (filter : Json) : Json :=
  .object [
    ("where", filter),
    ("schema", encodeText chain.schema),
    ("join_levels", .array (chain.levels.map encodeLevel))]

/-! ## Filters, clauses and conditions -/

def encodeClauses (clauses : List Json) : Json := .object [("clauses", .array clauses)]

mutual

def encodeClause : Clause → Json
  | .search search => variant "Fts" search.encode
  | .or alternatives => variant "Or" (.array (encodeFilters alternatives))
  | .not negated => variant "Not" (variant "Where" (encodeClauses (encodeFilter negated)))
  | .notColumn name => variant "Not" (variant "Raw" (.string name))
  | .notValue value => variant "Not" (variant "Literal" (encodeValue value))
  | .compare left right => variant "Eq" (.array [encodeOperand left, encodeOperand right])
  | .field key condition =>
    variant "Field" (.object [("key", .string key), ("condition", encodeCondition condition)])

def encodeFilter : List Clause → List Json
  | [] => []
  | clause :: rest => encodeClause clause :: encodeFilter rest

def encodeFilters : List (List Clause) → List Json
  | [] => []
  | filter :: rest => encodeClauses (encodeFilter filter) :: encodeFilters rest

def encodeCondition : Condition → Json
  | .oneOf members => variant "In" (encodeValue members)
  | .slug text => variant "Slugify" (.string text)
  | .anyOf alternatives => variant "AnyOf" (.array (encodeConditions alternatives))
  | .allOf conditions => variant "All" (.array (encodeConditions conditions))
  | .contains needle => variant "ILike" (encodeValue needle)
  | .range bound value inclusive =>
    variant "Range" (.object [
      ("bound", encodeRangeBound bound),
      ("value", encodeValue value),
      ("inclusive", .bool inclusive)])
  | .inSelect select filter =>
    variant "InSelect" (encodeSelect select (encodeClauses (encodeFilter filter)))
  | .inChain chain filter =>
    variant "InSelectWithLevels" (encodeChain chain (encodeClauses (encodeFilter filter)))
  | .json condition => variant "Json" (encodeJsonCondition condition)
  | .isNull => .string "IsNull"
  | .equals operand => variant "Equals" (encodeOperand operand)

def encodeConditions : List Condition → List Json
  | [] => []
  | condition :: rest => encodeCondition condition :: encodeConditions rest

end

mutual

def decodeFilter? : Json → Option Filter
  | .object members => memberClauses? members
  | .array [.array items] => decodeClauses? items
  | _ => none

def memberClauses? : List (String × Json) → Option Filter
  | [] => none
  | (name, value) :: rest =>
    if name = "clauses" then
      match value with
      | .array items => decodeClauses? items
      | _ => none
    else memberClauses? rest

def decodeClauses? : List Json → Option (List Clause)
  | [] => some []
  | item :: rest => do
    let first ← decodeClause? item
    let others ← decodeClauses? rest
    some (first :: others)

def decodeFilters? : List Json → Option (List Filter)
  | [] => some []
  | item :: rest => do
    let first ← decodeFilter? item
    let others ← decodeFilters? rest
    some (first :: others)

def decodeClause? : Json → Option Clause
  | .object [(tag, content)] =>
    match tag with
    | "Fts" => (TextSearch.decode content).toOption.map .search
    | "Or" => match content with
      | .array items => (decodeFilters? items).map .or
      | _ => none
    | "Not" => match content with
      | .object [("Where", filter)] => (decodeFilter? filter).map .not
      | .object [("Raw", .string name)] => some (.notColumn name)
      | .object [("Literal", value)] => (decodeValue? value).map .notValue
      | _ => none
    | "Eq" => match content with
      | .array [left, right] => do
        let left ← decodeOperand? left
        let right ← decodeOperand? right
        some (.compare left right)
      | _ => none
    | "Field" => match content with
      | .object members => do
        let key ← (lookup? "key" members).bind decodeText?
        let condition ← memberCondition? members
        some (.field key condition)
      | _ => none
    | _ => none
  | _ => none

def memberCondition? : List (String × Json) → Option Condition
  | [] => none
  | (name, value) :: rest =>
    if name = "condition" then decodeCondition? value else memberCondition? rest

def decodeCondition? : Json → Option Condition
  | .string name => if name = "IsNull" then some .isNull else none
  | .object [(tag, content)] =>
    match tag with
    | "In" => (decodeValue? content).map .oneOf
    | "Slugify" => (decodeText? content).map .slug
    | "AnyOf" => match content with
      | .array items => (decodeConditions? items).map .anyOf
      | _ => none
    | "All" => match content with
      | .array items => (decodeConditions? items).map .allOf
      | _ => none
    | "ILike" => (decodeValue? content).map .contains
    | "Range" => match content with
      | .object members => decodeRange? members
      | _ => none
    | "InSelect" => do
      let select ← decodeSelect? content
      let filter ← match content with
        | .object members => memberFilter? members
        | .array items => itemFilter? 2 items
        | _ => none
      some (.inSelect select filter)
    | "InSelectWithLevels" => do
      let chain ← decodeChain? content
      let filter ← match content with
        | .object members => memberFilter? members
        | .array items => itemFilter? 0 items
        | _ => none
      some (.inChain chain filter)
    | "Json" => (decodeJsonCondition? content).map .json
    | "IsNull" => match content with
      | .null => some .isNull
      | _ => none
    | "Equals" => (decodeOperand? content).map .equals
    | _ => none
  | _ => none

def decodeConditions? : List Json → Option (List Condition)
  | [] => some []
  | item :: rest => do
    let first ← decodeCondition? item
    let others ← decodeConditions? rest
    some (first :: others)

def memberFilter? : List (String × Json) → Option Filter
  | [] => none
  | (name, value) :: rest =>
    if name = "where" then decodeFilter? value else memberFilter? rest

def itemFilter? : Nat → List Json → Option Filter
  | _, [] => none
  | 0, item :: _ => decodeFilter? item
  | place + 1, _ :: rest => itemFilter? place rest

end

end Wire

namespace Filter

def encode (filter : Filter) : Json := Wire.encodeClauses (Wire.encodeFilter filter)

def decode? (json : Json) : Option Filter := Wire.decodeFilter? json

end Filter

end FilterSql
