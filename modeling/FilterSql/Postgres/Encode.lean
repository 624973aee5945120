import FilterSql.Decimal.Layout
import FilterSql.Postgres.Type
import FilterSql.Sql.Emit

/-!
# Postgres parameters

Bound values in the binary format of the type that Postgres infers for their
placeholder.  Every number is big-endian.
-/

namespace FilterSql.Postgres

abbrev Bytes := List UInt8

/-! ## Numbers and texts -/

def bigEndian (width : Nat) (n : Nat) : Bytes :=
  (List.range width).reverse.map fun place => UInt8.ofNat (n >>> (8 * place))

def signedBytes (width : Nat) (n : Int) : Bytes :=
  bigEndian width (n % (1 <<< (8 * width) : Nat)).toNat

def utf8 (text : String) : Bytes := text.toUTF8.toList

def jsonBytes (type : ScalarType) (value : Json) : Bytes :=
  (if type = .jsonb then [1] else []) ++ utf8 value.text

/-! ## Dates -/

/-- Seconds from 1970 to 2000-01-01, where Postgres counts from. -/
def epochSeconds : Int := 946684800

/-- Microseconds since 2000, cut off toward zero. -/
def microseconds (instant : Instant) : Int :=
  (((instant.seconds - epochSeconds) * 1000000000 + instant.nanos).tdiv 1000)

def daysSinceEpoch (instant : Instant) : Int := instant.days - epochSeconds / 86400

/-! ## Values -/

inductive EncodeError where
  | outOfRange (n : Int64) (type : ParameterType)
  | unsupported (kind : String) (type : ParameterType)
  deriving DecidableEq, Repr

def EncodeError.message : EncodeError → String
  | .outOfRange n type => toString n.toInt ++ " is out of range for " ++ type.typeName
  | .unsupported kind type =>
    "cannot bind " ++ kind ++ " to a parameter of type " ++ type.typeName

inductive Encoded where
  | null
  | bytes (bytes : Bytes)
  deriving DecidableEq, Repr

def fittingBytes (width : Nat) (type : ScalarType) (n : Int64) : Except EncodeError Bytes :=
  let bound : Int := (1 <<< (8 * width - 1) : Nat)
  if -bound ≤ n.toInt ∧ n.toInt < bound then .ok (signedBytes width n.toInt)
  else .error (.outOfRange n (.scalar type))

def encodeInteger (type : ScalarType) (n : Int64) : Except EncodeError Bytes :=
  match type with
  | .int2 => fittingBytes 2 type n
  | .int4 => fittingBytes 4 type n
  | .int8 => .ok (signedBytes 8 n.toInt)
  | .float4 => .ok (bigEndian 4 (Double.singleBitsOfInt n.toInt).toNat)
  | .float8 => .ok (bigEndian 8 (Double.ofInt n.toInt).bits.toNat)
  | type =>
    if type.isText then .ok (utf8 (toString n.toInt))
    else if type.isJson then .ok (jsonBytes type (.integer n.toInt))
    else .error (.unsupported "integer" (.scalar type))

def encodeFloat (type : ScalarType) (x : Double) : Except EncodeError Bytes :=
  match type with
  | .float4 => .ok (bigEndian 4 x.toSingleBits.toNat)
  | .float8 => .ok (bigEndian 8 x.bits.toNat)
  | type =>
    if type.isText then .ok (utf8 x.display)
    else if type.isJson then .ok (jsonBytes type (.ofDouble x))
    else .error (.unsupported "float" (.scalar type))

def encodeDate (type : ScalarType) (instant : Instant) : Except EncodeError Bytes :=
  match type with
  | .timestamp => .ok (signedBytes 8 (microseconds instant))
  | .timestamptz => .ok (signedBytes 8 (microseconds instant))
  | .date => .ok (signedBytes 4 (daysSinceEpoch instant))
  | type =>
    if type.isText then .ok (utf8 instant.offsetText)
    else if type.isJson then .ok (jsonBytes type (.string instant.offsetText))
    else .error (.unsupported "date" (.scalar type))

def encodeBoolean (type : ScalarType) (b : Bool) : Except EncodeError Bytes :=
  if type = .bool then .ok [if b then 1 else 0]
  else if type.isText then .ok (utf8 (toString b))
  else if type.isJson then .ok (jsonBytes type (.bool b))
  else .error (.unsupported "boolean" (.scalar type))

def encodeScalar (type : ScalarType) (value : Value) : Except EncodeError Encoded :=
  match value with
  | .null => .ok .null
  | .string text =>
    if type.isJson then .ok (.bytes (jsonBytes type (.string text)))
    else match type.stringLead? with
      | some lead => .ok (.bytes (lead ++ utf8 text))
      | none => .error (.unsupported value.kind (.scalar type))
  | .integer n => (encodeInteger type n).map .bytes
  | .float x => (encodeFloat type x).map .bytes
  | .boolean b => (encodeBoolean type b).map .bytes
  | .date instant => (encodeDate type instant).map .bytes
  | .array items =>
    if type.isJson then .ok (.bytes (jsonBytes type (Value.array items).toJson))
    else if type.isText then .ok (.bytes (utf8 (Value.array items).toJson.text))
    else .error (.unsupported value.kind (.scalar type))
  | .json document =>
    if type.isText then .ok (.bytes (utf8 document.text))
    else if type.isJson then .ok (.bytes (jsonBytes type document))
    else .error (.unsupported value.kind (.scalar type))

/-! ## Arrays -/

/-- An element behind its length; a null has length -1 and no bytes. -/
def elementBytes : Encoded → Bytes
  | .null => signedBytes 4 (-1)
  | .bytes bytes => signedBytes 4 bytes.length ++ bytes

/-- One dimension with lower bound 1, whether there are nulls, and the element type. -/
def arrayBytes (element : ScalarType) (items : List Encoded) : Bytes :=
  signedBytes 4 1 ++ signedBytes 4 (if .null ∈ items then 1 else 0) ++
    bigEndian 4 element.objectId.toNat ++ signedBytes 4 items.length ++ signedBytes 4 1 ++
    items.flatMap elementBytes

def encode (type : ParameterType) (value : Value) : Except EncodeError Encoded :=
  match type, value with
  | .scalar type, value => encodeScalar type value
  | .array _, .null => .ok .null
  | .array element, .array items => do
    let encoded ← items.mapM (encodeScalar element)
    .ok (.bytes (arrayBytes element encoded))
  | .array element, value => .error (.unsupported value.kind (.array element))

abbrev Query := WhereClause

/-- Compiles for Postgres, whatever dialect the settings name. -/
def compile (options : CompileOptions) (filter : Option Filter) : Query :=
  FilterSql.compile (options.withDialect .postgres) filter

end FilterSql.Postgres
