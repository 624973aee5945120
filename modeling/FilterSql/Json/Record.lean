import FilterSql.Json.Printer
import FilterSql.Text.Quoted

/-!
# Reading records out of JSON

A record is written as an object, or as an array of its fields in order.  Of
all that is wrong with one record the earliest fault is reported: entries count
in the order in which they stand, and after them come the missing fields in the
order of their declaration.
-/

namespace FilterSql

/-! ## Errors -/

inductive DecodeError where
  | invalidType (found : Json) (expected : String)
  | invalidValue (found : Json) (expected : String)
  | invalidLength (length : Nat) (expected : String)
  | missingField (name : String)
  | unknownVariant (name : String) (first second : String)
  | noVariant (type : String)
  deriving Repr, Inhabited

namespace DecodeError

def describe : Json → String
  | .null => "null"
  | .bool value => "boolean `" ++ toString value ++ "`"
  | .integer value => "integer `" ++ toString value ++ "`"
  | .float value => "floating point `" ++ Json.floatText value ++ "`"
  | .string value => "string " ++ Text.quoted value
  | .array _ => "sequence"
  | .object _ => "map"

def message : DecodeError → String
  | .invalidType found expected =>
    "invalid type: " ++ describe found ++ ", expected " ++ expected
  | .invalidValue found expected =>
    "invalid value: " ++ describe found ++ ", expected " ++ expected
  | .invalidLength length expected =>
    "invalid length " ++ toString length ++ ", expected " ++ expected
  | .missingField name => "missing field `" ++ name ++ "`"
  | .unknownVariant name first second =>
    "unknown variant `" ++ name ++ "`, expected `" ++ first ++ "` or `" ++ second ++ "`"
  | .noVariant type => "data did not match any variant of untagged enum " ++ type

end DecodeError

namespace Json

/-! ## Scalars and lists -/

abbrev Decoder (α : Type) := Json → Except DecodeError α

namespace Decoder

def string : Decoder String
  | .string value => .ok value
  | other => .error (.invalidType other "a string")

def boolean : Decoder Bool
  | .bool value => .ok value
  | other => .error (.invalidType other "a boolean")

def count : Decoder UInt64
  | .integer value =>
    if 0 ≤ value then .ok (UInt64.ofNat value.toNat)
    else .error (.invalidValue (.integer value) "usize")
  | other => .error (.invalidType other "usize")

def any : Decoder Json := .ok

def list {α : Type} (decode : Decoder α) : Decoder (List α)
  | .array items => items.mapM decode
  | other => .error (.invalidType other "a sequence")

def nullable {α : Type} (decode : Decoder α) : Decoder (Option α)
  | .null => .ok none
  | other => (decode other).map some

end Decoder

/-! ## Faults in order -/

/-- The outcome of reading part of a record; a fault carries the place where it stands. -/
inductive Reading (α : Type) where
  | value (a : α)
  | fault (place : Nat) (error : DecodeError)

namespace Reading

def ofExcept {α : Type} (place : Nat) : Except DecodeError α → Reading α
  | .ok a => .value a
  | .error error => .fault place error

def toExcept {α : Type} : Reading α → Except DecodeError α
  | .value a => .ok a
  | .fault _ error => .error error

/-- Two readings combine to the earlier of their faults. -/
instance : Applicative Reading where
  pure := .value
  seq readF readA :=
    match readF, readA () with
    | .value f, .value a => .value (f a)
    | .value _, .fault place error => .fault place error
    | .fault place error, .value _ => .fault place error
    | .fault place error, .fault place' error' =>
      if place' < place then .fault place' error' else .fault place error

end Reading

/-! ## Records -/

structure Shape where
  name : String
  fields : List String

namespace Shape

def expected (shape : Shape) : String := "struct " ++ shape.name

inductive Missing (α : Type) where
  | never
  | fromObject (default : α)
  | fromEither (default : α)

def locate? (shape : Shape) (record : Json) (field : String) : Option (Nat × Json) :=
  match record with
  | .object members =>
    (lookup? field members).map fun value => ((members.map Prod.fst).idxOf field, value)
  | .array items =>
    let place := shape.fields.idxOf field
    items[place]?.map fun value => (place, value)
  | _ => none

def absent {α : Type} (shape : Shape) (record : Json) (field : String) :
    Missing α → Reading α
  | .fromEither default => .value default
  | missing =>
    let place := shape.fields.idxOf field
    match record with
    | .array _ =>
      .fault place (.invalidLength place
        (shape.expected ++ " with " ++ toString shape.fields.length ++ " elements"))
    | .object members =>
      match missing with
      | .fromObject default => .value default
      | _ => .fault (members.length + place) (.missingField field)
    | other => .fault 0 (.invalidType other shape.expected)

def field {α : Type} (shape : Shape) (record : Json) (field : String)
    (missing : Missing α) (decode : Decoder α) : Reading α :=
  match shape.locate? record field with
  | some (place, value) => .ofExcept place (decode value)
  | none => shape.absent record field missing

def required {α : Type} (shape : Shape) (record : Json) (name : String)
    (decode : Decoder α) : Reading α :=
  shape.field record name .never decode

/-- A field that an object may leave out, or give as null. -/
def optional {α : Type} (shape : Shape) (record : Json) (name : String)
    (decode : Decoder α) : Reading (Option α) :=
  shape.field record name (.fromObject none) decode.nullable

/-- An array must not be longer than the record has fields. -/
def withinLength (shape : Shape) : Json → Reading Unit
  | .array items =>
    if shape.fields.length < items.length then
      .fault shape.fields.length (.invalidLength items.length "fewer elements in array")
    else .value ()
  | _ => .value ()

def decode {α : Type} (shape : Shape) (read : Json → Reading α) : Decoder α
  | .object members => (read (.object members)).toExcept
  | .array items =>
    (read (.array items) <* shape.withinLength (.array items)).toExcept
  | other => .error (.invalidType other shape.expected)

end Shape

end Json

end FilterSql
