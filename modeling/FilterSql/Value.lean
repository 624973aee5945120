import FilterSql.Instant.Printer
import FilterSql.Json.Printer

/-!
# Bound values

The values that a filter compares with.  They never become part of SQL text:
each is bound to a placeholder.
-/

namespace FilterSql

inductive Value where
  | null
  | string (text : String)
  | integer (n : Int64)
  | float (x : Double)
  | boolean (b : Bool)
  | date (instant : Instant)
  | array (items : List Value)
  | json (document : Json)
  deriving Repr, Inhabited

namespace Value

def isString : Value → Bool
  | .string _ => true
  | _ => false

def string? : Value → Option String
  | .string text => some text
  | _ => none

def kind : Value → String
  | .null => "null"
  | .string _ => "string"
  | .integer _ => "integer"
  | .float _ => "float"
  | .boolean _ => "boolean"
  | .date _ => "date"
  | .array _ => "array"
  | .json _ => "json"

/-! ## To JSON -/

mutual

def toJson : Value → Json
  | .null => .null
  | .string text => .string text
  | .integer n => .integer n.toInt
  | .float x => .ofDouble x
  | .boolean b => .bool b
  | .date instant => .string instant.millisText
  | .array items => .array (itemsToJson items)
  | .json document => document

def itemsToJson : List Value → List Json
  | [] => []
  | item :: rest => item.toJson :: itemsToJson rest

end

@[simp] theorem itemsToJson_eq_map (items : List Value) :
    itemsToJson items = items.map toJson := by
  induction items with
  | nil => rfl
  | cons item rest ih => simp [itemsToJson, ih]

/-! ## From JSON -/

/-- A whole number outside the signed 64 bits becomes the nearest double. -/
def ofInt (n : Int) : Value :=
  if Int64.minValue.toInt ≤ n ∧ n ≤ Int64.maxValue.toInt then .integer (Int64.ofInt n)
  else .float (.ofInt n)

mutual

def ofJson : Json → Value
  | .null => .null
  | .bool b => .boolean b
  | .integer n => .ofInt n
  | .float x => .float x
  | .string text => .string text
  | .array items => .array (listOfJson items)
  | .object members => .json (.object members)

def listOfJson : List Json → List Value
  | [] => []
  | item :: rest => ofJson item :: listOfJson rest

end

@[simp] theorem listOfJson_eq_map (items : List Json) :
    listOfJson items = items.map ofJson := by
  induction items with
  | nil => rfl
  | cons item rest ih => simp [listOfJson, ih]

end Value

end FilterSql
