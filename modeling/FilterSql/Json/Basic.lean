import FilterSql.Double.Basic

/-!
# JSON values

A JSON value keeps the order of its object members, and keeps whole numbers
apart from numbers that were written with a fraction or an exponent: `1` and
`1.0` are different values.  Whole numbers are those of 64 bits, signed or
unsigned; no member name occurs twice in an object.
-/

namespace FilterSql

inductive Json where
  | null
  | bool (value : Bool)
  | integer (value : Int)
  | float (value : Double)
  | string (value : String)
  | array (items : List Json)
  | object (members : List (String × Json))
  deriving Repr, Inhabited

namespace Json

/-! ## Kinds -/

def kind : Json → String
  | .null => "null"
  | .bool _ => "boolean"
  | .integer _ => "number"
  | .float _ => "number"
  | .string _ => "string"
  | .array _ => "array"
  | .object _ => "object"

def isTruthy : Json → Bool
  | .null => false
  | .bool value => value
  | .integer value => value != 0
  | .float value => !(value.isZero || value.isNaN)
  | .string value => value != ""
  | .array _ => true
  | .object _ => true

def ofDouble (x : Double) : Json := if x.isFinite then .float x else .null

/-! ## Members -/

def lookup? (name : String) : List (String × Json) → Option Json
  | [] => none
  | (other, value) :: rest => if other = name then some value else lookup? name rest

@[simp] theorem lookup?_nil (name : String) : lookup? name [] = none := rfl

@[simp] theorem lookup?_cons (name other : String) (value : Json)
    (rest : List (String × Json)) :
    lookup? name ((other, value) :: rest) =
      if other = name then some value else lookup? name rest := rfl

def hasMember (name : String) (members : List (String × Json)) : Bool :=
  (lookup? name members).isSome

/-- Sets a member: a name already there keeps its place and takes the new value. -/
def insert (name : String) (value : Json) : List (String × Json) → List (String × Json)
  | [] => [(name, value)]
  | (other, old) :: rest =>
    if other = name then (name, value) :: rest else (other, old) :: insert name value rest

theorem lookup?_insert_self (name : String) (value : Json) (members : List (String × Json)) :
    lookup? name (insert name value members) = some value := by
  induction members with
  | nil => simp [insert]
  | cons first rest ih =>
    obtain ⟨other, old⟩ := first
    by_cases h : other = name <;> simp [insert, h, ih]

theorem lookup?_insert_of_ne {name other : String} (h : other ≠ name) (value : Json)
    (members : List (String × Json)) :
    lookup? name (insert other value members) = lookup? name members := by
  induction members with
  | nil => simp [insert, h]
  | cons first rest ih =>
    obtain ⟨third, old⟩ := first
    by_cases h' : third = other
    · subst h'
      simp [insert, h]
    · simp [insert, h', ih]

end Json

end FilterSql
