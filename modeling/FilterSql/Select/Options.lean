import FilterSql.Decimal.Layout
import FilterSql.Double.Cosine
import FilterSql.Identifier
import FilterSql.Select.Number

/-!
# Ordering and paging

What follows the `WHERE` of a select: an order, a limit and an offset, each of
which may be missing.  Everything a caller sends is cut down to names and
numbers before it becomes SQL text.
-/

namespace FilterSql

/-- A place given by two columns, and the place to measure from, in degrees. -/
structure Coordinates where
  latField : String
  longField : String
  lat : NumberOrText
  long : NumberOrText
  deriving DecidableEq, Repr

inductive OrderBy where
  | random
  | distance (coordinates : Coordinates)
  | column (name : String)
  deriving DecidableEq, Repr

structure SelectOptions where
  orderBy : Option OrderBy
  limit : Option NumberOrText
  offset : Option NumberOrText
  /-- Order by the lower case of the column. -/
  nocase : Bool
  descending : Bool
  deriving DecidableEq, Repr

/-! ## SQL -/

def OrderBy.randomName : String := "RANDOM()"

/--
The squared distance in degrees, the longitude scaled by the cosine of the
latitude so that both axes compare.  A square orders as its root does.  Which
cosine is open: in its last digit it differs from one platform to another.
-/
def Coordinates.orderText? (cosine : Double → Double) (place : Coordinates) : Option String := do
  let lat ← place.lat.toDouble?
  let long ← place.long.toDouble?
  let scale := cosine lat.toRadians
  let square (field : String) (origin : Double) : String :=
    let difference := "(" ++ columnRef field ++ " - " ++ origin.display ++ ")"
    difference ++ "*" ++ difference
  some ("(" ++ square place.latField lat ++ ") + (" ++ square place.longField long ++ "*" ++
    (scale.mul scale).display ++ ")")

def columnOrderText? (name : String) (nocase : Bool) : Option String :=
  if sanitizeDotted name = "" then none
  else some (if nocase then "lower(" ++ columnRef name ++ ")" else columnRef name)

namespace SelectOptions

def default : SelectOptions := ⟨none, none, none, false, false⟩

instance : Inhabited SelectOptions := ⟨default⟩

def orderText? (cosine : Double → Double) (options : SelectOptions) : Option String := do
  let order ← match ← options.orderBy with
    | .random => some OrderBy.randomName
    | .distance place => place.orderText? cosine
    | .column name =>
      (columnOrderText? name options.nocase).map fun column =>
        column ++ if options.descending then " DESC" else ""
  some ("ORDER BY " ++ order)

def countText? (keyword : String) (number : Option NumberOrText) : Option String :=
  (number.bind NumberOrText.toLimit?).map fun n => keyword ++ " " ++ toString n.toInt

def sqlWith (cosine : Double → Double) (options : SelectOptions) : String :=
  String.intercalate " "
    ([options.orderText? cosine, countText? "LIMIT" options.limit,
      countText? "OFFSET" options.offset].filterMap id)

def sql (options : SelectOptions) : String := options.sqlWith Double.cos

end SelectOptions

/-! ## JSON form -/

open Json

namespace Coordinates

def shape : Shape := ⟨"CoordOpts", ["latField", "longField", "lat", "long"]⟩

def decode : Decoder Coordinates :=
  shape.decode fun record =>
    Coordinates.mk
      <$> shape.required record "latField" Decoder.string
      <*> shape.required record "longField" Decoder.string
      <*> shape.required record "lat" NumberOrText.decode
      <*> shape.required record "long" NumberOrText.decode

def encode (place : Coordinates) : Json :=
  .object [
    ("latField", .string place.latField),
    ("longField", .string place.longField),
    ("lat", place.lat.encode),
    ("long", place.long.encode)]

end Coordinates

namespace OrderBy

def ofColumn (name : String) : OrderBy :=
  if name = randomName then .random else .column name

/-- An object with a distance, or a column name; whatever is wrong with it, neither fits. -/
def decode : Decoder OrderBy
  | .string name => .ok (ofColumn name)
  | .object members =>
    match (lookup? "distance" members).map Coordinates.decode with
    | some (.ok place) => .ok (.distance place)
    | _ => .error (.noVariant "OrderByRepr")
  | _ => .error (.noVariant "OrderByRepr")

def encode : OrderBy → Json
  | .random => .string randomName
  | .distance place => .object [("distance", place.encode)]
  | .column name => .string name

end OrderBy

namespace SelectOptions

def shape : Shape :=
  ⟨"SelectOptions", ["orderBy", "limit", "offset", "nocase", "orderDesc"]⟩

def decode : Decoder SelectOptions :=
  shape.decode fun record =>
    SelectOptions.mk
      <$> shape.field record "orderBy" (.fromEither none) OrderBy.decode.nullable
      <*> shape.field record "limit" (.fromEither none) NumberOrText.decode.nullable
      <*> shape.field record "offset" (.fromEither none) NumberOrText.decode.nullable
      <*> shape.field record "nocase" (.fromEither false) Decoder.boolean
      <*> shape.field record "orderDesc" (.fromEither false) Decoder.boolean

def member? {α : Type} (name : String) (encode : α → Json) (value : Option α) :
    List (String × Json) :=
  value.toList.map fun a => (name, encode a)

def encode (options : SelectOptions) : Json :=
  .object (
    member? "orderBy" OrderBy.encode options.orderBy ++
    member? "limit" NumberOrText.encode options.limit ++
    member? "offset" NumberOrText.encode options.offset ++
    [("nocase", .bool options.nocase), ("orderDesc", .bool options.descending)])

end SelectOptions

end FilterSql
