import FilterSql.Proofs.Double.Finite
import FilterSql.Proofs.Json.Records
import FilterSql.Select.Options

/-!
# Select options from their JSON form

An order is told by its shape, a number by its kind, and a field that is not set is left out, so
that options are read back from the JSON that they are written as.  Only a column with the name of
the random order is taken for that order, and only numbers that JSON does not have are lost.
-/

namespace FilterSql

open Json

/-! ## Numbers -/

namespace NumberOrText

/-- A text, or a number that JSON has. -/
def IsWritable (number : NumberOrText) : Prop := ∀ x, number = .number x → x.isFinite

@[simp] theorem isWritable_number {x : Double} : IsWritable (.number x) ↔ x.isFinite := by
  simp [IsWritable]

@[simp] theorem isWritable_text (written : String) : IsWritable (.text written) := nofun

theorem decode_encode_iff {number : NumberOrText} :
    decode number.encode = .ok number ↔ number.IsWritable := by
  cases number with
  | number x => by_cases h : x.isFinite <;> simp [encode, ofDouble, h, decode]
  | text written => simp [encode, decode]

/-- A number that JSON does not have is written as null, and so reads as an absent one. -/
theorem nullable_decode_encode_iff {number : NumberOrText} :
    Decoder.nullable decode number.encode = .ok (some number) ↔ number.IsWritable := by
  cases number with
  | number x =>
      by_cases h : x.isFinite <;>
        simp [encode, ofDouble, h, Decoder.nullable, decode, Except.map]
  | text written => simp [encode, Decoder.nullable, decode, Except.map]

theorem isWritable_of_decode {json : Json} (hnumbers : json.HasJsonNumbers) {number : NumberOrText}
    (h : decode json = .ok number) : number.IsWritable := by
  cases hnumbers with
  | integer hlow hhigh =>
      cases h
      have hsize := (HasJsonNumbers.integer hlow hhigh).natAbs_lt
      exact isWritable_number.mpr (Double.isFinite_ofInt hsize)
  | float hfinite =>
      cases h
      exact isWritable_number.mpr hfinite
  | string written =>
      cases h
      exact isWritable_text written
  | null | bool | array | object => cases h

end NumberOrText

/-! ## Orders -/

namespace Coordinates

theorem decode_members_iff {latField longField : String} {lat long : Json} {place : Coordinates} :
    decode (.object [("latField", .string latField), ("longField", .string longField),
        ("lat", lat), ("long", long)]) = .ok place ↔
      NumberOrText.decode lat = .ok place.lat ∧ NumberOrText.decode long = .ok place.long ∧
        latField = place.latField ∧ longField = place.longField := by
  obtain ⟨latName, longName, fromLat, fromLong⟩ := place
  simp [decode, Shape.decode, Shape.required, Shape.field, Shape.locate?,
    Reading.toExcept_eq_ok, Reading.seq_eq_value, Reading.ofExcept_eq_value, Decoder.string]

theorem decode_encode_iff {place : Coordinates} :
    decode place.encode = .ok place ↔ place.lat.IsWritable ∧ place.long.IsWritable := by
  rw [encode, decode_members_iff, NumberOrText.decode_encode_iff, NumberOrText.decode_encode_iff]
  simp

theorem isWritable_of_decode {json : Json} (hnumbers : json.HasJsonNumbers) :
    Gives (decode json) fun place => place.lat.IsWritable ∧ place.long.IsWritable := by
  have hfield {name : String} {number : NumberOrText}
      (h : shape.required json name NumberOrText.decode = .value number) : number.IsWritable := by
    obtain ⟨index, part, hpart, hdecode⟩ := Shape.exists_of_required h
    exact NumberOrText.isWritable_of_decode
      (isHereditary_hasJsonNumbers.locate? hnumbers hpart) hdecode
  refine Shape.gives_decode fun place hplace => ?_
  simp only [Reading.seq_eq_value, Reading.map_eq_value] at hplace
  obtain ⟨_, long, ⟨_, lat, ⟨_, _, ⟨_, _, rfl⟩, _, rfl⟩, hlat, rfl⟩, hlong, rfl⟩ := hplace
  exact ⟨hfield hlat, hfield hlong⟩

end Coordinates

namespace OrderBy

/-- A column with the name of the random order is read as that order. -/
def folded : OrderBy → OrderBy
  | .random => .random
  | .distance place => .distance place
  | .column name => ofColumn name

def numbers : OrderBy → List NumberOrText
  | .random => []
  | .distance place => [place.lat, place.long]
  | .column _ => []

theorem folded_eq_self_iff {order : OrderBy} :
    order.folded = order ↔ order ≠ .column randomName := by
  cases order with
  | random | distance => simp [folded]
  | column name => by_cases h : name = randomName <;> simp [folded, ofColumn, h]

theorem decode_encode_iff {order : OrderBy} :
    decode order.encode = .ok order.folded ↔ ∀ number ∈ order.numbers, number.IsWritable := by
  cases order with
  | random | column => simp [decode, encode, folded, numbers, ofColumn]
  | distance place =>
      have hplace : (∀ number ∈ [place.lat, place.long], number.IsWritable) ↔
          Coordinates.decode place.encode = .ok place := by
        simp [Coordinates.decode_encode_iff]
      rw [numbers, hplace, encode, decode, lookup?_cons, if_pos rfl, folded, Option.map_some]
      generalize Coordinates.decode place.encode = outcome
      cases outcome <;> simp

theorem nullable_decode_encode_iff {order : OrderBy} :
    Decoder.nullable decode order.encode = .ok (some order.folded) ↔
      ∀ number ∈ order.numbers, number.IsWritable := by
  have hnullable : Decoder.nullable decode order.encode = (decode order.encode).map some := by
    cases order <;> rfl
  rw [← decode_encode_iff, hnullable]
  cases decode order.encode <;> simp [Except.map]

/-- An order that was read is a name other than that of the random order, or the distance that
stands in the JSON value. -/
theorem of_decode {json : Json} {order : OrderBy} (h : decode json = .ok order) :
    order = .random ∨ (∃ name, order = .column name ∧ name ≠ randomName) ∨
      ∃ members part place, json = .object members ∧ ("distance", part) ∈ members ∧
        Coordinates.decode part = .ok place ∧ order = .distance place := by
  cases json with
  | string name =>
      cases h
      by_cases hname : name = randomName <;> simp [ofColumn, hname]
  | object members =>
      rw [decode] at h
      split at h
      · next place hplace =>
        cases h
        obtain ⟨part, hpart, hdecode⟩ := Option.map_eq_some_iff.mp hplace
        exact .inr (.inr ⟨members, part, place, rfl, mem_of_lookup? hpart, hdecode, rfl⟩)
      · cases h
  | null | bool | integer | float | array => cases h

theorem ne_column_of_decode {json : Json} {order : OrderBy} (h : decode json = .ok order) :
    order ≠ .column randomName := by
  obtain rfl | ⟨name, rfl, hname⟩ | ⟨_, _, _, _, _, _, rfl⟩ := of_decode h <;> simp [*]

theorem isWritable_of_decode {json : Json} (hnumbers : json.HasJsonNumbers) {order : OrderBy}
    (h : decode json = .ok order) : ∀ number ∈ order.numbers, number.IsWritable := by
  obtain rfl | ⟨name, rfl, -⟩ | ⟨members, part, place, rfl, hpart, hdecode, rfl⟩ := of_decode h
  · simp [numbers]
  · simp [numbers]
  · have hwritable := Coordinates.isWritable_of_decode
      (isHereditary_hasJsonNumbers.members hnumbers _ hpart) place hdecode
    simp [numbers, hwritable]

end OrderBy

/-! ## Options -/

namespace SelectOptions

def folded (options : SelectOptions) : SelectOptions :=
  if options.orderBy = some (.column OrderBy.randomName) then
    { options with orderBy := some .random }
  else options

def numbers (options : SelectOptions) : List NumberOrText :=
  options.orderBy.toList.flatMap OrderBy.numbers ++ options.limit.toList ++ options.offset.toList

theorem folded_eq (options : SelectOptions) :
    options.folded = { options with orderBy := options.orderBy.map OrderBy.folded } := by
  obtain ⟨orderBy, limit, offset, nocase, descending⟩ := options
  cases orderBy with
  | none => simp [folded]
  | some order =>
      by_cases h : order = .column OrderBy.randomName
      · simp [folded, h, OrderBy.folded, OrderBy.ofColumn]
      · simp [folded, h, OrderBy.folded_eq_self_iff.mpr h]

theorem lookup?_member? {α : Type} (name other : String) (encode : α → Json) (value : Option α) :
    lookup? name (member? other encode value) =
      if other = name then value.map encode else none := by
  cases value <;> simp [member?]

variable {options : SelectOptions}

theorem decode_object_iff {members : List (String × Json)} :
    decode (.object members) = .ok options ↔
      (lookup? "orderBy" members).elim (.ok none) OrderBy.decode.nullable = .ok options.orderBy ∧
      (lookup? "limit" members).elim (.ok none) NumberOrText.decode.nullable =
        .ok options.limit ∧
      (lookup? "offset" members).elim (.ok none) NumberOrText.decode.nullable =
        .ok options.offset ∧
      (lookup? "nocase" members).elim (.ok false) Decoder.boolean = .ok options.nocase ∧
      (lookup? "orderDesc" members).elim (.ok false) Decoder.boolean =
        .ok options.descending := by
  rw [decode, Shape.decode, Reading.toExcept_eq_ok]
  simp only [Reading.seq_eq_value, Reading.map_eq_value, Shape.field_object_eq_value_iff]
  constructor
  · rintro ⟨_, _, ⟨_, _, ⟨_, _, ⟨_, _, ⟨_, horder, rfl⟩, hlimit, rfl⟩, hoffset, rfl⟩, hcase, rfl⟩,
      hdirection, rfl⟩
    exact ⟨horder, hlimit, hoffset, hcase, hdirection⟩
  · rintro ⟨horder, hlimit, hoffset, hcase, hdirection⟩
    exact ⟨_, _, ⟨_, _, ⟨_, _, ⟨_, _, ⟨_, horder, rfl⟩, hlimit, rfl⟩, hoffset, rfl⟩, hcase, rfl⟩,
      hdirection, rfl⟩

theorem elim_number_iff {number : Option NumberOrText} :
    (number.map NumberOrText.encode).elim (.ok none) NumberOrText.decode.nullable = .ok number ↔
      ∀ n ∈ number, n.IsWritable := by
  cases number with
  | none => simp
  | some n => simp [NumberOrText.nullable_decode_encode_iff]

theorem elim_order_iff {order : Option OrderBy} :
    (order.map OrderBy.encode).elim (.ok none) OrderBy.decode.nullable =
        .ok (order.map OrderBy.folded) ↔
      ∀ kind ∈ order, ∀ number ∈ kind.numbers, number.IsWritable := by
  cases order with
  | none => simp
  | some kind => simp [OrderBy.nullable_decode_encode_iff]

theorem forall_mem_numbers {holds : NumberOrText → Prop} :
    (∀ number ∈ options.numbers, holds number) ↔
      (∀ order ∈ options.orderBy, ∀ number ∈ order.numbers, holds number) ∧
        (∀ number ∈ options.limit, holds number) ∧ ∀ number ∈ options.offset, holds number := by
  simp only [numbers, List.forall_mem_append, List.forall_mem_flatMap, Option.mem_toList,
    Option.mem_def, and_assoc]

theorem decode_encode_iff :
    decode options.encode = .ok options.folded ↔
      ∀ number ∈ options.numbers, number.IsWritable := by
  rw [forall_mem_numbers, ← elim_order_iff, ← elim_number_iff, ← elim_number_iff, folded_eq, encode,
    decode_object_iff]
  simp [lookup?_append, lookup?_member?, Decoder.boolean]

/-! ## Options that were read -/

theorem gives_fields (json : Json) :
    Gives (decode json) fun options =>
      shape.field json "orderBy" (.fromEither none) OrderBy.decode.nullable =
          .value options.orderBy ∧
        shape.field json "limit" (.fromEither none) NumberOrText.decode.nullable =
          .value options.limit ∧
        shape.field json "offset" (.fromEither none) NumberOrText.decode.nullable =
          .value options.offset := by
  refine Shape.gives_decode fun options hoptions => ?_
  simp only [Reading.seq_eq_value, Reading.map_eq_value] at hoptions
  obtain ⟨_, _, ⟨_, _, ⟨_, _, ⟨_, _, ⟨_, horder, rfl⟩, hlimit, rfl⟩, hoffset, rfl⟩, _, rfl⟩, _,
    rfl⟩ := hoptions
  exact ⟨horder, hlimit, hoffset⟩

/-- What is set was read from a part of the JSON value. -/
theorem exists_of_field {json : Json} {admits : Json → Prop} (hadmits : IsHereditary admits)
    (hjson : admits json) {α : Type} {name : String} {decode : Decoder α} {value : Option α}
    (h : shape.field json name (.fromEither none) decode.nullable = .value value) {a : α}
    (ha : a ∈ value) : ∃ part : Json, admits part ∧ decode part = .ok a := by
  cases ha
  obtain ⟨-, hnone⟩ | ⟨place, part, hpart, hdecode⟩ := Shape.field_eq_value_iff.mp h
  · cases hnone
  · exact ⟨part, hadmits.locate? hjson hpart, Decoder.of_nullable_eq_some hdecode⟩

theorem folded_of_decode {json : Json} (h : decode json = .ok options) :
    options.folded = options := by
  obtain ⟨horder, -⟩ := gives_fields json options h
  refine if_neg fun hcolumn => ?_
  obtain ⟨part, -, hdecode⟩ := exists_of_field (isHereditary_isWithin json) .self horder hcolumn
  exact OrderBy.ne_column_of_decode hdecode rfl

theorem isWritable_of_decode {json : Json} (hnumbers : json.HasJsonNumbers)
    (h : decode json = .ok options) : ∀ number ∈ options.numbers, number.IsWritable := by
  obtain ⟨horder, hlimit, hoffset⟩ := gives_fields json options h
  have hnumber {name : String} {value : Option NumberOrText}
      (h : shape.field json name (.fromEither none) NumberOrText.decode.nullable = .value value) :
      ∀ number ∈ value, number.IsWritable := fun number hmem => by
    obtain ⟨part, hpart, hdecode⟩ := exists_of_field isHereditary_hasJsonNumbers hnumbers h hmem
    exact NumberOrText.isWritable_of_decode hpart hdecode
  refine forall_mem_numbers.mpr ⟨fun order hmem => ?_, hnumber hlimit, hnumber hoffset⟩
  obtain ⟨part, hpart, hdecode⟩ := exists_of_field isHereditary_hasJsonNumbers hnumbers horder hmem
  exact OrderBy.isWritable_of_decode hpart hdecode

/-- Options whose numbers JSON has, and no others, are read back from their JSON value, a column
with the name of the random order as that order.  Options that were read from a JSON value come
back as they are, with the same SQL text.  What writing and reading the JSON text may do to a
number is another matter. -/
theorem decode_encode_eq_folded :
    (∀ options : SelectOptions, decode options.encode = .ok options.folded ↔
        ∀ x, .number x ∈ options.numbers → x.isFinite) ∧
      ∀ (json : Json) (options : SelectOptions), json.HasJsonNumbers → decode json = .ok options →
        decode options.encode = .ok options ∧
          ∀ cosine, (decode options.encode).map (sqlWith cosine) = .ok (options.sqlWith cosine) := by
  refine ⟨fun options => ?_, fun json options hnumbers h => ?_⟩
  · rw [decode_encode_iff]
    exact ⟨fun hwritable x hx => hwritable _ hx x rfl, fun hfinite number hmem x hx =>
      hfinite x (hx ▸ hmem)⟩
  · have hself := decode_encode_iff.mpr (isWritable_of_decode hnumbers h)
    rw [folded_of_decode h] at hself
    exact ⟨hself, fun cosine => by rw [hself]; rfl⟩

end SelectOptions

end FilterSql
