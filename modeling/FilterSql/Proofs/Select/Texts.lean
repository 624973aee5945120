import FilterSql.Proofs.Json.Texts
import FilterSql.Proofs.Select.Stored

/-!
# Select options from their JSON text

Options that are written as JSON text come back as they do from their JSON value, but for the
numbers among them: each of these comes back as its own digits are read, which for some doubles is
a neighbour.  Options whose numbers are read back from their digits survive any number of times.
-/

namespace FilterSql

open Json

/-- Read from its text the JSON value is decoded as `a`. -/
def Json.Decoder.Recovers {α : Type} (decode : Decoder α) (json : Json) (a : α) : Prop :=
  ∃ read, json.reread? = some read ∧ decode read = .ok a

namespace NumberOrText

/-- A text, or a number that is read back from its own digits. -/
def IsReadBack (number : NumberOrText) : Prop :=
  ∀ x, number = .number x → rereadDouble? x = some x

@[simp] theorem isReadBack_number {x : Double} :
    IsReadBack (.number x) ↔ rereadDouble? x = some x := by
  simp [IsReadBack]

@[simp] theorem isReadBack_text (written : String) : IsReadBack (.text written) := nofun

theorem recovers_encode_iff {number : NumberOrText} :
    Decoder.Recovers decode number.encode number ↔ number.IsReadBack := by
  cases number with
  | text written => simp [Decoder.Recovers, encode, reread?, decode]
  | number x =>
      rw [isReadBack_number]
      by_cases h : x.isFinite
      · simp [Decoder.Recovers, encode, ofDouble, h, reread?_float h, decode]
      · have hlost : rereadDouble? x ≠ some x := fun hx => h (isFinite_of_rereadDouble? hx)
        simp [Decoder.Recovers, encode, ofDouble, h, reread?, decode, hlost]

theorem IsReadBack.isWritable {number : NumberOrText} (h : number.IsReadBack) : number.IsWritable :=
  fun x hx => isFinite_of_rereadDouble? (h x hx)

theorem IsReadBack.reread?_encode {number : NumberOrText} (h : number.IsReadBack) :
    number.encode.reread? = some number.encode := by
  cases number with
  | text written => rfl
  | number x =>
      have hx := isReadBack_number.mp h
      have hfinite := isFinite_of_rereadDouble? hx
      rw [encode, ofDouble, if_pos hfinite, reread?_float hfinite, hx, Option.map_some]

theorem isReadable_encode (number : NumberOrText) (levels : Nat) :
    IsReadable levels number.encode := by
  cases number with
  | text written => exact .string written
  | number x =>
      rw [encode, ofDouble]
      split
      · exact .scalar (.float x)
      · exact .scalar .null

end NumberOrText

namespace Coordinates

theorem isReadable_encode (place : Coordinates) (levels : Nat) :
    IsReadable (levels + 1) place.encode := by
  refine .object (by simp) ?_
  simp only [List.forall_mem_cons]
  exact ⟨.string _, .string _, place.lat.isReadable_encode levels,
    place.long.isReadable_encode levels, List.forall_mem_nil _⟩

theorem recovers_encode_iff {place : Coordinates} :
    Decoder.Recovers decode place.encode place ↔ place.lat.IsReadBack ∧ place.long.IsReadBack := by
  rw [← NumberOrText.recovers_encode_iff, ← NumberOrText.recovers_encode_iff]
  have hread {read : Json} : place.encode.reread? = some read ↔
      ∃ lat long, place.lat.encode.reread? = some lat ∧ place.long.encode.reread? = some long ∧
        .object [("latField", .string place.latField), ("longField", .string place.longField),
          ("lat", lat), ("long", long)] = read := by
    simp [encode, reread?, rereadMembers?, Option.bind_eq_some_iff]
  constructor
  · rintro ⟨read, hplace, hdecode⟩
    obtain ⟨lat, long, hlat, hlong, rfl⟩ := hread.mp hplace
    obtain ⟨hlat', hlong', -⟩ := decode_members_iff.mp hdecode
    exact ⟨⟨lat, hlat, hlat'⟩, ⟨long, hlong, hlong'⟩⟩
  · rintro ⟨⟨lat, hlat, hlat'⟩, ⟨long, hlong, hlong'⟩⟩
    exact ⟨_, hread.mpr ⟨lat, long, hlat, hlong, rfl⟩,
      decode_members_iff.mpr ⟨hlat', hlong', rfl, rfl⟩⟩

end Coordinates

namespace OrderBy

theorem recovers_encode_iff {order : OrderBy} :
    Decoder.Recovers decode order.encode order.folded ↔
      ∀ number ∈ order.numbers, number.IsReadBack := by
  cases order with
  | random | column => simp [Decoder.Recovers, encode, reread?, decode, folded, ofColumn, numbers]
  | distance place =>
      have hplace : (∀ number ∈ [place.lat, place.long], number.IsReadBack) ↔
          Decoder.Recovers Coordinates.decode place.encode place := by
        simp [Coordinates.recovers_encode_iff]
      rw [numbers, hplace, folded]
      have hread {read : Json} : (encode (.distance place)).reread? = some read ↔
          ∃ part, place.encode.reread? = some part ∧ .object [("distance", part)] = read := by
        simp [encode, reread?, rereadMembers?, Option.bind_eq_some_iff]
      have hdecode (part : Json) : decode (.object [("distance", part)]) = .ok (.distance place) ↔
          Coordinates.decode part = .ok place := by
        rw [decode, lookup?_cons, if_pos rfl, Option.map_some]
        generalize Coordinates.decode part = outcome
        cases outcome <;> simp
      simp only [Decoder.Recovers, hread]
      constructor
      · rintro ⟨read, ⟨part, hpart, rfl⟩, hplace⟩
        exact ⟨part, hpart, (hdecode part).mp hplace⟩
      · rintro ⟨part, hpart, hplace⟩
        exact ⟨_, ⟨part, hpart, rfl⟩, (hdecode part).mpr hplace⟩

theorem reread?_encode {order : OrderBy} (h : ∀ number ∈ order.numbers, number.IsReadBack) :
    order.encode.reread? = some order.encode := by
  cases order with
  | random | column => rfl
  | distance place =>
      have hlat := (h place.lat (by simp [numbers])).reread?_encode
      have hlong := (h place.long (by simp [numbers])).reread?_encode
      simp [encode, Coordinates.encode, reread?, rereadMembers?, hlat, hlong]

theorem isReadable_encode (order : OrderBy) (levels : Nat) :
    IsReadable (levels + 2) order.encode := by
  cases order with
  | random | column => exact .string _
  | distance place =>
      exact .object (by simp)
        (List.forall_mem_singleton.mpr (place.isReadable_encode levels))

end OrderBy

/-- What is set is recovered if it is decoded from the text of its member. -/
theorem Json.Decoder.recovers_of_elim {α : Type} {decode : Decoder α} {json : Json} {a : α}
    (h : json.reread?.elim (.ok none) decode.nullable = .ok (some a)) :
    Decoder.Recovers decode json a := by
  cases hread : json.reread? with
  | none =>
      rw [hread] at h
      cases h
  | some read =>
      rw [hread] at h
      exact ⟨read, hread, Decoder.of_nullable_eq_some h⟩

namespace SelectOptions

variable {options : SelectOptions}

theorem isReadBack_of_recovers (h : Decoder.Recovers decode options.encode options.folded) :
    ∀ number ∈ options.numbers, number.IsReadBack := by
  obtain ⟨read, hread, hdecode⟩ := h
  rw [encode, reread?, Option.map_eq_some_iff] at hread
  obtain ⟨members, hmembers, rfl⟩ := hread
  rw [decode_object_iff] at hdecode
  simp only [lookup?_of_rereadMembers? hmembers, folded_eq, lookup?_append, lookup?_member?,
    String.reduceEq, if_true, if_false, Option.or_none, Option.none_or, lookup?_cons,
    lookup?_nil] at hdecode
  obtain ⟨horder, hlimit, hoffset, -⟩ := hdecode
  have hnumber {value : Option NumberOrText}
      (h : ((value.map NumberOrText.encode).bind reread?).elim (.ok none)
        NumberOrText.decode.nullable = .ok value) : ∀ number ∈ value, number.IsReadBack := by
    rintro number rfl
    exact NumberOrText.recovers_encode_iff.mp (Decoder.recovers_of_elim h)
  refine forall_mem_numbers.mpr ⟨fun order hmem => ?_, hnumber hlimit, hnumber hoffset⟩
  rw [hmem] at horder
  exact OrderBy.recovers_encode_iff.mp (Decoder.recovers_of_elim horder)

theorem forall_mem_member? {α : Type} {name : String} {encode : α → Json} {value : Option α}
    {holds : String × Json → Prop} :
    (∀ member ∈ member? name encode value, holds member) ↔ ∀ a ∈ value, holds (name, encode a) := by
  cases value <;> simp [member?]

theorem reread?_encode (h : ∀ number ∈ options.numbers, number.IsReadBack) :
    options.encode.reread? = some options.encode := by
  obtain ⟨horder, hlimit, hoffset⟩ := forall_mem_numbers.mp h
  rw [encode, reread?, rereadMembers?_eq_self, Option.map_some]
  simp only [List.forall_mem_append, forall_mem_member?, List.forall_mem_cons]
  refine ⟨⟨⟨?_, ?_⟩, ?_⟩, rfl, rfl, List.forall_mem_nil _⟩
  · exact fun order hmem => OrderBy.reread?_encode (horder order hmem)
  · exact fun number hmem => (hlimit number hmem).reread?_encode
  · exact fun number hmem => (hoffset number hmem).reread?_encode

theorem recovers_encode_iff :
    Decoder.Recovers decode options.encode options.folded ↔
      ∀ number ∈ options.numbers, number.IsReadBack := by
  refine ⟨isReadBack_of_recovers, fun h => ⟨options.encode, reread?_encode h, ?_⟩⟩
  exact decode_encode_iff.mpr fun number hmem => (h number hmem).isWritable

/-! ## Texts -/

/-- The options in a JSON text, which is read as a JSON value first. -/
def read? (text : String) : Option SelectOptions :=
  (Json.read? text).bind fun json => (decode json).toOption

theorem toOption_decode_iff {json : Json} :
    (decode json).toOption = some options ↔ decode json = .ok options := by
  cases decode json <;> simp [Except.toOption]

def write (options : SelectOptions) : String := options.encode.text

open List in
theorem names_member?_sublist {α : Type} (name : String) (encode : α → Json) (value : Option α) :
    (member? name encode value).map Prod.fst <+ [name] := by
  cases value <;> simp [member?]

theorem isReadable_encode (options : SelectOptions) : IsReadable maxDepth options.encode := by
  obtain ⟨orderBy, limit, offset, nocase, descending⟩ := options
  have hfields : shape.fields.Nodup := by decide
  have hobject : IsReadable (126 + 1) (encode ⟨orderBy, limit, offset, nocase, descending⟩) := by
    refine .object (hfields.sublist ?_) ?_
    · simp only [List.map_append]
      exact (((names_member?_sublist _ _ _).append (names_member?_sublist _ _ _)).append
        (names_member?_sublist _ _ _)).append (.refl _)
    · simp only [List.forall_mem_append, forall_mem_member?, List.forall_mem_cons]
      refine ⟨⟨⟨?_, ?_⟩, ?_⟩, .scalar (.bool _), .scalar (.bool _), List.forall_mem_nil _⟩
      · exact fun order _ => order.isReadable_encode 124
      · exact fun number _ => number.isReadable_encode 126
      · exact fun number _ => number.isReadable_encode 126
  exact hobject

theorem folded_of_read? {text : String} (h : read? text = some options) :
    options.folded = options := by
  obtain ⟨json, -, hdecode⟩ := Option.bind_eq_some_iff.mp h
  exact folded_of_decode (toOption_decode_iff.mp hdecode)

theorem read?_write_iff :
    read? options.write = some options.folded ↔ ∀ number ∈ options.numbers, number.IsReadBack := by
  rw [← recovers_encode_iff, read?, write, read?_text (isReadable_encode options)]
  simp only [Decoder.Recovers, Option.bind_eq_some_iff, toOption_decode_iff]

/-- Options come back from their JSON value when JSON has their numbers, and from their JSON text
when each number is read back from its own digits, a column with the name of the random order as
that order.  Options that were read come back as they are, with the same SQL text. -/
theorem recovered_iff :
    (∀ options : SelectOptions,
        (decode options.encode = .ok options.folded ↔
          ∀ x, .number x ∈ options.numbers → x.isFinite) ∧
        (read? options.write = some options.folded ↔
          ∀ x, .number x ∈ options.numbers → rereadDouble? x = some x)) ∧
      (∀ (json : Json) (options : SelectOptions), json.HasJsonNumbers → decode json = .ok options →
        decode options.encode = .ok options ∧
          ∀ cosine, (decode options.encode).map (sqlWith cosine) = .ok (options.sqlWith cosine)) ∧
      ∀ (text : String) (options : SelectOptions), read? text = some options →
        (∀ x, .number x ∈ options.numbers → rereadDouble? x = some x) →
        read? options.write = some options ∧
          ∀ cosine, (read? options.write).map (sqlWith cosine) = some (options.sqlWith cosine) := by
  have htext (options : SelectOptions) : read? options.write = some options.folded ↔
      ∀ x, .number x ∈ options.numbers → rereadDouble? x = some x := by
    rw [read?_write_iff]
    exact ⟨fun h x hx => h _ hx x rfl, fun h number hmem x hx => h x (hx ▸ hmem)⟩
  refine ⟨fun options => ⟨decode_encode_eq_folded.1 options, htext options⟩,
    decode_encode_eq_folded.2, fun text options hread hnumbers => ?_⟩
  have hself := (htext options).mpr hnumbers
  rw [folded_of_read? hread] at hself
  exact ⟨hself, fun cosine => by rw [hself]; rfl⟩

theorem recovered_array :
    let greatest : Int := 18446744073709551615
    let text :=
      "[\x7b\"distance\":[\"lat\",\"lng\",60,\" -1e3 \"]\x7d,null,18446744073709551615]"
    let json : Json := .array [.object [("distance", .array
      [.string "lat", .string "lng", .integer 60, .string " -1e3 "])], .null, .integer greatest]
    let options : SelectOptions := ⟨some (.distance ⟨"lat", "lng", .number (.ofInt 60),
      .text " -1e3 "⟩), none, some (.number (.ofInt greatest)), false, false⟩
    json.HasJsonNumbers ∧ decode json = .ok options ∧ decode options.encode = .ok options ∧
      read? text = some options ∧ read? options.write = some options ∧
      read? (write { options with orderBy := some (.column "RANDOM()") }) =
        some { options with orderBy := some .random } := by
  intro greatest text json options
  have hjson : json.HasJsonNumbers := by
    refine .array (List.forall_mem_cons.mpr ⟨.object (List.forall_mem_singleton.mpr (.array ?_)),
      List.forall_mem_cons.mpr ⟨.null, List.forall_mem_singleton.mpr (.integer ?_ ?_)⟩⟩)
    · simp only [List.forall_mem_cons, List.not_mem_nil, false_implies, implies_true, and_true]
      exact ⟨.string _, .string _, .integer (by decide) (by decide), .string _⟩
    · decide
    · decide
  have hdecode : decode json = .ok options := rfl
  have hread : read? text = some options := by decide +kernel
  have hsixty : rereadDouble? (.ofInt 60) = some (.ofInt 60) := by decide +kernel
  have hgreatest : rereadDouble? (.ofInt greatest) = some (.ofInt greatest) := by decide +kernel
  have hself : ∀ x, .number x ∈ options.numbers → rereadDouble? x = some x := by
    simp [options, numbers, OrderBy.numbers, hsixty, hgreatest]
  have hcolumn : ∀ x, .number x ∈ numbers { options with orderBy := some (.column "RANDOM()") } →
      rereadDouble? x = some x := by
    simp [options, numbers, OrderBy.numbers, hgreatest]
  exact ⟨hjson, hdecode, (recovered_iff.2.1 json options hjson hdecode).1, hread,
    (recovered_iff.2.2 text options hread hself).1,
    (recovered_iff.1 _).2.mpr hcolumn⟩

/-- Distances from a place on the equator. -/
def measuredFrom (long : Double) : SelectOptions :=
  ⟨some (.distance ⟨"lat", "lng", .number .zero, .number long⟩), none, none, false, false⟩

/-- Options that were read from a text, and come back from their own text with another longitude
and another SQL text. -/
theorem not_recovered_from_text :
    let opening := "\x7b\"orderBy\":\x7b\"distance\":\x7b" ++
      "\"latField\":\"lat\",\"longField\":\"lng\",\"lat\":0.0,\"long\":"
    let closing := "\x7d\x7d,\"nocase\":false,\"orderDesc\":false\x7d"
    let first := measuredFrom ⟨0x402636026bf24afd⟩
    let second := measuredFrom ⟨0x402636026bf24afe⟩
    (∀ x, .number x ∈ first.numbers → x.isFinite) ∧
      read? (opening ++ "11.105487225844166" ++ closing) = some first ∧
      first.write = opening ++ "11.105487225844167" ++ closing ∧
      read? first.write = some second ∧ second ≠ first.folded ∧ second.sql ≠ first.sql := by
  intro opening closing first second
  have hlat : Double.zero.isFinite := by decide
  have hlong : Double.isFinite ⟨0x402636026bf24afd⟩ := by decide
  have hfinite : ∀ x, .number x ∈ first.numbers → x.isFinite := by
    simp [first, measuredFrom, numbers, OrderBy.numbers, hlat, hlong]
  have hread : read? (opening ++ "11.105487225844166" ++ closing) = some first := by
    decide +kernel
  have hwrite : first.write = opening ++ "11.105487225844167" ++ closing := by decide +kernel
  have hagain : read? first.write = some second := by decide +kernel
  exact ⟨hfinite, hread, hwrite, hagain, by decide, by decide +kernel⟩

end SelectOptions

end FilterSql
