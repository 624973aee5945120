import FilterSql.Postgres.Encode
import FilterSql.Proofs.Json.Elements
import Mathlib.Data.List.Forall2

/-!
# JSON parameters

Every value can be bound to a JSON parameter, and a list is bound as the list of its items.  What
an item is in the list it is alone as well, but for dates: alone they have all their digits and
`+00:00`, in a list milliseconds and `Z`.
-/

namespace FilterSql.Postgres

/-! ## UTF-8 -/

private theorem toList_loop_eq (bytes : ByteArray) (place : Nat) (taken : List UInt8) :
    ByteArray.toList.loop bytes place taken = taken.reverse ++ bytes.data.toList.drop place := by
  induction place, taken using ByteArray.toList.loop.induct bytes with
  | case1 place taken hplace ih =>
      have hlength : place < bytes.data.toList.length := hplace
      have hget : bytes.get! place = bytes.data.toList[place] :=
        getElem!_pos bytes.data place hplace
      rw [ByteArray.toList.loop, if_pos hplace, ih, List.drop_eq_getElem_cons hlength, hget]
      simp
  | case2 place taken hplace =>
      have hlength : bytes.data.toList.length ≤ place := Nat.le_of_not_lt hplace
      rw [ByteArray.toList.loop, if_neg hplace, List.drop_eq_nil_of_le hlength, List.append_nil]

theorem utf8_eq (text : String) : utf8 text = text.toByteArray.data.toList := by
  rw [utf8, ByteArray.toList, toList_loop_eq]
  rfl

theorem utf8_append (first second : String) :
    utf8 (first ++ second) = utf8 first ++ utf8 second := by
  simp only [utf8_eq, String.toByteArray_append, ByteArray.data_append, Array.toList_append]

theorem utf8_inj {first second : String} : utf8 first = utf8 second ↔ first = second := by
  rw [utf8_eq, utf8_eq, Array.toList_inj]
  exact ⟨fun h => String.toByteArray_inj.mp (ByteArray.ext h), fun h => h ▸ rfl⟩

/-! ## Texts of lists -/

def listText (texts : List Bytes) : Bytes :=
  utf8 "[" ++ List.intercalate (utf8 ",") texts ++ utf8 "]"

theorem utf8_append_chars (first second : List Char) :
    utf8 (String.ofList (first ++ second)) =
      utf8 (String.ofList first) ++ utf8 (String.ofList second) := by
  rw [String.ofList_append, utf8_append]

theorem utf8_itemChars (items : List Json) :
    utf8 (String.ofList (Json.itemChars items)) =
      List.intercalate (utf8 ",") (items.map fun item => utf8 item.text) := by
  induction items with
  | nil =>
      rw [Json.itemChars, utf8_eq]
      rfl
  | cons item rest ih =>
      cases rest with
      | nil => rw [List.map_singleton, List.intercalate_singleton, Json.itemChars, Json.text]
      | cons next rest =>
          have hcomma : utf8 (String.ofList (',' :: Json.itemChars (next :: rest))) =
              utf8 "," ++ utf8 (String.ofList (Json.itemChars (next :: rest))) :=
            utf8_append_chars [','] _
          rw [List.map_cons] at ih
          rw [List.map_cons, List.map_cons, List.intercalate_cons_cons, ← ih, List.append_assoc,
            ← hcomma, Json.text, ← utf8_append_chars, Json.itemChars]
          exact List.cons_ne_nil _ _

theorem utf8_array (items : List Json) :
    utf8 (Json.array items).text = listText (items.map fun item => utf8 item.text) := by
  have hopening : utf8 (String.ofList ('[' :: Json.itemChars items)) =
      utf8 "[" ++ utf8 (String.ofList (Json.itemChars items)) := utf8_append_chars ['['] _
  rw [Json.text, Json.chars, utf8_append_chars, hopening, utf8_itemChars]
  rfl

theorem listText_eq_iff {first second : List Json} :
    listText (first.map fun item => utf8 item.text) =
        listText (second.map fun item => utf8 item.text) ↔
      first.map Json.chars = second.map Json.chars := by
  rw [← utf8_array, ← utf8_array, utf8_inj]
  constructor
  · intro h
    have helements := congrArg Json.elementTexts? h
    rw [Json.elementTexts?_text, Json.elementTexts?_text, Option.some.injEq] at helements
    exact helements
  · intro h
    have htexts : first.map (fun item => utf8 item.text) =
        second.map fun item => utf8 item.text := by
      have := congrArg (List.map fun chars => utf8 (String.ofList chars)) h
      rw [List.map_map, List.map_map] at this
      exact this
    rw [← utf8_inj, utf8_array, utf8_array, htexts]

/-! ## Documents -/

/-- The JSON text of an encoded parameter: null counts as the null of JSON, and the binary form
has its version in front. -/
def jsonText? : ScalarType → Encoded → Option Bytes
  | .json, .bytes text => some text
  | .jsonb, .bytes (1 :: text) => some text
  | _, .null => some (utf8 "null")
  | _, _ => none

def encodedJson? (type : ScalarType) (value : Value) : Option Bytes :=
  (encode (.scalar type) value).toOption.bind (jsonText? type)

def document : Value → Json
  | .date instant => .string instant.offsetText
  | value => value.toJson

variable {type : ScalarType}

theorem eq_json_or_jsonb (h : type.isJson) : type = .json ∨ type = .jsonb := by
  cases type <;> simp_all [ScalarType.isJson]

theorem encode_json (htype : type.isJson) {value : Value} (h : value ≠ .null) :
    encode (.scalar type) value = .ok (.bytes (jsonBytes type (document value))) := by
  obtain rfl | rfl := eq_json_or_jsonb htype
  all_goals
    cases value with
    | null => exact absurd rfl h
    | string | integer | float | boolean | date | array | json => rfl

theorem encodedJson?_eq (htype : type.isJson) (value : Value) :
    encodedJson? type value = some (utf8 (document value).text) := by
  by_cases hnull : value = .null
  · subst hnull
    obtain rfl | rfl := eq_json_or_jsonb htype <;> rfl
  · rw [encodedJson?, encode_json htype hnull]
    obtain rfl | rfl := eq_json_or_jsonb htype <;> rfl

theorem encodedJson?_array (htype : type.isJson) (items : List Value) :
    encodedJson? type (.array items) =
      some (listText ((items.map Value.toJson).map fun item => utf8 item.text)) := by
  have hdocument : document (.array items) = .array (items.map Value.toJson) := by
    rw [document, Value.toJson, Value.itemsToJson_eq_map]
    exact nofun
  rw [encodedJson?_eq htype, hdocument, utf8_array]

/-! ## One form -/

theorem millisText_ne_offsetText (instant : Instant) : instant.millisText ≠ instant.offsetText := by
  intro h
  have hlast := congrArg (fun text => text.toList.getLast?) h
  simp [Instant.millisText, Instant.offsetText, List.getLast?_append] at hlast

theorem chars_document_eq_iff {value : Value} :
    (document value).chars = value.toJson.chars ↔ ∀ instant, value ≠ .date instant := by
  cases value with
  | date instant =>
      have hstrings : Json.quoteChars instant.offsetText.toList ≠
          Json.quoteChars instant.millisText.toList := by
        intro h
        have hread := congrArg (fun chars => Json.read? (String.ofList chars)) h
        simp only [Json.read?_quoteChars, String.ofList_toList, Option.some.injEq,
          Json.string.injEq] at hread
        exact millisText_ne_offsetText instant hread.symm
      rw [document, Value.toJson, Json.chars, Json.chars]
      exact iff_of_false hstrings fun h => h instant rfl
  | null | string | integer | float | boolean | array | json =>
      refine iff_of_true rfl fun instant h => ?_
      cases h

/-- A list is encoded as the list of the texts that its items are encoded as alone. -/
def HasOneForm (type : ScalarType) (items : List Value) : Prop :=
  ∃ texts, items.mapM (encodedJson? type) = some texts ∧
    encodedJson? type (.array items) = some (listText texts)

theorem mapM_encodedJson? (htype : type.isJson) (items : List Value) :
    items.mapM (encodedJson? type) =
      some ((items.map document).map fun item => utf8 item.text) := by
  have halone : encodedJson? type = fun value => some (utf8 (document value).text) :=
    funext (encodedJson?_eq htype)
  rw [halone, List.map_map]
  exact List.mapM_pure

theorem hasOneForm_iff (htype : type.isJson) (items : List Value) :
    HasOneForm type items ↔ ∀ item ∈ items, ∀ instant, item ≠ .date instant := by
  rw [HasOneForm, mapM_encodedJson? htype, encodedJson?_array htype]
  simp only [Option.some.injEq, exists_eq_left']
  rw [listText_eq_iff, List.map_map, List.map_map, eq_comm, List.map_inj_left]
  exact forall₂_congr fun item _ => chars_document_eq_iff

/-- What stands for an item in a list: the text that it is encoded as alone, unless it is a
date. -/
def IsElement (type : ScalarType) : Value → Bytes → Prop
  | .date instant, text =>
    text = utf8 (Json.string instant.millisText).text ∧
      encodedJson? type (.date instant) = some (utf8 (Json.string instant.offsetText).text)
  | item, text => encodedJson? type item = some text

theorem isElement_toJson (htype : type.isJson) (item : Value) :
    IsElement type item (utf8 item.toJson.text) := by
  cases item with
  | date instant => exact ⟨by rw [Value.toJson], encodedJson?_eq htype _⟩
  | null | string | integer | float | boolean | array | json => exact encodedJson?_eq htype _

/-- Lists hold the texts of their items, dates apart, so that exactly the lists without dates of
their own have one form with them.  The binary form is the other one behind its version. -/
theorem list_of_encoded_items (htype : type.isJson) (items : List Value) :
    (∃ texts, encodedJson? type (.array items) = some (listText texts) ∧
        List.Forall₂ (IsElement type) items texts) ∧
      (HasOneForm type items ↔ ∀ item ∈ items, ∀ instant, item ≠ .date instant) ∧
      ∀ value, value ≠ .null → ∃ bytes, encode (.scalar .json) value = .ok (.bytes bytes) ∧
        encode (.scalar .jsonb) value = .ok (.bytes (1 :: bytes)) := by
  refine ⟨⟨_, encodedJson?_array htype items, ?_⟩, hasOneForm_iff htype items, fun value h => ?_⟩
  · rw [List.map_map, List.forall₂_map_right_iff, List.forall₂_same]
    exact fun item _ => isElement_toJson htype item
  · exact ⟨utf8 (document value).text, encode_json rfl h, encode_json rfl h⟩

theorem list_of_encoded_items_nested :
    let inner : List Value := [.date ⟨0, 900⟩, .float ⟨0x7ff0000000000000⟩]
    ScalarType.jsonb.isJson ∧ HasOneForm .jsonb [.null, .array inner, .string "]"] ∧
      ¬ HasOneForm .jsonb inner := by
  intro inner
  refine ⟨rfl, (list_of_encoded_items rfl _).2.1.mpr ?_, fun h => ?_⟩
  · simp
  · exact (list_of_encoded_items rfl inner).2.1.mp h _ List.mem_cons_self _ rfl

/-- The epoch is written in two ways. -/
theorem not_hasOneForm_date : ¬ HasOneForm .json [.date ⟨0, 0⟩] := fun h =>
  (hasOneForm_iff rfl _).mp h _ List.mem_cons_self _ rfl

end FilterSql.Postgres
