import FilterSql.Proofs.Json.Elements
import FilterSql.Proofs.Sqlite.Binding

/-!
# List elements as SQLite reads them

A list is bound as one JSON text, which `json_each` takes apart again.  Alone or in a list, a
value is stored in the same way: what one of the two conversions does with a kind of value, the
other undoes in the reading of the element.
-/

namespace FilterSql.Sqlite

/-! ## Reading elements -/

/-- The value that `json_each` gives for an element; what is nested stays JSON text. -/
def elementStored : Json → Stored
  | .null => .null
  | .bool b => .integer (if b then 1 else 0)
  | .integer n => .integer (Int64.ofInt n)
  | .float x => .real x
  | .string content => .text content
  | .array items => .text (Json.array items).text
  | .object members => .text (Json.object members).text

/-- Whole numbers are of 64 bits and other numbers finite; what is nested is not looked at. -/
def HasStorage : Json → Prop
  | .integer n => Int64.minValue.toInt ≤ n ∧ n ≤ Int64.maxValue.toInt
  | .float x => x.isFinite
  | _ => True

/-- What is taken for granted of `json_each`: it gives the elements of a compact array, in their
order. -/
structure ReadsElements (each : String → Option (List Stored)) : Prop where
  array : ∀ elements : List Json, (∀ element ∈ elements, HasStorage element) →
    each (Json.array elements).text = some (elements.map elementStored)

/-! ## A reader of elements -/

/-- A number is whole when it has neither point nor exponent, and fits 64 bits. -/
def readNumber? (text : List Char) : Option Stored :=
  let (negative, digits) := Decimal.Literal.splitSign text
  let size := Decimal.Literal.digitsValue digits
  let n : Int := if negative then -size else size
  if text.all (fun c => c.isDigit || c == '-') && Int64.minValue.toInt ≤ n &&
      n ≤ Int64.maxValue.toInt then
    some (.integer (Int64.ofInt n))
  else (Decimal.Literal.read? text).map .real

def readElement? (text : List Char) : Option Stored :=
  match text.head? with
  | some '"' =>
    match Json.read? (String.ofList text) with
    | some (.string content) => some (.text content)
    | _ => none
  | some '[' => some (.text (String.ofList text))
  | some '{' => some (.text (String.ofList text))
  | some 'n' => if text = "null".toList then some .null else none
  | some 't' => if text = "true".toList then some (.integer 1) else none
  | some 'f' => if text = "false".toList then some (.integer 0) else none
  | _ => readNumber? text

def readElements? (text : String) : Option (List Stored) :=
  (Json.elementTexts? text).bind fun texts => texts.mapM readElement?

theorem readElement?_number {text : List Char} (h : ∀ c ∈ text, Decimal.isNumeric c) :
    readElement? text = readNumber? text := by
  have hhead {c : Char} (hc : Decimal.isNumeric c = false) : text.head? ≠ some c := fun heq => by
    have hnumeric := h c (List.mem_of_mem_head? heq)
    rw [hc] at hnumeric
    cases hnumeric
  unfold readElement?
  split
  iterate 6
    next heq => exact absurd heq (hhead rfl)
  rfl

theorem readNumber?_integer {n : Int} (h : HasStorage (.integer n)) :
    readNumber? (toString n).toList = some (.integer (Int64.ofInt n)) := by
  have hdigits : ∀ c ∈ Decimal.digitChars n.natAbs, c.isDigit := fun _ =>
    Decimal.isDigit_of_mem_digitChars
  have hne : Decimal.digitChars n.natAbs ≠ [] := Nat.toDigits_ne_nil
  have hsplit : Decimal.Literal.splitSign
      (Decimal.signChars (n < 0) ++ (Decimal.digitChars n.natAbs ++ [])) =
        (decide (n < 0), Decimal.digitChars n.natAbs ++ []) :=
    Decimal.splitSign_signChars hne hdigits
  have hall : (Decimal.signChars (n < 0) ++ Decimal.digitChars n.natAbs).all
      fun c => c.isDigit || c == '-' := by
    rw [List.all_append, Bool.and_eq_true]
    constructor
    · cases decide (n < 0) <;> rfl
    · exact List.all_eq_true.mpr fun c hc => by rw [hdigits c hc, Bool.true_or]
  rw [List.append_nil] at hsplit
  unfold readNumber?
  rw [Json.toList_toString_int, hall, hsplit]
  dsimp only
  rw [Decimal.digitsValue_digitChars, Decimal.signed_natAbs, decide_eq_true h.1, decide_eq_true h.2]
  rfl

theorem readNumber?_float {x : Double} (h : x.isFinite) :
    readNumber? (Json.numberLayout.write x) = some (.real x) := by
  have hall : ((Json.numberLayout.write x).all fun c => c.isDigit || c == '-') = false := by
    obtain ⟨c, hc, hmark⟩ := Json.numberLayout.exists_mark_write (by decide) x
    refine List.all_eq_false.mpr ⟨c, hc, ?_⟩
    obtain rfl | rfl := hmark <;> decide
  unfold readNumber?
  rw [hall, Layout.read?_write Json.endsWhole_numberLayout h]
  rfl

theorem readElement?_chars {json : Json} (h : HasStorage json) :
    readElement? json.chars = some (elementStored json) := by
  cases json with
  | null => rfl
  | bool b => cases b <;> rfl
  | integer n =>
      rw [Json.chars, readElement?_number fun _ hc => Json.isNumeric_of_mem_integer hc]
      exact readNumber?_integer h
  | float x =>
      have hfinite : x.isFinite := h
      rw [Json.chars, Json.floatChars, if_pos hfinite, readElement?_number fun _ hc =>
        Layout.isNumeric_of_mem_write Json.endsWhole_numberLayout hc]
      exact readNumber?_float hfinite
  | string content =>
      rw [Json.chars]
      unfold readElement?
      rw [Json.read?_quoteChars, String.ofList_toList]
      rfl
  | array items =>
      rw [elementStored, Json.text, Json.chars]
      rfl
  | object members =>
      rw [elementStored, Json.text, Json.chars]
      rfl

theorem readsElements_readElements? : ReadsElements readElements? where
  array elements h := by
    rw [readElements?, Json.elementTexts?_text, Option.bind_some]
    induction elements with
    | nil => rfl
    | cons element rest ih =>
        rw [List.forall_mem_cons] at h
        simp [List.mapM_cons, readElement?_chars h.1, ih h.2]

/-! ## Values alone and in a list -/

def IsContainer (json : Json) : Prop :=
  (∃ items, json = .array items) ∨ ∃ members, json = .object members

/-- As an element a value is stored like its parameter. -/
theorem elementStored_toJson {value : Value} (hbindable : IsBindable value)
    (hdocument : ∀ document, value = .json document → IsContainer document) :
    HasStorage value.toJson ∧
      (Parameter.ofValue value).map Parameter.stored = .ok (elementStored value.toJson) := by
  unfold Value.toJson
  cases value with
  | null | string | boolean | date | array => exact ⟨trivial, rfl⟩
  | integer n =>
      refine ⟨⟨n.minValue_le_toInt, n.toInt_le⟩, ?_⟩
      dsimp only [elementStored]
      rw [Int64.ofInt_toInt]
      rfl
  | float x =>
      obtain ⟨parameter, hparameter⟩ := hbindable
      have hfinite : x.isFinite := by
        by_contra hinfinite
        rw [Parameter.ofValue, if_neg hinfinite] at hparameter
        cases hparameter
      rw [Parameter.ofValue, if_pos hfinite]
      dsimp only
      rw [Json.ofDouble, if_pos hfinite]
      exact ⟨hfinite, rfl⟩
  | json document =>
      obtain ⟨items, rfl⟩ | ⟨members, rfl⟩ := hdocument document rfl
      · exact ⟨trivial, rfl⟩
      · exact ⟨trivial, rfl⟩

/-- The elements of a bound list are read as the values that its items are bound to alone. -/
theorem each_ofValue_array {each : String → Option (List Stored)} (heach : ReadsElements each)
    {items : List Value} (hbindable : ∀ item ∈ items, IsBindable item)
    (hdocuments : ∀ document, Value.json document ∈ items → IsContainer document) :
    ∃ (elements : List Json) (rows : List Stored),
      Parameter.ofValue (.array items) = .ok (.json (Json.array elements).text) ∧
        elements.length = items.length ∧
        each (Json.array elements).text = some rows ∧
        List.Forall₂ (fun item row => (Parameter.ofValue item).map Parameter.stored = .ok row)
          items rows := by
  have helement (item : Value) (hitem : item ∈ items) := elementStored_toJson (hbindable item hitem)
    (fun document heq => hdocuments document (heq ▸ hitem))
  refine ⟨items.map Value.toJson, (items.map Value.toJson).map elementStored, ?_, ?_, ?_, ?_⟩
  · rw [Parameter.ofValue, Value.toJson, Value.itemsToJson_eq_map]
  · exact List.length_map _
  · refine heach.array _ fun element hmem => ?_
    obtain ⟨item, hitem, rfl⟩ := List.mem_map.mp hmem
    exact (helement item hitem).1
  · rw [List.map_map, List.forall₂_map_right_iff, List.forall₂_same]
    exact fun item hitem => (helement item hitem).2

theorem each_ofValue_array_kinds :
    let eighth : Double := ⟨0xbfc0000000000000⟩
    let infinity : Double := ⟨0x7ff0000000000000⟩
    let items : List Value :=
      [.null, .string "a\"],", .integer (-3), .float eighth, .boolean true, .date ⟨0, 1999999⟩,
        .array [.string ",", .array [.float infinity]], .json (.object [("k", .bool false)])]
    let text := "[null,\"a\\\"],\",-3,-0.125,true,\"1970-01-01T00:00:00.001Z\"," ++
      "[\",\",[null]],\x7b\"k\":false\x7d]"
    Parameter.ofValue (.array items) = .ok (.json text) ∧
      readElements? text =
        some [.null, .text "a\"],", .integer (-3), .real eighth, .integer 1,
          .text "1970-01-01T00:00:00.001Z", .text "[\",\",[null]]",
          .text "\x7b\"k\":false\x7d"] := by
  intro eighth infinity items text
  have hbindable : ∀ item ∈ items, IsBindable item := by
    have heighth : eighth.isFinite := by decide
    simp only [items, List.forall_mem_cons, List.not_mem_nil, false_implies, implies_true, and_true]
    exact ⟨⟨_, rfl⟩, ⟨_, rfl⟩, ⟨_, rfl⟩, isBindable_float heighth, ⟨_, rfl⟩, ⟨_, rfl⟩, ⟨_, rfl⟩,
      ⟨_, rfl⟩⟩
  have hdocuments (document : Json) (h : Value.json document ∈ items) : IsContainer document := by
    simp only [items, List.mem_cons, List.not_mem_nil, reduceCtorEq, or_false, false_or,
      Value.json.injEq] at h
    exact .inr ⟨_, h⟩
  obtain ⟨elements, rows, hbound, -, hrows, hplaces⟩ :=
    each_ofValue_array readsElements_readElements? hbindable hdocuments
  have htext : (Value.array items).toJson.text = text := by decide +kernel
  have hlist : Parameter.ofValue (.array items) = .ok (.json text) := by
    rw [Parameter.ofValue, htext]
  have halone : items.mapM (fun item => (Parameter.ofValue item).map Parameter.stored) =
      .ok [.null, .text "a\"],", .integer (-3), .real eighth, .integer 1,
        .text "1970-01-01T00:00:00.001Z", .text "[\",\",[null]]",
        .text "\x7b\"k\":false\x7d"] := by decide +kernel
  rw [Gives.mapM_eq_ok_iff.mpr hplaces, Except.ok.injEq] at halone
  rw [hlist, Except.ok.injEq, Parameter.json.injEq] at hbound
  refine ⟨hlist, ?_⟩
  rw [hbound, hrows, halone]

end FilterSql.Sqlite
