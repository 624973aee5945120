import FilterSql.Proofs.Json.Records
import FilterSql.Proofs.Postgres.Integers

/-!
# Array parameters

A list is encoded item by item: each item keeps the bytes that it is encoded as alone, behind
their length, and the first item that cannot be encoded is the error.  A reader of the binary
array format gets back what was written, integers included.
-/

namespace FilterSql.Postgres

/-! ## Reading arrays -/

def take? (count : Nat) (bytes : Bytes) : Option (Bytes × Bytes) :=
  if count ≤ bytes.length then some (bytes.take count, bytes.drop count) else none

theorem take?_suffix {bytes : Bytes} {count : Nat} (h : bytes.length = count) (rest : Bytes) :
    take? count (bytes ++ rest) = some (bytes, rest) := by
  subst h
  simp [take?]

def readInt? (bytes : Bytes) : Option (Int × Bytes) :=
  (take? 4 bytes).map fun (taken, rest) => (ofSigned taken, rest)

theorem readInt?_suffix {n : Int} (h : FitsSigned 4 n) (rest : Bytes) :
    readInt? (signedBytes 4 n ++ rest) = some (n, rest) := by
  rw [readInt?, take?_suffix (length_signedBytes 4 n), Option.map_some]
  dsimp only
  rw [ofSigned_signedBytes (by decide) h]

def readContent? (bytes : Bytes) : Option (Option Bytes × Bytes) := do
  let (length, rest) ← readInt? bytes
  if length = -1 then some (none, rest)
  else if length < 0 then none
  else
    let (content, rest) ← take? length.toNat rest
    some (some content, rest)

def readContents? : Nat → Bytes → Option (List (Option Bytes) × Bytes)
  | 0, bytes => some ([], bytes)
  | count + 1, bytes => do
    let (content, rest) ← readContent? bytes
    let (contents, rest) ← readContents? count rest
    some (content :: contents, rest)

structure ArrayContent where
  hasNull : Bool
  elementId : Nat
  lowerBound : Int
  contents : List (Option Bytes)
  deriving DecidableEq, Repr

def ArrayContent.read? (bytes : Bytes) : Option ArrayContent := do
  let (dimensions, rest) ← readInt? bytes
  let (flag, rest) ← readInt? rest
  let (identifier, rest) ← take? 4 rest
  let (count, rest) ← readInt? rest
  let (lowerBound, rest) ← readInt? rest
  let (contents, rest) ← readContents? count.toNat rest
  if dimensions = 1 ∧ 0 ≤ count ∧ rest = [] then
    some ⟨flag != 0, ofBigEndian identifier, lowerBound, contents⟩
  else none

/-! ## Written arrays -/

def Encoded.content? : Encoded → Option Bytes
  | .null => none
  | .bytes content => some content

def Encoded.IsShort : Encoded → Prop
  | .null => True
  | .bytes content => content.length < 0x80000000

theorem fitsSigned_four {n : Nat} (h : n < 0x80000000) : FitsSigned 4 n := by
  have hbound : 1 <<< (8 * 4 - 1) = 0x80000000 := by decide
  unfold FitsSigned
  rw [hbound]
  omega

theorem readContent?_suffix {encoded : Encoded} (h : encoded.IsShort) (rest : Bytes) :
    readContent? (elementBytes encoded ++ rest) = some (encoded.content?, rest) := by
  cases encoded with
  | null =>
      have hminus : readInt? (signedBytes 4 (-1) ++ rest) = some (-1, rest) :=
        readInt?_suffix (by decide) rest
      simp [elementBytes, readContent?, hminus, Encoded.content?]
  | bytes bytes =>
      have hlength : readInt? (signedBytes 4 bytes.length ++ (bytes ++ rest)) =
          some ((bytes.length : Int), bytes ++ rest) := readInt?_suffix (fitsSigned_four h) _
      have hminus : (bytes.length : Int) ≠ -1 := by omega
      have hsign : ¬ (bytes.length : Int) < 0 := by omega
      rw [elementBytes, List.append_assoc, readContent?, hlength]
      simp [hminus, hsign, take?_suffix rfl rest, Encoded.content?]

theorem readContents?_suffix {items : List Encoded} (h : ∀ encoded ∈ items, encoded.IsShort)
    (rest : Bytes) :
    readContents? items.length (items.flatMap elementBytes ++ rest) =
      some (items.map Encoded.content?, rest) := by
  induction items with
  | nil => rfl
  | cons first items ih =>
      obtain ⟨hfirst, hitems⟩ := List.forall_mem_cons.mp h
      simp [readContents?, readContent?_suffix hfirst, ih hitems]

theorem read?_arrayBytes (element : ScalarType) {items : List Encoded}
    (hcount : items.length < 0x80000000) (h : ∀ encoded ∈ items, encoded.IsShort) :
    ArrayContent.read? (arrayBytes element items) =
      some ⟨decide (.null ∈ items), element.objectId.toNat, 1, items.map Encoded.content?⟩ := by
  have hone (rest : Bytes) : readInt? (signedBytes 4 1 ++ rest) = some (1, rest) :=
    readInt?_suffix (by decide) rest
  have hflag (rest : Bytes) :
      readInt? (signedBytes 4 (if .null ∈ items then 1 else 0) ++ rest) =
        some (if .null ∈ items then 1 else 0, rest) := by
    split <;> exact readInt?_suffix (by decide) rest
  have hidentifier (rest : Bytes) :
      take? 4 (bigEndian 4 element.objectId.toNat ++ rest) =
        some (bigEndian 4 element.objectId.toNat, rest) := take?_suffix (length_bigEndian 4 _) rest
  have hsize (rest : Bytes) : readInt? (signedBytes 4 items.length ++ rest) =
      some ((items.length : Int), rest) := readInt?_suffix (fitsSigned_four hcount) rest
  have hnumber : ofBigEndian (bigEndian 4 element.objectId.toNat) = element.objectId.toNat := by
    rw [ofBigEndian_bigEndian]
    exact Nat.mod_eq_of_lt element.objectId.toNat_lt
  have hnull : ((if .null ∈ items then (1 : Int) else 0) != 0) = decide (.null ∈ items) := by
    by_cases hmem : Encoded.null ∈ items <;> simp [hmem]
  have hcontents := readContents?_suffix h []
  rw [List.append_nil] at hcontents
  unfold ArrayContent.read? arrayBytes
  simp only [List.append_assoc, hone, hflag, hidentifier, hsize, Option.bind_eq_bind,
    Option.bind_some, Int.toNat_natCast, hcontents, hnumber, hnull]
  exact if_pos ⟨trivial, Int.natCast_nonneg _, trivial⟩

/-! ## Item by item -/

variable {element : ScalarType} {items : List Value}

theorem encodeScalar_eq_null_iff {type : ScalarType} {value : Value} :
    encodeScalar type value = .ok .null ↔ value = .null := by
  have hbytes {outcome : Except EncodeError Bytes} : outcome.map Encoded.bytes ≠ .ok .null := by
    cases outcome <;> exact nofun
  cases value with
  | null => exact iff_of_true rfl rfl
  | integer | float | boolean | date => exact iff_of_false hbytes nofun
  | string | array | json =>
      refine iff_of_false ?_ nofun
      rw [encodeScalar]
      (repeat' split) <;> exact nofun

theorem encode_array_eq (element : ScalarType) (items : List Value) :
    encode (.array element) (.array items) =
      (items.mapM (encodeScalar element)).map fun encoded =>
        .bytes (arrayBytes element encoded) := by
  change (items.mapM (encodeScalar element) >>= fun encoded =>
    .ok (Encoded.bytes (arrayBytes element encoded))) = _
  cases items.mapM (encodeScalar element) <;> rfl

abbrev AreEncoded (element : ScalarType) (items : List Value) (encoded : List Encoded) : Prop :=
  List.Forall₂ (fun item bytes => encodeScalar element item = .ok bytes) items encoded

theorem encode_array_eq_ok_iff {result : Encoded} :
    encode (.array element) (.array items) = .ok result ↔
      ∃ encoded, AreEncoded element items encoded ∧
        result = .bytes (arrayBytes element encoded) := by
  simp only [encode_array_eq, AreEncoded, ← Gives.mapM_eq_ok_iff]
  cases items.mapM (encodeScalar element) with
  | error error => simp [Except.map]
  | ok encoded => simp [Except.map, eq_comm]

theorem exists_encode_array_iff :
    (∃ result, encode (.array element) (.array items) = .ok result) ↔
      ∀ item ∈ items, ∃ encoded, encodeScalar element item = .ok encoded := by
  constructor
  · rintro ⟨result, hresult⟩ item hitem
    obtain ⟨encoded, hplaces, -⟩ := encode_array_eq_ok_iff.mp hresult
    obtain ⟨place, hplace⟩ := List.mem_iff_getElem?.mp hitem
    obtain ⟨bytes, -, hbytes⟩ := Gives.getElem?_mapM (Gives.mapM_eq_ok_iff.mpr hplaces) hplace
    exact ⟨bytes, hbytes⟩
  · intro h
    obtain ⟨encoded, hencoded⟩ := Gives.exists_mapM h
    exact ⟨_, encode_array_eq_ok_iff.mpr ⟨encoded, Gives.mapM_eq_ok_iff.mp hencoded, rfl⟩⟩

theorem encode_array_eq_error_iff {error : EncodeError} :
    encode (.array element) (.array items) = .error error ↔
      ∃ before item after, items = before ++ item :: after ∧
        (∀ earlier ∈ before, ∃ encoded, encodeScalar element earlier = .ok encoded) ∧
        encodeScalar element item = .error error := by
  rw [encode_array_eq, ← Gives.mapM_eq_error_iff]
  cases items.mapM (encodeScalar element) with
  | error other => simp [Except.map]
  | ok encoded => simp [Except.map]

/-! ## Contents -/

def isNull : Value → Bool
  | .null => true
  | _ => false

/-- What an array holds for an item: nothing for null, and else the bytes that the item is encoded
as alone. -/
def IsContent (element : ScalarType) (item : Value) : Option Bytes → Prop
  | none => item = .null
  | some bytes => encode (.scalar element) item = .ok (.bytes bytes)

def contentBytes : Option Bytes → Bytes
  | none => [255, 255, 255, 255]
  | some bytes => bigEndian 4 bytes.length ++ bytes

variable {encoded : List Encoded}

theorem AreEncoded.contents (h : AreEncoded element items encoded) :
    List.Forall₂ (IsContent element) items (encoded.map Encoded.content?) := by
  rw [List.forall₂_map_right_iff]
  refine h.imp fun item bytes hitem => ?_
  cases bytes with
  | null => exact encodeScalar_eq_null_iff.mp hitem
  | bytes content => exact hitem

theorem AreEncoded.any_isNull (h : AreEncoded element items encoded) :
    items.any isNull = decide (.null ∈ encoded) := by
  induction h with
  | nil => rfl
  | @cons item bytes items encoded hitem _ ih =>
      have hnull : isNull item = decide (.null = bytes) := by
        cases bytes with
        | null =>
            rw [encodeScalar_eq_null_iff.mp hitem]
            rfl
        | bytes content =>
            cases item with
            | null => cases hitem
            | string | integer | float | boolean | date | array | json => rfl
      rw [List.any_cons, ih, hnull]
      simp [List.mem_cons]

theorem AreEncoded.isShort (h : AreEncoded element items encoded)
    (hshort : ∀ item ∈ items, ∀ content,
      encode (.scalar element) item = .ok (.bytes content) → content.length < 0x80000000) :
    ∀ bytes ∈ encoded, bytes.IsShort := by
  induction h with
  | nil => exact nofun
  | @cons item bytes items encoded hitem _ ih =>
      rw [List.forall_mem_cons] at hshort
      refine List.forall_mem_cons.mpr ⟨?_, ih hshort.2⟩
      cases bytes with
      | null => trivial
      | bytes content => exact hshort.1 content hitem

theorem signedBytes_natCast {n : Nat} (h : n < 0x80000000) :
    signedBytes 4 n = bigEndian 4 n := by
  have hturn : 1 <<< (8 * 4) = 0x100000000 := by decide
  rw [signedBytes, hturn]
  congr 1
  omega

theorem elementBytes_eq {encoded : Encoded} (h : encoded.IsShort) :
    elementBytes encoded = contentBytes encoded.content? := by
  cases encoded with
  | null => decide
  | bytes content => rw [elementBytes, signedBytes_natCast h, Encoded.content?, contentBytes]

theorem arrayBytes_eq (hcount : encoded.length < 0x80000000)
    (h : ∀ bytes ∈ encoded, bytes.IsShort) :
    arrayBytes element encoded =
      [0, 0, 0, 1] ++ [0, 0, 0, if .null ∈ encoded then 1 else 0] ++
        bigEndian 4 element.objectId.toNat ++ bigEndian 4 encoded.length ++ [0, 0, 0, 1] ++
        (encoded.map Encoded.content?).flatMap contentBytes := by
  have hone : signedBytes 4 1 = [0, 0, 0, 1] := by decide
  have hflag : signedBytes 4 (if .null ∈ encoded then 1 else 0) =
      [0, 0, 0, if .null ∈ encoded then 1 else 0] := by
    split <;> decide
  have hcontents : encoded.flatMap elementBytes =
      (encoded.map Encoded.content?).flatMap contentBytes := by
    rw [List.flatMap_map]
    exact List.flatMap_congr fun bytes hmem => elementBytes_eq (h bytes hmem)
  rw [arrayBytes, hone, hflag, signedBytes_natCast hcount, hcontents]

/-! ## Integers -/

def ScalarType.integerWidth? : ScalarType → Option Nat
  | .int2 => some 2
  | .int4 => some 4
  | .int8 => some 8
  | _ => none

def ofInteger : Option Int64 → Value
  | none => .null
  | some n => .integer n

def readInteger? (width : Nat) : Option Bytes → Option (Option Int)
  | none => some none
  | some bytes => if bytes.length = width then some (some (ofSigned bytes)) else none

def readIntegers? (width : Nat) (bytes : Bytes) : Option (List (Option Int)) := do
  let array ← ArrayContent.read? bytes
  array.contents.mapM (readInteger? width)

theorem map_fittingBytes (width : Nat) (type : ScalarType) (n : Int64) :
    (fittingBytes width type n).map Encoded.bytes =
      if FitsSigned width n.toInt then .ok (.bytes (signedBytes width n.toInt))
      else .error (.outOfRange n (.scalar type)) := by
  by_cases hfits : FitsSigned width n.toInt
  · have hok : fittingBytes width type n = .ok (signedBytes width n.toInt) := if_pos hfits
    rw [hok, if_pos hfits]
    rfl
  · have herror : fittingBytes width type n = .error (.outOfRange n (.scalar type)) :=
      if_neg hfits
    rw [herror, if_neg hfits]
    rfl

theorem encodeScalar_integer {width : Nat} (h : element.integerWidth? = some width) (n : Int64) :
    encodeScalar element (.integer n) =
      if FitsSigned width n.toInt then .ok (.bytes (signedBytes width n.toInt))
      else .error (.outOfRange n (.scalar element)) := by
  cases element with
  | int2 =>
      cases h
      exact map_fittingBytes 2 .int2 n
  | int4 =>
      cases h
      exact map_fittingBytes 4 .int4 n
  | int8 =>
      cases h
      -- Eight bytes hold every integer, so the range is not looked at.
      have hfits : FitsSigned 8 n.toInt := ⟨n.le_toInt, n.toInt_lt⟩
      exact (if_pos hfits).symm
  | _ => cases h

theorem integerWidth?_pos {width : Nat} (h : element.integerWidth? = some width) : 0 < width := by
  cases element <;> cases h <;> decide

theorem exists_encodeScalar_integer_iff {width : Nat} (h : element.integerWidth? = some width)
    (n : Int64) :
    (∃ bytes, encodeScalar element (.integer n) = .ok bytes) ↔ FitsSigned width n.toInt := by
  rw [encodeScalar_integer h]
  by_cases hfits : FitsSigned width n.toInt
  · rw [if_pos hfits]
    exact iff_of_true ⟨_, rfl⟩ hfits
  · rw [if_neg hfits]
    exact iff_of_false nofun hfits

theorem readInteger?_content {width : Nat} (h : element.integerWidth? = some width)
    {number : Option Int64} {bytes : Encoded}
    (hnumber : encodeScalar element (ofInteger number) = .ok bytes) :
    readInteger? width bytes.content? = some (number.map Int64.toInt) := by
  cases number with
  | none =>
      cases hnumber
      rfl
  | some n =>
      have hfits := (exists_encodeScalar_integer_iff h n).mp ⟨bytes, hnumber⟩
      rw [ofInteger, encodeScalar_integer h, if_pos hfits] at hnumber
      cases hnumber
      rw [Encoded.content?, readInteger?, if_pos (length_signedBytes _ _),
        ofSigned_signedBytes (integerWidth?_pos h) hfits]
      rfl

theorem AreEncoded.mapM_readInteger? {width : Nat} (h : element.integerWidth? = some width)
    {numbers : List (Option Int64)}
    (hencoded : AreEncoded element (numbers.map ofInteger) encoded) :
    (encoded.map Encoded.content?).mapM (readInteger? width) =
      some (numbers.map (Option.map Int64.toInt)) := by
  rw [AreEncoded, List.forall₂_map_left_iff] at hencoded
  induction hencoded with
  | nil => rfl
  | cons hfirst _ ih =>
      rw [List.map_cons, List.mapM_cons, readInteger?_content h hfirst, ih]
      rfl

theorem exists_error_integers_iff {width : Nat} (h : element.integerWidth? = some width)
    (numbers : List (Option Int64)) :
    (∃ error, encode (.array element) (.array (numbers.map ofInteger)) = .error error) ↔
      ∃ n, some n ∈ numbers ∧ ¬ FitsSigned width n.toInt := by
  constructor
  · rintro ⟨error, herror⟩
    obtain ⟨before, item, after, hitems, -, hitem⟩ := encode_array_eq_error_iff.mp herror
    have hmem : item ∈ numbers.map ofInteger := hitems ▸ List.mem_append_cons_self
    obtain ⟨number, hnumber, rfl⟩ := List.mem_map.mp hmem
    cases number with
    | none => cases hitem
    | some n =>
        refine ⟨n, hnumber, fun hfits => ?_⟩
        obtain ⟨bytes, hbytes⟩ := (exists_encodeScalar_integer_iff h n).mpr hfits
        rw [ofInteger, hbytes] at hitem
        cases hitem
  · rintro ⟨n, hnumber, hfits⟩
    cases hresult : encode (.array element) (.array (numbers.map ofInteger)) with
    | error error => exact ⟨error, rfl⟩
    | ok result =>
        have hall := exists_encode_array_iff.mp ⟨result, hresult⟩
        have hn := hall _ (List.mem_map_of_mem hnumber)
        exact absurd ((exists_encodeScalar_integer_iff h n).mp hn) hfits

/-! ## Arrays -/

/-- A list is encoded when each of its items is, and otherwise has the error of the first that is
not.  The array holds what the items are encoded as alone, and integers are read back from it. -/
theorem array_of_encoded_items (element : ScalarType) (items : List Value)
    (hcount : items.length < 0x80000000)
    (hshort : ∀ item ∈ items, ∀ content,
      encode (.scalar element) item = .ok (.bytes content) → content.length < 0x80000000) :
    ((∃ result, encode (.array element) (.array items) = .ok result) ↔
        ∀ item ∈ items, ∃ alone, encode (.scalar element) item = .ok alone) ∧
      (∀ error, encode (.array element) (.array items) = .error error ↔
        ∃ before item after, items = before ++ item :: after ∧
          (∀ earlier ∈ before, ∃ alone, encode (.scalar element) earlier = .ok alone) ∧
          encode (.scalar element) item = .error error) ∧
      (∀ result, encode (.array element) (.array items) = .ok result →
        ∃ contents bytes, result = .bytes bytes ∧
          List.Forall₂ (IsContent element) items contents ∧
          bytes = [0, 0, 0, 1] ++ [0, 0, 0, if items.any isNull then 1 else 0] ++
            bigEndian 4 element.objectId.toNat ++ bigEndian 4 items.length ++ [0, 0, 0, 1] ++
            contents.flatMap contentBytes ∧
          ArrayContent.read? bytes =
            some ⟨items.any isNull, element.objectId.toNat, 1, contents⟩) ∧
      ∀ (width : Nat) (numbers : List (Option Int64)),
        element.integerWidth? = some width → items = numbers.map ofInteger →
        ((∃ error, encode (.array element) (.array items) = .error error) ↔
          ∃ n, some n ∈ numbers ∧ ¬ FitsSigned width n.toInt) ∧
        ∀ bytes, encode (.array element) (.array items) = .ok (.bytes bytes) →
          readIntegers? width bytes = some (numbers.map (Option.map Int64.toInt)) := by
  have hread {encoded : List Encoded} (hencoded : AreEncoded element items encoded) :
      encoded.length < 0x80000000 ∧ (∀ bytes ∈ encoded, bytes.IsShort) ∧
        ArrayContent.read? (arrayBytes element encoded) =
          some ⟨items.any isNull, element.objectId.toNat, 1, encoded.map Encoded.content?⟩ := by
    have hlength : encoded.length < 0x80000000 := hencoded.length_eq ▸ hcount
    have hbytes : ∀ bytes ∈ encoded, bytes.IsShort := hencoded.isShort hshort
    exact ⟨hlength, hbytes, by rw [read?_arrayBytes element hlength hbytes, hencoded.any_isNull]⟩
  refine ⟨exists_encode_array_iff, fun error => encode_array_eq_error_iff, ?_, ?_⟩
  · intro result hresult
    obtain ⟨encoded, hencoded, rfl⟩ := encode_array_eq_ok_iff.mp hresult
    obtain ⟨hlength, hbytes, hread⟩ := hread hencoded
    refine ⟨_, _, rfl, hencoded.contents, ?_, hread⟩
    rw [arrayBytes_eq hlength hbytes, hencoded.any_isNull, hencoded.length_eq]
    simp only [decide_eq_true_eq]
  · rintro width numbers hwidth rfl
    refine ⟨exists_error_integers_iff hwidth numbers, fun bytes hresult => ?_⟩
    obtain ⟨encoded, hencoded, heq⟩ := encode_array_eq_ok_iff.mp hresult
    cases heq
    rw [readIntegers?, (hread hencoded).2.2]
    exact hencoded.mapM_readInteger? hwidth

theorem array_of_encoded_items_int2 :
    encode (.array .int2) (.array [.integer 1, .null, .integer (-2)]) =
        .ok (.bytes [0, 0, 0, 1, 0, 0, 0, 1, 0, 0, 0, 21, 0, 0, 0, 3, 0, 0, 0, 1,
          0, 0, 0, 2, 0, 1, 255, 255, 255, 255, 0, 0, 0, 2, 255, 254]) ∧
      readIntegers? 2 [0, 0, 0, 1, 0, 0, 0, 1, 0, 0, 0, 21, 0, 0, 0, 3, 0, 0, 0, 1,
          0, 0, 0, 2, 0, 1, 255, 255, 255, 255, 0, 0, 0, 2, 255, 254] =
        some [some 1, none, some (-2)] := by
  have hshort : ∀ item ∈ [Value.integer 1, .null, .integer (-2)], ∀ content,
      encode (.scalar .int2) item = .ok (.bytes content) → content.length < 0x80000000 := by
    simp only [List.forall_mem_cons, List.not_mem_nil, false_implies, implies_true, and_true]
    refine ⟨fun content h => ?_, fun content h => ?_, fun content h => ?_⟩ <;> cases h
    · decide
    · decide
  have hencoded : encode (.array .int2) (.array [.integer 1, .null, .integer (-2)]) =
      .ok (.bytes [0, 0, 0, 1, 0, 0, 0, 1, 0, 0, 0, 21, 0, 0, 0, 3, 0, 0, 0, 1,
        0, 0, 0, 2, 0, 1, 255, 255, 255, 255, 0, 0, 0, 2, 255, 254]) := by
    rfl
  have hmain := array_of_encoded_items .int2 [.integer 1, .null, .integer (-2)] (by decide) hshort
  exact ⟨hencoded, (hmain.2.2.2 2 [some 1, none, some (-2)] rfl rfl).2 _ hencoded⟩

end FilterSql.Postgres
