import FilterSql.Json.Printer
import FilterSql.Proofs.Decimal.Reading
import FilterSql.Proofs.Json.Strings

/-!
# The texts of array elements

The compact text of an array is cut at the commas that stand outside strings and outside all
brackets but the array's own.  No element has such a comma, so the pieces are the texts of the
elements, whatever these hold.
-/

namespace FilterSql.Json

/-! ## Cutting -/

inductive Spot where
  | outside (depth : Nat)
  | inside (depth : Nat)
  /-- After a backslash. -/
  | escaped (depth : Nat)
  deriving DecidableEq, Repr

/-- One character; `none` at a comma outside of everything. -/
def Spot.step? : Spot → Char → Option Spot
  | .outside depth, c =>
    if c = '"' then some (.inside depth)
    else if c = '[' ∨ c = '{' then some (.outside (depth + 1))
    else if c = ']' ∨ c = '}' then some (.outside (depth - 1))
    else if c = ',' ∧ depth = 0 then none
    else some (.outside depth)
  | .inside depth, c =>
    if c = '"' then some (.outside depth)
    else if c = '\\' then some (.escaped depth)
    else some (.inside depth)
  | .escaped depth, _ => some (.inside depth)

/-- The pieces between the commas outside of everything. -/
def pieces : Spot → List Char → List (List Char)
  | _, [] => [[]]
  | spot, c :: rest =>
    match spot.step? c with
    | some next => (pieces next rest).modifyHead (c :: ·)
    | none => [] :: pieces (.outside 0) rest

def elementTexts? (text : String) : Option (List (List Char)) :=
  match text.toList with
  | '[' :: rest =>
    if rest.getLast? = some ']' then
      some (if rest.dropLast.isEmpty then [] else pieces (.outside 0) rest.dropLast)
    else none
  | _ => none

theorem pieces_append {spot next : Spot} {text : List Char}
    (h : text.foldlM Spot.step? spot = some next) (rest : List Char) :
    pieces spot (text ++ rest) = (pieces next rest).modifyHead (text ++ ·) := by
  induction text generalizing spot with
  | nil =>
      cases h
      rw [List.nil_append]
      generalize pieces _ rest = found
      cases found <;> rfl
  | cons c text ih =>
      rw [List.foldlM_cons, Option.bind_eq_bind, Option.bind_eq_some_iff] at h
      obtain ⟨middle, hstep, htext⟩ := h
      rw [List.cons_append, pieces, hstep]
      dsimp only
      rw [ih htext]
      cases pieces next rest <;> rfl

/-! ## Written values -/

/-- Read outside of strings, the text leaves off where it began. -/
def IsLevel (text : List Char) : Prop :=
  ∀ depth, text.foldlM Spot.step? (.outside depth) = some (.outside depth)

def IsNested (text : List Char) : Prop :=
  ∀ depth, text.foldlM Spot.step? (.outside (depth + 1)) = some (.outside (depth + 1))

theorem IsLevel.isNested {text : List Char} (h : IsLevel text) : IsNested text :=
  fun depth => h (depth + 1)

theorem IsNested.append {text rest : List Char} (htext : IsNested text) (hrest : IsNested rest) :
    IsNested (text ++ rest) := fun depth => by
  rw [List.foldlM_append, htext depth]
  exact hrest depth

def marks : List Char := ['"', '[', ']', '{', '}', ',']

def isPlain (c : Char) : Bool := !marks.contains c

theorem isLevel_of_plain {text : List Char} (h : ∀ c ∈ text, isPlain c) : IsLevel text := by
  intro depth
  induction text with
  | nil => rfl
  | cons c text ih =>
      obtain ⟨hc, htext⟩ := List.forall_mem_cons.mp h
      have hstep : Spot.step? (.outside depth) c = some (.outside depth) := by
        simp only [isPlain, marks, Bool.not_eq_true', List.contains_eq_mem, decide_eq_false_iff_not,
          List.mem_cons, List.not_mem_nil, not_or, or_false] at hc
        simp [Spot.step?, hc]
      rw [List.foldlM_cons, hstep]
      exact ih htext

theorem foldlM_escapeChar_inside (depth : Nat) (c : Char) :
    (escapeChar c).foldlM Spot.step? (.inside depth) = some (.inside depth) := by
  have hescape := isEscape_escapeChar c
  generalize escapeChar c = written at hescape
  cases hescape with
  | simple letter => rfl
  | code hlow =>
      have hdigit {n : Nat} (h : n < 16) :
          hexDigit n ≠ '"' ∧ hexDigit n ≠ '\\' := by
        revert n
        decide
      have hhigh := hdigit (n := c.toNat / 16) (by omega)
      have hrest := hdigit (n := c.toNat % 16) (by omega)
      simp [Spot.step?, hhigh, hrest]
  | plain hquote hslash => simp [Spot.step?, hquote, hslash]

theorem isLevel_quoteChars (text : List Char) : IsLevel (quoteChars text) := by
  intro depth
  have hbody : (text.flatMap escapeChar).foldlM Spot.step? (.inside depth) =
      some (.inside depth) := by
    induction text with
    | nil => rfl
    | cons c text ih =>
        rw [List.flatMap_cons, List.foldlM_append, foldlM_escapeChar_inside]
        exact ih
  unfold quoteChars
  rw [List.cons_append, List.foldlM_cons]
  change ((text.flatMap escapeChar ++ ['"']).foldlM Spot.step? (.inside depth)) = _
  rw [List.foldlM_append, hbody]
  rfl

theorem IsNested.isLevel {text : List Char} (h : IsNested text) {opening closing : Char}
    (hopening : opening = '[' ∨ opening = '{') (hclosing : closing = ']' ∨ closing = '}') :
    IsLevel (opening :: text ++ [closing]) := by
  intro depth
  rw [List.cons_append, List.foldlM_cons]
  have hopen : Spot.step? (.outside depth) opening = some (.outside (depth + 1)) := by
    rcases hopening with rfl | rfl <;> rfl
  rw [hopen]
  change ((text ++ [closing]).foldlM Spot.step? (.outside (depth + 1))) = _
  rw [List.foldlM_append, h depth]
  rcases hclosing with rfl | rfl <;> rfl

theorem isPlain_of_isNumeric {c : Char} (h : Decimal.isNumeric c) : isPlain c := by
  have hmarks : marks.all fun c => !Decimal.isNumeric c := by decide
  rw [isPlain, Bool.not_eq_true', List.contains_eq_mem, decide_eq_false_iff_not]
  intro hc
  have hnot := List.all_eq_true.mp hmarks c hc
  rw [h] at hnot
  cases hnot

theorem endsWhole_numberLayout : Decimal.EndsWhole numberLayout.wholeEnd := .inr ⟨1, rfl⟩

theorem toList_toString_int (n : Int) :
    (toString n).toList = Decimal.signChars (n < 0) ++ Decimal.digitChars n.natAbs := by
  rw [Int.toString_eq_repr, Int.repr_eq_if]
  by_cases hsign : n < 0
  · have habs : (-n).toNat = n.natAbs := by omega
    rw [if_neg (Int.not_le.mpr hsign), decide_eq_true hsign, habs, String.toList_append,
      Nat.toList_repr]
    rfl
  · have habs : n.toNat = n.natAbs := by omega
    rw [if_pos (Int.not_lt.mp hsign), decide_eq_false hsign, habs, Nat.toList_repr]
    rfl

theorem isNumeric_of_mem_integer {n : Int} {c : Char} (h : c ∈ (toString n).toList) :
    Decimal.isNumeric c := by
  rw [toList_toString_int] at h
  rcases List.mem_append.mp h with hsign | hdigits
  · exact Decimal.isNumeric_of_mem_signChars hsign
  · exact Decimal.isNumeric_of_isDigit (Decimal.isDigit_of_mem_digitChars hdigits)

theorem isLevel_floatChars (x : Double) : IsLevel (floatChars x) := by
  unfold floatChars
  split
  · exact isLevel_of_plain fun c hc =>
      isPlain_of_isNumeric (Layout.isNumeric_of_mem_write endsWhole_numberLayout hc)
  · exact isLevel_of_plain (List.all_eq_true.mp (by decide))

theorem isNested_cons {c : Char} {text : List Char} (hc : c = ',' ∨ c = ':') (h : IsNested text) :
    IsNested (c :: text) := fun depth => by
  rw [List.foldlM_cons]
  have hstep : Spot.step? (.outside (depth + 1)) c = some (.outside (depth + 1)) := by
    rcases hc with rfl | rfl <;> rfl
  rw [hstep]
  exact h depth

mutual

theorem isLevel_chars : (json : Json) → IsLevel json.chars
  | .null => by
    unfold chars
    exact isLevel_of_plain (List.all_eq_true.mp (by decide))
  | .bool value => by
    unfold chars
    cases value <;> exact isLevel_of_plain (List.all_eq_true.mp (by decide))
  | .integer n => by
    unfold chars
    exact isLevel_of_plain fun c hc => isPlain_of_isNumeric (isNumeric_of_mem_integer hc)
  | .float x => by
    unfold chars
    exact isLevel_floatChars x
  | .string text => by
    unfold chars
    exact isLevel_quoteChars text.toList
  | .array items => by
    unfold chars
    exact (isNested_itemChars items).isLevel (.inl rfl) (.inl rfl)
  | .object members => by
    unfold chars
    exact (isNested_memberChars members).isLevel (.inr rfl) (.inr rfl)

theorem isNested_itemChars : (items : List Json) → IsNested (itemChars items)
  | [] => fun _ => by
    unfold itemChars
    rfl
  | [item] => by
    unfold itemChars
    exact (isLevel_chars item).isNested
  | item :: next :: rest => by
    unfold itemChars
    exact (isLevel_chars item).isNested.append
      (isNested_cons (.inl rfl) (isNested_itemChars (next :: rest)))

theorem isNested_memberChars :
    (members : List (String × Json)) → IsNested (memberChars members)
  | [] => fun _ => by
    unfold memberChars
    rfl
  | [(name, value)] => by
    unfold memberChars
    exact (isLevel_quoteChars name.toList).isNested.append
      (isNested_cons (.inr rfl) (isLevel_chars value).isNested)
  | (name, value) :: next :: rest => by
    unfold memberChars
    exact ((isLevel_quoteChars name.toList).isNested.append
      (isNested_cons (.inr rfl) (isLevel_chars value).isNested)).append
        (isNested_cons (.inl rfl) (isNested_memberChars (next :: rest)))

end

theorem chars_ne_nil (json : Json) : json.chars ≠ [] := by
  cases json with
  | integer n =>
      rw [chars, toList_toString_int]
      exact List.append_ne_nil_of_right_ne_nil _ Nat.toDigits_ne_nil
  | float x =>
      rw [chars, floatChars]
      split
      · obtain ⟨c, hc, -⟩ := numberLayout.exists_mark_write (by decide) x
        exact List.ne_nil_of_mem hc
      · exact List.cons_ne_nil _ _
  | bool value =>
      rw [chars]
      cases value <;> exact List.cons_ne_nil _ _
  | null | string | array | object =>
      rw [chars]
      exact List.cons_ne_nil _ _

/-! ## Arrays -/

theorem pieces_itemChars (item : Json) (rest : List Json) :
    pieces (.outside 0) (itemChars (item :: rest)) = (item :: rest).map chars := by
  induction rest generalizing item with
  | nil =>
      rw [itemChars, ← List.append_nil item.chars, pieces_append (isLevel_chars item 0)]
      simp [pieces]
  | cons next rest ih =>
      have hcut : pieces (.outside 0) (',' :: itemChars (next :: rest)) =
          [] :: pieces (.outside 0) (itemChars (next :: rest)) := rfl
      unfold itemChars
      rw [pieces_append (isLevel_chars item 0), hcut, ih]
      simp

theorem itemChars_ne_nil (item : Json) (rest : List Json) : itemChars (item :: rest) ≠ [] := by
  cases rest with
  | nil =>
      unfold itemChars
      exact chars_ne_nil item
  | cons =>
      unfold itemChars
      exact List.append_ne_nil_of_left_ne_nil (chars_ne_nil item) _

/-- The pieces of an array's text are the texts of its elements. -/
theorem elementTexts?_text (items : List Json) :
    elementTexts? (Json.array items).text = some (items.map chars) := by
  unfold elementTexts? text
  rw [String.toList_ofList, chars]
  cases items with
  | nil => rfl
  | cons item rest =>
      have hbody := itemChars_ne_nil item rest
      simp [hbody, pieces_itemChars]

end FilterSql.Json
