import FilterSql.Proofs.Sql.Names

/-!
# Single conditions are phrases

Every fragment that the compiler writes for one condition is passed by a scan at
bracket depth zero.  Where double quotes have to be paired, they have to be paired
in the dotted names that it writes.
-/

namespace FilterSql

def Operand.names : Operand → List String
  | .column name => [name]
  | _ => []

namespace Compile

open Fragment

variable {paired : Bool} {dialect : Dialect} {key : String}

/-! ## Comparisons -/

theorem phrase_column (h : AdmitsName paired key) : IsPhrase paired (text (columnRef key)) := by
  have hscan := passes_columnRef h 0 []
  rw [List.append_nil, scan_nil] at hscan
  simp [IsPhrase, text, hscan]

theorem phrase_value (value : Value) : IsPhrase paired (hole value) := rfl

private theorem phrase_literal (value : Value) : IsPhrase paired (literal dialect value) := by
  unfold IsPhrase
  cases dialect with
  | sqlite => rfl
  | postgres =>
      cases value with
      | string text => simp (disch := decide) [literal, hole, Fragment.text]
      | _ => rfl

private theorem phrase_operand {compared : Operand}
    (h : ∀ name ∈ compared.names, AdmitsName paired name) :
    IsPhrase paired (operand dialect compared) := by
  cases compared with
  | null => simp (disch := decide) [IsPhrase, operand, text]
  | literal value => exact phrase_literal value
  | column name => exact phrase_column (h name (by simp [Operand.names]))

private theorem phrase_nullTest : IsPhrase paired (text " is null") := by
  simp (disch := decide) [IsPhrase, text]

theorem phrase_comparison {left right : Operand}
    (hleft : ∀ name ∈ left.names, AdmitsName paired name)
    (hright : ∀ name ∈ right.names, AdmitsName paired name) :
    IsPhrase paired (comparison dialect left right) := by
  have hequal : IsPhrase paired (text "=") := by
    simp (disch := decide) [IsPhrase, text]
  cases left with
  | null =>
      cases right with
      | null => simp (disch := decide) [IsPhrase, comparison, text]
      | literal | column => exact (phrase_operand hright).append phrase_nullTest
  | literal | column =>
      cases right with
      | null => exact (phrase_operand hleft).append phrase_nullTest
      | literal | column =>
          exact ((phrase_operand hleft).append hequal).append (phrase_operand hright)

theorem phrase_isNull (h : AdmitsName paired key) : IsPhrase paired (isNull key) := by
  simp (disch := decide) [IsPhrase, isNull, text, passes_columnRef h]

theorem phrase_equals (h : AdmitsName paired key) {compared : Operand}
    (hnames : ∀ name ∈ compared.names, AdmitsName paired name) :
    IsPhrase paired (equals dialect key compared) := by
  have hcolumn : IsPhrase paired (text (columnRef key ++ "=")) := by
    simp (disch := decide) [IsPhrase, text, passes_columnRef h]
  cases compared with
  | null => exact phrase_isNull h
  | literal | column => exact hcolumn.append (phrase_operand hnames)

/-! ## Conditions on a field -/

theorem phrase_oneOf (h : AdmitsName paired key) (members : Value) :
    IsPhrase paired (oneOf dialect key members) := by
  unfold IsPhrase oneOf
  cases dialect <;> simp (disch := decide) [hole, text, passes_columnRef h]

theorem phrase_slug (h : AdmitsName paired key) (value : String) :
    IsPhrase paired (slug dialect key value) := by
  unfold IsPhrase slug slugOf
  cases dialect <;> simp (disch := decide) [hole, text, passes_columnRef h]

private theorem phrase_containing {expression : String}
    (h : Passes (.pieces paired) 0 expression.toList) (needle : Value) :
    IsPhrase paired (containing dialect expression needle) := by
  unfold IsPhrase containing likeOperator
  cases dialect <;> simp (disch := decide) [hole, text, h]

theorem phrase_contains (h : AdmitsName paired key) (needle : Value) :
    IsPhrase paired (containing dialect (columnRef key) needle) :=
  phrase_containing (passes_columnRef h 0) needle

theorem phrase_range (h : AdmitsName paired key) (bound : RangeBound) (value : Value)
    (inclusive : Bool) : IsPhrase paired (range key bound value inclusive) := by
  unfold IsPhrase range rangeOperator
  cases bound <;> cases inclusive <;>
    simp (disch := decide) [hole, text, passes_columnRef h]

/-! ## Conditions on JSON columns -/

private theorem passes_jsonPlace (h : AdmitsName paired key) (path : JsonPath)
    (asText : Bool) : Passes (.pieces paired) 0 (jsonPlace dialect key path asText).toList := by
  intro rest
  unfold jsonPlace
  cases dialect <;> cases asText <;> simp (disch := decide) [passes_columnRef h]

theorem phrase_jsonEquals (h : AdmitsName paired key) (path : JsonPath) (value : Value) :
    IsPhrase paired (jsonEquals dialect key path value) := by
  unfold IsPhrase
  simp (disch := decide) [jsonEquals, hole, text, passes_jsonPlace h _ _]

theorem phrase_jsonBound (h : AdmitsName paired key) (path : JsonPath) {operator : String}
    (hoperator : operator = ">=" ∨ operator = "<=") (bound : Option Value) :
    ∀ part ∈ jsonBound dialect key path operator bound, IsPhrase paired part := by
  intro part hpart
  obtain ⟨value, -, rfl⟩ := List.mem_map.mp hpart
  unfold IsPhrase
  rcases hoperator with rfl | rfl <;>
    simp (disch := decide) [hole, text, passes_jsonPlace h _ _]

theorem phrase_jsonContains (h : AdmitsName paired key) (path : JsonPath) (needle : Value) :
    IsPhrase paired (containing dialect (jsonPlace dialect key path true) needle) :=
  phrase_containing (passes_jsonPlace h path true) needle

theorem balanced_conjunction {parts : List Fragment}
    (h : ∀ part ∈ parts, IsBalanced paired part) : IsBalanced paired (conjunction parts) := by
  refine isBalanced_join (fun depth => ?_) h
  simp (disch := decide) [text]

private theorem balanced_jsonEntry (h : AdmitsName paired key) (place : String)
    (predicate : JsonPredicate) :
    IsBalanced paired (jsonEntry dialect key place predicate) := by
  cases predicate with
  | contains needle => exact (phrase_jsonContains h _ needle).balanced
  | equals value => exact (phrase_jsonEquals h _ value).balanced
  | between atLeast atMost =>
      refine balanced_conjunction fun part hpart => ?_
      rcases List.mem_append.mp hpart with hpart | hpart
      · exact (phrase_jsonBound h _ (.inl rfl) atLeast part hpart).balanced
      · exact (phrase_jsonBound h _ (.inr rfl) atMost part hpart).balanced

theorem balanced_jsonCondition (h : AdmitsName paired key) (condition : JsonCondition) :
    IsBalanced paired (jsonCondition dialect key condition) := by
  cases condition with
  | «at» path value => exact (phrase_jsonEquals h path value).balanced
  | each entries =>
      refine balanced_conjunction fun part hpart => ?_
      obtain ⟨⟨place, predicate⟩, -, rfl⟩ := List.mem_map.mp hpart
      exact balanced_jsonEntry h place predicate

end Compile

end FilterSql
