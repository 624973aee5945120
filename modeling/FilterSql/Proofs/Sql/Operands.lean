import FilterSql.Proofs.Sql.Gaps
import FilterSql.Proofs.Sql.Selects

/-!
# Single conditions are operands

The text of a single condition supplies an operand and has no gap of its own, nor
has the text of a sub-select up to its filter.
-/

namespace FilterSql.Compile

open Fragment

variable {dialect : Dialect} {key : String}

/-! ## Closed texts -/

/-- The text supplies an operand, which ends where a character comes that is no letter. -/
private def IsClosed (text : String) : Prop :=
  ∀ (due : Bool) {c : Char}, ¬ c.isAlpha → ∀ rest,
    FilterSql.follow (some (.word [] due)) (text.toList ++ c :: rest) =
      FilterSql.follow (some .operand) (c :: rest)

private theorem follow_ended {c : Char} (h : ¬ c.isAlpha) (rest : List Char) :
    FilterSql.follow (some (.word [] false)) (c :: rest) =
      FilterSql.follow (some .operand) (c :: rest) := by
  rw [follow_cons, follow_cons]
  simp [Stand.step, h, Stand.due?, Stand.dueAfter]

private theorem isClosed_intercalate {separator : String} {sign : Char} {after : List Char}
    (hseparator : separator.toList = sign :: after) (hsign : ¬ sign.isAlpha)
    (hafter : ∀ rest, FilterSql.follow (some .operand) (sign :: after ++ rest) =
      FilterSql.follow (some (.word [] false)) rest)
    {first : String} {others : List String} (h : ∀ part ∈ first :: others, IsClosed part) :
    IsClosed (String.intercalate separator (first :: others)) := by
  induction others generalizing first with
  | nil =>
      rw [String.intercalate_singleton]
      exact h first List.mem_cons_self
  | cons second others ih =>
      intro due c hc rest
      have hfirst := h first List.mem_cons_self
      have hothers := ih (fun part hpart => h part (List.mem_cons_of_mem _ hpart)) false hc rest
      rw [String.intercalate_cons_cons, String.toList_append, String.toList_append,
        List.append_assoc, List.append_assoc, hseparator, List.cons_append, hfirst due hsign,
        ← List.cons_append, hafter, hothers]

/-! ## Comparisons -/

private theorem follow_literal_value (value : Value) (stand : Stand) :
    Fragment.follow (some stand) (literal dialect value) = some stand.sign := by
  have hcast : FilterSql.follow (some stand.sign) "::text".toList = some stand.sign := by
    cases stand <;> rfl
  unfold literal
  split
  · rw [follow_fragment_append, follow_hole, Option.map_some, follow_text, hcast]
  · rfl

theorem supplies?_column (name : String) : (text (columnRef name)).supplies? = some true := by
  rw [supplies?, follow_text, follow_columnRef_last]
  rfl

theorem supplies?_comparison (left right : Operand) :
    (comparison dialect left right).supplies? = some true := by
  cases left <;> cases right <;>
    simp (disch := decide) [comparison, operand, supplies?, follow_literal_value, Stand.dueAfter]

theorem supplies?_isNull : (isNull key).supplies? = some true := by
  simp (disch := decide) [isNull, supplies?, Stand.dueAfter]

theorem supplies?_equals (compared : Operand) :
    (equals dialect key compared).supplies? = some true := by
  cases compared with
  | null => exact supplies?_isNull
  | literal value =>
      simp (disch := decide) [equals, operand, supplies?, follow_literal_value]
  | column name => simp (disch := decide) [equals, operand, supplies?]

/-! ## Conditions on a field -/

theorem supplies?_oneOf (members : Value) : (oneOf dialect key members).supplies? = some true := by
  cases dialect <;> simp (disch := decide) [oneOf, supplies?, Stand.dueAfter]

theorem supplies?_slug (value : String) : (slug dialect key value).supplies? = some true := by
  unfold slug slugOf
  cases dialect <;> simp (disch := decide) [supplies?, Stand.dueAfter]

theorem supplies?_contains (needle : Value) :
    (containing dialect (columnRef key) needle).supplies? = some true := by
  cases dialect <;> simp (disch := decide) [containing, likeOperator, supplies?, Stand.dueAfter]

theorem supplies?_range (bound : RangeBound) (value : Value) (inclusive : Bool) :
    (range key bound value inclusive).supplies? = some true := by
  cases bound <;> cases inclusive <;> simp (disch := decide) [range, rangeOperator, supplies?]

/-! ## Conditions on JSON columns -/

private theorem isClosed_jsonPlace (path : JsonPath) (asText : Bool) :
    IsClosed (jsonPlace dialect key path asText) := by
  intro due c hc rest
  unfold jsonPlace
  cases dialect with
  | sqlite => simp (disch := decide) [follow_ended hc]
  | postgres => cases asText <;> simp (disch := decide) [follow_ended hc, Stand.dueAfter]

theorem supplies?_jsonEquals (path : JsonPath) (value : Value) :
    (jsonEquals dialect key path value).supplies? = some true := by
  simp (disch := decide) [jsonEquals, supplies?, isClosed_jsonPlace path true true]

theorem supplies?_jsonContains (path : JsonPath) (needle : Value) :
    (containing dialect (jsonPlace dialect key path true) needle).supplies? = some true := by
  cases dialect <;> simp (disch := decide) [containing, likeOperator, supplies?,
    isClosed_jsonPlace path true true, Stand.dueAfter]

theorem supplies?_jsonBound (path : JsonPath) {operator : String}
    (hoperator : operator = ">=" ∨ operator = "<=") (bound : Option Value) :
    (jsonBound dialect key path operator bound).map supplies? =
      (bound.toList.map fun _ => true).map some := by
  cases bound with
  | none => rfl
  | some value =>
      rcases hoperator with rfl | rfl <;>
        simp (disch := decide) [jsonBound, supplies?, isClosed_jsonPlace path false true]

/-! ## Searched documents -/

private theorem follow_searchColumn (table : Option String) (name : String) (stand : Stand)
    (rest : List Char) :
    FilterSql.follow (some stand) ((searchColumn table name).toList ++ rest) =
      FilterSql.follow (some stand.sign) rest := by
  unfold searchColumn
  cases stand <;> cases table <;> simp (disch := decide)

private theorem follow_schemaText (schema : Option String) (name : String) (due : Bool)
    (rest : List Char) :
    FilterSql.follow (some (.word [] due))
        ((schemaText dialect schema).toList ++ ((nameRef name).toList ++ rest)) =
      FilterSql.follow (some .operand) rest := by
  unfold schemaText
  cases dialect <;> cases schema <;> simp (disch := decide)

private theorem isClosed_textPiece (table : Option String) (field : SearchField) :
    IsClosed (textPiece table field) := by
  intro due c hc rest
  unfold textPiece
  simp (disch := decide) [follow_searchColumn, follow_ended hc, Stand.dueAfter]

private theorem isClosed_summaryPiece {search : TextSearch} {table : Option String}
    {field : SearchField} {piece : String}
    (h : summaryPiece? dialect search table field = some piece) : IsClosed piece := by
  intro due c hc rest
  unfold summaryPiece? at h
  split at h
  · cases h
    simp (disch := decide) [follow_searchColumn, follow_schemaText, follow_ended hc,
      Stand.dueAfter]
  · cases h

private theorem isClosed_searchDocument (search : TextSearch) (table : Option String) :
    IsClosed (searchDocument dialect search table) := by
  refine searchDocument_induction (isClosed_textPiece table) isClosed_summaryPiece ?_ ?_
  · intro due c hc rest
    simp (disch := decide)
  · intro first others hpieces
    have hseparator : " || ' ' || ".toList = ' ' :: "|| ' ' || ".toList := rfl
    refine isClosed_intercalate hseparator (by decide) (fun rest => ?_) hpieces
    simp (disch := decide)

theorem supplies?_textSearch (options : CompileOptions) (scope : Option String)
    (search : TextSearch) : (textSearch options scope search).supplies? = some true := by
  unfold textSearch
  generalize (search.table <|> scope) = table
  cases options.dialect with
  | sqlite =>
      simp (disch := decide) [supplies?, isClosed_searchDocument search table true,
        Stand.dueAfter]
  | postgres =>
      by_cases hword : isSingleWord search.term <;>
        simp (disch := decide) [supplies?, isClosed_searchDocument search table false, hword,
          Stand.dueAfter]

/-! ## Tables of sub-selects -/

private theorem isClosed_selectText (select : SubSelect) : IsClosed (selectText select) := by
  intro due c hc rest
  obtain ⟨table, field, tenant, through, valueField⟩ := select
  unfold selectText
  cases tenant <;> cases through <;> cases valueField <;>
    simp (disch := decide) [Stand.dueAfter]

variable (dialect)

private theorem isChainPart_closed (schema : Option String) :
    IsChainPart (schemaText dialect schema) IsClosed where
  name name := fun _ _ _ _ => follow_nameRef ..
  column name hprevious := by
    intro due c hc rest
    simp (disch := decide) [hprevious due]
  id name := by
    intro due c hc rest
    simp (disch := decide)
  source level place := by
    intro due c hc rest
    unfold aliasedTable
    simp (disch := decide) [follow_schemaText, Stand.dueAfter]
  join level place hprevious := by
    intro due c hc rest
    obtain ⟨table, levelKey⟩ := level
    unfold joinText aliasedTable
    cases levelKey <;>
      simp (disch := decide) [follow_schemaText, hprevious _, Stand.dueAfter]

private theorem isClosed_chainSelectText (chain : JoinChain) :
    IsClosed (chainSelectText dialect chain) := by
  intro due c hc rest
  obtain ⟨hcolumn, first, others, htables, hclosed⟩ :=
    (isChainPart_closed dialect chain.schema).chainText
  have hblank : " ".toList = [' '] := rfl
  have hjoined : IsClosed (String.intercalate " " (first :: others)) :=
    isClosed_intercalate hblank (by decide) (fun rest => by simp) hclosed
  unfold chainSelectText
  dsimp only
  rw [htables]
  generalize String.intercalate " " (first :: others) = tables at hjoined
  simp (disch := decide) [hcolumn false, hjoined false hc, Stand.dueAfter]

/-! ## Sub-selects -/

variable {dialect}

private theorem supplies?_membership {select : String} (hselect : IsClosed select)
    {parts : List Fragment} {verdicts : List Bool} (h : parts.map supplies? = verdicts.map some) :
    (membership key select parts).supplies? = some (verdicts.all id) := by
  -- Behind the select comes a blank or a bracket, and both end its last word.
  have hopen {c : Char} (hc : ¬ c.isAlpha) (rest : List Char) :
      FilterSql.follow (Fragment.follow (some (.word [] true))
        (text (columnRef key ++ " in (" ++ select))) (c :: rest) =
          FilterSql.follow (some .operand) (c :: rest) := by
    rw [follow_text, ← follow_append]
    simp (disch := decide) [hselect true hc, Stand.dueAfter]
  rw [supplies?, membership, follow_fragment_append, follow_fragment_append]
  cases parts with
  | nil =>
      obtain rfl : verdicts = [] := by simpa using h.symm
      have hclose (stand : Option Stand) :
          Fragment.follow stand (text ")") = FilterSql.follow stand [')'] := rfl
      rw [List.isEmpty_nil, if_pos rfl, follow_fragment_nil, hclose, hopen (by decide)]
      simp [Stand.dueAfter]
  | cons first rest =>
      have hverdicts : verdicts ≠ [] := by
        rintro rfl
        simp at h
      have hwhere (stand : Option Stand) : Fragment.follow stand (text " where ") =
          FilterSql.follow stand (' ' :: "where ".toList) := rfl
      have hstart : FilterSql.follow (some .operand) (' ' :: "where ".toList) =
          some (.word [] true) := rfl
      have hfilter : (conjunction (first :: rest)).supplies? =
          some (!verdicts.isEmpty && verdicts.all id) := supplies?_join (.inl rfl) h
      rw [List.isEmpty_cons, if_neg (by decide), follow_fragment_append, hwhere,
        hopen (by decide), hstart, follow_text, follow_bracket hfilter]
      cases verdicts.all id <;> simp [hverdicts, Stand.verdict, Stand.due?, Stand.dueAfter]

theorem supplies?_inSelect (select : SubSelect) {parts : List Fragment} {verdicts : List Bool}
    (h : parts.map supplies? = verdicts.map some) :
    (membership key (selectText select) parts).supplies? = some (verdicts.all id) :=
  supplies?_membership (isClosed_selectText select) h

theorem supplies?_inChain (chain : JoinChain) {parts : List Fragment} {verdicts : List Bool}
    (h : parts.map supplies? = verdicts.map some) :
    (membership key (chainSelectText dialect chain) parts).supplies? = some (verdicts.all id) :=
  supplies?_membership (isClosed_chainSelectText dialect chain) h

end FilterSql.Compile
