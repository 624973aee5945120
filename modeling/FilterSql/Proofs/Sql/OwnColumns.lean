import FilterSql.Proofs.Sql.Payloads
import FilterSql.Proofs.Sql.QualifiedNames

/-!
# A filter's own columns

The columns that a filter itself asks about are those of its fields and those of its
full-text searches that name no table; the filters inside sub-selects have their own.
Only these columns know of the scope: compiling a filter in another scope replaces
their texts, one by one, and changes nothing else.
-/

namespace FilterSql

/-! ## Own columns -/

inductive OwnColumn where
  | field (key : String)
  | searched (name : String)
  deriving DecidableEq, Repr

def OwnColumn.text (scope : Option String) : OwnColumn → String
  | .field key => columnRef (scopedKey scope key)
  | .searched name => Compile.searchColumn scope name

def OwnColumn.behindAlias : OwnColumn → String
  | .field key => quotedKey key
  | .searched name => nameRef name

theorem OwnColumn.text_some {table : String} (h : IsPlainName table) (column : OwnColumn) :
    column.text (some table) = "\"" ++ table ++ "\"." ++ column.behindAlias := by
  cases column with
  | field key => exact columnRef_qualifiedKey h key
  | searched name =>
      have hdot : "\"." = "\"" ++ "." := by decide
      simp only [text, Compile.searchColumn, nameRef_eq table, h.sanitize_eq, hdot, behindAlias,
        String.append_assoc]

def SearchField.isSummarized (field : SearchField) : Bool :=
  field.isForeignKey && field.includeSearch && field.refTable.isSome && field.summaryField.isSome

def TextSearch.ownColumns (search : TextSearch) : List OwnColumn :=
  match search.table with
  | some _ => []
  | none =>
    (search.fields.filter SearchField.isText ++
      search.fields.filter SearchField.isSummarized).map (.searched ·.name)

def JsonPredicate.ownColumns (column : OwnColumn) : JsonPredicate → List OwnColumn
  | .contains _ | .equals _ => [column]
  | .between atLeast atMost => (atLeast.toList ++ atMost.toList).map fun _ => column

def JsonCondition.ownColumns (column : OwnColumn) : JsonCondition → List OwnColumn
  | .at _ _ => [column]
  | .each entries => entries.flatMap fun entry => entry.2.ownColumns column

mutual

def Condition.ownColumns (column : OwnColumn) : Condition → List OwnColumn
  | .anyOf alternatives => Condition.ownColumnsOfAll column alternatives
  | .allOf conditions => Condition.ownColumnsOfAll column conditions
  | .json condition => condition.ownColumns column
  | .oneOf _ | .slug _ | .contains _ | .range _ _ _ | .inSelect _ _ | .inChain _ _ | .isNull
  | .equals _ => [column]

def Condition.ownColumnsOfAll (column : OwnColumn) : List Condition → List OwnColumn
  | [] => []
  | first :: rest => Condition.ownColumns column first ++ Condition.ownColumnsOfAll column rest

end

mutual

/-- The mentions of own columns, in the order in which the text names them. -/
def Clause.ownColumns : Clause → List OwnColumn
  | .search search => search.ownColumns
  | .or alternatives => Filter.ownColumnsOfAll alternatives
  | .not negated => Filter.ownColumns negated
  | .notColumn _ | .notValue _ | .compare _ _ => []
  | .field key condition => condition.ownColumns (.field key)

def Filter.ownColumns : List Clause → List OwnColumn
  | [] => []
  | first :: rest => Clause.ownColumns first ++ Filter.ownColumns rest

def Filter.ownColumnsOfAll : List (List Clause) → List OwnColumn
  | [] => []
  | first :: rest => Filter.ownColumns first ++ Filter.ownColumnsOfAll rest

end

/-! ## Replaced parts -/

/-- The second text is the first with some of its parts replaced, in this order. -/
inductive Replaced : List (String × String) → String → String → Prop
  | nil : Replaced [] "" ""
  | same (text : String) {pairs : List (String × String)} {first second : String} :
      Replaced pairs first second → Replaced pairs (text ++ first) (text ++ second)
  | part (old new : String) {pairs : List (String × String)} {first second : String} :
      Replaced pairs first second →
        Replaced ((old, new) :: pairs) (old ++ first) (new ++ second)

inductive ReplacedEach {α : Type} (replaced : List (String × String) → α → α → Prop) :
    List (String × String) → List α → List α → Prop
  | nil : ReplacedEach replaced [] [] []
  | cons {pairs later : List (String × String)} {first second : α} {firsts seconds : List α} :
      replaced pairs first second → ReplacedEach replaced later firsts seconds →
        ReplacedEach replaced (pairs ++ later) (first :: firsts) (second :: seconds)

namespace ReplacedEach

variable {α : Type} {replaced : List (String × String) → α → α → Prop}
  {pairs later : List (String × String)} {firsts seconds firsts' seconds' : List α}

theorem append (h : ReplacedEach replaced pairs firsts seconds)
    (h' : ReplacedEach replaced later firsts' seconds') :
    ReplacedEach replaced (pairs ++ later) (firsts ++ firsts') (seconds ++ seconds') := by
  induction h with
  | nil => exact h'
  | cons hfirst _ ih =>
      rw [List.append_assoc]
      exact .cons hfirst ih

theorem map {β : Type} {pair : β → String × String} {first second : β → α} (items : List β)
    (h : ∀ item, replaced [pair item] (first item) (second item)) :
    ReplacedEach replaced (items.map pair) (items.map first) (items.map second) := by
  induction items with
  | nil => exact .nil
  | cons item rest ih => exact .cons (h item) ih

end ReplacedEach

namespace Replaced

variable {pairs later : List (String × String)} {first second first' second' : String}

theorem refl (text : String) : Replaced [] text text := by
  simpa using nil.same text

theorem single (old new : String) : Replaced [(old, new)] old new := by
  simpa using nil.part old new

theorem append (h : Replaced pairs first second) (h' : Replaced later first' second') :
    Replaced (pairs ++ later) (first ++ first') (second ++ second') := by
  induction h with
  | nil => simpa using h'
  | same text _ ih =>
      rw [String.append_assoc, String.append_assoc]
      exact ih.same text
  | part old new _ ih =>
      rw [String.append_assoc, String.append_assoc]
      exact ih.part old new

theorem around (before old new after : String) :
    Replaced [(old, new)] (before ++ old ++ after) (before ++ new ++ after) :=
  ((refl before).append (single old new)).append (refl after)

theorem intercalate (separator : String) {firsts seconds : List String}
    (h : ReplacedEach Replaced pairs firsts seconds) :
    Replaced pairs (separator.intercalate firsts) (separator.intercalate seconds) := by
  induction h with
  | nil => exact refl _
  | cons hfirst hrest ih =>
      cases hrest with
      | nil => simpa using hfirst
      | cons =>
          rw [String.intercalate_cons_cons, String.intercalate_cons_cons]
          simpa [String.append_assoc] using (hfirst.append (refl separator)).append ih

end Replaced

namespace Fragment

/-- Whatever the bindings, the text of the second fragment is that of the first with some parts
replaced, and the values are the same. -/
structure Replaced (pairs : List (String × String)) (first second : Fragment) : Prop where
  blank : first.isBlank = second.isBlank
  values : first.values = second.values
  text (bindings : Bindings) :
    FilterSql.Replaced pairs (first.render bindings).1 (second.render bindings).1

namespace Replaced

variable {pairs later : List (String × String)} {first second first' second' : Fragment}

theorem refl (fragment : Fragment) : Replaced [] fragment fragment :=
  ⟨rfl, rfl, fun _ => .refl _⟩

theorem ofText {before after : String} (h : FilterSql.Replaced pairs before after)
    (hbefore : before ≠ "") (hafter : after ≠ "") :
    Replaced pairs (Fragment.text before) (Fragment.text after) where
  blank := by simp [isBlank, Fragment.text, hbefore, hafter]
  values := rfl
  text bindings := by simpa [Fragment.text, render] using h

theorem append (h : Replaced pairs first second) (h' : Replaced later first' second') :
    Replaced (pairs ++ later) (first ++ first') (second ++ second') where
  blank := by
    have hblank := h.blank
    have hblank' := h'.blank
    rw [isBlank] at hblank hblank' ⊢
    rw [List.all_append, hblank, hblank', isBlank, isBlank, isBlank, List.all_append]
  values := by rw [values_append, values_append, h.values, h'.values]
  text bindings := by
    rw [render_append, render_append]
    -- Equal values leave equal bindings, so the later parts number their holes alike.
    have hbound : (first.render bindings).2 = (second.render bindings).2 :=
      bound_congr h.values bindings
    rw [hbound]
    exact (h.text bindings).append (h'.text _)

theorem before (fragment : Fragment) (h : Replaced pairs first second) :
    Replaced pairs (fragment ++ first) (fragment ++ second) :=
  (refl fragment).append h

theorem after (h : Replaced pairs first second) (fragment : Fragment) :
    Replaced pairs (first ++ fragment) (second ++ fragment) := by
  simpa using h.append (refl fragment)

theorem parens (h : Replaced pairs first second) :
    Replaced pairs (Fragment.parens first) (Fragment.parens second) := by
  unfold Fragment.parens
  rw [h.blank]
  split
  · exact h
  · exact (h.before _).after _

theorem join (separator : String) {firsts seconds : List Fragment}
    (h : ReplacedEach Replaced pairs firsts seconds) :
    Replaced pairs (Fragment.join separator firsts) (Fragment.join separator seconds) := by
  induction h with
  | nil => exact refl _
  | cons hfirst hrest ih =>
      cases hrest with
      | nil => simpa using hfirst
      | cons =>
          rw [join_cons_cons, join_cons_cons]
          exact hfirst.append (ih.before (Fragment.text separator))

end Replaced

end Fragment

/-! ## Compiling in another scope -/

def OwnColumn.texts (scope other : Option String) (columns : List OwnColumn) :
    List (String × String) :=
  columns.map fun column => (column.text scope, column.text other)

theorem OwnColumn.texts_append (scope other : Option String) (first second : List OwnColumn) :
    texts scope other (first ++ second) =
      texts scope other first ++ texts scope other second :=
  List.map_append

namespace Compile

open Fragment

variable (options : CompileOptions) (dialect : Dialect) (scope other : Option String)

/-! ### Conditions -/

section Conditions

variable (key : String)

private theorem replaced_column (before after : String) (h : after ≠ "") :
    Fragment.Replaced (OwnColumn.texts scope other [.field key])
      (Fragment.text (before ++ columnRef (scopedKey scope key) ++ after))
      (Fragment.text (before ++ columnRef (scopedKey other key) ++ after)) :=
  .ofText (.around before _ _ after) (by simp [h]) (by simp [h])

private theorem replaced_lead (after : String) (h : after ≠ "") :
    Fragment.Replaced (OwnColumn.texts scope other [.field key])
      (Fragment.text (columnRef (scopedKey scope key) ++ after))
      (Fragment.text (columnRef (scopedKey other key) ++ after)) := by
  simpa using replaced_column scope other key "" after h

private theorem exists_slugOf (dialect : Dialect) : ∃ before after, ∀ key rest,
    slugOf dialect key ++ rest = before ++ columnRef key ++ (after ++ rest) := by
  unfold slugOf
  cases dialect with
  | sqlite =>
      exact ⟨"REPLACE(LOWER(", "),' ','-')", fun key rest => by
        simp only [String.append_assoc]⟩
  | postgres =>
      exact ⟨"REGEXP_REPLACE(" ++ "REPLACE(LOWER(", "),' ','-')" ++ ",'[^\\w-]','','g')",
        fun key rest => by simp only [String.append_assoc]⟩

private theorem exists_jsonPlace (dialect : Dialect) (path : JsonPath) (asText : Bool) :
    ∃ before after, ∀ key rest,
      jsonPlace dialect key path asText ++ rest = before ++ columnRef key ++ (after ++ rest) := by
  unfold jsonPlace
  cases dialect with
  | sqlite =>
      exact ⟨"json_extract(", ", '" ++ path.literal ++ "')", fun key rest => by
        simp only [String.append_assoc]⟩
  | postgres =>
      cases asText with
      | true =>
          exact ⟨"jsonb_build_array(jsonb_path_query_first(", ", '" ++ path.literal ++ "'))->>0",
            fun key rest => by simp only [String.append_assoc]⟩
      | false =>
          exact ⟨"jsonb_path_query_first(", ", '" ++ path.literal ++ "')", fun key rest => by
            simp only [String.append_assoc]⟩

private theorem replaced_oneOf (members : Value) :
    Fragment.Replaced (OwnColumn.texts scope other [.field key])
      (oneOf dialect (scopedKey scope key) members)
      (oneOf dialect (scopedKey other key) members) := by
  cases dialect <;>
    exact ((replaced_lead scope other key _ (by decide)).after _).after _

private theorem replaced_slug (text : String) :
    Fragment.Replaced (OwnColumn.texts scope other [.field key])
      (slug dialect (scopedKey scope key) text) (slug dialect (scopedKey other key) text) := by
  obtain ⟨before, after, hslug⟩ := exists_slugOf dialect
  rw [slug, slug, hslug, hslug]
  exact (replaced_column scope other key before (after ++ "=") (by simp)).after _

private theorem replaced_contains (needle : Value) :
    Fragment.Replaced (OwnColumn.texts scope other [.field key])
      (containing dialect (columnRef (scopedKey scope key)) needle)
      (containing dialect (columnRef (scopedKey other key)) needle) := by
  rw [containing, containing, String.append_assoc, String.append_assoc, String.append_assoc,
    String.append_assoc]
  exact ((replaced_lead scope other key _ (by simp)).after _).after _

private theorem replaced_range (bound : RangeBound) (value : Value) (inclusive : Bool) :
    Fragment.Replaced (OwnColumn.texts scope other [.field key])
      (range (scopedKey scope key) bound value inclusive)
      (range (scopedKey other key) bound value inclusive) := by
  cases bound <;> cases inclusive <;>
    exact (replaced_lead scope other key _ (by decide)).after _

private theorem replaced_isNull :
    Fragment.Replaced (OwnColumn.texts scope other [.field key])
      (isNull (scopedKey scope key)) (isNull (scopedKey other key)) :=
  replaced_lead scope other key " is null" (by decide)

private theorem replaced_equals (operand : Operand) :
    Fragment.Replaced (OwnColumn.texts scope other [.field key])
      (equals dialect (scopedKey scope key) operand)
      (equals dialect (scopedKey other key) operand) := by
  cases operand with
  | null => exact replaced_isNull scope other key
  | literal | column => exact (replaced_lead scope other key "=" (by decide)).after _

private theorem replaced_membership (select : String) (parts : List Fragment) :
    Fragment.Replaced (OwnColumn.texts scope other [.field key])
      (membership (scopedKey scope key) select parts)
      (membership (scopedKey other key) select parts) := by
  rw [membership, membership, String.append_assoc, String.append_assoc]
  exact ((replaced_lead scope other key _ (by simp)).after _).after _

/-! ### Conditions on JSON columns -/

private theorem replaced_jsonPlace (path : JsonPath) (asText : Bool) (after : String)
    (h : after ≠ "") :
    Fragment.Replaced (OwnColumn.texts scope other [.field key])
      (Fragment.text (jsonPlace dialect (scopedKey scope key) path asText ++ after))
      (Fragment.text (jsonPlace dialect (scopedKey other key) path asText ++ after)) := by
  obtain ⟨before, rest, hplace⟩ := exists_jsonPlace dialect path asText
  rw [hplace, hplace]
  exact replaced_column scope other key before (rest ++ after) (by simp [h])

private theorem replaced_jsonEquals (path : JsonPath) (value : Value) :
    Fragment.Replaced (OwnColumn.texts scope other [.field key])
      (jsonEquals dialect (scopedKey scope key) path value)
      (jsonEquals dialect (scopedKey other key) path value) :=
  (replaced_jsonPlace dialect scope other key path true "=" (by decide)).after _

private theorem replaced_jsonBound (path : JsonPath) (operator : String) (bound : Option Value) :
    ReplacedEach Fragment.Replaced
      (OwnColumn.texts scope other (bound.toList.map fun _ => .field key))
      (jsonBound dialect (scopedKey scope key) path operator bound)
      (jsonBound dialect (scopedKey other key) path operator bound) := by
  cases bound with
  | none => exact .nil
  | some value =>
      have hbound := (replaced_jsonPlace dialect scope other key path false (" " ++ operator ++ " ")
        (by simp)).after (hole value)
      simp only [← String.append_assoc] at hbound
      exact .cons hbound .nil

private theorem replaced_jsonEntry (place : String) (predicate : JsonPredicate) :
    Fragment.Replaced (OwnColumn.texts scope other (predicate.ownColumns (.field key)))
      (jsonEntry dialect (scopedKey scope key) place predicate)
      (jsonEntry dialect (scopedKey other key) place predicate) := by
  cases predicate with
  | contains needle =>
      simp only [jsonEntry, containing, String.append_assoc]
      exact ((replaced_jsonPlace dialect scope other key _ true _ (by simp)).after _).after _
  | between atLeast atMost =>
      rw [JsonPredicate.ownColumns, List.map_append, OwnColumn.texts_append]
      exact .join " and " ((replaced_jsonBound dialect scope other key _ ">=" atLeast).append
        (replaced_jsonBound dialect scope other key _ "<=" atMost))
  | equals value => exact replaced_jsonEquals dialect scope other key _ value

private theorem replaced_jsonCondition (condition : JsonCondition) :
    Fragment.Replaced (OwnColumn.texts scope other (condition.ownColumns (.field key)))
      (jsonCondition dialect (scopedKey scope key) condition)
      (jsonCondition dialect (scopedKey other key) condition) := by
  cases condition with
  | «at» path value => exact replaced_jsonEquals dialect scope other key path value
  | each entries =>
      refine .join " and " ?_
      induction entries with
      | nil => exact .nil
      | cons entry rest ih =>
          rw [JsonCondition.ownColumns, List.flatMap_cons, OwnColumn.texts_append]
          exact .cons (replaced_jsonEntry dialect scope other key entry.1 entry.2) ih

end Conditions

/-! ### Searches -/

private def summaryLead (search : TextSearch) (field : SearchField) : String :=
  "coalesce((select " ++ nameRef (field.summaryField.getD "") ++ " from " ++
    schemaText dialect search.schema ++ nameRef (field.refTable.getD "") ++ " rt where rt.id="

private theorem summaryPiece?_eq (search : TextSearch) (field : SearchField) :
    (if field.isForeignKey && field.includeSearch then summaryPiece? dialect search scope field
      else none) =
      if field.isSummarized then
        some (summaryLead dialect search field ++ searchColumn scope field.name ++ "),'')")
      else none := by
  unfold summaryPiece? summaryLead SearchField.isSummarized
  cases field.isForeignKey <;> cases field.includeSearch <;> cases field.refTable <;>
    cases field.summaryField <;> rfl

private theorem summaryPieces_eq (search : TextSearch) (fields : List SearchField) :
    (fields.filter fun field => field.isForeignKey && field.includeSearch).filterMap
        (summaryPiece? dialect search scope) =
      (fields.filter SearchField.isSummarized).map fun field =>
        summaryLead dialect search field ++ searchColumn scope field.name ++ "),'')" := by
  rw [List.filterMap_filter, funext (summaryPiece?_eq dialect scope search),
    ← List.filterMap_eq_map, List.filterMap_filter]
  rfl

private theorem replaced_document {pairs : List (String × String)} {firsts seconds : List String} :
    ReplacedEach Replaced pairs firsts seconds →
      Replaced pairs (match firsts with | [] => "''" | pieces => " || ' ' || ".intercalate pieces)
        (match seconds with | [] => "''" | pieces => " || ' ' || ".intercalate pieces) := by
  intro h
  cases h with
  | nil => exact .refl _
  | cons hfirst hrest => exact .intercalate " || ' ' || " (.cons hfirst hrest)

private theorem replaced_searchDocument {search : TextSearch} (h : search.table = none) :
    Replaced (OwnColumn.texts scope other search.ownColumns)
      (searchDocument dialect search scope) (searchDocument dialect search other) := by
  have htexts : ReplacedEach Replaced
      (OwnColumn.texts scope other
        ((search.fields.filter SearchField.isText).map (.searched ·.name)))
      ((search.fields.filter SearchField.isText).map (textPiece scope))
      ((search.fields.filter SearchField.isText).map (textPiece other)) := by
    rw [OwnColumn.texts, List.map_map]
    exact .map _ fun field => .around "coalesce(" _ _ ",'')"
  have hsummaries : ReplacedEach Replaced
      (OwnColumn.texts scope other
        ((search.fields.filter SearchField.isSummarized).map (.searched ·.name)))
      ((search.fields.filter fun field => field.isForeignKey && field.includeSearch).filterMap
        (summaryPiece? dialect search scope))
      ((search.fields.filter fun field => field.isForeignKey && field.includeSearch).filterMap
        (summaryPiece? dialect search other)) := by
    rw [OwnColumn.texts, List.map_map, summaryPieces_eq, summaryPieces_eq]
    exact .map _ fun field => .around _ _ _ "),'')"
  rw [TextSearch.ownColumns, h, List.map_append, OwnColumn.texts_append]
  exact replaced_document (htexts.append hsummaries)

private theorem exists_textSearch (search : TextSearch) :
    ∃ before after rest, after ≠ "" ∧ ∀ scope, textSearch options scope search =
      Fragment.text (before ++ searchDocument options.dialect search (search.table <|> scope) ++
        after) ++ rest := by
  unfold textSearch
  cases options.dialect with
  | sqlite =>
      refine ⟨"", " LIKE '%' || ", hole (.string search.term) ++ Fragment.text " || '%'",
        by decide, fun scope => ?_⟩
      rw [String.empty_append, ← List.append_assoc]
  | postgres =>
      -- The kind of query depends on the term alone, never on the scope.
      generalize (if isSingleWord search.term then ("to_tsquery", search.term ++ ":*")
        else ("plainto_tsquery", search.term)) = query
      refine ⟨"to_tsvector('" ++ configName options ++ "', ",
        ") @@ " ++ (query.1 ++ ("('" ++ (configName options ++ "', "))),
        hole (.string query.2) ++ Fragment.text ")", by simp, fun scope => ?_⟩
      rw [← List.append_assoc]
      simp only [String.append_assoc]

private theorem replaced_textSearch (search : TextSearch) :
    Fragment.Replaced (OwnColumn.texts scope other search.ownColumns)
      (textSearch options scope search) (textSearch options other search) := by
  obtain ⟨before, after, rest, hafter, hsearch⟩ := exists_textSearch options search
  rw [hsearch, hsearch]
  cases htable : search.table with
  | some table =>
      have hown : search.ownColumns = [] := by rw [TextSearch.ownColumns, htable]
      rw [hown]
      exact .refl _
  | none =>
      have hdocument := replaced_searchDocument options.dialect scope other htable
      have htext := ((Replaced.refl before).append hdocument).append (.refl after)
      rw [List.append_nil] at htext
      exact (Fragment.Replaced.ofText htext (by simp [hafter]) (by simp [hafter])).after rest

/-! ### Whole filters -/

mutual

theorem replaced_clause (requirement : Clause) :
    Fragment.Replaced (OwnColumn.texts scope other requirement.ownColumns)
      (clause options scope requirement) (clause options other requirement) := by
  cases requirement with
  | search search => exact replaced_textSearch options scope other search
  | or alternatives =>
      exact (Fragment.Replaced.join " or " (replaced_alternativesOf alternatives)).parens
  | not negated =>
      have hnegated := Fragment.Replaced.join " and " (replaced_clauses negated)
      exact (hnegated.before _).after _
  | notColumn name => exact .refl _
  | notValue value => exact .refl _
  | compare left right => exact .refl _
  | field key condition => exact replaced_conditionOn key condition

theorem replaced_clauses (filter : List Clause) :
    ReplacedEach Fragment.Replaced (OwnColumn.texts scope other (Filter.ownColumns filter))
      (clauses options scope filter) (clauses options other filter) := by
  cases filter with
  | nil => exact .nil
  | cons first rest =>
      rw [Filter.ownColumns, OwnColumn.texts_append]
      exact .cons (replaced_clause first) (replaced_clauses rest)

theorem replaced_alternativesOf (alternatives : List (List Clause)) :
    ReplacedEach Fragment.Replaced
      (OwnColumn.texts scope other (Filter.ownColumnsOfAll alternatives))
      (alternativesOf options scope alternatives) (alternativesOf options other alternatives) := by
  cases alternatives with
  | nil => exact .nil
  | cons first rest =>
      rw [Filter.ownColumnsOfAll, OwnColumn.texts_append]
      exact .cons (.join " and " (replaced_clauses first)) (replaced_alternativesOf rest)

theorem replaced_conditionOn (key : String) (condition : Condition) :
    Fragment.Replaced (OwnColumn.texts scope other (condition.ownColumns (.field key)))
      (conditionOn options (scopedKey scope key) condition)
      (conditionOn options (scopedKey other key) condition) := by
  cases condition with
  | oneOf members => exact replaced_oneOf options.dialect scope other key members
  | slug text => exact replaced_slug options.dialect scope other key text
  | anyOf alternatives =>
      exact (Fragment.Replaced.join " or " (replaced_conditionsOn key alternatives)).parens
  | allOf conditions => exact .join " and " (replaced_conditionsOn key conditions)
  | contains needle => exact replaced_contains options.dialect scope other key needle
  | range bound value inclusive => exact replaced_range scope other key bound value inclusive
  | inSelect select filter => exact replaced_membership scope other key _ _
  | inChain chain filter => exact replaced_membership scope other key _ _
  | json condition => exact replaced_jsonCondition options.dialect scope other key condition
  | isNull => exact replaced_isNull scope other key
  | equals operand => exact replaced_equals options.dialect scope other key operand

theorem replaced_conditionsOn (key : String) (conditions : List Condition) :
    ReplacedEach Fragment.Replaced
      (OwnColumn.texts scope other (Condition.ownColumnsOfAll (.field key) conditions))
      (conditionsOn options (scopedKey scope key) conditions)
      (conditionsOn options (scopedKey other key) conditions) := by
  cases conditions with
  | nil => exact .nil
  | cons first rest =>
      rw [Condition.ownColumnsOfAll, OwnColumn.texts_append]
      exact .cons (replaced_conditionOn key first) (replaced_conditionsOn key rest)

end

/-! ### Filters that are qualified before -/

mutual

/-- Compiling a qualified filter is compiling the filter in the scope of the table. -/
theorem clause_qualifyClause (table : String) (requirement : Clause) :
    clause options none (Filter.qualifyClause table requirement) =
      clause options (some table) requirement := by
  cases requirement with
  | search search =>
      have htable : ((search.table <|> some table) <|> none) = (search.table <|> some table) := by
        cases search.table <;> rfl
      simp only [Filter.qualifyClause, clause, textSearch, searchDocument, htable]
      rfl
  | or alternatives =>
      rw [Filter.qualifyClause, clause, clause, alternativesOf_qualifyFilters table alternatives]
  | not negated =>
      rw [Filter.qualifyClause, clause, clause, clauses_qualifyClauses table negated]
  | notColumn | notValue | compare | field => rfl

theorem clauses_qualifyClauses (table : String) (filter : List Clause) :
    clauses options none (Filter.qualifyClauses table filter) =
      clauses options (some table) filter := by
  cases filter with
  | nil => rfl
  | cons first rest =>
      rw [Filter.qualifyClauses, clauses, clauses, clause_qualifyClause table first,
        clauses_qualifyClauses table rest]

theorem alternativesOf_qualifyFilters (table : String) (alternatives : List (List Clause)) :
    alternativesOf options none (Filter.qualifyFilters table alternatives) =
      alternativesOf options (some table) alternatives := by
  cases alternatives with
  | nil => rfl
  | cons first rest =>
      rw [Filter.qualifyFilters, alternativesOf, alternativesOf,
        clauses_qualifyClauses table first, alternativesOf_qualifyFilters table rest]

end

end Compile

namespace Filter

variable (options : CompileOptions) (filter : Filter) (name : String)

theorem replaced_fragment_qualify :
    Fragment.Replaced (OwnColumn.texts none (some (bareAlias name)) (Filter.ownColumns filter))
      (filter.fragment options) ((filter.qualify name).fragment options) := by
  have hclauses := Compile.replaced_clauses options none (some (bareAlias name)) filter
  rw [← Compile.clauses_qualifyClauses] at hclauses
  exact .join " and " hclauses

theorem values_compile_qualify :
    ((filter.qualify name).compile options).values = (filter.compile options).values := by
  rw [values_compile, values_compile, ← values_fragment, ← values_fragment]
  exact (replaced_fragment_qualify options filter name).values.symm

/-- The text of a qualified filter is that of the filter, with its own columns replaced by what
they are in the scope of the table. -/
theorem replaced_compile_qualify :
    Replaced (OwnColumn.texts none (some (bareAlias name)) (Filter.ownColumns filter))
      (filter.compile options).sql ((filter.qualify name).compile options).sql := by
  cases filter with
  | nil => exact .refl _
  | cons first rest =>
      have hfragment := replaced_fragment_qualify options (first :: rest) name
      rw [sql_compile_of_ne_nil options (List.cons_ne_nil _ _),
        sql_compile_of_ne_nil options (by simp [qualify, qualifyClauses])]
      exact (hfragment.text options.bindings).same "WHERE "

end Filter

end FilterSql
