import FilterSql.Proofs.Sql.OwnColumns

/-!
# Qualifying a filter

Qualifying changes the keys of a filter's own fields and the tables of its full-text
searches that name none, and nothing else of the tree.  The compiled filter binds the
same values, and its text differs in the filter's own columns alone.  With simple keys
each of these is the column as it was, behind the quoted alias and a dot.
-/

namespace FilterSql

/-! ## The tree -/

inductive Qualifies (table : String) : Clause → Clause → Prop
  | search {search : TextSearch} (h : search.table = none) :
      Qualifies table (.search search) (.search { search with table := some table })
  | searchOf {search : TextSearch} {named : String} (h : search.table = some named) :
      Qualifies table (.search search) (.search search)
  | or {alternatives qualified : List Filter} :
      List.Forall₂ (List.Forall₂ (Qualifies table)) alternatives qualified →
        Qualifies table (.or alternatives) (.or qualified)
  | not {negated qualified : Filter} :
      List.Forall₂ (Qualifies table) negated qualified →
        Qualifies table (.not negated) (.not qualified)
  | notColumn (name : String) : Qualifies table (.notColumn name) (.notColumn name)
  | notValue (value : Value) : Qualifies table (.notValue value) (.notValue value)
  | compare (left right : Operand) :
      Qualifies table (.compare left right) (.compare left right)
  | field (key : String) (condition : Condition) :
      Qualifies table (.field key condition) (.field (qualifiedKey table key) condition)

namespace Filter

variable (table : String)

mutual

theorem qualifies_qualifyClause (requirement : Clause) :
    Qualifies table requirement (qualifyClause table requirement) := by
  cases requirement with
  | search search =>
      cases htable : search.table with
      | none =>
          rw [qualifyClause, htable]
          exact .search htable
      | some named =>
          have hsame : { search with table := search.table <|> some table } = search := by
            rw [htable]
            cases search
            cases htable
            rfl
          rw [qualifyClause, hsame]
          exact .searchOf htable
  | or alternatives => exact .or (qualifies_qualifyFilters alternatives)
  | not negated => exact .not (qualifies_qualifyClauses negated)
  | notColumn name => exact .notColumn name
  | notValue value => exact .notValue value
  | compare left right => exact .compare left right
  | field key condition => exact .field key condition

theorem qualifies_qualifyClauses (filter : List Clause) :
    List.Forall₂ (Qualifies table) filter (qualifyClauses table filter) := by
  cases filter with
  | nil => exact .nil
  | cons first rest =>
      exact .cons (qualifies_qualifyClause first) (qualifies_qualifyClauses rest)

theorem qualifies_qualifyFilters (alternatives : List (List Clause)) :
    List.Forall₂ (List.Forall₂ (Qualifies table)) alternatives
      (qualifyFilters table alternatives) := by
  cases alternatives with
  | nil => exact .nil
  | cons first rest =>
      exact .cons (qualifies_qualifyClauses first) (qualifies_qualifyFilters rest)

end

end Filter

/-! ## The alias -/

theorem dropWhile_quote (text : List Char) :
    (∃ count, text = List.replicate count '"' ++ text.dropWhile (· == '"')) ∧
      (text.dropWhile (· == '"')).head? ≠ some '"' := by
  induction text with
  | nil => exact ⟨⟨0, rfl⟩, by simp⟩
  | cons c rest ih =>
      by_cases hc : c = '"'
      · subst hc
        obtain ⟨⟨count, hcount⟩, hhead⟩ := ih
        refine ⟨⟨count + 1, ?_⟩, by simpa using hhead⟩
        rw [List.replicate_succ, List.dropWhile_cons_of_pos (by simp), List.cons_append, ← hcount]
      · exact ⟨⟨0, by simp [hc]⟩, by simp [hc]⟩

theorem bareAlias_eq (name : String) :
    (∃ before after, name.toList = List.replicate before '"' ++
        (Filter.bareAlias name).toList ++ List.replicate after '"') ∧
      (Filter.bareAlias name).toList.head? ≠ some '"' ∧
        (Filter.bareAlias name).toList.getLast? ≠ some '"' := by
  obtain ⟨⟨before, hbefore⟩, hhead⟩ := dropWhile_quote name.toList
  obtain ⟨⟨after, hafter⟩, hlast⟩ := dropWhile_quote (name.toList.dropWhile (· == '"')).reverse
  have hbare : (Filter.bareAlias name).toList =
      ((name.toList.dropWhile (· == '"')).reverse.dropWhile (· == '"')).reverse := by
    rw [Filter.bareAlias, String.toList_ofList]
  rw [hbare]
  generalize (name.toList.dropWhile (· == '"')).reverse.dropWhile (· == '"') = kept at hafter hlast
  -- The end of the alias is the front of its reverse.
  have hdropped := congrArg List.reverse hafter
  rw [List.reverse_reverse, List.reverse_append, List.reverse_replicate] at hdropped
  rw [hdropped] at hbefore hhead
  refine ⟨⟨before, after, ?_⟩, fun hquote => hhead ?_, ?_⟩
  · rw [hbefore, List.append_assoc]
  · rw [List.head?_append, hquote]
    rfl
  · rwa [List.getLast?_reverse]

theorem bareAlias_of_not_mem {name : String} (h : '"' ∉ name.toList) :
    Filter.bareAlias name = name := by
  obtain ⟨⟨before, after, hname⟩, -⟩ := bareAlias_eq name
  rw [hname] at h
  have hends : before = 0 ∧ after = 0 := by
    simp only [List.mem_append, List.mem_replicate, and_true, not_or] at h
    omega
  apply String.toList_injective
  rw [hname, hends.1, hends.2]
  simp

/-! ## The text -/

def OwnColumn.prefixed (table : String) (columns : List OwnColumn) : List (String × String) :=
  columns.map fun column => (column.text none, "\"" ++ table ++ "\"." ++ column.text none)

namespace OwnColumn

variable {table : String}

theorem text_some_eq_iff (h : IsPlainName table) (column : OwnColumn) :
    column.text (some table) = "\"" ++ table ++ "\"." ++ column.text none ↔
      ∀ key, column = .field key → IsSimpleName key := by
  cases column with
  | field key =>
      have hcolumn := columnRef_qualifiedKey_eq_iff h key
      simpa [text, scopedKey] using hcolumn
  | searched name =>
      have htext : (searched name).text (some table) =
          "\"" ++ table ++ "\"." ++ (searched name).text none := text_some h (.searched name)
      simp [htext]

theorem texts_eq_prefixed_iff (h : IsPlainName table) (columns : List OwnColumn) :
    texts none (some table) columns = prefixed table columns ↔
      ∀ key, .field key ∈ columns → IsSimpleName key := by
  rw [texts, prefixed, List.map_inj_left]
  simp only [Prod.mk.injEq, true_and, text_some_eq_iff h]
  constructor
  · intro hcolumns key hkey
    exact hcolumns _ hkey key rfl
  · rintro hkeys column hcolumn key rfl
    exact hkeys key hcolumn

end OwnColumn

/-- Qualifying a filter changes the qualifiers of its own columns and nothing else, neither in
its tree nor in what it compiles to. -/
theorem qualify_changes_qualifiers (filter : Filter) (name : String) :
    let table := Filter.bareAlias name
    ((∃ before after, name.toList =
          List.replicate before '"' ++ table.toList ++ List.replicate after '"') ∧
        table.toList.head? ≠ some '"' ∧ table.toList.getLast? ≠ some '"') ∧
      List.Forall₂ (Qualifies table) filter (filter.qualify name) ∧
      ∀ options : CompileOptions,
        ((filter.qualify name).compile options).values = (filter.compile options).values ∧
        (IsPlainName table → (∀ key, .field key ∈ Filter.ownColumns filter → IsPlainName key) →
          Replaced (OwnColumn.prefixed table (Filter.ownColumns filter))
            (filter.compile options).sql ((filter.qualify name).compile options).sql) := by
  intro table
  refine ⟨bareAlias_eq name, Filter.qualifies_qualifyClauses table filter, fun options =>
    ⟨Filter.values_compile_qualify options filter name, fun htable hkeys => ?_⟩⟩
  have hsimple : ∀ key, .field key ∈ Filter.ownColumns filter → IsSimpleName key :=
    fun key hkey => (hkeys key hkey).isSimpleName
  rw [← (OwnColumn.texts_eq_prefixed_iff htable (Filter.ownColumns filter)).mpr hsimple]
  exact Filter.replaced_compile_qualify options filter name

private def namedBooks : Filter :=
  [.field "name" (.range .above (.integer 3) false), .not [.field "id" .isNull],
    .search ⟨[.text "title"], none, "sea", none⟩]

theorem qualify_changes_qualifiers_named_books :
    IsPlainName (Filter.bareAlias "\"ss2\"") ∧
      (∀ key, .field key ∈ Filter.ownColumns namedBooks → IsPlainName key) ∧
      Replaced (OwnColumn.prefixed "ss2" [.field "name", .field "id", .searched "title"])
        (namedBooks.compile (.ofDialect .postgres)).sql
        ((namedBooks.qualify "\"ss2\"").compile (.ofDialect .postgres)).sql := by
  have halias : Filter.bareAlias "\"ss2\"" = "ss2" := by decide
  have htable : IsPlainName (Filter.bareAlias "\"ss2\"") := by decide
  have hcolumns : Filter.ownColumns namedBooks = [.field "name", .field "id", .searched "title"] :=
    by decide
  have hkeys : ∀ key, .field key ∈ Filter.ownColumns namedBooks → IsPlainName key := by
    intro key hkey
    rw [hcolumns] at hkey
    have hplain : IsPlainName "name" ∧ IsPlainName "id" := by decide
    simp only [List.mem_cons, OwnColumn.field.injEq, reduceCtorEq, List.not_mem_nil, or_false]
      at hkey
    rcases hkey with rfl | rfl
    · exact hplain.1
    · exact hplain.2
  have hreplaced := ((qualify_changes_qualifiers namedBooks "\"ss2\"").2.2
    (.ofDialect .postgres)).2 htable hkeys
  rw [halias, hcolumns] at hreplaced
  exact ⟨htable, hkeys, hreplaced⟩

/-- Behind a plain alias, the columns of simple keys are as they were and those of all other keys
are not. -/
theorem qualified_columns_kept_iff (name : String) :
    let table := sanitize name
    (∀ key, columnRef (qualifiedKey table key) = "\"" ++ table ++ "\"." ++ columnRef key ↔
        IsSimpleName key) ∧
      ∀ (filter : Filter) (options : CompileOptions),
        Replaced (OwnColumn.texts none (some table) (Filter.ownColumns filter))
          (filter.compile options).sql ((filter.qualify table).compile options).sql ∧
        (OwnColumn.texts none (some table) (Filter.ownColumns filter) =
            OwnColumn.prefixed table (Filter.ownColumns filter) ↔
          ∀ key, .field key ∈ Filter.ownColumns filter → IsSimpleName key) := by
  intro table
  have htable : IsPlainName table := isPlainName_sanitize name
  have hbare : Filter.bareAlias table = table := bareAlias_of_not_mem (htable.not_mem (by decide))
  refine ⟨columnRef_qualifiedKey_eq_iff htable, fun filter options =>
    ⟨?_, OwnColumn.texts_eq_prefixed_iff htable _⟩⟩
  have hreplaced := Filter.replaced_compile_qualify options filter table
  rwa [hbare] at hreplaced

/-- The underscore in front of a digit is lost behind an alias. -/
theorem not_qualified_columns_kept_digit :
    sanitize "ss2" = "ss2" ∧ columnRef "1x" = "\"_1x\"" ∧
      columnRef (qualifiedKey "ss2" "1x") = "\"ss2\".\"1x\"" ∧
      ¬ ∀ name key, sanitize name ≠ "" →
        columnRef (qualifiedKey (sanitize name) key) =
          "\"" ++ sanitize name ++ "\"." ++ columnRef key := by
  refine ⟨by decide, by decide, by decide, fun hall => ?_⟩
  have hcolumn := hall "ss2" "1x" (by decide)
  revert hcolumn
  decide

end FilterSql
