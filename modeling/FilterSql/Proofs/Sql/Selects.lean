import FilterSql.Proofs.Sql.Terms

/-!
# Full-text searches and sub-selects

The texts that name several tables: what a search looks through, and the tables
and joins of a sub-select.  All names in them are plain ones, so they pass whether
double quotes count or not.
-/

namespace FilterSql.Compile

open Fragment

/-! ## How the texts are put together -/

section Parts

variable {dialect : Dialect} {holds : String → Prop}

theorem searchDocument_induction {search : TextSearch} {table : Option String}
    {isPiece : String → Prop} (htext : ∀ field, isPiece (textPiece table field))
    (hsummary : ∀ {field piece}, summaryPiece? dialect search table field = some piece →
      isPiece piece)
    (hempty : holds "''")
    (hjoin : ∀ {first others}, (∀ piece ∈ first :: others, isPiece piece) →
      holds (String.intercalate " || ' ' || " (first :: others))) :
    holds (searchDocument dialect search table) := by
  have hpieces : ∀ piece ∈ (search.fields.filter SearchField.isText).map (textPiece table) ++
      (search.fields.filter fun field => field.isForeignKey && field.includeSearch).filterMap
        (summaryPiece? dialect search table), isPiece piece := by
    intro piece hpiece
    rcases List.mem_append.mp hpiece with hpiece | hpiece
    · obtain ⟨field, -, rfl⟩ := List.mem_map.mp hpiece
      exact htext field
    · obtain ⟨field, -, hfield⟩ := List.mem_filterMap.mp hpiece
      exact hsummary hfield
  unfold searchDocument
  dsimp only
  generalize (search.fields.filter SearchField.isText).map (textPiece table) ++ _ = pieces
    at hpieces
  cases pieces with
  | nil => exact hempty
  | cons first others => exact hjoin hpieces

/-- Holds of names, and is kept where a chain puts a column or a joined table behind one. -/
structure IsChainPart (schema : String) (holds : String → Prop) : Prop where
  name (name : String) : holds (nameRef name)
  column {previous : String} (name : String) :
    holds previous → holds (previous ++ "." ++ nameRef name)
  id (name : String) : holds (nameRef name ++ ".\"id\"")
  source (level : JoinLevel) (place : Nat) : holds ("from " ++ aliasedTable schema level place)
  join {previous : String} (level : JoinLevel) (place : Nat) :
    holds previous → holds (joinText schema previous level place)

private theorem IsChainPart.joins {schema : String} (h : IsChainPart schema holds)
    {previous : String} (hprevious : holds previous) (place : Nat) {levels : List JoinLevel}
    (hlevels : levels ≠ []) :
    holds (Compile.joins schema previous place levels).column ∧
      ∀ table ∈ (Compile.joins schema previous place levels).tables, holds table := by
  induction levels generalizing previous place with
  | nil => exact absurd rfl hlevels
  | cons level rest ih =>
      have hjoin := h.join level place hprevious
      cases rest with
      | nil =>
          obtain ⟨table, levelKey⟩ := level
          unfold Compile.joins
          cases levelKey with
          | foreign column => exact ⟨h.column column hprevious, by simp⟩
          | inbound column => exact ⟨h.id _, by simpa using hjoin⟩
      | cons second rest =>
          obtain ⟨hcolumn, htables⟩ :=
            ih (h.name (levelAlias level place)) (place + 1) (List.cons_ne_nil _ _)
          rw [Compile.joins]
          · exact ⟨hcolumn, List.forall_mem_cons.mpr ⟨hjoin, htables⟩⟩
          · simp

theorem IsChainPart.chainText {chain : JoinChain}
    (h : IsChainPart (schemaText dialect chain.schema) holds) :
    holds (Compile.chainText dialect chain).column ∧
      ∃ first others, (Compile.chainText dialect chain).tables = first :: others ∧
        ∀ table ∈ first :: others, holds table := by
  obtain ⟨schema, first, levels⟩ := chain
  have hsource := h.source first 0
  cases levels with
  | nil =>
      obtain ⟨table, firstKey⟩ := first
      unfold Compile.chainText
      cases firstKey with
      | foreign column =>
          exact ⟨h.column column (h.name _), _, [], rfl, by simpa using hsource⟩
      | inbound column => exact ⟨h.id _, _, [], rfl, by simpa using hsource⟩
  | cons second rest =>
      unfold Compile.chainText
      obtain ⟨hcolumn, htables⟩ := h.joins (h.name (chainScope ⟨schema, first, second :: rest⟩)) 1
        (List.cons_ne_nil second rest)
      exact ⟨hcolumn, _, _, rfl, List.forall_mem_cons.mpr ⟨hsource, htables⟩⟩

end Parts

section Text

variable {rules : ScanRules}

/-! ## Names of tables and columns -/

@[simp] private theorem scan_id (depth : Nat) (rest : List Char) :
    scan rules (.outside depth) ('"' :: 'i' :: 'd' :: '"' :: rest) =
      scan rules (.outside depth) rest := by
  obtain ⟨paired, tokens⟩ := rules
  cases paired <;> simp only [scan_cons] <;> rfl

@[simp] theorem passes_searchColumn (table : Option String) (name : String) (depth : Nat) :
    Passes rules depth (searchColumn table name).toList := by
  intro rest
  unfold searchColumn
  cases table <;> simp (disch := decide)

@[simp] theorem passes_schemaText (dialect : Dialect) (schema : Option String) (depth : Nat) :
    Passes rules depth (schemaText dialect schema).toList := by
  intro rest
  unfold schemaText
  cases dialect <;> cases schema <;> simp (disch := decide)

/-! ## Searched documents -/

private def IsPiece (rules : ScanRules) (piece : String) : Prop :=
  ∀ rest, scan rules (.outside 0) (piece.toList ++ rest) = scan rules (.outside 0) rest ∧
    scan rules .spaced (piece.toList ++ rest) = scan rules (.outside 0) rest

private theorem isPiece_textPiece (table : Option String) (field : SearchField) :
    IsPiece rules (textPiece table field) := by
  intro rest
  unfold textPiece
  constructor <;> simp (disch := decide)

private theorem isPiece_summaryPiece {dialect : Dialect} {search : TextSearch}
    {table : Option String} {field : SearchField} {piece : String}
    (h : summaryPiece? dialect search table field = some piece) : IsPiece rules piece := by
  unfold summaryPiece? at h
  split at h
  · cases h
    intro rest
    constructor <;> simp (disch := decide)
  · cases h

private theorem isPiece_intercalate {first : String} {others : List String}
    (h : ∀ piece ∈ first :: others, IsPiece rules piece) :
    IsPiece rules (String.intercalate " || ' ' || " (first :: others)) := by
  induction others generalizing first with
  | nil =>
      rw [String.intercalate_singleton]
      exact h first List.mem_cons_self
  | cons second others ih =>
      intro rest
      have hfirst := h first List.mem_cons_self
      have hothers := ih fun piece hpiece => h piece (List.mem_cons_of_mem _ hpiece)
      -- The separator leaves the scan after a blank, where the next piece has to pass too.
      have hseparator : ∀ text : List Char,
          scan rules (.outside 0) (" || ' ' || ".toList ++ text) = scan rules .spaced text := by
        intro text
        simp (disch := decide)
      rw [String.intercalate_cons_cons, String.toList_append, String.toList_append,
        List.append_assoc, List.append_assoc, (hfirst _).1, (hfirst _).2, hseparator]
      exact ⟨(hothers rest).2, (hothers rest).2⟩

variable (rules) in
theorem passes_searchDocument (dialect : Dialect) (search : TextSearch)
    (table : Option String) :
    Passes rules 0 (searchDocument dialect search table).toList := by
  refine @searchDocument_induction dialect (fun text => Passes rules 0 text.toList) search table
    (IsPiece rules) (isPiece_textPiece table) isPiece_summaryPiece (fun rest => ?_)
    fun hpieces rest => (isPiece_intercalate hpieces rest).1
  simp (disch := decide)

private theorem exists_textPiece (table : Option String) (field : SearchField) :
    ∃ after, (textPiece table field).toList = "coalesce(".toList ++ after := by
  unfold textPiece
  simp

private theorem exists_summaryPiece {dialect : Dialect} {search : TextSearch}
    {table : Option String} {field : SearchField} {piece : String}
    (h : summaryPiece? dialect search table field = some piece) :
    ∃ after, piece.toList = "coalesce(".toList ++ after := by
  unfold summaryPiece? at h
  split at h
  · cases h
    simp
  · cases h

theorem exists_searchDocument (dialect : Dialect) (search : TextSearch)
    (table : Option String) :
    searchDocument dialect search table = "''" ∨
      ∃ after, (searchDocument dialect search table).toList = "coalesce(".toList ++ after := by
  refine @searchDocument_induction dialect (fun text => text = "''" ∨ ∃ after, text.toList =
    "coalesce(".toList ++ after) search table _ (exists_textPiece table) exists_summaryPiece
    (.inl rfl) fun {first others} hpieces => ?_
  obtain ⟨after, hafter⟩ := hpieces first List.mem_cons_self
  obtain ⟨later, hlater⟩ := exists_intercalate_cons " || ' ' || ".toList
    ("coalesce(".toList ++ after) (others.map String.toList)
  rw [String.toList_intercalate, List.map_cons, hafter]
  exact .inr ⟨after ++ later, by rw [hlater, List.append_assoc]⟩

/-! ## Tables of sub-selects -/

theorem passes_selectText (select : SubSelect) : Passes rules 1 (selectText select).toList := by
  intro rest
  obtain ⟨table, field, tenant, through, valueField⟩ := select
  unfold selectText
  cases tenant <;> cases through <;> cases valueField <;> simp (disch := decide)

variable (rules) in
private theorem passes_aliasedTable (dialect : Dialect) (schema : Option String)
    (level : JoinLevel) (place : Nat) :
    Passes rules 1 (aliasedTable (schemaText dialect schema) level place).toList := by
  intro rest
  unfold aliasedTable
  simp (disch := decide)

variable (rules) in
private theorem isChainPart_passes (dialect : Dialect) (schema : Option String) :
    IsChainPart (schemaText dialect schema) fun text => Passes rules 1 text.toList where
  name name := passes_nameRef name 1
  column name hprevious rest := by simp (disch := decide) [hprevious]
  id name rest := by simp (disch := decide)
  source level place rest := by
    simp (disch := decide) [passes_aliasedTable rules dialect schema level place]
  join level place hprevious rest := by
    have htable := passes_aliasedTable rules dialect schema level place
    obtain ⟨table, levelKey⟩ := level
    unfold joinText
    cases levelKey <;> simp (disch := decide) [htable, hprevious]

private theorem passes_tables {tables : List String}
    (h : ∀ table ∈ tables, Passes rules 1 table.toList) :
    Passes rules 1 (String.intercalate " " tables).toList := by
  rw [String.toList_intercalate]
  refine intercalate_induction (Passes rules 1) (fun _ => rfl) Passes.append (scan_blank 0)
    fun text htext => ?_
  obtain ⟨table, htable, rfl⟩ := List.mem_map.mp htext
  exact h table htable

theorem passes_chainSelectText (dialect : Dialect) (chain : JoinChain) :
    Passes rules 1 (chainSelectText dialect chain).toList := by
  intro rest
  obtain ⟨hcolumn, first, others, htables, hpasses⟩ :=
    (isChainPart_passes rules dialect chain.schema).chainText
  have hjoined := passes_tables hpasses
  unfold chainSelectText
  dsimp only
  rw [htables]
  generalize String.intercalate " " (first :: others) = tables at hjoined
  simp (disch := decide) [hcolumn, hjoined]

end Text

section Fragments

variable {paired : Bool} {key : String}

/-! ## Conditions that name tables -/

theorem phrase_textSearch (options : CompileOptions) (scope : Option String)
    (search : TextSearch) : IsPhrase paired (textSearch options scope search) := by
  have hdocument := fun dialect table =>
    passes_searchDocument (.pieces paired) dialect search table
  unfold IsPhrase textSearch
  cases options.dialect with
  | sqlite => simp (disch := decide) [hole, text, hdocument]
  | postgres =>
      have hnested := fun dialect table => (hdocument dialect table).nest
      by_cases hword : isSingleWord search.term <;>
        simp (disch := decide) [hole, text, hnested, hword]

theorem phrase_membership (h : AdmitsName paired key) {select : String}
    (hselect : Passes (.pieces paired) 1 select.toList) {parts : List Fragment}
    (hparts : ∀ part ∈ parts, IsBalanced paired part) :
    IsPhrase paired (membership key select parts) := by
  have hopen : Fragment.scan paired (.outside 0) (text (columnRef key ++ " in (" ++ select)) =
      some (.outside 1) := by
    have hend := hselect []
    rw [List.append_nil, scan_nil] at hend
    simp (disch := decide) [text, passes_columnRef h, hend]
  have hfilter : Fragment.scan paired (.outside 1)
      (if parts.isEmpty then [] else text " where " ++ conjunction parts) =
      some (.outside 1) := by
    by_cases hempty : parts.isEmpty
    · rw [if_pos hempty]
      rfl
    · have hwhere : Fragment.scan paired (.outside 1) (text " where ") = some (.outside 1) := by
        simp (disch := decide) [text]
      rw [if_neg hempty, Fragment.scan_append, hwhere]
      exact balanced_conjunction hparts 0
  have hclose : Fragment.scan paired (.outside 1) (text ")") = some (.outside 0) := rfl
  simp only [IsPhrase, membership, Fragment.scan_append, hopen, hfilter, Option.bind_some]
  exact hclose

/-! ## Connectives -/

private theorem phrase_of_isBlank {fragment : Fragment} (h : fragment.isBlank) :
    IsPhrase paired fragment := by
  rw [eq_replicate_of_isBlank h]
  induction fragment.length with
  | zero => rfl
  | succ count ih => exact ih

theorem phrase_disjunction {parts : List Fragment}
    (h : ∀ part ∈ parts, IsBalanced paired part) : IsPhrase paired (disjunction parts) := by
  unfold disjunction parens
  split
  · next hblank => exact phrase_of_isBlank hblank
  · refine (isBalanced_join (fun depth => ?_) h).phrase_brackets
    simp (disch := decide) [text]

theorem phrase_negation {part : Fragment} (h : IsBalanced paired part) :
    IsPhrase paired (negation part) := by
  have hopen : Fragment.scan paired (.outside 0) (text "not (") = some (.outside 1) := by
    simp (disch := decide) [text]
  have hclose : Fragment.scan paired (.outside 1) (text ")") = some (.outside 0) := rfl
  simp only [IsPhrase, negation, Fragment.scan_append, hopen, h 0, Option.bind_some]
  exact hclose

end Fragments

end FilterSql.Compile
