import FilterSql.Proofs.Sql.Confinement
import FilterSql.Proofs.Sql.Placeholders

/-!
# Names in double quotes

Dotted names keep their double quotes, so that names may come quoted already.  The
price is that a name with an odd number of them leaves an identifier open in the
text after it.  Names whose double quotes are paired keep all tokens and
connectives outside of identifiers.
-/

namespace FilterSql

/-! ## Lexers -/

/-- What a lexer is in, when double quotes make identifiers. -/
inductive LexState where
  | code
  | literal
  | identifier
  deriving DecidableEq, Repr

namespace LexState

def next : LexState → Char → LexState
  | .code, c => if c = '\'' then .literal else if c = '"' then .identifier else .code
  | .literal, c => if c = '\'' then .code else .literal
  | .identifier, c => if c = '"' then .code else .identifier

def marks (mark : Char) : LexState → List Char → Nat
  | _, [] => 0
  | state, c :: rest =>
    (if state = .code ∧ c = mark then 1 else 0) + marks mark (state.next c) rest

end LexState

/-- The text up to here opens no identifier that it does not close. -/
def ClosesIdentifiers (before : List Char) : Prop :=
  Even (afterMarks '"' false before).length

instance (before : List Char) : Decidable (ClosesIdentifiers before) :=
  inferInstanceAs (Decidable (Even _))

def BeginsCode (after : List Char) : Prop :=
  after.head? = some '?' ∨ after.head? = some '$' ∨
    " and ".toList <+: after ∨ " or ".toList <+: after

/-- Tokens and connectives stand outside identifiers, and a lexer finds all the tokens. -/
structure SparesCode (dialect : Dialect) (compiled : WhereClause) : Prop where
  closed {before after : List Char} : compiled.sql.toList = before ++ after →
    IsOutside before → BeginsCode after → ClosesIdentifiers before
  marks : LexState.marks dialect.mark .code compiled.sql.toList = compiled.values.length

/-! ## Identifiers of a scan -/

namespace Place

def lexState : Place → LexState
  | .literal _ => .literal
  | .identifier _ => .identifier
  | _ => .code

variable {rules : ScanRules} {place next : Place} {c : Char}

theorem isLiteral_eq (place : Place) : place.isLiteral = decide (place.lexState = .literal) := by
  cases place <;> rfl

private theorem lexState_of_enter_glyph (hpaired : rules.paired) {depth : Nat} {glyph : Glyph}
    (h : enter rules depth glyph = some next) :
    next.lexState = if glyph = .quote then .literal
      else if glyph = .doubleQuote then .identifier else .code := by
  cases glyph with
  | closing =>
      cases depth <;> cases h
      rfl
  | doubleQuote =>
      rw [enter, if_pos hpaired] at h
      cases h
      rfl
  | blank =>
      cases h
      split <;> rfl
  | token =>
      simp only [enter] at h
      split at h <;> cases h
      rfl
  | quote | opening | hyphen | word =>
      cases h
      rfl
  | other => cases h

private theorem lexState_of_enter (hpaired : rules.paired) {depth : Nat}
    (h : enter rules depth (.ofChar c) = some next) :
    next.lexState = LexState.next .code c := by
  simp only [lexState_of_enter_glyph hpaired h, Glyph.ofChar_eq_quote,
    Glyph.ofChar_eq_doubleQuote, LexState.next]

theorem lexState_of_step (hpaired : rules.paired) (h : place.step rules c = some next) :
    next.lexState = place.lexState.next c := by
  cases isStep_of_step h with
  | outside henter => exact lexState_of_enter hpaired henter
  | spaced _ henter => exact lexState_of_enter hpaired henter
  | arrow hc =>
      subst hc
      rfl
  | unquote hquote =>
      subst hquote
      rfl
  | literal hquote => simp [lexState, LexState.next, hquote]
  | unname hquote =>
      subst hquote
      rfl
  | name hquote => simp [lexState, LexState.next, hquote]

theorem lexState_ne_identifier (h : place.step rules c = some next) (hquote : c ≠ '"')
    (hc : ¬ Identifier.isDotted c) : place.lexState ≠ .identifier := by
  intro hplace
  cases isStep_of_step h with
  | unname hdouble => exact hquote hdouble
  | name _ hdotted => exact hc hdotted
  | outside | spaced | arrow | unquote | literal => cases hplace

end Place

section Scan

variable {rules : ScanRules} {place last : Place} {text : List Char}

/-- Double quotes outside literals tell whether a scan is in an identifier. -/
private theorem even_doubleQuotes (hpaired : rules.paired) (h : scan rules place text = some last) :
    Even (afterMarks '"' place.isLiteral text).length ↔
      (last.lexState = .identifier ↔ place.lexState = .identifier) := by
  induction text generalizing place with
  | nil =>
      cases h
      simp [afterMarks]
  | cons c rest ih =>
      obtain ⟨next, hstep, hrest⟩ := scan_cons_eq_some_iff.mp h
      have hnext := Place.lexState_of_step hpaired hstep
      have hquote : c = '\'' → place.lexState ≠ .identifier := by
        rintro rfl
        exact Place.lexState_ne_identifier hstep (by decide) (by decide)
      have hlater := ih hrest
      rw [Place.isLiteral_eq] at hlater ⊢
      rw [hnext] at hlater
      rw [afterMarks]
      -- In an identifier no single quote stands, so both sides agree on what is a literal.
      cases hplace : place.lexState with
      | code =>
          by_cases hsingle : c = '\'' <;> by_cases hdouble : c = '"' <;>
            simp_all [LexState.next, Nat.even_add_one]
      | literal =>
          by_cases hsingle : c = '\'' <;> simp_all [LexState.next]
      | identifier =>
          have hsingle : c ≠ '\'' := fun hc => hquote hc hplace
          by_cases hdouble : c = '"' <;> simp_all [LexState.next, Nat.even_add_one]

private theorem marks_eq_length (hpaired : rules.paired) {mark : Char}
    (hmark : Glyph.ofChar mark = .token) (h : scan rules place text = some last) :
    LexState.marks mark place.lexState text =
      (afterMarks mark place.isLiteral text).length := by
  have hne (d : Char) (hd : Glyph.ofChar d ≠ .token) : mark ≠ d := by
    rintro rfl
    exact hd hmark
  induction text generalizing place with
  | nil => rfl
  | cons c rest ih =>
      obtain ⟨next, hstep, hrest⟩ := scan_cons_eq_some_iff.mp h
      have hlater := ih hrest
      have hnext := Place.lexState_of_step hpaired hstep
      have hhere : c = mark → place.lexState ≠ .identifier := by
        rintro rfl
        refine Place.lexState_ne_identifier hstep (hne '"' (by decide)) fun hdotted => ?_
        rw [ofChar_of_isDotted hdotted (hne '"' (by decide))] at hmark
        cases hmark
      have hsingle := hne '\'' (by decide)
      have hdouble := hne '"' (by decide)
      rw [Place.isLiteral_eq, hnext] at hlater
      rw [LexState.marks, afterMarks, hlater, Place.isLiteral_eq]
      cases hplace : place.lexState with
      | code =>
          by_cases hquote : c = '\''
          · simp [LexState.next, hquote, hsingle.symm]
          · by_cases hc : c = mark
            · simp [LexState.next, hc, hsingle, hdouble, Nat.add_comm]
            · by_cases hopen : c = '"' <;>
                simp [LexState.next, hc, hquote, hopen, hdouble.symm]
      | literal => by_cases hquote : c = '\'' <;> simp [LexState.next, hquote]
      | identifier =>
          have hc : c ≠ mark := fun hc => hhere hc hplace
          have hquote : c ≠ '\'' := by
            rintro rfl
            exact Place.lexState_ne_identifier hstep (by decide) (by decide) hplace
          by_cases hclose : c = '"' <;>
            simp [LexState.next, hc, hquote, hclose, hdouble.symm]

private theorem closesIdentifiers_of_scan (hpaired : rules.paired) {before after : List Char}
    (h : scan rules (.outside 1) (before ++ after) = some last) (hbegins : BeginsCode after) :
    ClosesIdentifiers before := by
  obtain ⟨c, rest, rfl, hc⟩ : ∃ c rest, after = c :: rest ∧ (c = '?' ∨ c = '$' ∨ c = ' ') := by
    cases after with
    | nil => simp [BeginsCode] at hbegins
    | cons c rest =>
        refine ⟨c, rest, rfl, ?_⟩
        simp only [BeginsCode, List.head?_cons, Option.some.injEq] at hbegins
        rcases hbegins with hc | hc | hc | hc
        · exact .inl hc
        · exact .inr (.inl hc)
        · obtain ⟨after, hafter⟩ := hc
          simp at hafter
          exact .inr (.inr hafter.1.symm)
        · obtain ⟨after, hafter⟩ := hc
          simp at hafter
          exact .inr (.inr hafter.1.symm)
  obtain ⟨here, next, hbefore, hstep, -⟩ := exists_step_of_scan h
  have hhere : here.lexState ≠ .identifier := by
    apply Place.lexState_ne_identifier hstep
    · rcases hc with rfl | rfl | rfl <;> decide
    · rcases hc with rfl | rfl | rfl <;> decide
  exact (even_doubleQuotes hpaired hbefore).mpr (iff_of_false hhere (by decide))

end Scan

/-! ## Compiled filters -/

theorem length_afterMarks_compile (options : CompileOptions) (filter : Filter) :
    (afterMarks options.dialect.mark false (filter.compile options).sql.toList).length =
      (filter.compile options).values.length := by
  by_cases hempty : filter.isEmpty
  · rw [Filter.compile_eq_render, if_pos hempty]
    rfl
  · have hbalanced : Fragment.IsBalanced false (filter.fragment options) :=
      Compile.isKept_balanced.fragment filter fun name _ => admitsName_false name
    have hwhere : scan (.pieces false) (.outside 1) "WHERE ".toList = some (.outside 1) := by
      simp (disch := decide)
    have hvalues : (filter.compile options).values = (filter.fragment options).values := by
      rw [Filter.compile_eq_render, if_neg hempty]
      exact Fragment.bound_values _ options.bindings
    have hlength := Fragment.length_afterMarks_chars (hbalanced 0) options.bindings
    rw [hvalues, ← hlength, Filter.compile_eq_render, if_neg hempty]
    dsimp only
    rw [String.toList_append]
    exact congrArg List.length (afterMarks_of_scan options.dialect.ofChar_mark hwhere _)

theorem sparesCode_of_paired (options : CompileOptions) {filter : Filter}
    (h : ∀ name ∈ Filter.names filter, HasPairedQuotes name) :
    SparesCode options.dialect (filter.compile options) := by
  have hscan : scan (.rendered true) (.outside 1) (filter.compile options).sql.toList =
      some (.outside 1) := scan_compile fun name hname _ => h name hname
  constructor
  · intro before after htext _ hbegins
    rw [htext] at hscan
    exact closesIdentifiers_of_scan rfl hscan hbegins
  · have hmarks := marks_eq_length rfl options.dialect.ofChar_mark hscan
    exact hmarks.trans (length_afterMarks_compile options filter)

/-! ### Names that do break out -/

private theorem length_afterMarks_of_not_mem {mark : Char} {text : List Char}
    (h : '\'' ∉ text) : (afterMarks mark false text).length = text.count mark := by
  induction text with
  | nil => rfl
  | cons c rest ih =>
      rw [List.mem_cons, not_or] at h
      have hrest := ih h.2
      rw [afterMarks, if_neg (Ne.symm h.1)]
      by_cases hc : c = mark <;> simp [hc, hrest]

private theorem beginsCode_literal (bindings : Bindings) (value : Value) :
    BeginsCode ((Compile.literal bindings.dialect value).chars bindings) := by
  obtain ⟨after, hafter⟩ : ∃ after, Compile.literal bindings.dialect value =
      .hole value :: after := by
    unfold Compile.literal
    split
    · exact ⟨_, rfl⟩
    · exact ⟨_, rfl⟩
  rw [hafter, Fragment.chars_hole_cons]
  cases bindings.dialect with
  | sqlite =>
      rw [Bindings.toList_token_sqlite]
      exact .inl rfl
  | postgres =>
      rw [Bindings.toList_token_postgres]
      exact .inr (.inl rfl)

private theorem toList_compile_equals (options : CompileOptions) (key : String) (value : Value) :
    (Filter.compile options [.field key (.equals (.literal value))]).sql.toList =
      ("WHERE " ++ columnRef key ++ "=").toList ++
        (Compile.literal options.dialect value).chars options.bindings := by
  have hfragment : Filter.fragment options [.field key (.equals (.literal value))] =
      .text (columnRef key ++ "=") :: Compile.literal options.dialect value :=
    Fragment.join_singleton " and " _
  have hchars := Fragment.chars_text_cons (columnRef key ++ "=")
    (Compile.literal options.dialect value) options.bindings
  rw [← hfragment] at hchars
  calc
    (Filter.compile options [.field key (.equals (.literal value))]).sql.toList =
        "WHERE ".toList ++ (Filter.fragment options
          [.field key (.equals (.literal value))]).chars options.bindings := by
      rw [Filter.sql_compile_of_ne_nil options (List.cons_ne_nil _ _)]
      exact String.toList_append
    _ = _ := by rw [hchars, ← List.append_assoc, ← String.toList_append, String.append_assoc]

private theorem paired_of_sparesCode {options : CompileOptions} {key : String} {value : Value}
    (h : SparesCode options.dialect
      (Filter.compile options [.field key (.equals (.literal value))])) :
    HasPairedQuotes key := by
  have htext := toList_compile_equals options key value
  have hbegins := beginsCode_literal options.bindings value
  have hquote : '\'' ∉ ("WHERE " ++ columnRef key ++ "=").toList := by
    have hcolumn : '\'' ∉ (columnRef key).toList := fun hmem => by
      cases isDotted_of_mem_columnRef key _ hmem
    simp [hcolumn]
  have houtside : IsOutside ("WHERE " ++ columnRef key ++ "=").toList := by
    rw [IsOutside, List.count_eq_zero.mpr hquote]
    exact Even.zero
  have hclosed := h.closed htext houtside hbegins
  rw [ClosesIdentifiers, length_afterMarks_of_not_mem hquote] at hclosed
  rw [HasPairedQuotes, ← even_count_columnRef]
  simpa [List.count_cons] using hclosed

/-- Tokens and connectives keep out of identifiers where all double quotes are paired, and
only there: one key whose double quotes are not is enough to take a token in. -/
theorem sparesCode_compile :
    (∀ (options : CompileOptions) (filter : Filter),
      (∀ name ∈ Filter.names filter, HasPairedQuotes name) →
        SparesCode options.dialect (filter.compile options)) ∧
    ∀ (options : CompileOptions) (key : String) (value : Value),
      SparesCode options.dialect
        (Filter.compile options [.field key (.equals (.literal value))]) ↔
        HasPairedQuotes key := by
  refine ⟨fun options filter h => sparesCode_of_paired options h, fun options key value => ?_⟩
  refine ⟨paired_of_sparesCode, fun hkey => sparesCode_of_paired options fun name hname => ?_⟩
  simp only [Filter.names, Clause.names, Condition.names, Operand.names, List.append_nil,
    List.mem_singleton] at hname
  rwa [hname]

theorem sparesCode_compile_quoted_names :
    SparesCode .postgres (Filter.compile (.ofDialect .postgres)
      [.or [[.field "\"t\".name" (.equals (.literal (.string "x")))], [.field "\"id\"" .isNull]],
        .compare (.column "a.\"b\"") (.literal (.boolean true))]) :=
  sparesCode_compile.1 (.ofDialect .postgres) _ (by decide)

/-- Two keys with one double quote each take the token between them into an identifier. -/
theorem not_sparesCode_two_keys :
    ¬ SparesCode .sqlite (Filter.compile (.ofDialect .sqlite)
      [.field "a\"" (.equals (.literal (.integer 1))),
        .field "b\"" (.equals (.literal (.integer 2)))]) := by
  intro h
  have htext : (Filter.compile (.ofDialect .sqlite)
      [.field "a\"" (.equals (.literal (.integer 1))),
        .field "b\"" (.equals (.literal (.integer 2)))]).sql.toList =
      "WHERE a\"=".toList ++ "? and b\"=?".toList := by decide +kernel
  have hclosed : ClosesIdentifiers "WHERE a\"=".toList :=
    h.closed htext (by decide) (.inl (by decide))
  have hodd : ¬ ClosesIdentifiers "WHERE a\"=".toList := by decide
  exact hodd hclosed

end FilterSql
