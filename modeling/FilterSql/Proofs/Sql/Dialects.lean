import FilterSql.Proofs.Sql.Layout
import FilterSql.Sqlite

/-!
# The same values in both dialects

A filter binds the same values in the same order whatever the dialect, except that
Postgres looks for words that begin with the term of a search, if it is a single
word.  For SQLite no setting but the dialect counts.
-/

namespace FilterSql

/-! ## Payloads -/

namespace Payload

theorem bound_postgres_of_not_mem {text : String} (h : ' ' ∉ text.toList) :
    bound .postgres (.term text) = .string (text ++ ":*") := by
  simp [bound, Compile.isSingleWord, h]

theorem bound_postgres_of_mem {text : String} (h : ' ' ∈ text.toList) :
    bound .postgres (.term text) = bound .sqlite (.term text) := by
  simp [bound, Compile.isSingleWord, h]

end Payload

/-! ## Settings of SQLite -/

theorem CompileOptions.agrees_sqlite (first second : CompileOptions) :
    (first.withDialect .sqlite).Agrees (second.withDialect .sqlite) :=
  ⟨rfl, nofun⟩

private theorem compile_sqlite (first second : CompileOptions) (filter : Filter) :
    filter.compile (first.withDialect .sqlite) = filter.compile (second.withDialect .sqlite) := by
  have hsql : (filter.compile (first.withDialect .sqlite)).sql =
      (filter.compile (second.withDialect .sqlite)).sql := by
    rw [Filter.sql_compile, Filter.sql_compile,
      Filter.layout_fragment_congr (first.agrees_sqlite second) filter]
    split
    · rfl
    · exact congrArg ("WHERE " ++ ·) (Fragment.fill_sqlite _ _ _)
  have hvalues : (filter.compile (first.withDialect .sqlite)).values =
      (filter.compile (second.withDialect .sqlite)).values := by
    rw [Filter.values_compile, Filter.values_compile]
    rfl
  rw [WhereClause.mk.injEq, hsql, hvalues]
  exact ⟨rfl, rfl⟩

/-! ## Both dialects -/

/-- SQLite and Postgres bind alike but for single words that are searched, and what SQLite is
given depends on the filter alone. -/
theorem dialects_bind_alike (filter : Filter) (options other : CompileOptions) :
    let sqlite := filter.compile (options.withDialect .sqlite)
    let postgres := filter.compile (other.withDialect .postgres)
    sqlite.values.length = postgres.values.length ∧
      (∀ (place : Nat) (text : String), (Filter.payloads filter)[place]? = some (.term text) →
        ' ' ∉ text.toList →
          sqlite.values[place]? = some (.string text) ∧
            postgres.values[place]? = some (.string (text ++ ":*"))) ∧
      (∀ place : Nat, (∀ text, (Filter.payloads filter)[place]? = some (.term text) →
        ' ' ∈ text.toList) → sqlite.values[place]? = postgres.values[place]?) ∧
      sqlite = filter.compile (other.withDialect .sqlite) ∧
      Sqlite.Query.compile options (some filter) = Sqlite.Query.compile other (some filter) := by
  intro sqlite postgres
  have hsqlite : sqlite.values = (Filter.payloads filter).map (Payload.bound .sqlite) :=
    Filter.values_compile _ filter
  have hpostgres : postgres.values = (Filter.payloads filter).map (Payload.bound .postgres) :=
    Filter.values_compile _ filter
  have hsettings : sqlite = filter.compile (other.withDialect .sqlite) :=
    compile_sqlite options other filter
  refine ⟨?_, ?_, ?_, hsettings, congrArg Sqlite.Query.ofClause hsettings⟩
  · rw [hsqlite, hpostgres, List.length_map, List.length_map]
  · intro place text hplace hword
    rw [hsqlite, hpostgres, List.getElem?_map, List.getElem?_map, hplace, Option.map_some,
      Option.map_some, Payload.bound_postgres_of_not_mem hword]
    exact ⟨rfl, rfl⟩
  · intro place hterms
    rw [hsqlite, hpostgres, List.getElem?_map, List.getElem?_map]
    cases hplace : (Filter.payloads filter)[place]? with
    | none => rfl
    | some payload =>
        cases payload with
        | value content => rfl
        | term text =>
            rw [Option.map_some, Option.map_some,
              Payload.bound_postgres_of_mem (hterms text hplace)]

theorem dialects_bind_alike_searches :
    let filter : Filter := [.search ⟨[.text "title"], none, "rust", none⟩,
      .search ⟨[.text "title"], none, "rust book", none⟩, .field "title" (.slug "rust")]
    (filter.compile .sqlite).values[0]? = some (.string "rust") ∧
      (filter.compile .postgres).values[0]? = some (.string "rust:*") ∧
      (filter.compile .sqlite).values[1]? = (filter.compile .postgres).values[1]? ∧
      (filter.compile .sqlite).values[2]? = (filter.compile .postgres).values[2]? := by
  intro filter
  obtain ⟨-, hwords, hothers, -⟩ := dialects_bind_alike filter .sqlite .postgres
  obtain ⟨hsqlite, hpostgres⟩ := hwords 0 "rust" rfl (by decide)
  refine ⟨hsqlite, hpostgres, hothers 1 ?_, hothers 2 ?_⟩
  · intro text htext
    cases htext
    decide
  · intro text htext
    cases htext

end FilterSql
