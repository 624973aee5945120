import FilterSql.Proofs.Double.Finite
import FilterSql.Proofs.Filter.Readings
import FilterSql.Proofs.Sql.Identifiers
import FilterSql.Proofs.Sql.OwnColumns
import FilterSql.Sqlite

/-!
# Binding filters that were read

A double that is not finite is the only value that SQLite cannot bind, and no JSON
number is one.  Reading takes its values from JSON, a whole number that is too large
becomes the nearest double, and qualifying a filter leaves its values as they are.
-/

namespace FilterSql

namespace Sqlite

/-! ## Values -/

def IsBindable (value : Value) : Prop :=
  ∃ parameter, Parameter.ofValue value = .ok parameter

theorem isBindable_float {x : Double} (h : x.isFinite) : IsBindable (.float x) :=
  ⟨.real x, if_pos h⟩

theorem isBindable_ofInt {n : Int} (h : Json.HasJsonNumbers (.integer n)) :
    IsBindable (.ofInt n) := by
  unfold Value.ofInt
  split
  · exact ⟨_, rfl⟩
  · exact isBindable_float (Double.isFinite_ofInt h.natAbs_lt)

theorem isBindable_ofJson {json : Json} (h : json.HasJsonNumbers) : IsBindable (.ofJson json) := by
  cases h with
  | integer hlow hhigh => exact isBindable_ofInt (.integer hlow hhigh)
  | float hfinite => exact isBindable_float hfinite
  | null | bool | string | array | object => exact ⟨_, rfl⟩

theorem isBindable_of_isRead {part : Part} (h : part.IsRead Json.HasJsonNumbers) :
    ∀ value ∈ part.bound .sqlite, IsBindable value := by
  intro value hvalue
  obtain ⟨payload, hpayload, rfl⟩ := List.mem_map.mp hvalue
  obtain ⟨text, rfl⟩ | ⟨text, rfl⟩ | ⟨json, hjson, rfl⟩ := h.origin payload hpayload
  · exact ⟨.text text, rfl⟩
  · exact ⟨.text text, rfl⟩
  · exact isBindable_ofJson hjson

/-! ## Filters -/

theorem values_compile_qualifyAll (options : CompileOptions) (filter : Filter)
    (aliases : List String) :
    ((aliases.foldl Filter.qualify filter).compile options).values =
      (filter.compile options).values := by
  induction aliases generalizing filter with
  | nil => rfl
  | cons name rest ih =>
      rw [List.foldl_cons, ih]
      exact Filter.values_compile_qualify options filter name

/-- A filter that was read from JSON is bound, behind whatever aliases it is put: every value has
its parameter, and every parameter its `?`. -/
theorem exists_query_of_ofJson {strictness : Strictness} {value : Json} {filter : Filter}
    (hnumbers : value.HasJsonNumbers) (h : Filter.ofJson strictness value = .ok filter)
    (aliases : List String) (options : CompileOptions) :
    let qualified := aliases.foldl Filter.qualify filter
    let compiled := qualified.compile (options.withDialect .sqlite)
    ∃ parameters,
      Query.compile options (some qualified) = .ok ⟨compiled.sql, parameters⟩ ∧
        List.Forall₂ (fun value parameter => Parameter.ofValue value = .ok parameter)
          compiled.values parameters ∧
        parameters.length = (afterMarks '?' false compiled.sql.toList).length := by
  intro qualified compiled
  have hbindable : ∀ value ∈ compiled.values, IsBindable value := by
    intro value hvalue
    rw [values_compile_qualifyAll, Filter.values_compile_eq_flatMap, List.mem_flatMap] at hvalue
    obtain ⟨part, hpart, hvalue⟩ := hvalue
    have hread := isRead_of_ofJson Json.isHereditary_hasJsonNumbers hnumbers h part hpart
    exact isBindable_of_isRead hread value hvalue
  obtain ⟨parameters, hparameters⟩ := Gives.exists_mapM hbindable
  have hplaces := Gives.mapM_eq_ok_iff.mp hparameters
  refine ⟨parameters, ?_, hplaces, ?_⟩
  · rw [Query.compile, Query.ofClause]
    change (compiled.values.mapM Parameter.ofValue >>= _) = _
    rw [hparameters]
    rfl
  · rw [← hplaces.length_eq]
    exact (length_afterMarks_compile (options.withDialect .sqlite) qualified).symm

/-- The greatest whole number is bound as a double.  It stands in a list of alternatives, behind
two aliases. -/
theorem exists_query_of_ofJson_greatest :
    let greatest : Int := 18446744073709551615
    let filter : Filter :=
      [.field "a" (.anyOf [.isNull, .equals (.literal (.float (.ofInt greatest)))]),
        .field "b" (.oneOf (.array [.integer (-1), .null]))]
    let qualified := ["t", "u"].foldl Filter.qualify filter
    Filter.ofJson .lenient (.object
        [("a", .object [("or", .array [.null, .integer greatest])]),
          ("b", .object [("in", .array [.integer (-1), .null])])]) = .ok filter ∧
      ∃ first second : Parameter,
        Query.compile .postgres (some qualified) =
            .ok ⟨(qualified.compile .sqlite).sql, [first, second]⟩ ∧
          Parameter.ofValue (.float (.ofInt greatest)) = .ok first ∧
          Parameter.ofValue (.array [.integer (-1), .null]) = .ok second := by
  intro greatest filter qualified
  have hvalue : Value.ofInt greatest = .float (.ofInt greatest) := if_neg (by decide)
  have hread : Filter.ofJson .lenient (.object
      [("a", .object [("or", .array [.null, .integer greatest])]),
        ("b", .object [("in", .array [.integer (-1), .null])])]) = .ok filter := by
    unfold filter
    rw [← hvalue]
    rfl
  have hnumbers : (Json.object
      [("a", .object [("or", .array [.null, .integer greatest])]),
        ("b", .object [("in", .array [.integer (-1), .null])])]).HasJsonNumbers := by
    refine .object (List.forall_mem_cons.mpr
      ⟨.object ?_, List.forall_mem_singleton.mpr (.object ?_)⟩)
    · refine List.forall_mem_singleton.mpr (.array (List.forall_mem_cons.mpr ⟨.null, ?_⟩))
      exact List.forall_mem_singleton.mpr (.integer (by decide) (by decide))
    · refine List.forall_mem_singleton.mpr (.array (List.forall_mem_cons.mpr ⟨?_, ?_⟩))
      · exact .integer (by decide) (by decide)
      · exact List.forall_mem_singleton.mpr .null
  obtain ⟨parameters, hquery, hplaces, -⟩ :=
    exists_query_of_ofJson hnumbers hread ["t", "u"] .postgres
  have hvalues : (qualified.compile .sqlite).values =
      [.float (.ofInt greatest), .array [.integer (-1), .null]] := by
    unfold qualified
    rw [values_compile_qualifyAll]
    rfl
  have hplaces : List.Forall₂ (fun value parameter => Parameter.ofValue value = .ok parameter)
      [.float (.ofInt greatest), .array [.integer (-1), .null]] parameters := hvalues ▸ hplaces
  obtain ⟨first, others, hfirst, hothers, rfl⟩ := List.forall₂_cons_left_iff.mp hplaces
  obtain ⟨second, rest, hsecond, hnone, rfl⟩ := List.forall₂_cons_left_iff.mp hothers
  cases hnone
  exact ⟨hread, first, second, hquery, hfirst, hsecond⟩

end Sqlite

end FilterSql
