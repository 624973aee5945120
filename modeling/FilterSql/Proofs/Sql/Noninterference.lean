import FilterSql.Proofs.Sql.Layout

/-!
# Bound values never influence the text

Two filters of one form differ in nothing but what they bind.  They compile to the
same text, byte for byte, and to as many values; a value can only be another where
the payloads of the two filters are.
-/

namespace FilterSql

variable (options : CompileOptions) {first second : Filter}

private theorem sql_compile_of_form_eq (h : Filter.form first = Filter.form second) :
    (first.compile options).sql = (second.compile options).sql := by
  have hempty : first = [] ↔ second = [] := by
    rw [← Filter.form_eq_nil, h, Filter.form_eq_nil]
  rw [Filter.sql_compile, Filter.sql_compile, Filter.layout_fragment_of_form_eq options h]
  simp only [hempty]

private theorem length_payloads_of_form_eq (h : Filter.form first = Filter.form second) :
    (Filter.payloads first).length = (Filter.payloads second).length := by
  -- Both sides count the open places of the layout that the two filters share.
  have hlength (filter : Filter) : (Filter.payloads filter).length =
      (filter.fragment .default).layout.count none := by
    rw [← Fragment.length_values, Filter.values_fragment, List.length_map]
  rw [hlength first, hlength second, Filter.layout_fragment_of_form_eq .default h]

/-- Filters of one form compile to one text, and to values that are the same wherever their
payloads are. -/
theorem compile_of_form_eq (h : Filter.form first = Filter.form second) :
    (first.compile options).sql = (second.compile options).sql ∧
      (first.compile options).values.length = (second.compile options).values.length ∧
      (first.compile options).values =
        (Filter.payloads first).map (Payload.bound options.dialect) ∧
      (second.compile options).values =
        (Filter.payloads second).map (Payload.bound options.dialect) ∧
      ∀ place : Nat, (first.compile options).values[place]? ≠ (second.compile options).values[place]? →
        (Filter.payloads first)[place]? ≠ (Filter.payloads second)[place]? := by
  have hfirst := Filter.values_compile options first
  have hsecond := Filter.values_compile options second
  refine ⟨sql_compile_of_form_eq options h, ?_, hfirst, hsecond, ?_⟩
  · rw [hfirst, hsecond, List.length_map, List.length_map,
      length_payloads_of_form_eq h]
  · intro place hvalues hpayloads
    apply hvalues
    rw [hfirst, hsecond, List.getElem?_map, List.getElem?_map, hpayloads]

theorem compile_of_form_eq_statement_in_value :
    (Filter.compile .postgres [.field "name" (.equals (.literal (.string "'; drop table t"))),
        .field "id" (.oneOf (.array []))]).sql =
      (Filter.compile .postgres [.field "name" (.equals (.literal (.string "x"))),
        .field "id" (.oneOf (.array [.integer 1]))]).sql ∧
    (Filter.compile .postgres [.field "name" (.equals (.literal (.string "'; drop table t"))),
        .field "id" (.oneOf (.array []))]).values =
      [.string "'; drop table t", .array []] := by
  have hforms : Filter.form [.field "name" (.equals (.literal (.string "'; drop table t"))),
      .field "id" (.oneOf (.array []))] =
      Filter.form [.field "name" (.equals (.literal (.string "x"))),
        .field "id" (.oneOf (.array [.integer 1]))] := rfl
  obtain ⟨hsql, -, hvalues, -⟩ := compile_of_form_eq .postgres hforms
  exact ⟨hsql, hvalues⟩

end FilterSql
