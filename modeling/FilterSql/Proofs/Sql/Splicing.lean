import FilterSql.Proofs.Sql.Layout
import FilterSql.Proofs.Sql.Placeholders
import FilterSql.Proofs.Text.Runs

/-!
# Compiled texts are spliced

A compiler sees what it has bound before only through the number of the last
parameter.  So the text of a filter that is compiled on its own, after so many
parameters, may stand behind the text that binds them; and placeholders that are
numbered from later on are all greater by the same amount.
-/

namespace FilterSql

/-! ## Greater numbers -/

/-- The text with the numbers of all its placeholders greater by `shift`.  A dollar sign in a
literal or without a number is no placeholder. -/
def renumber (shift : Nat) (quoted : Bool) : List Char → List Char
  | [] => []
  | c :: rest =>
    if c = '\'' then c :: renumber shift (!quoted) rest
    else if c = '$' ∧ ¬ quoted ∧ rest.takeWhile Char.isDigit ≠ [] then
      c :: (Nat.toDigits 10 (Nat.ofDigitChars 10 (rest.takeWhile Char.isDigit) 0 + shift) ++
        renumber shift quoted (rest.dropWhile Char.isDigit))
    else c :: renumber shift quoted rest
termination_by text => text.length
decreasing_by
  · exact Nat.lt_succ_self _
  · exact Nat.lt_succ_of_le (List.length_dropWhile_le _ _)
  · exact Nat.lt_succ_self _

section Renumber

variable {shift : Nat}

theorem renumber_token {number : Nat} {rest : List Char} (h : ∀ c ∈ rest.head?, ¬ c.isDigit) :
    renumber shift false ('$' :: (Nat.toDigits 10 number ++ rest)) =
      '$' :: (Nat.toDigits 10 (number + shift) ++ renumber shift false rest) := by
  have hnumber : Nat.ofDigitChars 10 (Nat.toDigits 10 number) 0 = number :=
    Nat.ofDigitChars_toDigits (by decide) (by decide)
  rw [renumber, if_neg (by decide), Text.takeWhile_digits number h, Text.dropWhile_digits number h,
    hnumber, if_pos ⟨rfl, by decide, Nat.toDigits_ne_nil⟩]

theorem renumber_of_scan {paired : Bool} {place last : Place} {text : List Char}
    (h : scan (.pieces paired) place text = some last) (rest : List Char) :
    renumber shift place.isLiteral (text ++ rest) =
      text ++ renumber shift last.isLiteral rest := by
  induction text generalizing place with
  | nil =>
      cases h
      rfl
  | cons c text ih =>
      obtain ⟨next, hstep, htext⟩ := scan_cons_eq_some_iff.mp h
      have hnext := Place.isLiteral_of_step hstep
      have hhere : ¬ (c = '$' ∧ ¬ place.isLiteral ∧
          (text ++ rest).takeWhile Char.isDigit ≠ []) := by
        rintro ⟨rfl, hplace, -⟩
        exact Place.ofChar_ne_token hstep (by simpa using hplace) rfl
      rw [List.cons_append, renumber, List.cons_append, ← ih htext]
      by_cases hc : c = '\''
      · rw [if_pos hc, hnext]
        simp [hc]
      · rw [if_neg hc, if_neg hhere, hnext]
        simp [hc]

end Renumber

namespace Fragment

/-- Numbered on from a greater number, the text of a fragment has greater numbers. -/
theorem chars_renumber {paired : Bool} {place last : Place} {fragment : Fragment}
    (h : scan paired place fragment = some last) (hdetached : IsDetached fragment)
    {bindings shifted : Bindings} {shift : Nat} (hdialect : bindings.dialect = .postgres)
    (hshifted : shifted.dialect = .postgres)
    (hcount : shifted.count.toNat = bindings.count.toNat + shift)
    (hroom : shifted.count.toNat + fragment.values.length < UInt64.size) :
    fragment.chars shifted = renumber shift place.isLiteral (fragment.chars bindings) := by
  induction fragment generalizing place bindings shifted with
  | nil => simp [renumber]
  | cons piece rest ih =>
      have hrestDetached : IsDetached rest := by
        rw [← List.singleton_append, isDetached_append] at hdetached
        exact hdetached.2
      cases piece with
      | text sql =>
          obtain ⟨next, hsql, hrest⟩ := Option.bind_eq_some_iff.mp h
          have hroomRest : shifted.count.toNat + (values rest).length < UInt64.size := hroom
          rw [chars_text_cons, chars_text_cons, renumber_of_scan hsql,
            ih hrest hrestDetached hdialect hshifted hcount hroomRest]
      | hole value =>
          obtain ⟨next, hhole, hrest⟩ := Option.bind_eq_some_iff.mp h
          obtain ⟨hplace, hnext⟩ := isLiteral_of_hole hhole
          have hvalues : values (.hole value :: rest) = value :: values rest := rfl
          rw [hvalues, List.length_cons] at hroom
          -- Neither counter wraps, so the next numbers differ by the same amount.
          have hlater : (shifted.count + 1).toNat = shifted.count.toNat + 1 :=
            toNat_add_one (by omega)
          have hearlier : (bindings.count + 1).toNat = bindings.count.toNat + 1 :=
            toNat_add_one (by omega)
          have hafter : chars rest (shifted.push value).2 =
              renumber shift next.isLiteral (chars rest (bindings.push value).2) := by
            refine ih hrest hrestDetached hdialect hshifted ?_ ?_
            · rw [Bindings.push_count, Bindings.push_count, hlater, hearlier, hcount]
              omega
            · rw [Bindings.push_count, hlater]
              omega
          have hsum : shifted.count.toNat + 1 = bindings.count.toNat + 1 + shift := by omega
          rw [chars_hole_cons, chars_hole_cons, hdialect, hshifted,
            Bindings.toList_token_postgres, Bindings.toList_token_postgres, hplace,
            List.cons_append, List.cons_append,
            renumber_token (head?_chars hrestDetached _), hafter, hnext, hlater, hearlier, hsum]

end Fragment

/-! ## Compiling after other parameters -/

theorem Compiler.call_clauses_text (compiler : Compiler) (filter : Filter) :
    (compiler.call (.clauses filter)).1 =
      Fragment.fill compiler.options.dialect compiler.count
        (filter.fragment compiler.options).layout := by
  rw [call_eq_render]
  exact Fragment.render_fst _ _

/-- The text of a filter's clauses in a query that binds `count` parameters before them. -/
def Filter.textAfter (options : CompileOptions) (count : UInt64) (filter : Filter) : String :=
  ((Compiler.new (options.startingAfter count)).call (.clauses filter)).1

namespace Filter

theorem textAfter_eq_fill (options : CompileOptions) (count : UInt64) (filter : Filter) :
    filter.textAfter options count =
      Fragment.fill options.dialect count (filter.fragment options).layout := by
  have htext : filter.textAfter options count =
      Fragment.fill options.dialect count
        (filter.fragment (options.startingAfter count)).layout :=
    Compiler.call_clauses_text _ filter
  rw [htext, layout_fragment_congr (options.agrees_startingAfter count)]

theorem textAfter_eq_render (options : CompileOptions) (filter : Filter) {bindings : Bindings}
    (h : bindings.dialect = options.dialect) :
    filter.textAfter options bindings.count = ((filter.fragment options).render bindings).1 := by
  rw [textAfter_eq_fill, Fragment.render_fst, h]

theorem compile_eq_textAfter (options : CompileOptions) {filter : Filter} (h : filter ≠ []) :
    filter.compile options =
      ⟨"WHERE " ++ filter.textAfter options options.initialParamIndex,
        (Filter.payloads filter).map (Payload.bound options.dialect)⟩ := by
  rw [WhereClause.mk.injEq]
  refine ⟨?_, values_compile options filter⟩
  rw [sql_compile, if_neg h, textAfter_eq_fill]

theorem fragment_append (options : CompileOptions) {first second : Filter}
    (hfirst : first ≠ []) (hsecond : second ≠ []) :
    (first ++ second).fragment options =
      first.fragment options ++ Fragment.text " and " ++ second.fragment options := by
  simp only [fragment, Compile.conjunction, Compile.clauses_eq_map, List.map_append,
    Fragment.join_eq_intercalate]
  exact intercalate_append (by simpa using hfirst) (by simpa using hsecond)

/-- One text after the other, the second numbered on after the values of the first. -/
theorem textAfter_append (options : CompileOptions) (count : UInt64) {first second : Filter}
    (hfirst : first ≠ []) (hsecond : second ≠ []) :
    (first ++ second).textAfter options count =
      first.textAfter options count ++ " and " ++
        second.textAfter options (count + UInt64.ofNat (Filter.payloads first).length) := by
  let bindings : Bindings := ⟨options.dialect, count, []⟩
  have hbound : ((first.fragment options).bound bindings).count =
      count + UInt64.ofNat (Filter.payloads first).length := by
    rw [Fragment.bound_count, values_fragment, List.length_map]
  have hlater : ((first.fragment options).bound bindings).dialect = options.dialect :=
    Fragment.bound_dialect _ _
  have hdialect : bindings.dialect = options.dialect := rfl
  have hhere (filter : Filter) : filter.textAfter options count =
      ((filter.fragment options).render bindings).1 :=
    textAfter_eq_render options filter hdialect
  rw [hhere, hhere, ← hbound, textAfter_eq_render options second hlater,
    fragment_append options hfirst hsecond, Fragment.render_append, Fragment.render_append]
  rfl

theorem compile_append (options : CompileOptions) {first second : Filter}
    (hfirst : first ≠ []) (hsecond : second ≠ []) :
    (first ++ second).compile options =
      ⟨"WHERE " ++ first.textAfter options options.initialParamIndex ++ " and " ++
        second.textAfter options (UInt64.ofNat
          (options.initialParamIndex.toNat + (first.compile options).values.length)),
        (first.compile options).values ++ (second.compile options).values⟩ := by
  have hpayloads (filter : Filter) : (filter.compile options).values =
      (Filter.payloads filter).map (Payload.bound options.dialect) := values_compile options filter
  have hcount : UInt64.ofNat
      (options.initialParamIndex.toNat + (first.compile options).values.length) =
      options.initialParamIndex + UInt64.ofNat (Filter.payloads first).length := by
    rw [hpayloads, List.length_map, UInt64.ofNat_add, UInt64.ofNat_toNat]
  rw [compile_eq_textAfter options (by simp [hfirst]), textAfter_append options _ hfirst hsecond,
    hcount, hpayloads, hpayloads, payloads_append, List.map_append]
  simp only [String.append_assoc]

theorem textAfter_renumber {options : CompileOptions} (hdialect : options.dialect = .postgres)
    {count : UInt64} {filter : Filter}
    (hroom : count.toNat + (Filter.payloads filter).length < UInt64.size) :
    (filter.textAfter options count).toList =
      renumber count.toNat false (filter.textAfter options 0).toList := by
  have hchars (number : UInt64) : (filter.textAfter options number).toList =
      (filter.fragment options).chars ⟨options.dialect, number, []⟩ := by
    have hbindings : (⟨options.dialect, number, []⟩ : Bindings).dialect = options.dialect := rfl
    exact congrArg String.toList (textAfter_eq_render options filter hbindings)
  have hbalanced : Fragment.scan false (.outside 1) (filter.fragment options) =
      some (.outside 1) := Compiler.balanced_call options (.clauses filter) 0
  rw [hchars, hchars]
  refine Fragment.chars_renumber hbalanced (Compiler.isDetached_call options (.clauses filter))
    hdialect hdialect (Nat.zero_add _).symm ?_
  rwa [values_fragment, List.length_map]

end Filter

namespace Compiler

/-- A new compiler with the same settings, which goes on with the numbers of this one. -/
def continued (compiler : Compiler) : Compiler :=
  .new (compiler.options.startingAfter compiler.count)

theorem call_clauses_continued (compiler : Compiler) (filter : Filter) :
    (compiler.call (.clauses filter)).1 = (compiler.continued.call (.clauses filter)).1 ∧
      (compiler.call (.clauses filter)).2.values =
        compiler.values ++ (compiler.continued.call (.clauses filter)).2.values := by
  have hagrees := compiler.options.agrees_startingAfter compiler.count
  have hvalues (other : Compiler) : (other.call (.clauses filter)).2.values =
      other.values ++ (Filter.payloads filter).map (Payload.bound other.options.dialect) := by
    rw [call_values, ← Filter.values_fragment]
    rfl
  rw [call_clauses_text, call_clauses_text, hvalues, hvalues,
    ← Filter.layout_fragment_congr hagrees]
  exact ⟨rfl, rfl⟩

theorem call_clauses_count {compiler : Compiler} {filter : Filter}
    (hroom : compiler.count.toNat +
      (compiler.continued.call (.clauses filter)).2.values.length < UInt64.size) :
    (compiler.call (.clauses filter)).2.count.toNat = compiler.count.toNat +
      (compiler.continued.call (.clauses filter)).2.values.length := by
  have hlength : (compiler.continued.call (.clauses filter)).2.values.length =
      ((Call.clauses filter).fragment compiler.options).values.length := by
    have hvalues := congrArg List.length (compiler.call_clauses_continued filter).2
    rw [call_values, List.length_append, List.length_append] at hvalues
    omega
  rw [hlength] at hroom ⊢
  exact call_count_toNat _ hroom

end Compiler

/-! ## Splices -/

/-- Compiling goes on from what is bound before as it begins anew after that many parameters;
so texts and values are spliced, and starting later only makes numbers greater. -/
theorem compile_splices :
    (∀ (compiler : Compiler) (filter : Filter),
      (compiler.call (.clauses filter)).1 = (compiler.continued.call (.clauses filter)).1 ∧
      (compiler.call (.clauses filter)).2.values =
        compiler.values ++ (compiler.continued.call (.clauses filter)).2.values ∧
      (compiler.count.toNat + (compiler.continued.call (.clauses filter)).2.values.length <
          UInt64.size →
        (compiler.call (.clauses filter)).2.count.toNat =
          compiler.count.toNat + (compiler.continued.call (.clauses filter)).2.values.length)) ∧
    (∀ (options : CompileOptions) (first second : Filter), first ≠ [] → second ≠ [] →
      (first ++ second).compile options =
        ⟨"WHERE " ++ first.textAfter options options.initialParamIndex ++ " and " ++
          second.textAfter options (UInt64.ofNat
            (options.initialParamIndex.toNat + (first.compile options).values.length)),
          (first.compile options).values ++ (second.compile options).values⟩) ∧
    (∀ (options : CompileOptions) (filter : Filter) (count : UInt64),
      (filter.compile (options.startingAfter count)).values = (filter.compile options).values) ∧
    ∀ (options : CompileOptions) (filter : Filter) (count : UInt64),
      options.dialect = .postgres →
      count.toNat + (filter.compile options).values.length < UInt64.size →
        (filter.textAfter options count).toList =
          renumber count.toNat false (filter.textAfter options 0).toList := by
  refine ⟨fun compiler filter => ?_, fun options first second hfirst hsecond => ?_,
    fun options filter count => ?_, fun options filter count hdialect hroom => ?_⟩
  · obtain ⟨htext, hvalues⟩ := compiler.call_clauses_continued filter
    exact ⟨htext, hvalues, Compiler.call_clauses_count⟩
  · exact Filter.compile_append options hfirst hsecond
  · rw [Filter.values_compile, Filter.values_compile]
    rfl
  · rw [Filter.values_compile, List.length_map] at hroom
    exact Filter.textAfter_renumber hdialect hroom

theorem compile_splices_after_seven :
    ((⟨.postgres, 7, []⟩ : Compiler).call
        (.clauses [.field "id" (.equals (.literal (.integer 1)))])).2.count.toNat = 8 ∧
      Filter.compile .postgres ([.field "id" (.equals (.literal (.integer 1)))] ++
          [.field "name" (.contains (.string "x"))]) =
        ⟨"WHERE " ++ Filter.textAfter .postgres 0 [.field "id" (.equals (.literal (.integer 1)))] ++
          " and " ++ Filter.textAfter .postgres 1 [.field "name" (.contains (.string "x"))],
          [.integer 1, .string "x"]⟩ ∧
      (Filter.textAfter .postgres 7 [.field "name" (.contains (.string "x"))]).toList =
        renumber 7 false
          (Filter.textAfter .postgres 0 [.field "name" (.contains (.string "x"))]).toList := by
  obtain ⟨hcalls, happend, -, hrenumber⟩ := compile_splices
  refine ⟨(hcalls ⟨.postgres, 7, []⟩ [.field "id" (.equals (.literal (.integer 1)))]).2.2 ?_,
    happend .postgres _ _ (List.cons_ne_nil _ _) (List.cons_ne_nil _ _),
    hrenumber .postgres _ 7 rfl ?_⟩
  all_goals decide

end FilterSql
