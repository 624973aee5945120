import FilterSql.Proofs.Sql.Emission
import FilterSql.Proofs.Sql.Literals
import FilterSql.Proofs.Text.Runs

/-!
# Placeholders and values

A compiler may be called many times, for whole filters, clauses and conditions;
its values and numbers go on from call to call.  Outside literals, the texts of a
run have one token for each value it binds, in the order of the values.
-/

namespace FilterSql

/-! ## Runs of a compiler -/

namespace Compiler

def run (compiler : Compiler) : List Call → List String × Compiler
  | [] => ([], compiler)
  | first :: rest =>
    let (sql, next) := compiler.call first
    let (sqls, last) := next.run rest
    (sql :: sqls, last)

def pushed (compiler : Compiler) (calls : List Call) : List Value :=
  (compiler.run calls).2.values.drop compiler.values.length

end Compiler

/-! ## Texts after tokens -/

namespace Fragment

/-- No text of the fragment goes on with the digits of a token before it. -/
def IsDetached (fragment : Fragment) : Prop :=
  ∀ sql, Piece.text sql ∈ fragment → ∀ c ∈ sql.toList.head?, ¬ c.isDigit

@[simp] theorem isDetached_append {first second : Fragment} :
    IsDetached (first ++ second) ↔ IsDetached first ∧ IsDetached second := by
  simp only [IsDetached, List.mem_append, or_imp, forall_and]

@[simp] theorem isDetached_text {sql : String} :
    IsDetached (text sql) ↔ ∀ c ∈ sql.toList.head?, ¬ c.isDigit := by
  simp [IsDetached, text]

@[simp] theorem isDetached_hole (value : Value) : IsDetached (hole value) := by
  simp [IsDetached, hole]

theorem isDetached_join {separator : String} (hseparator : IsDetached (text separator))
    {parts : List Fragment} (h : ∀ part ∈ parts, IsDetached part) :
    IsDetached (join separator parts) := by
  have happend {first second : Fragment} (hfirst : IsDetached first)
      (hsecond : IsDetached second) : IsDetached (first ++ second) :=
    isDetached_append.mpr ⟨hfirst, hsecond⟩
  rw [join_eq_intercalate]
  exact intercalate_induction IsDetached (by simp [IsDetached]) happend hseparator h

end Fragment

namespace Compile

open Fragment

variable {options : CompileOptions}

private theorem isDetached_column (key after : String) :
    IsDetached (text (columnRef key ++ after)) := by
  obtain ⟨c, rest, hchars, hdigit⟩ := exists_columnRef_cons key
  simp [hchars, hdigit]

private theorem isDetached_operand (dialect : Dialect) (compared : Operand) :
    IsDetached (operand dialect compared) := by
  cases compared with
  | null => simp [operand]
  | literal value =>
      rw [operand]
      unfold literal
      split <;> simp
  | column name => simpa [operand] using isDetached_column name ""

private theorem isDetached_comparison (dialect : Dialect) (left right : Operand) :
    IsDetached (comparison dialect left right) := by
  have hoperand := isDetached_operand dialect
  unfold comparison
  split <;> simp [hoperand]

private theorem isDetached_containing (dialect : Dialect) {expression : String}
    (h : ∀ after, IsDetached (text (expression ++ after))) (needle : Value) :
    IsDetached (containing dialect expression needle) := by
  unfold containing
  rw [String.append_assoc, String.append_assoc, isDetached_append, isDetached_append]
  exact ⟨⟨h _, isDetached_hole needle⟩, by simp⟩

private theorem isDetached_jsonPlace (dialect : Dialect) (key : String) (path : JsonPath)
    (asText : Bool) (after : String) :
    IsDetached (text (jsonPlace dialect key path asText ++ after)) := by
  unfold jsonPlace
  cases dialect <;> cases asText <;> simp

private theorem isDetached_conjunction {parts : List Fragment}
    (h : ∀ part ∈ parts, IsDetached part) : IsDetached (conjunction parts) :=
  isDetached_join (by simp) h

private theorem isDetached_jsonEquals (dialect : Dialect) (key : String) (path : JsonPath)
    (value : Value) : IsDetached (jsonEquals dialect key path value) :=
  isDetached_append.mpr ⟨isDetached_jsonPlace dialect key path true "=", isDetached_hole value⟩

private theorem isDetached_jsonBound (dialect : Dialect) (key : String) (path : JsonPath)
    (operator : String) (bound : Option Value) :
    ∀ part ∈ jsonBound dialect key path operator bound, IsDetached part := by
  intro part hpart
  obtain ⟨value, -, rfl⟩ := List.mem_map.mp hpart
  rw [String.append_assoc, String.append_assoc]
  exact isDetached_append.mpr
    ⟨isDetached_jsonPlace dialect key path false _, isDetached_hole value⟩

private theorem isDetached_jsonEntry (dialect : Dialect) (key place : String)
    (predicate : JsonPredicate) : IsDetached (jsonEntry dialect key place predicate) := by
  cases predicate with
  | contains needle =>
      exact isDetached_containing dialect (isDetached_jsonPlace dialect key _ _) needle
  | equals value => exact isDetached_jsonEquals dialect key _ value
  | between atLeast atMost =>
      refine isDetached_conjunction fun part hpart => ?_
      rcases List.mem_append.mp hpart with hpart | hpart <;>
        exact isDetached_jsonBound dialect key _ _ _ part hpart

private theorem isDetached_jsonCondition (dialect : Dialect) (key : String)
    (condition : JsonCondition) : IsDetached (jsonCondition dialect key condition) := by
  cases condition with
  | «at» path value => exact isDetached_jsonEquals dialect key path value
  | each entries =>
      refine isDetached_conjunction fun part hpart => ?_
      obtain ⟨⟨place, predicate⟩, -, rfl⟩ := List.mem_map.mp hpart
      exact isDetached_jsonEntry dialect key place predicate

private theorem isDetached_textSearch (scope : Option String) (search : TextSearch) :
    IsDetached (textSearch options scope search) := by
  have hdocument := fun dialect table => exists_searchDocument dialect search table
  unfold textSearch
  cases options.dialect with
  | sqlite =>
      rcases hdocument .sqlite (search.table.or scope) with heq | ⟨after, heq⟩ <;>
        simp [heq]
  | postgres => by_cases hword : isSingleWord search.term <;> simp [hword]

private theorem isDetached_membership (key select : String) {parts : List Fragment}
    (h : ∀ part ∈ parts, IsDetached part) : IsDetached (membership key select parts) := by
  have hcolumn : IsDetached (text (columnRef key ++ " in (" ++ select)) := by
    rw [String.append_assoc]
    exact isDetached_column key _
  have hfilter := isDetached_conjunction h
  unfold membership
  split <;> simp_all

theorem isKept_detached : IsKept options (fun _ => True) IsDetached where
  qualified _ _ := trivial
  search scope search := isDetached_textSearch scope search
  column _ := by simpa using isDetached_column _ ""
  value value := isDetached_hole value
  comparison _ _ := isDetached_comparison _ _ _
  oneOf {key} members _ := by
    have hcolumn := isDetached_column key
    unfold oneOf
    cases options.dialect <;> simp [hcolumn]
  slug {key} value _ := by
    unfold slug slugOf
    cases options.dialect <;> simp
  contains {key} needle _ := isDetached_containing _ (isDetached_column key) needle
  range {key} bound value inclusive _ := by
    simpa [range] using isDetached_column key _
  json condition _ := isDetached_jsonCondition _ _ condition
  isNull {key} _ := isDetached_column key _
  equals {key} {compared} _ _ := by
    have hcolumn := isDetached_column key
    have hoperand := isDetached_operand options.dialect compared
    unfold equals
    split
    · exact hcolumn _
    · exact isDetached_append.mpr ⟨hcolumn _, hoperand⟩
  conjunction h := isDetached_conjunction h
  disjunction {parts} h := by
    have hjoin : IsDetached (join " or " parts) := isDetached_join (by simp) h
    unfold disjunction parens
    split <;> simp [hjoin]
  negation h := by simp [negation, h]
  inSelect select _ _ h := isDetached_membership _ _ h
  inChain chain _ _ h := isDetached_membership _ _ h

end Compile

/-! ## Tokens of rendered fragments -/

def Dialect.mark : Dialect → Char
  | .postgres => '$'
  | .sqlite => '?'

theorem Dialect.ofChar_mark (dialect : Dialect) : Glyph.ofChar dialect.mark = .token := by
  cases dialect <;> rfl

def numerals (quoted : Bool) (text : List Char) : List (List Char) :=
  (afterMarks '$' quoted text).map (List.takeWhile Char.isDigit)

namespace Fragment

variable {paired : Bool} {place last : Place} {fragment : Fragment}

theorem head?_chars (h : IsDetached fragment) (bindings : Bindings) :
    ∀ c ∈ (fragment.chars bindings).head?, ¬ c.isDigit := by
  induction fragment generalizing bindings with
  | nil => simp
  | cons piece rest ih =>
      rw [← List.singleton_append, isDetached_append] at h
      cases piece with
      | text sql =>
          intro c hc
          rw [chars_text_cons, List.head?_append, Option.mem_def, Option.or_eq_some_iff] at hc
          rcases hc with hc | ⟨-, hc⟩
          · exact isDetached_text.mp h.1 c hc
          · exact ih h.2 bindings c hc
      | hole value =>
          intro c hc
          rw [chars_hole_cons] at hc
          cases hdialect : bindings.dialect with
          | sqlite =>
              rw [hdialect, Bindings.toList_token_sqlite] at hc
              cases hc
              decide
          | postgres =>
              rw [hdialect, Bindings.toList_token_postgres] at hc
              cases hc
              decide

theorem isLiteral_of_hole {next : Place} (h : place.hole = some next) :
    place.isLiteral = false ∧ next.isLiteral = false := by
  cases place <;> cases h <;> exact ⟨rfl, rfl⟩

private theorem afterMarks_digits (number : Nat) (rest : List Char) :
    afterMarks '$' false (Nat.toDigits 10 number ++ rest) = afterMarks '$' false rest := by
  have hscan : FilterSql.scan (.pieces false) (.outside 0) (Nat.toDigits 10 number) =
      some (.outside 0) := scan_digits (.pieces false) number 0
  exact afterMarks_of_scan rfl hscan rest

/-- Outside literals, a fragment has as many tokens as values. -/
theorem length_afterMarks_chars (h : scan paired place fragment = some last)
    (bindings : Bindings) :
    (afterMarks bindings.dialect.mark place.isLiteral (fragment.chars bindings)).length =
      fragment.values.length := by
  induction fragment generalizing place bindings with
  | nil => simp [afterMarks, values]
  | cons piece rest ih =>
      cases piece with
      | text sql =>
          obtain ⟨next, hsql, hrest⟩ := Option.bind_eq_some_iff.mp h
          rw [chars_text_cons, afterMarks_of_scan bindings.dialect.ofChar_mark hsql, ih hrest]
          rfl
      | hole value =>
          obtain ⟨next, hhole, hrest⟩ := Option.bind_eq_some_iff.mp h
          obtain ⟨hplace, hnext⟩ := isLiteral_of_hole hhole
          have hafter : (afterMarks bindings.dialect.mark next.isLiteral
              (chars rest (bindings.push value).2)).length = (values rest).length :=
            ih hrest (bindings.push value).2
          rw [hnext] at hafter
          rw [chars_hole_cons, hplace]
          cases hdialect : bindings.dialect with
          | sqlite =>
              rw [hdialect] at hafter
              rw [Bindings.toList_token_sqlite]
              simpa [Dialect.mark, afterMarks, values] using hafter
          | postgres =>
              rw [hdialect] at hafter
              rw [Bindings.toList_token_postgres, List.cons_append]
              simpa [Dialect.mark, afterMarks, afterMarks_digits, values] using hafter

private theorem numerals_token {number : Nat} {rest : List Char}
    (h : ∀ c ∈ rest.head?, ¬ c.isDigit) :
    numerals false ('$' :: (Nat.toDigits 10 number ++ rest)) =
      Nat.toDigits 10 number :: numerals false rest := by
  have hcons : afterMarks '$' false ('$' :: (Nat.toDigits 10 number ++ rest)) =
      (Nat.toDigits 10 number ++ rest) :: afterMarks '$' false rest := by
    simp [afterMarks, afterMarks_digits]
  rw [numerals, hcons, List.map_cons, Text.takeWhile_digits number h, numerals]

theorem toNat_add_one {count : UInt64} (h : count.toNat + 1 < UInt64.size) :
    (count + 1).toNat = count.toNat + 1 := by
  rw [UInt64.toNat_add, UInt64.toNat_one]
  exact Nat.mod_eq_of_lt h

/-- Numbered tokens are numbered on from the bindings, in the order of the values. -/
theorem numerals_chars (h : scan paired place fragment = some last)
    (hdetached : IsDetached fragment) {bindings : Bindings}
    (hdialect : bindings.dialect = .postgres)
    (hroom : bindings.count.toNat + fragment.values.length < UInt64.size) :
    numerals place.isLiteral (fragment.chars bindings) =
      (List.range' (bindings.count.toNat + 1) fragment.values.length).map
        (Nat.toDigits 10) := by
  induction fragment generalizing place bindings with
  | nil => simp [numerals, afterMarks, values]
  | cons piece rest ih =>
      rw [← List.singleton_append, isDetached_append] at hdetached
      cases piece with
      | text sql =>
          obtain ⟨next, hsql, hrest⟩ := Option.bind_eq_some_iff.mp h
          rw [chars_text_cons, numerals, afterMarks_of_scan rfl hsql]
          exact ih hrest hdetached.2 hdialect hroom
      | hole value =>
          obtain ⟨next, hhole, hrest⟩ := Option.bind_eq_some_iff.mp h
          obtain ⟨hplace, hnext⟩ := isLiteral_of_hole hhole
          have hvalues : values (.hole value :: rest) = value :: values rest := rfl
          rw [hvalues, List.length_cons] at hroom
          have hnumber : (bindings.count + 1).toNat = bindings.count.toNat + 1 :=
            toNat_add_one (by omega)
          have hafter : numerals next.isLiteral (chars rest (bindings.push value).2) =
              (List.range' ((bindings.count + 1).toNat + 1) (values rest).length).map
                (Nat.toDigits 10) := by
            refine ih hrest hdetached.2 hdialect ?_
            rw [Bindings.push_count, hnumber]
            omega
          -- What follows the token does not begin with a digit, so the numeral ends with it.
          rw [chars_hole_cons, hdialect, Bindings.toList_token_postgres, hplace, hnumber,
            List.cons_append, numerals_token (head?_chars hdetached.2 _), ← hnext, hafter,
            hnumber, hvalues, List.length_cons, List.range'_succ, List.map_cons]

end Fragment

/-! ## Tokens of runs -/

namespace Compiler

theorem balanced_call (options : CompileOptions) (call : Call) :
    Fragment.IsBalanced false (call.fragment options) := by
  have hkept : Compile.IsKept options (AdmitsName false) (Fragment.IsBalanced false) :=
    Compile.isKept_balanced
  cases call with
  | clauses filter => exact hkept.fragment filter fun name _ => admitsName_false name
  | clause requirement =>
      exact hkept.clause Compile.isBare_none requirement fun name _ => admitsName_false name
  | condition key asked =>
      exact hkept.conditionOn (admitsName_false key) asked fun name _ => admitsName_false name

theorem isDetached_call (options : CompileOptions) (call : Call) :
    Fragment.IsDetached (call.fragment options) := by
  have hkept : Compile.IsKept options (fun _ => True) Fragment.IsDetached :=
    Compile.isKept_detached
  cases call with
  | clauses filter => exact hkept.fragment filter fun _ _ => trivial
  | clause requirement => exact hkept.clause Compile.isBare_none requirement fun _ _ => trivial
  | condition key asked => exact hkept.conditionOn trivial asked fun _ _ => trivial

variable (compiler : Compiler)

theorem call_values (call : Call) :
    (compiler.call call).2.values =
      compiler.values ++ (call.fragment compiler.options).values := by
  rw [call_eq_render]
  exact Fragment.bound_values _ _

private theorem call_count (call : Call) :
    (compiler.call call).2.count =
      compiler.count + UInt64.ofNat (call.fragment compiler.options).values.length := by
  rw [call_eq_render]
  exact Fragment.bound_count _ _

theorem call_count_toNat {compiler : Compiler} (call : Call)
    (hroom : compiler.count.toNat + (call.fragment compiler.options).values.length <
      UInt64.size) :
    (compiler.call call).2.count.toNat =
      compiler.count.toNat + (call.fragment compiler.options).values.length := by
  have hlength : (UInt64.ofNat (call.fragment compiler.options).values.length).toNat =
      (call.fragment compiler.options).values.length :=
    UInt64.toNat_ofNat_of_lt (by omega)
  rw [call_count, UInt64.toNat_add, hlength]
  exact Nat.mod_eq_of_lt hroom

theorem run_values (calls : List Call) :
    (compiler.run calls).2.values = compiler.values ++
      calls.flatMap fun call => (call.fragment compiler.options).values := by
  induction calls generalizing compiler with
  | nil => simp [run]
  | cons first rest ih =>
      have hrest := ih (compiler.call first).2
      rw [call_values, List.append_assoc] at hrest
      exact hrest

theorem pushed_eq (calls : List Call) :
    compiler.pushed calls = calls.flatMap fun call => (call.fragment compiler.options).values := by
  rw [pushed, run_values, List.drop_left]

theorem pushed_cons (first : Call) (rest : List Call) :
    compiler.pushed (first :: rest) =
      (first.fragment compiler.options).values ++ (compiler.call first).2.pushed rest := by
  rw [pushed_eq, pushed_eq, List.flatMap_cons]
  rfl

private theorem length_marks_run (calls : List Call) :
    ((compiler.run calls).1.flatMap fun sql =>
      afterMarks compiler.options.dialect.mark false sql.toList).length =
      (compiler.pushed calls).length := by
  induction calls generalizing compiler with
  | nil => simp [run, pushed]
  | cons first rest ih =>
      have hfirst : (afterMarks compiler.options.dialect.mark false
          (compiler.call first).1.toList).length =
          (first.fragment compiler.options).values.length := by
        rw [call_eq_render]
        exact Fragment.length_afterMarks_chars (balanced_call compiler.options first 0)
          compiler.bindings
      have hrest : (((compiler.call first).2.run rest).1.flatMap fun sql =>
          afterMarks compiler.options.dialect.mark false sql.toList).length =
          ((compiler.call first).2.pushed rest).length := ih (compiler.call first).2
      rw [pushed_cons, List.length_append, ← hfirst, ← hrest, ← List.length_append]
      rfl

variable {compiler} in
private theorem numerals_run (hdialect : compiler.options.dialect = .postgres)
    (calls : List Call)
    (hroom : compiler.count.toNat + (compiler.pushed calls).length < UInt64.size) :
    ((compiler.run calls).1.flatMap fun sql => numerals false sql.toList) =
      (List.range' (compiler.count.toNat + 1) (compiler.pushed calls).length).map
        (Nat.toDigits 10) := by
  induction calls generalizing compiler with
  | nil => simp [run, pushed]
  | cons first rest ih =>
      rw [pushed_cons, List.length_append] at hroom ⊢
      have hfits : compiler.count.toNat +
          (first.fragment compiler.options).values.length < UInt64.size := by omega
      have hnumber : (compiler.call first).2.count.toNat =
          compiler.count.toNat + (first.fragment compiler.options).values.length :=
        call_count_toNat first hfits
      have hfirst : numerals false (compiler.call first).1.toList =
          (List.range' (compiler.count.toNat + 1)
            (first.fragment compiler.options).values.length).map (Nat.toDigits 10) := by
        rw [call_eq_render]
        exact Fragment.numerals_chars (balanced_call compiler.options first 0)
          (isDetached_call compiler.options first) hdialect hfits
      have hrest : (((compiler.call first).2.run rest).1.flatMap
          fun sql => numerals false sql.toList) =
          (List.range' ((compiler.call first).2.count.toNat + 1)
            ((compiler.call first).2.pushed rest).length).map (Nat.toDigits 10) :=
        ih hdialect (by omega)
      have hrun : ((compiler.run (first :: rest)).1.flatMap fun sql => numerals false sql.toList) =
          numerals false (compiler.call first).1.toList ++
            ((compiler.call first).2.run rest).1.flatMap fun sql => numerals false sql.toList := rfl
      rw [hrun, hfirst, hrest, hnumber, Nat.add_right_comm, ← List.map_append,
        List.range'_append_1]

/-- Outside literals, the tokens of a run are those of the values it binds, in their order. -/
theorem tokens_of_run (compiler : Compiler) (calls : List Call)
    (hroom : compiler.count.toNat + (compiler.pushed calls).length < UInt64.size) :
    (compiler.run calls).2.values = compiler.values ++ compiler.pushed calls ∧
      match compiler.options.dialect with
      | .sqlite =>
        ((compiler.run calls).1.flatMap fun sql => afterMarks '?' false sql.toList).length =
          (compiler.pushed calls).length
      | .postgres =>
        ((compiler.run calls).1.flatMap fun sql => numerals false sql.toList) =
          (List.range' (compiler.count.toNat + 1) (compiler.pushed calls).length).map
            (Nat.toDigits 10) := by
  refine ⟨by rw [run_values, pushed_eq], ?_⟩
  cases hdialect : compiler.options.dialect with
  | sqlite =>
      have hlength := length_marks_run compiler calls
      rw [hdialect] at hlength
      exact hlength
  | postgres => exact numerals_run hdialect calls hroom

theorem tokens_of_run_after_seven :
    ((run ⟨.ofDialect .postgres, 7, []⟩
        [.clauses [.field "id" (.equals (.literal (.integer 1)))],
          .condition "name" (.contains (.string "x"))]).1.flatMap
      fun sql => numerals false sql.toList) = [['8'], ['9']] := by
  have hlength : (pushed ⟨.ofDialect .postgres, 7, []⟩
      [.clauses [.field "id" (.equals (.literal (.integer 1)))],
        .condition "name" (.contains (.string "x"))]).length = 2 := by
    rw [pushed_eq]
    rfl
  have htokens := (tokens_of_run _ _ (by rw [hlength]; decide)).2
  rw [hlength] at htokens
  exact htokens

end Compiler

end FilterSql
