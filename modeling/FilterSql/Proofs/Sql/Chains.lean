import FilterSql.Proofs.Sql.OwnColumns
import Mathlib.Data.List.Nodup

/-!
# Chains of tables

The sub-select over a chain declares one alias for each table that it reads.  The
aliases end in the places of their tables, which neither the alphabet of names nor a
change of case touches, so no two of them are alike.  Every column in the sub-select
stands behind an alias that is declared there: the joins lead from each table to the
next, the selected column belongs to the last of them and the filter to the first.
-/

namespace FilterSql

open Compile

/-! ## Declared tables -/

def JoinKey.isForeign : JoinKey → Bool
  | .foreign _ => true
  | .inbound _ => false

/-- The levels that are joined: a foreign key at the end needs no table of its own. -/
def declaredLevels (rest : List JoinLevel) : List JoinLevel :=
  if rest.getLast?.any (·.key.isForeign) then rest.dropLast else rest

def levelRef (level : JoinLevel) (place : Nat) : String :=
  "\"" ++ levelAlias level place ++ "\""

def aliasesFrom (place : Nat) : List JoinLevel → List String
  | [] => []
  | level :: rest => levelRef level place :: aliasesFrom (place + 1) rest

namespace JoinChain

def aliases (chain : JoinChain) : List String :=
  aliasesFrom 0 (chain.first :: declaredLevels chain.rest)

end JoinChain

@[simp] theorem length_aliasesFrom (place : Nat) (levels : List JoinLevel) :
    (aliasesFrom place levels).length = levels.length := by
  induction levels generalizing place with
  | nil => rfl
  | cons level rest ih => simp [aliasesFrom, ih]

theorem JoinChain.length_aliases (chain : JoinChain) :
    chain.aliases.length =
      if 2 ≤ chain.levels.length ∧ chain.levels.getLast?.any (·.key.isForeign) then
        chain.levels.length - 1
      else chain.levels.length := by
  obtain ⟨schema, first, rest⟩ := chain
  cases rest with
  | nil => simp [aliases, declaredLevels, levels]
  | cons second rest =>
      by_cases hlast : (second :: rest).getLast?.any (·.key.isForeign) <;>
        simp [aliases, declaredLevels, levels, hlast]

theorem declaredLevels_cons_cons (level second : JoinLevel) (rest : List JoinLevel) :
    declaredLevels (level :: second :: rest) = level :: declaredLevels (second :: rest) := by
  rw [declaredLevels, declaredLevels, List.getLast?_cons_cons, List.dropLast_cons_cons]
  split <;> rfl

/-! ## Aliases by their places -/

theorem nameRef_levelAlias (level : JoinLevel) (place : Nat) :
    nameRef (levelAlias level place) = levelRef level place := by
  rw [levelAlias, nameRef_sanitize, nameRef_eq]
  rfl

theorem exists_levelAlias (level : JoinLevel) (place : Nat) :
    ∃ front, (levelAlias level place).toList = front ++ 'J' :: Nat.toDigits 10 place := by
  have hdigits : (Nat.toDigits 10 place).filter Identifier.isPlain = Nat.toDigits 10 place :=
    List.filter_eq_self.mpr fun c hc => Fragment.isPlain_of_mem_toDigits hc
  have hmark : ("SubJ".toList).filter Identifier.isPlain = ['S', 'u', 'b', 'J'] := by decide
  have hkept : ((level.table ++ "SubJ" ++ toString place).toList).filter Identifier.isPlain =
      (level.table.toList.filter Identifier.isPlain ++ ['S', 'u', 'b']) ++
        'J' :: Nat.toDigits 10 place := by
    rw [String.toList_append, String.toList_append, List.filter_append, List.filter_append, hmark,
      Nat.toString_eq_repr, Nat.toList_repr, hdigits]
    simp
  rw [levelAlias, sanitize, String.toList_ofList, Identifier.sanitizeWith, hkept]
  rcases Identifier.guardDigit_eq ((level.table.toList.filter Identifier.isPlain ++
    ['S', 'u', 'b']) ++ 'J' :: Nat.toDigits 10 place) with hguard | hguard
  · exact ⟨_, hguard⟩
  · exact ⟨'_' :: (level.table.toList.filter Identifier.isPlain ++ ['S', 'u', 'b']), hguard⟩

private def trailingNumber (text : String) : Nat :=
  Nat.ofDigitChars 10 (text.toList.reverse.tail.takeWhile Char.isDigit).reverse 0

private theorem toList_toLower (text : String) :
    text.toLower.toList = text.toList.map Char.toLower :=
  String.toList_map

private theorem toLower_of_isDigit {c : Char} (h : c.isDigit) : c.toLower = c := by
  have hrange : ¬ (c.val ≥ 'A'.val ∧ c.val ≤ 'Z'.val) := by
    simp only [Char.isDigit] at h
    grind
  exact dif_neg hrange

private theorem trailingNumber_toLower_levelRef (level : JoinLevel) (place : Nat) :
    trailingNumber (levelRef level place).toLower = place := by
  -- Seen from the right, the digits end at the mark, whatever the table is called.
  obtain ⟨front, hfront⟩ := exists_levelAlias level place
  have hdigit : ∀ c ∈ Nat.toDigits 10 place, c.isDigit :=
    fun c hc => Nat.isDigit_of_mem_toDigits (by decide) (by decide) hc
  have hlower : (Nat.toDigits 10 place).map Char.toLower = Nat.toDigits 10 place := by
    rw [List.map_congr_left fun c hc => toLower_of_isDigit (hdigit c hc), List.map_id']
  have htext : (levelRef level place).toLower.toList =
      '"' :: (front.map Char.toLower ++ 'j' :: Nat.toDigits 10 place) ++ ['"'] := by
    have hj : 'J'.toLower = 'j' := by decide
    have hquote : '"'.toLower = '"' := by decide
    rw [toList_toLower, levelRef]
    simp [hfront, hlower, hj, hquote]
  have hrun : (levelRef level place).toLower.toList.reverse.tail.takeWhile Char.isDigit =
      (Nat.toDigits 10 place).reverse := by
    rw [htext]
    simp only [List.reverse_append, List.reverse_cons, List.reverse_nil, List.nil_append,
      List.cons_append, List.tail_cons, List.append_assoc]
    rw [List.takeWhile_append_of_pos (by simpa using hdigit),
      List.takeWhile_cons_of_neg (by decide), List.append_nil]
  rw [trailingNumber, hrun, List.reverse_reverse,
    Nat.ofDigitChars_toDigits (by decide) (by decide)]

private theorem trailingNumbers_aliasesFrom (place : Nat) (levels : List JoinLevel) :
    ((aliasesFrom place levels).map String.toLower).map trailingNumber =
      List.range' place levels.length := by
  induction levels generalizing place with
  | nil => rfl
  | cons level rest ih =>
      rw [aliasesFrom, List.map_cons, List.map_cons, trailingNumber_toLower_levelRef, ih]
      rfl

/-- No two aliases of a chain are alike, even if upper and lower case are not told apart. -/
theorem nodup_toLower_aliasesFrom (place : Nat) (levels : List JoinLevel) :
    ((aliasesFrom place levels).map String.toLower).Nodup := by
  refine List.Nodup.of_map trailingNumber ?_
  rw [trailingNumbers_aliasesFrom]
  exact List.nodup_range'

/-- A table whose name is nothing, and one whose name looks like the alias of another. -/
example : aliasesFrom 0 [⟨"+", .inbound "a"⟩, ⟨"SubJ0", .inbound "b"⟩] =
    ["\"SubJ0\"", "\"SubJ0SubJ1\""] := by decide

/-! ## Qualifiers -/

def qualifiers (sql : String) : List String :=
  (sql.toList.splitOn ' ').flatMap fun word => (word.splitOn '.').dropLast.map String.ofList

private def IsWord (text : String) : Prop :=
  ' ' ∉ text.toList ∧ '.' ∉ text.toList

private theorem isWord_nameRef (name : String) : IsWord (nameRef name) := by
  have hplain := isPlainName_sanitize name
  have hblank : ' ' ∉ (sanitize name).toList := hplain.not_mem (by decide)
  have hdot : '.' ∉ (sanitize name).toList := hplain.not_mem (by decide)
  rw [IsWord, nameRef_eq]
  simp [hblank, hdot]

section Words

variable {first left second right : String} (hfirst : IsWord first) (hleft : IsWord left)

include hfirst hleft

private theorem splitOn_qualified :
    (first.toList ++ '.' :: left.toList).splitOn '.' = [first.toList, left.toList] := by
  have hparts : ∀ part ∈ [first.toList, left.toList], '.' ∉ part := by
    simp [hfirst.2, hleft.2]
  have hsplit := List.splitOn_intercalate '.' hparts (by simp)
  simpa using hsplit

private theorem qualifiers_column : qualifiers (first ++ "." ++ left) = [first] := by
  have hparts : ∀ part ∈ [first.toList ++ '.' :: left.toList], ' ' ∉ part := by
    simp [hfirst.1, hleft.1]
  have hwords := List.splitOn_intercalate ' ' hparts (by simp)
  rw [List.intercalate_singleton] at hwords
  simp [qualifiers, hwords, splitOn_qualified hfirst hleft]

private theorem qualifiers_condition (hsecond : IsWord second) (hright : IsWord right) :
    qualifiers (first ++ "." ++ left ++ " = " ++ second ++ "." ++ right) = [first, second] := by
  have hparts : ∀ part ∈ [first.toList ++ '.' :: left.toList, ['='],
      second.toList ++ '.' :: right.toList], ' ' ∉ part := by
    simp [hfirst.1, hleft.1, hsecond.1, hright.1]
  have hwords := List.splitOn_intercalate ' ' hparts (by simp)
  have hsign : ['='].splitOn '.' = [['=']] := by decide
  have htext : (first ++ "." ++ left ++ " = " ++ second ++ "." ++ right).toList =
      [' '].intercalate [first.toList ++ '.' :: left.toList, ['='],
        second.toList ++ '.' :: right.toList] := by
    simp [List.intercalate]
  rw [qualifiers, htext, hwords]
  simp [splitOn_qualified hfirst hleft, splitOn_qualified hsecond hright, hsign]

end Words

/-! ## Joins -/

/-- The texts join the levels, the first of them at this place, one after the other: each
declares its alias, and its condition mentions that and the alias before.  The last alias is
`last`. -/
inductive Joined (schema : String) : Nat → String → List JoinLevel → List String → String → Prop
  | nil (place : Nat) (previous : String) : Joined schema place previous [] [] previous
  | cons {place : Nat} {previous last condition : String} {level : JoinLevel}
      {rest : List JoinLevel} {texts : List String} :
      qualifiers condition = [previous, levelRef level place] →
      Joined schema (place + 1) (levelRef level place) rest texts last →
      Joined schema place previous (level :: rest)
        (("join " ++ schema ++ nameRef level.table ++ " " ++ levelRef level place ++ " on " ++
          condition) :: texts) last

theorem Joined.getLast? {schema previous last : String} {place : Nat} {levels : List JoinLevel}
    {texts : List String} (h : Joined schema place previous levels texts last) :
    (previous :: aliasesFrom place levels).getLast? = some last := by
  induction h with
  | nil => rfl
  | cons _ _ ih =>
      rw [aliasesFrom, List.getLast?_cons_cons]
      exact ih

private theorem isWord_levelRef (level : JoinLevel) (place : Nat) :
    IsWord (levelRef level place) := by
  rw [← nameRef_levelAlias]
  exact isWord_nameRef _

private theorem isWord_id : IsWord "id" ∧ IsWord "\"id\"" := by
  unfold IsWord
  decide

private theorem exists_joinText (schema : String) {previous : String} (h : IsWord previous)
    (level : JoinLevel) (place : Nat) :
    ∃ condition, qualifiers condition = [previous, levelRef level place] ∧
      joinText schema previous level place =
        "join " ++ schema ++ nameRef level.table ++ " " ++ levelRef level place ++ " on " ++
          condition := by
  obtain ⟨table, levelKey⟩ := level
  have hlevel := isWord_levelRef ⟨table, levelKey⟩ place
  unfold joinText aliasedTable
  rw [nameRef_levelAlias]
  cases levelKey with
  | foreign column =>
      have hid : ".id" = "." ++ "id" := by decide
      refine ⟨_, qualifiers_condition h (isWord_nameRef column) hlevel isWord_id.1, ?_⟩
      simp only [hid, String.append_assoc]
  | inbound column =>
      have hid : ".\"id\" = " = "." ++ ("\"id\"" ++ " = ") := by decide
      refine ⟨_, qualifiers_condition h isWord_id.2 hlevel (isWord_nameRef column), ?_⟩
      simp only [hid, String.append_assoc]

private theorem qualifiers_id (level : JoinLevel) (place : Nat) :
    qualifiers (levelRef level place ++ ".\"id\"") = [levelRef level place] := by
  have hid : ".\"id\"" = "." ++ "\"id\"" := by decide
  rw [hid, ← String.append_assoc]
  exact qualifiers_column (isWord_levelRef level place) isWord_id.2

private theorem joined_joins (schema : String) {previous : String} (h : IsWord previous)
    (place : Nat) (level : JoinLevel) (rest : List JoinLevel) :
    ∃ last, Joined schema place previous (declaredLevels (level :: rest))
        (joins schema previous place (level :: rest)).tables last ∧
      qualifiers (joins schema previous place (level :: rest)).column = [last] := by
  obtain ⟨condition, hcondition, hjoin⟩ := exists_joinText schema h level place
  -- Along the levels: the alias of each one is the alias before for the next.
  induction rest generalizing previous place level condition with
  | nil =>
      obtain ⟨table, levelKey⟩ := level
      unfold joins
      cases levelKey with
      | foreign column =>
          exact ⟨previous, .nil place previous, qualifiers_column h (isWord_nameRef column)⟩
      | inbound column =>
          refine ⟨levelRef ⟨table, .inbound column⟩ place, ?_, ?_⟩
          · simp only [hjoin]
            exact .cons hcondition (.nil _ _)
          · rw [nameRef_levelAlias]
            exact qualifiers_id _ place
  | cons second rest ih =>
      have hlevel := isWord_levelRef level place
      obtain ⟨later, hlater, hnext⟩ := exists_joinText schema hlevel second (place + 1)
      obtain ⟨last, hjoined, hcolumn⟩ := ih hlevel (place + 1) second later hlater hnext
      rw [joins, nameRef_levelAlias, declaredLevels_cons_cons]
      · refine ⟨last, ?_, hcolumn⟩
        simp only [hjoin]
        exact .cons hcondition hjoined
      · simp

private theorem joined_chainText (dialect : Dialect) (chain : JoinChain) :
    ∃ texts last, (chainText dialect chain).tables =
        ("from " ++ schemaText dialect chain.schema ++ nameRef chain.first.table ++ " " ++
          levelRef chain.first 0) :: texts ∧
      Joined (schemaText dialect chain.schema) 1 (levelRef chain.first 0)
        (declaredLevels chain.rest) texts last ∧
      qualifiers (chainText dialect chain).column = [last] := by
  obtain ⟨schema, first, rest⟩ := chain
  have hfirst := isWord_levelRef first 0
  have hsource : "from " ++ aliasedTable (schemaText dialect schema) first 0 =
      "from " ++ schemaText dialect schema ++ nameRef first.table ++ " " ++ levelRef first 0 := by
    rw [aliasedTable, nameRef_levelAlias]
    simp only [String.append_assoc]
  cases rest with
  | nil =>
      obtain ⟨table, firstKey⟩ := first
      refine ⟨[], levelRef ⟨table, firstKey⟩ 0, ?_, .nil _ _, ?_⟩ <;>
        unfold chainText chainScope
      · cases firstKey <;> simp only [hsource]
      · cases firstKey with
        | foreign column =>
            rw [nameRef_levelAlias]
            exact qualifiers_column hfirst (isWord_nameRef column)
        | inbound column =>
            rw [nameRef_levelAlias]
            exact qualifiers_id _ 0
  | cons second rest =>
      obtain ⟨last, hjoined, hcolumn⟩ :=
        joined_joins (schemaText dialect schema) hfirst 1 second rest
      unfold chainText chainScope
      simp only [hsource, nameRef_levelAlias]
      exact ⟨_, last, rfl, hjoined, hcolumn⟩

/-! ## The whole sub-select -/

private theorem render_membership (key select : String) (parts : List Fragment)
    (bindings : Bindings) :
    ((membership key select parts).render bindings).1 =
      columnRef key ++ " in (" ++ select ++
        (if parts.isEmpty then "" else " where " ++ ((conjunction parts).render bindings).1) ++
        ")" := by
  unfold membership
  cases parts with
  | nil => simp [Fragment.text, Fragment.render]
  | cons first rest =>
      rw [Fragment.render_append, Fragment.render_append]
      simp [Fragment.text, Fragment.render, String.append_assoc]

theorem OwnColumn.text_chainScope (chain : JoinChain) (column : OwnColumn) :
    column.text (some (chainScope chain)) =
      levelRef chain.first 0 ++ "." ++ column.behindAlias := by
  have hplain : IsPlainName (chainScope chain) := isPlainName_sanitize _
  have hdot : "\"." = "\"" ++ "." := by decide
  rw [text_some hplain, hdot, chainScope, levelRef]
  simp only [String.append_assoc]

/-- The sub-select of a chain is well scoped: its aliases are declared once each, in the order of
the tables, and every column in it stands behind the alias that is meant. -/
theorem chain_well_scoped (options : CompileOptions) (key : String) (chain : JoinChain)
    (filter : Filter) (bindings : Bindings) :
    let schema := schemaText options.dialect chain.schema
    let source := "from " ++ schema ++ nameRef chain.first.table ++ " " ++ levelRef chain.first 0
    let own := Filter.ownColumns filter
    let unscoped := ((conjunction (clauses options none filter)).render bindings).1
    ∃ column joins restriction last,
      ((conditionOn options key (.inChain chain filter)).render bindings).1 =
          columnRef key ++ " in (select " ++ column ++ " " ++ " ".intercalate (source :: joins) ++
            (if filter.isEmpty then "" else " where " ++ restriction) ++ ")" ∧
        Joined schema 1 (levelRef chain.first 0) (declaredLevels chain.rest) joins last ∧
        qualifiers column = [last] ∧
        chain.aliases.getLast? = some last ∧
        chain.aliases.length =
          (if 2 ≤ chain.levels.length ∧ chain.levels.getLast?.any (·.key.isForeign) then
            chain.levels.length - 1
          else chain.levels.length) ∧
        (chain.aliases.map String.toLower).Nodup ∧
        Replaced (own.map fun mentioned =>
            (mentioned.text none, levelRef chain.first 0 ++ "." ++ mentioned.behindAlias))
          unscoped restriction := by
  intro schema source own unscoped
  obtain ⟨joins, last, htables, hjoined, hcolumn⟩ := joined_chainText options.dialect chain
  have hreplaced := Fragment.Replaced.join " and "
    (replaced_clauses options none (some (chainScope chain)) filter)
  rw [OwnColumn.texts, funext (OwnColumn.text_chainScope chain)] at hreplaced
  refine ⟨(chainText options.dialect chain).column, joins,
    ((conjunction (clauses options (some (chainScope chain)) filter)).render bindings).1, last,
    ?_, hjoined, hcolumn, ?_, chain.length_aliases, nodup_toLower_aliasesFrom 0 _,
    hreplaced.text bindings⟩
  · have hempty : (clauses options (some (chainScope chain)) filter).isEmpty = filter.isEmpty := by
      cases filter <;> rfl
    rw [conditionOn, render_membership, chainSelectText, htables, hempty]
    have hopening : " in (select " = " in (" ++ "select " := by decide
    simp only [hopening, source, schema, String.append_assoc]
  · rw [JoinChain.aliases, aliasesFrom]
    exact hjoined.getLast?

end FilterSql
