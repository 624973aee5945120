import FilterSql.Sql.Compile
import Mathlib.Data.List.Basic

/-!
# Rendered fragments

The characters that a fragment renders to, and the bindings that it leaves, one
piece after the other.
-/

namespace FilterSql

/-! ## Lists with separators -/

section Intercalate

variable {α : Type} {separator : List α}

theorem exists_intercalate_cons (separator first : List α) (rest : List (List α)) :
    ∃ after, List.intercalate separator (first :: rest) = first ++ after := by
  cases rest with
  | nil => exact ⟨[], by simp⟩
  | cons second rest =>
      exact ⟨_, by rw [List.intercalate_cons_cons, List.append_assoc]⟩

/-- What two lists keep when one is put after the other, a list with separators keeps. -/
theorem intercalate_induction (holds : List α → Prop) (hnil : holds [])
    (happend : ∀ {first second}, holds first → holds second → holds (first ++ second))
    (hseparator : holds separator) {parts : List (List α)} (h : ∀ part ∈ parts, holds part) :
    holds (List.intercalate separator parts) := by
  induction parts with
  | nil => exact hnil
  | cons first rest ih =>
      have hfirst := h first List.mem_cons_self
      cases rest with
      | nil => simpa using hfirst
      | cons second rest =>
          have hrest := ih fun part hpart => h part (List.mem_cons_of_mem _ hpart)
          rw [List.intercalate_cons_cons]
          exact happend (happend hfirst hseparator) hrest

theorem intercalate_append {first second : List (List α)} (hfirst : first ≠ [])
    (hsecond : second ≠ []) :
    List.intercalate separator (first ++ second) =
      List.intercalate separator first ++ separator ++ List.intercalate separator second := by
  induction first with
  | nil => exact absurd rfl hfirst
  | cons part rest ih =>
      cases rest with
      | nil =>
          rw [List.singleton_append, List.intercalate_cons_of_ne_nil hsecond,
            List.intercalate_singleton]
      | cons next rest =>
          have hrest := ih (by simp)
          rw [List.cons_append, List.intercalate_cons_of_ne_nil (by simp), hrest,
            List.intercalate_cons_cons]
          simp only [List.append_assoc]

/-- Joining joins is joining all parts, unless one of them has none. -/
theorem intercalate_flatten {groups : List (List (List α))} (h : ∀ group ∈ groups, group ≠ []) :
    List.intercalate separator (groups.map (List.intercalate separator)) =
      List.intercalate separator groups.flatten := by
  induction groups with
  | nil => rfl
  | cons first rest ih =>
      have hrest := ih fun group hgroup => h group (List.mem_cons_of_mem _ hgroup)
      cases rest with
      | nil => simp
      | cons second rest =>
          have hsecond : (second :: rest).flatten ≠ [] := by
            simp [h second (by simp)]
          have hflatten : (first :: second :: rest).flatten =
              first ++ (second :: rest).flatten := rfl
          rw [List.map_cons, List.intercalate_cons_of_ne_nil (by simp), hrest, hflatten,
            intercalate_append (h first (by simp)) hsecond]

end Intercalate

/-! ## Tokens -/

namespace Bindings

theorem toList_token_sqlite (number : UInt64) : (token .sqlite number).toList = ['?'] := by
  simp [token]

theorem toList_token_postgres (number : UInt64) :
    (token .postgres number).toList = '$' :: Nat.toDigits 10 number.toNat := by
  simp [token]

end Bindings

namespace Fragment

/-! ## Characters and bindings -/

def chars (fragment : Fragment) (bindings : Bindings) : List Char :=
  (fragment.render bindings).1.toList

def bound (fragment : Fragment) (bindings : Bindings) : Bindings :=
  (fragment.render bindings).2

@[simp] theorem chars_nil (bindings : Bindings) : chars [] bindings = [] := rfl

@[simp] theorem bound_nil (bindings : Bindings) : bound [] bindings = bindings := rfl

@[simp] theorem chars_text_cons (sql : String) (rest : Fragment) (bindings : Bindings) :
    chars (.text sql :: rest) bindings = sql.toList ++ rest.chars bindings := by
  simp [chars, render]

@[simp] theorem bound_text_cons (sql : String) (rest : Fragment) (bindings : Bindings) :
    bound (.text sql :: rest) bindings = rest.bound bindings := rfl

@[simp] theorem chars_hole_cons (value : Value) (rest : Fragment) (bindings : Bindings) :
    chars (.hole value :: rest) bindings =
      (Bindings.token bindings.dialect (bindings.count + 1)).toList ++
        rest.chars (bindings.push value).2 := by
  simp [chars, render, Bindings.push]

@[simp] theorem bound_hole_cons (value : Value) (rest : Fragment) (bindings : Bindings) :
    bound (.hole value :: rest) bindings = rest.bound (bindings.push value).2 := rfl

@[simp] theorem chars_append (first second : Fragment) (bindings : Bindings) :
    chars (first ++ second) bindings =
      first.chars bindings ++ second.chars (first.bound bindings) := by
  simp [chars, bound, render_append]

@[simp] theorem bound_append (first second : Fragment) (bindings : Bindings) :
    bound (first ++ second) bindings = second.bound (first.bound bindings) := by
  simp [bound, render_append]

theorem bound_values (fragment : Fragment) (bindings : Bindings) :
    (fragment.bound bindings).values = bindings.values ++ fragment.values :=
  render_values fragment bindings

@[simp] theorem bound_dialect (fragment : Fragment) (bindings : Bindings) :
    (fragment.bound bindings).dialect = bindings.dialect := by
  induction fragment generalizing bindings with
  | nil => rfl
  | cons piece rest ih =>
      cases piece with
      | text sql => exact ih bindings
      | hole value => exact ih (bindings.push value).2

theorem bound_count (fragment : Fragment) (bindings : Bindings) :
    (fragment.bound bindings).count =
      bindings.count + UInt64.ofNat fragment.values.length := by
  induction fragment generalizing bindings with
  | nil => simp [values]
  | cons piece rest ih =>
      cases piece with
      | text sql => simpa [values] using ih bindings
      | hole value =>
          rw [bound_hole_cons, ih, Bindings.push_count]
          simp only [values, List.filterMap_cons, List.length_cons, UInt64.ofNat_add]
          rw [UInt64.add_assoc, UInt64.add_comm 1]
          rfl

theorem bound_congr {first second : Fragment} (h : first.values = second.values)
    (bindings : Bindings) : first.bound bindings = second.bound bindings := by
  have hfold (fragment : Fragment) : fragment.bound bindings =
      fragment.values.foldl (fun bound value => (bound.push value).2) bindings := by
    induction fragment generalizing bindings with
    | nil => rfl
    | cons piece rest ih => cases piece <;> simp [ih, values]
  rw [hfold, hfold, h]

theorem eq_replicate_of_isBlank {fragment : Fragment} (h : fragment.isBlank) :
    fragment = List.replicate fragment.length (.text "") := by
  apply List.eq_replicate_of_mem
  intro piece hpiece
  have hblank := List.all_eq_true.mp h piece hpiece
  cases piece with
  | text sql => rw [beq_iff_eq.mp hblank]
  | hole value => cases hblank

/-! ## Fragments one after the other -/

def charsOfEach : List Fragment → Bindings → List (List Char)
  | [], _ => []
  | first :: rest, bindings => first.chars bindings :: charsOfEach rest (first.bound bindings)

@[simp] theorem charsOfEach_append (first second : List Fragment) (bindings : Bindings) :
    charsOfEach (first ++ second) bindings =
      charsOfEach first bindings ++ charsOfEach second (bound first.flatten bindings) := by
  induction first generalizing bindings with
  | nil => rfl
  | cons part rest ih => simp [charsOfEach, ih]

/-! ## Joins -/

theorem join_eq_intercalate (separator : String) (parts : List Fragment) :
    join separator parts = List.intercalate (text separator) parts := rfl

@[simp] theorem join_nil (separator : String) : join separator [] = [] := rfl

@[simp] theorem join_singleton (separator : String) (part : Fragment) :
    join separator [part] = part := by
  simp [join]

@[simp] theorem join_cons_cons (separator : String) (first second : Fragment)
    (rest : List Fragment) :
    join separator (first :: second :: rest) =
      first ++ .text separator :: join separator (second :: rest) := by
  simp [join, text]

theorem values_join (separator : String) (parts : List Fragment) :
    values (join separator parts) = values parts.flatten := by
  induction parts with
  | nil => rfl
  | cons first rest ih =>
      cases rest with
      | nil => simp
      | cons second rest =>
          have hrest : values (.text separator :: join separator (second :: rest)) =
              values (join separator (second :: rest)) := rfl
          have hflatten : (first :: second :: rest).flatten =
              first ++ (second :: rest).flatten := rfl
          rw [join_cons_cons, values_append, hrest, ih, hflatten, values_append]

theorem chars_join (separator : String) (parts : List Fragment) (bindings : Bindings) :
    chars (join separator parts) bindings =
      List.intercalate separator.toList (charsOfEach parts bindings) := by
  induction parts generalizing bindings with
  | nil => rfl
  | cons first rest ih =>
      cases rest with
      | nil => simp [charsOfEach]
      | cons second rest =>
          have hrest : charsOfEach (second :: rest) (first.bound bindings) ≠ [] := by
            simp [charsOfEach]
          have hparts : charsOfEach (first :: second :: rest) bindings =
              first.chars bindings :: charsOfEach (second :: rest) (first.bound bindings) := rfl
          rw [join_cons_cons, chars_append, chars_text_cons, ih, hparts,
            List.intercalate_cons_of_ne_nil hrest, List.append_assoc]

end Fragment

end FilterSql
