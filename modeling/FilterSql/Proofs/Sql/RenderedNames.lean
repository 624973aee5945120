import FilterSql.Proofs.Sql.QualifiedNames
import Mathlib.Data.List.Forall2

/-!
# Names that are rendered again

The text of a name can become a name once more: behind an alias, or when a caller quotes a name
beforehand.  Rendering leaves such a text as it is, for no character of it is dropped, no digit
stands in front, and every part between its dots holds a double quote.
-/

namespace FilterSql

namespace Identifier

/-! ## Parts between dots -/

theorem segments_quoteChars (name : List Char) :
    segments (quoteChars name) = (segments name).map quoteSegment := by
  rw [segments_eq_splitOn, quoteChars]
  apply List.splitOn_intercalate
  · intro text htext
    obtain ⟨part, hpart, rfl⟩ := List.mem_map.mp htext
    exact dot_not_mem_quoteSegment (dot_not_mem_of_mem_segments hpart)
  · simp [segments_ne_nil]

/-! ## Quotes around quoted parts -/

theorem quoteSegment_quoteSegment (part : List Char) :
    quoteSegment (quoteSegment part) = quoteSegment part :=
  quoteSegment_of_mem (doubleQuote_mem_quoteSegment part)

theorem quoteChars_quoteChars (name : List Char) :
    quoteChars (quoteChars name) = quoteChars name := by
  rw [quoteChars, segments_quoteChars, List.map_map]
  simp [Function.comp_def, quoteSegment_quoteSegment, quoteChars]

/-- How a part of a name stands in its text: in double quotes, unless it holds one already. -/
inductive IsQuoted : List Char → List Char → Prop
  | already {part : List Char} (h : '"' ∈ part) : IsQuoted part part
  | enclosed {part : List Char} (h : '"' ∉ part) : IsQuoted part ('"' :: part ++ ['"'])

theorem isQuoted_quoteSegment (part : List Char) : IsQuoted part (quoteSegment part) := by
  by_cases h : '"' ∈ part
  · rw [quoteSegment_of_mem h]
    exact .already h
  · rw [quoteSegment_of_not_mem h]
    exact .enclosed h

theorem isQuoted_splitOn (name : List Char) :
    List.Forall₂ IsQuoted (name.splitOn '.') ((quoteChars name).splitOn '.') := by
  rw [← segments_eq_splitOn, ← segments_eq_splitOn, segments_quoteChars]
  apply List.forall₂_map_right_iff.mpr
  exact List.forall₂_same.mpr fun part _ => isQuoted_quoteSegment part

/-! ## Characters of words -/

def IsWordChar (c : Char) : Prop := c.isAlpha ∨ c.isDigit ∨ c = '_'

theorem isPlain_iff {c : Char} : isPlain c ↔ IsWordChar c := by
  simp [isPlain, Char.isAlphanum, IsWordChar, or_assoc]

theorem isDotted_iff {c : Char} : isDotted c ↔ IsWordChar c ∨ c = '.' ∨ c = '"' := by
  simp [isDotted, isPlain_iff, or_assoc]

theorem guardDigit_eq_nil_iff {text : List Char} : guardDigit text = [] ↔ text = [] := by
  cases text with
  | nil => simp [guardDigit]
  | cons c rest => by_cases hc : c.isDigit <;> simp [guardDigit, hc]

theorem sanitizeWith_eq_nil_iff {keeps : Char → Bool} {name : List Char} :
    sanitizeWith keeps name = [] ↔ ∀ c ∈ name, ¬ keeps c := by
  rw [sanitizeWith, guardDigit_eq_nil_iff, List.filter_eq_nil_iff]

end Identifier

open Identifier

/-! ## Texts of columns -/

structure IsColumnText (name text : String) : Prop where
  sanitized : sanitizeDotted text = text
  quoted : quote text = text
  alphabet : ∀ c ∈ text.toList, IsWordChar c ∨ c = '.' ∨ c = '"'
  start : ∀ c ∈ text.toList.head?, ¬ c.isDigit
  parts : List.Forall₂ IsQuoted ((sanitizeDotted name).toList.splitOn '.') (text.toList.splitOn '.')

theorem sanitizeDotted_eq_self {name : String} (halphabet : ∀ c ∈ name.toList, isDotted c)
    (hstart : ∀ c ∈ name.toList.head?, ¬ c.isDigit) : sanitizeDotted name = name := by
  rw [sanitizeDotted, sanitizeWith_eq_self halphabet hstart, String.ofList_toList]

theorem sanitizeDotted_sanitizeDotted (name : String) :
    sanitizeDotted (sanitizeDotted name) = sanitizeDotted name := by
  apply sanitizeDotted_eq_self
  · intro c hc
    rw [sanitizeDotted, String.toList_ofList] at hc
    exact keeps_of_mem_sanitizeWith rfl hc
  · intro c hc
    rw [sanitizeDotted, String.toList_ofList] at hc
    exact not_isDigit_of_head?_guardDigit hc

theorem quote_quote (name : String) : quote (quote name) = quote name := by
  simp [quote, quoteChars_quoteChars]

theorem isColumnText_columnRef (name : String) : IsColumnText name (columnRef name) := by
  have halphabet := isDotted_of_mem_columnRef name
  have hstart : ∀ c ∈ (columnRef name).toList.head?, ¬ c.isDigit := by
    obtain ⟨c, after, htext, hc⟩ := exists_columnRef_cons name
    simpa [htext] using hc
  have hparts := isQuoted_splitOn (sanitizeDotted name).toList
  exact
    { sanitized := sanitizeDotted_eq_self halphabet hstart
      quoted := quote_quote (sanitizeDotted name)
      alphabet := fun c hc => isDotted_iff.mp (halphabet c hc)
      start := hstart
      parts := by simpa [columnRef, quote] using hparts }

/-! ## Texts of single names -/

/-- The text that stands for a name in plain form: a word in double quotes, which is empty if
the name has no character of words. -/
def IsNameText (name text : String) : Prop :=
  ∃ word, text.toList = '"' :: word ++ ['"'] ∧ (∀ c ∈ word, IsWordChar c) ∧
    (∀ c ∈ word.head?, ¬ c.isDigit) ∧ (word = [] ↔ ∀ c ∈ name.toList, ¬ IsWordChar c)

theorem isNameText_nameRef (name : String) : IsNameText name (nameRef name) := by
  obtain ⟨hplain, hstart⟩ := isPlainName_sanitize name
  have hempty : (sanitize name).toList = [] ↔ ∀ c ∈ name.toList, ¬ IsWordChar c := by
    rw [sanitize, String.toList_ofList, sanitizeWith_eq_nil_iff]
    simp only [isPlain_iff]
  exact ⟨(sanitize name).toList, toList_nameRef name, fun c hc => isPlain_iff.mp (hplain c hc),
    hstart, hempty⟩

/-- Sanitizing twice is sanitizing once, and the text of a name is its own text. -/
theorem rendering_stable (name : String) :
    IsColumnText name (columnRef name) ∧ IsNameText name (nameRef name) ∧
      sanitize (sanitize name) = sanitize name ∧
      sanitizeDotted (sanitizeDotted name) = sanitizeDotted name :=
  ⟨isColumnText_columnRef name, isNameText_nameRef name, sanitize_sanitize name,
    sanitizeDotted_sanitizeDotted name⟩

end FilterSql
