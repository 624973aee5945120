import FilterSql.Filter.Qualify
import FilterSql.Proofs.Sql.Names

/-!
# Qualified names

A qualified key is put in double quotes before it is cut down to the alphabet of
names.  The quoted table comes through as it is, but the quotes around the key hide
its first character from the rule for digits, and stand in the first and last of its
parts between dots.  So the column comes out as it does alone if and only if the key
is a simple name.
-/

namespace FilterSql

namespace Identifier

/-! ## Names that are kept as they are -/

theorem guardDigit_of_head? {text : List Char} (h : ∀ c ∈ text.head?, ¬ c.isDigit) :
    guardDigit text = text := by
  cases text with
  | nil => rfl
  | cons c rest => rw [guardDigit, if_neg (h c rfl)]

theorem sanitizeWith_eq_self {keeps : Char → Bool} {name : List Char}
    (hkept : ∀ c ∈ name, keeps c) (hhead : ∀ c ∈ name.head?, ¬ c.isDigit) :
    sanitizeWith keeps name = name := by
  rw [sanitizeWith, List.filter_eq_self.mpr hkept, guardDigit_of_head? hhead]

/-! ## Names with a first part -/

theorem segments_append_dot {part : List Char} (h : '.' ∉ part) (rest : List Char) :
    segments (part ++ '.' :: rest) = part :: segments rest := by
  rw [segments_eq_splitOn, segments_eq_splitOn, List.splitOn_append_cons_self_of_not_mem h]

theorem quoteChars_of_not_mem {name : List Char} (h : '.' ∉ name) :
    quoteChars name = quoteSegment name := by
  rw [quoteChars, segments_of_not_mem h, List.map_singleton, List.intercalate_singleton]

theorem quoteChars_append_dot {part : List Char} (h : '.' ∉ part) (rest : List Char) :
    quoteChars (part ++ '.' :: rest) = quoteSegment part ++ '.' :: quoteChars rest := by
  have hrest : (segments rest).map quoteSegment ≠ [] := by
    simpa using segments_ne_nil rest
  rw [quoteChars, segments_append_dot h, List.map_cons, List.intercalate_cons_of_ne_nil hrest,
    List.append_assoc, List.singleton_append, quoteChars]

theorem quoteSegment_of_mem {part : List Char} (h : '"' ∈ part) : quoteSegment part = part :=
  if_pos h

theorem quoteSegment_of_not_mem {part : List Char} (h : '"' ∉ part) :
    quoteSegment part = '"' :: part ++ ['"'] :=
  if_neg h

theorem dot_not_mem_quoteSegment {part : List Char} (h : '.' ∉ part) :
    '.' ∉ quoteSegment part := by
  unfold quoteSegment
  split
  · exact h
  · simpa using h

/-! ## Quotes around a key -/

theorem mem_guardDigit {c : Char} (hc : c ≠ '_') (text : List Char) :
    c ∈ guardDigit text ↔ c ∈ text := by
  rcases guardDigit_eq text with h | h <;> simp [h, hc]

theorem guardDigit_eq_self_iff {text : List Char} :
    guardDigit text = text ↔ ∀ c ∈ text.head?, ¬ c.isDigit := by
  constructor
  · intro h c hc
    rw [← h] at hc
    exact not_isDigit_of_head?_guardDigit hc
  · exact guardDigit_of_head?

theorem guardDigit_append_dot (part rest : List Char) :
    guardDigit (part ++ '.' :: rest) = guardDigit part ++ '.' :: rest := by
  cases part with
  | nil => rfl
  | cons c part => by_cases hc : c.isDigit <;> simp [guardDigit, hc]

private theorem cons_ne_quoteSegment (part : List Char) :
    '"' :: part ≠ quoteSegment (guardDigit part) := by
  intro h
  by_cases hquote : '"' ∈ guardDigit part
  · rw [quoteSegment_of_mem hquote] at h
    rcases guardDigit_eq part with hguard | hguard <;> rw [hguard] at h
    · exact List.cons_ne_self _ _ h
    · cases h
  · rw [quoteSegment_of_not_mem hquote] at h
    have hlength := congrArg List.length h
    rcases guardDigit_eq part with hguard | hguard <;> simp [hguard] at hlength

theorem quoteChars_enclosed_eq_iff (kept : List Char) :
    quoteChars ('"' :: kept ++ ['"']) = quoteChars (guardDigit kept) ↔
      '.' ∉ kept ∧ '"' ∉ kept ∧ ∀ c ∈ kept.head?, ¬ c.isDigit := by
  by_cases hdot : '.' ∈ kept
  · -- The first parts differ already.
    obtain ⟨part, rest, rfl, hpart⟩ := List.eq_append_cons_of_mem hdot
    have hquoted : '.' ∉ '"' :: part := by simpa using hpart
    have hguarded : '.' ∉ guardDigit part := by rwa [mem_guardDigit (by decide)]
    have hwrapped : '"' :: (part ++ '.' :: rest) ++ ['"'] =
        ('"' :: part) ++ '.' :: (rest ++ ['"']) := by
      simp
    rw [hwrapped, guardDigit_append_dot, quoteChars_append_dot hquoted,
      quoteChars_append_dot hguarded, quoteSegment_of_mem List.mem_cons_self]
    constructor
    · intro h
      have hparts := congrArg segments h
      rw [segments_append_dot hquoted, segments_append_dot (dot_not_mem_quoteSegment hguarded)]
        at hparts
      exact absurd (List.cons.inj hparts).1 (cons_ne_quoteSegment part)
    · rintro ⟨hnone, -⟩
      exact absurd hdot hnone
  · have henclosed : '.' ∉ '"' :: kept ++ ['"'] := by simpa using hdot
    have hguarded : '.' ∉ guardDigit kept := by rwa [mem_guardDigit (by decide)]
    rw [quoteChars_of_not_mem henclosed, quoteChars_of_not_mem hguarded,
      quoteSegment_of_mem (by simp)]
    by_cases hquote : '"' ∈ kept
    · rw [quoteSegment_of_mem (by rwa [mem_guardDigit (by decide)])]
      constructor
      · intro h
        have hlength := congrArg List.length h
        rcases guardDigit_eq kept with hguard | hguard <;>
          simp only [hguard, List.length_append, List.length_cons, List.length_nil] at hlength <;>
          omega
      · rintro ⟨-, hnone, -⟩
        exact absurd hquote hnone
    · rw [quoteSegment_of_not_mem (by rwa [mem_guardDigit (by decide)])]
      simp only [List.cons_append, List.cons.injEq, true_and, List.append_cancel_right_eq]
      rw [eq_comm, guardDigit_eq_self_iff]
      exact ⟨fun h => ⟨hdot, hquote, h⟩, fun h => h.2.2⟩

end Identifier

/-! ## Simple and plain names -/

/-- Free of dots and double quotes, and the first character that is kept of it is no digit. -/
def IsSimpleName (name : String) : Prop :=
  '.' ∉ name.toList ∧ '"' ∉ name.toList ∧
    ∀ c ∈ name.toList.find? Identifier.isDotted, ¬ c.isDigit

instance (name : String) : Decidable (IsSimpleName name) :=
  decidable_of_iff ('.' ∉ name.toList ∧ '"' ∉ name.toList ∧
      (name.toList.find? Identifier.isDotted).all (!·.isDigit))
    (by simp [IsSimpleName, Option.all_eq_true])

def IsPlainName (name : String) : Prop :=
  (∀ c ∈ name.toList, Identifier.isPlain c) ∧ ∀ c ∈ name.toList.head?, ¬ c.isDigit

instance (name : String) : Decidable (IsPlainName name) :=
  decidable_of_iff (name.toList.all Identifier.isPlain ∧ name.toList.head?.all (!·.isDigit))
    (by simp [IsPlainName, Option.all_eq_true])

theorem IsPlainName.sanitize_eq {name : String} (h : IsPlainName name) : sanitize name = name := by
  rw [sanitize, Identifier.sanitizeWith_eq_self h.1 h.2, String.ofList_toList]

theorem isPlainName_sanitize (name : String) : IsPlainName (sanitize name) := by
  refine ⟨isPlain_of_mem_sanitize name, fun c hc => ?_⟩
  rw [sanitize, String.toList_ofList] at hc
  exact Identifier.not_isDigit_of_head?_guardDigit hc

@[simp] theorem sanitize_sanitize (name : String) : sanitize (sanitize name) = sanitize name :=
  (isPlainName_sanitize name).sanitize_eq

theorem IsPlainName.not_mem {name : String} (h : IsPlainName name) {c : Char}
    (hc : ¬ Identifier.isPlain c) : c ∉ name.toList :=
  fun hmem => hc (h.1 c hmem)

theorem IsPlainName.isSimpleName {name : String} (h : IsPlainName name) : IsSimpleName name := by
  refine ⟨h.not_mem (by decide), h.not_mem (by decide), ?_⟩
  have hkept : name.toList.filter Identifier.isDotted = name.toList :=
    List.filter_eq_self.mpr fun c hc => Identifier.isDotted_of_isPlain (h.1 c hc)
  rw [← List.head?_filter, hkept]
  exact h.2

/-! ## Qualified names -/

theorem nameRef_eq (name : String) : nameRef name = "\"" ++ sanitize name ++ "\"" := by
  apply String.toList_injective
  simp [toList_nameRef]

@[simp] theorem nameRef_sanitize (name : String) : nameRef (sanitize name) = nameRef name := by
  rw [nameRef_eq, nameRef_eq, sanitize_sanitize]

def quotedKey (key : String) : String :=
  quote ("\"" ++ String.ofList (key.toList.filter Identifier.isDotted) ++ "\"")

private theorem filter_qualifiedKey {table : String} (h : IsPlainName table) (key : String) :
    (qualifiedKey table key).toList.filter Identifier.isDotted =
      ('"' :: table.toList ++ ['"']) ++
        '.' :: ('"' :: key.toList.filter Identifier.isDotted ++ ['"']) := by
  have htable : table.toList.filter Identifier.isDotted = table.toList :=
    List.filter_eq_self.mpr fun c hc => Identifier.isDotted_of_isPlain (h.1 c hc)
  have hquote : Identifier.isDotted '"' := rfl
  have hdot : Identifier.isDotted '.' := rfl
  simp [qualifiedKey, htable, hquote, hdot]

theorem columnRef_qualifiedKey {table : String} (h : IsPlainName table) (key : String) :
    columnRef (qualifiedKey table key) = "\"" ++ table ++ "\"." ++ quotedKey key := by
  have hdot : '.' ∉ '"' :: table.toList ++ ['"'] := by
    have htable : '.' ∉ table.toList := h.not_mem (by decide)
    simpa using htable
  have hguard : Identifier.sanitizeWith Identifier.isDotted (qualifiedKey table key).toList =
      ('"' :: table.toList ++ ['"']) ++
        '.' :: ('"' :: key.toList.filter Identifier.isDotted ++ ['"']) := by
    rw [Identifier.sanitizeWith, filter_qualifiedKey h]
    rfl
  apply String.toList_injective
  simp only [columnRef, quote, sanitizeDotted, String.toList_ofList]
  rw [hguard, Identifier.quoteChars_append_dot hdot, Identifier.quoteSegment_of_mem (by simp)]
  simp [quotedKey, quote]

/-- A qualified key names the column that it names alone if and only if it is a simple name. -/
theorem columnRef_qualifiedKey_eq_iff {table : String} (h : IsPlainName table) (key : String) :
    columnRef (qualifiedKey table key) = "\"" ++ table ++ "\"." ++ columnRef key ↔
      IsSimpleName key := by
  have hmem {c : Char} (hc : Identifier.isDotted c) :
      c ∈ key.toList.filter Identifier.isDotted ↔ c ∈ key.toList := by
    simp [hc]
  have hcolumn : quotedKey key = columnRef key ↔
      Identifier.quoteChars ('"' :: key.toList.filter Identifier.isDotted ++ ['"']) =
        Identifier.quoteChars (Identifier.guardDigit (key.toList.filter Identifier.isDotted)) := by
    rw [← String.toList_inj]
    simp [quotedKey, columnRef, quote, sanitizeDotted, Identifier.sanitizeWith]
  rw [columnRef_qualifiedKey h, String.append_right_inj, hcolumn,
    Identifier.quoteChars_enclosed_eq_iff, hmem rfl, hmem rfl, List.head?_filter, IsSimpleName]

end FilterSql
