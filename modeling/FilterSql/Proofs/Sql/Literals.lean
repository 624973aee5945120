import Mathlib.Algebra.Group.Nat.Even
import FilterSql.Proofs.Sql.Trees

/-!
# Outside and inside literals

A position of a text is outside literals when an even number of single quotes
stands before it.  A scan agrees: it is in a literal exactly at the positions that
are not outside.
-/

namespace FilterSql

/-! ## Literals of a scan -/

namespace Place

def isLiteral : Place → Bool
  | .literal _ => true
  | _ => false

variable {rules : ScanRules} {place next : Place} {c : Char}

private theorem isLiteral_of_enter {depth : Nat} {glyph : Glyph}
    (h : enter rules depth glyph = some next) : next.isLiteral = decide (glyph = .quote) := by
  cases glyph with
  | quote =>
      cases h
      rfl
  | closing =>
      cases depth <;> cases h
      rfl
  | doubleQuote | blank =>
      cases h
      split <;> rfl
  | token =>
      simp only [enter] at h
      split at h <;> cases h
      rfl
  | opening | hyphen | word =>
      cases h
      rfl
  | other => cases h

theorem isLiteral_of_step (h : place.step rules c = some next) :
    next.isLiteral = (place.isLiteral ^^ decide (c = '\'')) := by
  cases isStep_of_step h with
  | outside henter => simpa [isLiteral, Glyph.ofChar_eq_quote] using isLiteral_of_enter henter
  | spaced _ henter => simpa [isLiteral, Glyph.ofChar_eq_quote] using isLiteral_of_enter henter
  | arrow hc =>
      subst hc
      rfl
  | unquote hquote =>
      subst hquote
      rfl
  | literal hquote => simp [isLiteral, hquote]
  | unname hquote =>
      subst hquote
      rfl
  | name _ hdotted =>
      have hne : c ≠ '\'' := ne_of_alphabet hdotted (by decide)
      simp [isLiteral, hne]

end Place

/-! ## Positions -/

def IsOutside (before : List Char) : Prop := Even (before.count '\'')

instance (before : List Char) : Decidable (IsOutside before) :=
  inferInstanceAs (Decidable (Even _))

@[simp] theorem isOutside_nil : IsOutside [] := by
  simp [IsOutside]

theorem isOutside_cons {c : Char} {before : List Char} :
    IsOutside (c :: before) ↔ (IsOutside before ↔ c ≠ '\'') := by
  by_cases hc : c = '\'' <;> simp [IsOutside, hc, Nat.even_add_one]

section Scan

variable {rules : ScanRules} {place last : Place}

theorem isLiteral_of_scan {text : List Char} (h : scan rules place text = some last) :
    last.isLiteral = place.isLiteral ↔ IsOutside text := by
  induction text generalizing place with
  | nil =>
      cases h
      simp
  | cons c rest ih =>
      obtain ⟨next, hstep, hrest⟩ := scan_cons_eq_some_iff.mp h
      rw [isOutside_cons, ← ih hrest, Place.isLiteral_of_step hstep]
      by_cases hc : c = '\'' <;> cases place.isLiteral <;> cases last.isLiteral <;> simp [hc]

end Scan

/-! ## Marks outside literals -/

/-- What follows each of the marks of a text that stand outside literals. -/
def afterMarks (mark : Char) (quoted : Bool) : List Char → List (List Char)
  | [] => []
  | c :: rest =>
    if c = '\'' then afterMarks mark (!quoted) rest
    else if c = mark ∧ ¬ quoted then rest :: afterMarks mark quoted rest
    else afterMarks mark quoted rest

theorem Place.ofChar_ne_token {paired : Bool} {place next : Place} {c : Char}
    (h : place.step (.pieces paired) c = some next) (hplace : place.isLiteral = false) :
    Glyph.ofChar c ≠ .token := by
  intro hc
  cases isStep_of_step h with
  | outside henter | spaced _ henter =>
      rw [hc] at henter
      cases henter
  | arrow hgreater =>
      subst hgreater
      cases hc
  | unquote | literal => cases hplace
  | unname hquote =>
      subst hquote
      cases hc
  | name hquote hdotted =>
      rw [ofChar_of_isDotted hdotted hquote] at hc
      cases hc

/-- A scanned piece has no marks of tokens outside its literals. -/
theorem afterMarks_of_scan {paired : Bool} {mark : Char} (hmark : Glyph.ofChar mark = .token)
    {place last : Place} {text : List Char}
    (h : scan (.pieces paired) place text = some last) (rest : List Char) :
    afterMarks mark place.isLiteral (text ++ rest) = afterMarks mark last.isLiteral rest := by
  induction text generalizing place with
  | nil =>
      cases h
      rfl
  | cons c text ih =>
      obtain ⟨next, hstep, htext⟩ := scan_cons_eq_some_iff.mp h
      have hnext := Place.isLiteral_of_step hstep
      have hhere : ¬ (c = mark ∧ ¬ place.isLiteral) := by
        rintro ⟨rfl, hplace⟩
        exact Place.ofChar_ne_token hstep (by simpa using hplace) hmark
      rw [List.cons_append, afterMarks, ← ih htext]
      by_cases hc : c = '\''
      · rw [if_pos hc, hnext]
        simp [hc]
      · rw [if_neg hc, if_neg hhere, hnext]
        simp [hc]

end FilterSql
