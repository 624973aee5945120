import FilterSql.Proofs.Sql.Trees

/-!
# Cutting text at connectives

A reader that knows literals and round brackets cuts a text at the connectives
that stand outside of both.  What a scan passes at depth zero is never cut.
-/

namespace FilterSql

/-! ## Brackets outside literals -/

/-- Whether a reader is in a literal, and how many brackets it is in. -/
structure Nesting where
  quoted : Bool
  depth : Nat
  deriving DecidableEq, Repr

namespace Nesting

def top : Nesting := ⟨false, 0⟩

def step (nesting : Nesting) (c : Char) : Option Nesting :=
  if c = '\'' then some { nesting with quoted := !nesting.quoted }
  else if nesting.quoted then some nesting
  else if c = '(' then some { nesting with depth := nesting.depth + 1 }
  else if c = ')' then
    if nesting.depth = 0 then none else some { nesting with depth := nesting.depth - 1 }
  else some nesting

def advance (nesting : Nesting) (c : Char) : Nesting := (nesting.step c).getD nesting

end Nesting

/-- Outside literals brackets never close more than is open, and in the end all are closed. -/
def IsNested (text : List Char) : Prop := text.foldlM Nesting.step .top = some .top

instance (text : List Char) : Decidable (IsNested text) :=
  inferInstanceAs (Decidable (_ = _))

theorem IsNested.append {first second : List Char} (hfirst : IsNested first)
    (hsecond : IsNested second) : IsNested (first ++ second) := by
  rw [IsNested, List.foldlM_append, hfirst]
  exact hsecond

theorem isNested_intercalate {separator : List Char} (hseparator : IsNested separator)
    {parts : List (List Char)} (h : ∀ part ∈ parts, IsNested part) :
    IsNested (List.intercalate separator parts) :=
  intercalate_induction IsNested rfl IsNested.append hseparator h

/-! ## Cuts -/

/-- The pieces of a text between the separators outside literals and brackets, after `skip`
characters of the last separator. -/
def cut (separator : List Char) : Nat → Nesting → List Char → List (List Char)
  | _, _, [] => [[]]
  | skip + 1, nesting, _ :: rest => cut separator skip nesting rest
  | 0, nesting, c :: rest =>
    if nesting = .top ∧ separator <+: c :: rest then
      [] :: cut separator (separator.length - 1) nesting rest
    else (cut separator 0 (nesting.advance c) rest).modifyHead (c :: ·)

def IsUncut (separator text : List Char) : Prop :=
  ∀ rest, cut separator 0 .top (text ++ rest) =
    (cut separator 0 .top rest).modifyHead (text ++ ·)

section Cut

variable {separator : List Char}

theorem IsUncut.cut_eq {text : List Char} (h : IsUncut separator text) :
    cut separator 0 .top text = [text] := by
  simpa [cut] using h []

private theorem cut_skip (nesting : Nesting) (skipped rest : List Char) :
    cut separator skipped.length nesting (skipped ++ rest) = cut separator 0 nesting rest := by
  induction skipped with
  | nil => rfl
  | cons c skipped ih => exact ih

private theorem cut_separator (h : separator ≠ []) (rest : List Char) :
    cut separator 0 .top (separator ++ rest) = [] :: cut separator 0 .top rest := by
  cases hseparator : separator with
  | nil => exact absurd hseparator h
  | cons c skipped =>
      have hprefix : c :: skipped <+: c :: (skipped ++ rest) := List.prefix_append _ _
      rw [List.cons_append, cut, if_pos ⟨rfl, hprefix⟩]
      exact congrArg ([] :: ·) (cut_skip .top skipped rest)

/-- Parts that are not cut themselves are what a cut gives. -/
theorem cut_intercalate (hseparator : separator ≠ []) {parts : List (List Char)}
    (hparts : parts ≠ []) (h : ∀ part ∈ parts, IsUncut separator part) :
    cut separator 0 .top (List.intercalate separator parts) = parts := by
  induction parts with
  | nil => exact absurd rfl hparts
  | cons first rest ih =>
      have hfirst := h first List.mem_cons_self
      cases rest with
      | nil => simpa using hfirst.cut_eq
      | cons second rest =>
          have hrest := ih (by simp) fun part hpart => h part (List.mem_cons_of_mem _ hpart)
          rw [List.intercalate_cons_cons, List.append_assoc, hfirst,
            cut_separator hseparator, hrest]
          simp

theorem length_le_of_mem_cut {skip : Nat} {nesting : Nesting} {text piece : List Char}
    (h : piece ∈ cut separator skip nesting text) : piece.length ≤ text.length := by
  induction text generalizing skip nesting piece with
  | nil =>
      cases skip <;> simp_all [cut]
  | cons c rest ih =>
      cases skip with
      | succ skip => exact Nat.le_succ_of_le (ih h)
      | zero =>
          rw [cut] at h
          split at h
          · rcases List.mem_cons.mp h with rfl | h
            · exact Nat.zero_le _
            · exact Nat.le_succ_of_le (ih h)
          · cases hpieces : cut separator 0 (nesting.advance c) rest with
            | nil => simp [hpieces] at h
            | cons first pieces =>
                rw [hpieces, List.modifyHead_cons] at h
                rcases List.mem_cons.mp h with rfl | h
                · have hfirst := ih (hpieces ▸ List.mem_cons_self)
                  simpa using hfirst
                · exact Nat.le_succ_of_le (ih (hpieces ▸ List.mem_cons_of_mem _ h))

end Cut

/-! ## Scanned text is not cut -/

namespace Place

def nesting : Place → Nesting
  | .outside depth | .hyphen depth | .identifier depth => ⟨false, depth⟩
  | .spaced => .top
  | .literal depth => ⟨true, depth⟩

variable {rules : ScanRules} {place next : Place} {c : Char}

private theorem nesting_of_enter {depth : Nat} (h : enter rules depth (.ofChar c) = some next) :
    Nesting.step ⟨false, depth⟩ c = some next.nesting := by
  unfold Nesting.step
  simp only [← Glyph.ofChar_eq_quote, ← Glyph.ofChar_eq_opening, ← Glyph.ofChar_eq_closing]
  generalize Glyph.ofChar c = glyph at h
  cases glyph with
  | closing =>
      cases depth <;> cases h
      rfl
  | doubleQuote =>
      by_cases hpaired : rules.paired
      · rw [enter, if_pos hpaired] at h
        cases h
        rfl
      · rw [enter, if_neg hpaired] at h
        cases h
        rfl
  | blank =>
      cases depth <;> cases h <;> rfl
  | token =>
      simp only [enter] at h
      split at h <;> cases h
      rfl
  | quote | opening | hyphen | word =>
      cases h
      rfl
  | other => cases h

theorem nesting_of_step (h : place.step rules c = some next) :
    place.nesting.step c = some next.nesting := by
  cases isStep_of_step h with
  | outside henter => exact nesting_of_enter henter
  | spaced _ henter => exact nesting_of_enter henter
  | arrow hc =>
      subst hc
      rfl
  | unquote hquote =>
      subst hquote
      rfl
  | literal hquote => simp [nesting, Nesting.step, hquote]
  | unname hquote =>
      subst hquote
      rfl
  | name _ hdotted =>
      have hne (d : Char) (hd : Identifier.isDotted d = false) : c ≠ d :=
        ne_of_alphabet hdotted hd
      simp [nesting, Nesting.step, hne '\'' (by decide), hne '(' (by decide),
        hne ')' (by decide)]

end Place

section Scan

variable {rules : ScanRules} {place last : Place} {text : List Char}

private theorem foldlM_step_of_scan (h : scan rules place text = some last) :
    text.foldlM Nesting.step place.nesting = some last.nesting := by
  induction text generalizing place with
  | nil =>
      cases h
      rfl
  | cons c rest ih =>
      obtain ⟨next, hstep, hrest⟩ := scan_cons_eq_some_iff.mp h
      rw [List.foldlM_cons, Place.nesting_of_step hstep]
      exact ih hrest

theorem isNested_of_scan (h : scan rules (.outside 0) text = some (.outside 0)) :
    IsNested text :=
  foldlM_step_of_scan h

private theorem not_connective_of_scan {letter : Char} (hletter : letter = 'a' ∨ letter = 'o')
    {separator rest : List Char} {c : Char} (hplace : place.nesting = .top)
    (h : scan rules place (c :: text) = some last) (hlast : last ≠ .spaced) :
    ¬ (' ' :: letter :: separator <+: c :: (text ++ rest)) := by
  intro hprefix
  obtain ⟨hblank, hletters⟩ := List.cons_prefix_cons.mp hprefix
  subst hblank
  obtain ⟨next, hstep, htext⟩ := scan_cons_eq_some_iff.mp h
  have hnext : next = .spaced := by
    cases place with
    | outside depth =>
        cases hplace
        cases hstep
        rfl
    | literal => cases hplace
    | spaced | hyphen | identifier => cases hstep
  subst hnext
  -- After the blank the scan refuses the letters that connectives begin with.
  cases text with
  | nil =>
      cases htext
      exact hlast rfl
  | cons d text =>
      obtain ⟨rfl, -⟩ := List.cons_prefix_cons.mp hletters
      rw [scan_cons, Place.step, if_pos (by rcases hletter with rfl | rfl <;> simp)] at htext
      cases htext

theorem cut_append_of_scan {letter : Char} (hletter : letter = 'a' ∨ letter = 'o')
    {separator : List Char} (h : scan rules place text = some last) (hlast : last ≠ .spaced)
    (rest : List Char) :
    cut (' ' :: letter :: separator) 0 place.nesting (text ++ rest) =
      (cut (' ' :: letter :: separator) 0 last.nesting rest).modifyHead (text ++ ·) := by
  induction text generalizing place with
  | nil =>
      cases h
      exact (congrFun List.modifyHead_id _).symm
  | cons c text ih =>
      have hhere : ¬ (place.nesting = .top ∧
          ' ' :: letter :: separator <+: c :: (text ++ rest)) := fun ⟨hplace, hprefix⟩ =>
        not_connective_of_scan hletter hplace h hlast hprefix
      obtain ⟨next, hstep, htext⟩ := scan_cons_eq_some_iff.mp h
      rw [List.cons_append, cut, if_neg hhere, Nesting.advance, Place.nesting_of_step hstep,
        Option.getD_some, ih htext, List.modifyHead_modifyHead]
      rfl

end Scan

/-! ## Texts that begin differently -/

/-- Neither text begins with the other, so that they differ whatever follows them. -/
def Clashes (keyword text : List Char) : Prop := ¬ keyword <+: text ∧ ¬ text <+: keyword

instance (keyword text : List Char) : Decidable (Clashes keyword text) :=
  inferInstanceAs (Decidable (_ ∧ _))

theorem Clashes.append {keyword text : List Char} (h : Clashes keyword text)
    (rest : List Char) : Clashes keyword (text ++ rest) := by
  constructor
  · intro hkeyword
    rcases List.prefix_or_prefix_of_prefix hkeyword (List.prefix_append text rest) with hp | hp
    · exact h.1 hp
    · exact h.2 hp
  · intro htext
    exact h.2 ((List.prefix_append text rest).trans htext)

/-! ## Connectives -/

def conjunctionMark : List Char := [' ', 'a', 'n', 'd', ' ']

def disjunctionMark : List Char := [' ', 'o', 'r', ' ']

def cutAnd (text : List Char) : List (List Char) := cut conjunctionMark 0 .top text

def cutOr (text : List Char) : List (List Char) := cut disjunctionMark 0 .top text

section Connectives

variable {rules : ScanRules} {text : List Char}

theorem isUncut_conjunction_of_scan (h : scan rules (.outside 0) text = some (.outside 0)) :
    IsUncut conjunctionMark text :=
  cut_append_of_scan (.inl rfl) h nofun

theorem isUncut_disjunction_of_scan (h : scan rules (.outside 0) text = some (.outside 0)) :
    IsUncut disjunctionMark text :=
  cut_append_of_scan (.inr rfl) h nofun

/-- The text does not go on with a disjunction, whatever blank stands before it. -/
private theorem cut_disjunction_conjunctionMark (rest : List Char)
    (h : ¬ ['o', 'r', ' '] <+: rest) :
    cut disjunctionMark 0 .top (conjunctionMark ++ rest) =
      (cut disjunctionMark 0 .top rest).modifyHead (conjunctionMark ++ ·) := by
  simp [conjunctionMark, cut, disjunctionMark, Nesting.advance, Nesting.step, Nesting.top, h,
    Function.comp_def]

theorem isUncut_disjunction_intercalate {parts : List (List Char)}
    (h : ∀ part ∈ parts, IsUncut disjunctionMark part)
    (hbegins : ∀ part ∈ parts, Clashes ['o', 'r', ' '] part) :
    IsUncut disjunctionMark (List.intercalate conjunctionMark parts) := by
  induction parts with
  | nil => exact fun rest => (congrFun List.modifyHead_id _).symm
  | cons first rest ih =>
      have hfirst := h first List.mem_cons_self
      cases rest with
      | nil => simpa using hfirst
      | cons second rest =>
          have hrest := ih (fun part hpart => h part (List.mem_cons_of_mem _ hpart))
            fun part hpart => hbegins part (List.mem_cons_of_mem _ hpart)
          obtain ⟨after, hafter⟩ := exists_intercalate_cons conjunctionMark second rest
          intro tail
          -- The blank that ends the conjunction could begin a disjunction with the next part.
          have hclash : Clashes ['o', 'r', ' ']
              (List.intercalate conjunctionMark (second :: rest) ++ tail) := by
            rw [hafter, List.append_assoc]
            exact (hbegins second (by simp)).append _
          rw [List.intercalate_cons_cons, List.append_assoc, List.append_assoc, hfirst,
            cut_disjunction_conjunctionMark _ hclash.1, hrest, List.modifyHead_modifyHead,
            List.modifyHead_modifyHead]
          simp [Function.comp_def]

end Connectives

end FilterSql
