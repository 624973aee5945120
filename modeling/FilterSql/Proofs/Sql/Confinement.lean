import FilterSql.Proofs.Sql.Emission
import FilterSql.Proofs.Sql.Literals

/-!
# Compiled text is confined

Whatever the names, paths, terms and settings of a filter hold, its text closes the
literals it opens and keeps to a small alphabet outside them.  Hostile input may
change the names and literals that the text has, but not what lies between them.
-/

namespace FilterSql

/-- The characters of compiled text outside literals. -/
def isCodeChar (c : Char) : Bool :=
  c.isAlphanum ||
    c ∈ [' ', '\'', '_', '.', '"', '(', ')', '=', '<', '>', '|', '@', ',', '?', '$', ':', '-']

/-- What no name, path or term can break. -/
structure IsConfined (text : List Char) : Prop where
  closed : IsOutside text
  alphabet {before after : List Char} {c : Char} :
    text = before ++ c :: after → IsOutside before → isCodeChar c
  noSeparator {before after : List Char} {c : Char} :
    text = before ++ c :: after → IsOutside before → c ≠ ';' ∧ c ≠ '\\' ∧ c ≠ '/'
  noComment {before after : List Char} :
    text = before ++ '-' :: '-' :: after → ¬ IsOutside before
  oneLine {c : Char} : c ∈ text → c ≠ '\n' ∧ c ≠ '\r' ∧ c ≠ '\x0b' ∧ c ≠ '\x00'

/-! ## Scanned text is confined -/

section Scan

variable {rules : ScanRules} {place next last : Place} {c : Char} {text : List Char}

private theorem isCodeChar_of_isPlain (h : Identifier.isPlain c) : isCodeChar c := by
  simp only [Identifier.isPlain, Bool.or_eq_true, beq_iff_eq] at h
  rcases h with hletter | rfl
  · simp [isCodeChar, hletter]
  · rfl

private theorem isCodeChar_of_ofChar (h : Glyph.ofChar c ≠ .other) : isCodeChar c := by
  by_cases hword : Glyph.isWord c
  · simp only [Glyph.isWord, Bool.or_eq_true, beq_iff_eq] at hword
    rcases hword with (((((((hplain | rfl) | rfl) | rfl) | rfl) | rfl) | rfl) | rfl) | rfl
    · exact isCodeChar_of_isPlain hplain
    all_goals rfl
  · unfold Glyph.ofChar at h
    split_ifs at h with h1 h2 h3 h4 h5 h6 h7
    · subst h1
      rfl
    · subst h2
      rfl
    · subst h3
      rfl
    · subst h4
      rfl
    · subst h5
      rfl
    · subst h6
      rfl
    · rcases h7 with rfl | rfl <;> rfl
    · exact absurd rfl h

private theorem isCodeChar_of_step (h : place.step rules c = some next)
    (hplace : place.isLiteral = false) : isCodeChar c := by
  have henter {depth : Nat} (h : Place.enter rules depth (.ofChar c) = some next) :
      isCodeChar c := by
    apply isCodeChar_of_ofChar
    intro hother
    rw [hother] at h
    cases h
  cases Place.isStep_of_step h with
  | outside h => exact henter h
  | spaced _ h => exact henter h
  | arrow hc =>
      subst hc
      rfl
  | unquote | literal => cases hplace
  | unname hquote =>
      subst hquote
      rfl
  | name hquote hdotted =>
      apply isCodeChar_of_ofChar
      rw [ofChar_of_isDotted hdotted hquote]
      decide

private theorem step_hyphen (h : place.step rules '-' = some next)
    (hplace : place.isLiteral = false) : ∃ depth, next = .hyphen depth := by
  cases place with
  | outside depth =>
      cases h
      exact ⟨depth, rfl⟩
  | spaced =>
      cases h
      exact ⟨0, rfl⟩
  | literal depth => cases hplace
  | hyphen | identifier => cases h

private theorem isLiteralChar_of_step (h : place.step rules c = some next) :
    isLiteralChar c := by
  cases Place.isStep_of_step h with
  | unquote hquote =>
      subst hquote
      rfl
  | literal _ hliteral => exact hliteral
  | outside | spaced | arrow | unname | name =>
      exact isLiteralChar_of_alphabet (isCodeChar_of_step h rfl) (by decide)

theorem isConfined_of_scan (h : scan rules place text = some last)
    (hplace : place.isLiteral = false) (hlast : last.isLiteral = false) : IsConfined text := by
  have hhere {before after : List Char} {c : Char} (htext : text = before ++ c :: after)
      (hbefore : IsOutside before) : ∃ here next : Place, here.step rules c = some next ∧
        here.isLiteral = false ∧ scan rules next after = some last := by
    rw [htext] at h
    obtain ⟨here, next, hscan, hstep, hafter⟩ := exists_step_of_scan h
    exact ⟨here, next, hstep, ((isLiteral_of_scan hscan).mpr hbefore).trans hplace, hafter⟩
  have halphabet {before after : List Char} {c : Char} (htext : text = before ++ c :: after)
      (hbefore : IsOutside before) : isCodeChar c := by
    obtain ⟨here, next, hstep, houtside, -⟩ := hhere htext hbefore
    exact isCodeChar_of_step hstep houtside
  refine ⟨?_, halphabet, ?_, ?_, ?_⟩
  · exact (isLiteral_of_scan h).mp (hlast.trans hplace.symm)
  · intro before after c htext hbefore
    have hcode := halphabet htext hbefore
    refine ⟨?_, ?_, ?_⟩ <;> rintro rfl <;> cases hcode
  · intro before after htext hbefore
    -- After a hyphen only an arrow goes on, so the second hyphen stops the scan.
    obtain ⟨here, next, hstep, houtside, hafter⟩ := hhere htext hbefore
    obtain ⟨depth, rfl⟩ := step_hyphen hstep houtside
    cases hafter
  · intro c hc
    obtain ⟨before, after, htext⟩ := List.append_of_mem hc
    rw [htext] at h
    obtain ⟨here, next, -, hstep, -⟩ := exists_step_of_scan h
    have hliteral := isLiteralChar_of_step hstep
    simp only [isLiteralChar, Bool.not_eq_true', Bool.or_eq_false_iff, beq_eq_false_iff_ne]
      at hliteral
    obtain ⟨⟨⟨hfeed, hreturn⟩, htab⟩, hnul⟩ := hliteral
    exact ⟨hfeed, hreturn, htab, hnul⟩

end Scan

/-! ## Compiled filters -/

section Compiled

variable {paired : Bool} {options : CompileOptions}

theorem scan_compile {filter : Filter} (h : ∀ name ∈ Filter.names filter, AdmitsName paired name) :
    scan (.rendered paired) (.outside 1) (filter.compile options).sql.toList =
      some (.outside 1) := by
  by_cases hempty : filter.isEmpty
  · rw [Filter.compile_eq_render, if_pos hempty]
    rfl
  · have hbalanced : Fragment.IsBalanced paired (filter.fragment options) :=
      Compile.isKept_balanced.fragment filter h
    have hfragment := Fragment.scan_chars (hbalanced 0) options.bindings
    rw [Fragment.chars] at hfragment
    rw [Filter.compile_eq_render, if_neg hempty]
    simp (disch := decide) [hfragment]

/-- Nothing in a filter or in the settings breaks out of the text that is meant for it. -/
theorem isConfined_compile (options : CompileOptions) (filter : Option Filter) :
    IsConfined (compile options filter).sql.toList := by
  cases filter with
  | none =>
      have hnothing : scan (.rendered false) (.outside 1) [] = some (.outside 1) := scan_nil _
      exact isConfined_of_scan hnothing rfl rfl
  | some filter =>
      have hnames : ∀ name ∈ Filter.names filter, AdmitsName false name :=
        fun name _ => admitsName_false name
      exact isConfined_of_scan (scan_compile hnames) rfl rfl

end Compiled

end FilterSql
