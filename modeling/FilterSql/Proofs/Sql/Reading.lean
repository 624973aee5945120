import FilterSql.Proofs.Sql.Cut

/-!
# Reading text with operator precedence

A reader of clauses knows that `not` binds closer than `and`, and `and` closer than
`or`.  It cuts a text into alternatives, these into parts, and reads on inside the
brackets of a part.  Texts written from sound factors are read back as they were.
-/

namespace FilterSql

/-! ## Factors -/

/-- What stands between connectives; inside brackets there are alternatives of conjunctions. -/
inductive Factor where
  | atom (text : List Char)
  | group (alternatives : List (List Factor))
  | negation (alternatives : List (List Factor))

def groupOpening : List Char := ['(']

def negationOpening : List Char := ['n', 'o', 't', ' ', '(']

namespace Factor

mutual

def text : Factor → List Char
  | .atom text => text
  | .group alternatives =>
    groupOpening ++ List.intercalate disjunctionMark (alternativeTexts alternatives) ++ [')']
  | .negation alternatives =>
    negationOpening ++ List.intercalate disjunctionMark (alternativeTexts alternatives) ++ [')']

def texts : List Factor → List (List Char)
  | [] => []
  | first :: rest => text first :: texts rest

def alternativeTexts : List (List Factor) → List (List Char)
  | [] => []
  | first :: rest => List.intercalate conjunctionMark (texts first) :: alternativeTexts rest

end

@[simp] theorem texts_eq_map (factors : List Factor) : texts factors = factors.map text := by
  induction factors with
  | nil => rfl
  | cons first rest ih => simp [texts, ih]

@[simp] theorem alternativeTexts_eq_map (alternatives : List (List Factor)) :
    alternativeTexts alternatives =
      alternatives.map fun factors => List.intercalate conjunctionMark (factors.map text) := by
  induction alternatives with
  | nil => rfl
  | cons first rest ih => simp [alternativeTexts, ih]

end Factor

/-- A text without connectives of its own, which cannot be taken for a group or a negation. -/
structure IsAtom (text : List Char) : Prop where
  passes : scan (.rendered false) (.outside 0) text = some (.outside 0)
  disjunction : Clashes ['o', 'r', ' '] text
  negation : Clashes negationOpening text
  group : Clashes groupOpening text

namespace Factor

mutual

def IsSound : Factor → Prop
  | .atom text => IsAtom text
  | .group alternatives => alternatives ≠ [] ∧ AreSoundAlternatives alternatives
  | .negation alternatives => alternatives ≠ [] ∧ AreSoundAlternatives alternatives

def AreSound : List Factor → Prop
  | [] => True
  | first :: rest => IsSound first ∧ AreSound rest

def AreSoundAlternatives : List (List Factor) → Prop
  | [] => True
  | first :: rest => first ≠ [] ∧ AreSound first ∧ AreSoundAlternatives rest

end

theorem areSound_iff {factors : List Factor} :
    AreSound factors ↔ ∀ factor ∈ factors, factor.IsSound := by
  induction factors with
  | nil => simp [AreSound]
  | cons first rest ih => simp [AreSound, ih]

theorem areSoundAlternatives_iff {alternatives : List (List Factor)} :
    AreSoundAlternatives alternatives ↔
      ∀ factors ∈ alternatives, factors ≠ [] ∧ ∀ factor ∈ factors, factor.IsSound := by
  induction alternatives with
  | nil => simp [AreSoundAlternatives]
  | cons first rest ih => simp [AreSoundAlternatives, ih, areSound_iff, and_assoc]

/-! ## Texts of sound factors -/

private theorem scan_intercalate {rules : ScanRules} {place : Place} {separator : List Char}
    (hseparator : scan rules place separator = some place) {parts : List (List Char)}
    (h : ∀ part ∈ parts, scan rules place part = some place) :
    scan rules place (List.intercalate separator parts) = some place := by
  have happend {first second : List Char} (hfirst : scan rules place first = some place)
      (hsecond : scan rules place second = some place) :
      scan rules place (first ++ second) = some place :=
    (scan_append_of_eq_some hfirst second).trans hsecond
  exact intercalate_induction _ (scan_nil place) happend hseparator h

private theorem scan_disjunctionMark :
    scan (.rendered false) (.outside 1) disjunctionMark = some (.outside 1) := rfl

mutual

theorem passes_text (factor : Factor) (h : factor.IsSound) :
    scan (.rendered false) (.outside 0) factor.text = some (.outside 0) := by
  cases factor with
  | atom text => exact h.passes
  | group alternatives =>
      have hbody := scan_intercalate scan_disjunctionMark (passes_alternatives alternatives h.2)
      have hopening : scan (.rendered false) (.outside 0) groupOpening = some (.outside 1) := rfl
      rw [text, List.append_assoc, scan_append_of_eq_some hopening, scan_append_of_eq_some hbody]
      rfl
  | negation alternatives =>
      have hbody := scan_intercalate scan_disjunctionMark (passes_alternatives alternatives h.2)
      have hopening : scan (.rendered false) (.outside 0) negationOpening = some (.outside 1) :=
        rfl
      rw [text, List.append_assoc, scan_append_of_eq_some hopening, scan_append_of_eq_some hbody]
      rfl

private theorem passes_texts (factors : List Factor) (h : AreSound factors) :
    ∀ part ∈ texts factors, scan (.rendered false) (.outside 1) part = some (.outside 1) := by
  cases factors with
  | nil => exact fun part hpart => nomatch hpart
  | cons first rest =>
      intro part hpart
      rcases List.mem_cons.mp hpart with rfl | hpart
      · exact scan_nest (passes_text first h.1)
      · exact passes_texts rest h.2 part hpart

private theorem passes_alternatives (alternatives : List (List Factor))
    (h : AreSoundAlternatives alternatives) :
    ∀ part ∈ alternativeTexts alternatives,
      scan (.rendered false) (.outside 1) part = some (.outside 1) := by
  cases alternatives with
  | nil => exact fun part hpart => nomatch hpart
  | cons first rest =>
      intro part hpart
      rcases List.mem_cons.mp hpart with rfl | hpart
      · exact scan_intercalate rfl (passes_texts first h.2.1)
      · exact passes_alternatives rest h.2.2 part hpart

end

theorem clashes_text {factor : Factor} (h : factor.IsSound) :
    Clashes ['o', 'r', ' '] factor.text := by
  cases factor with
  | atom text => exact h.disjunction
  | group alternatives =>
      have hopening : Clashes ['o', 'r', ' '] groupOpening := by decide
      rw [text, List.append_assoc]
      exact hopening.append _
  | negation alternatives =>
      have hopening : Clashes ['o', 'r', ' '] negationOpening := by decide
      rw [text, List.append_assoc]
      exact hopening.append _

section Conjunction

variable {factors : List Factor}

theorem cut_conjunction (hfactors : factors ≠ []) (h : ∀ factor ∈ factors, factor.IsSound) :
    cutAnd (List.intercalate conjunctionMark (factors.map text)) = factors.map text := by
  refine cut_intercalate (by decide) (by simpa using hfactors) fun part hpart => ?_
  obtain ⟨factor, hfactor, rfl⟩ := List.mem_map.mp hpart
  exact isUncut_conjunction_of_scan (passes_text factor (h factor hfactor))

theorem isUncut_conjunction (h : ∀ factor ∈ factors, factor.IsSound) :
    IsUncut disjunctionMark (List.intercalate conjunctionMark (factors.map text)) := by
  apply isUncut_disjunction_intercalate
  · intro part hpart
    obtain ⟨factor, hfactor, rfl⟩ := List.mem_map.mp hpart
    exact isUncut_disjunction_of_scan (passes_text factor (h factor hfactor))
  · intro part hpart
    obtain ⟨factor, hfactor, rfl⟩ := List.mem_map.mp hpart
    exact clashes_text (h factor hfactor)

theorem isNested_conjunction (h : ∀ factor ∈ factors, factor.IsSound) :
    IsNested (List.intercalate conjunctionMark (factors.map text)) := by
  refine isNested_intercalate (by decide) fun part hpart => ?_
  obtain ⟨factor, hfactor, rfl⟩ := List.mem_map.mp hpart
  exact isNested_of_scan (passes_text factor (h factor hfactor))

end Conjunction

section Disjunction

variable {alternatives : List (List Factor)}

theorem cut_disjunction (halternatives : alternatives ≠ [])
    (h : AreSoundAlternatives alternatives) :
    cutOr (List.intercalate disjunctionMark (alternativeTexts alternatives)) =
      alternativeTexts alternatives := by
  rw [areSoundAlternatives_iff] at h
  rw [alternativeTexts_eq_map]
  refine cut_intercalate (by decide) (by simpa using halternatives) fun part hpart => ?_
  obtain ⟨factors, hfactors, rfl⟩ := List.mem_map.mp hpart
  exact isUncut_conjunction (h factors hfactors).2

theorem isNested_disjunction (h : AreSoundAlternatives alternatives) :
    IsNested (List.intercalate disjunctionMark (alternativeTexts alternatives)) := by
  rw [areSoundAlternatives_iff] at h
  rw [alternativeTexts_eq_map]
  refine isNested_intercalate (by decide) fun part hpart => ?_
  obtain ⟨factors, hfactors, rfl⟩ := List.mem_map.mp hpart
  exact isNested_conjunction (h factors hfactors).2

end Disjunction

end Factor

/-! ## The reader -/

def body? (opening text : List Char) : Option (List Char) :=
  let body := (text.drop opening.length).dropLast
  if text = opening ++ body ++ [')'] ∧ IsNested body then some body else none

theorem body?_of_isNested (opening : List Char) {body : List Char} (h : IsNested body) :
    body? opening (opening ++ body ++ [')']) = some body := by
  have hbody : ((opening ++ body ++ [')']).drop opening.length).dropLast = body := by
    rw [List.append_assoc, List.drop_left, List.dropLast_concat]
  rw [body?, hbody, if_pos ⟨rfl, h⟩]

theorem body?_of_clashes {opening text : List Char} (h : Clashes opening text) :
    body? opening text = none := by
  apply if_neg
  rintro ⟨htext, -⟩
  apply h.1
  rw [htext, List.append_assoc]
  exact List.prefix_append _ _

theorem length_lt_of_body? {opening text body : List Char} (h : body? opening text = some body) :
    body.length < text.length := by
  simp only [body?] at h
  split at h
  · next htext =>
      cases h
      have hlength := congrArg List.length htext.1
      simp only [List.length_append, List.length_singleton] at hlength
      omega
  · cases h

def read (text : List Char) : List (List Factor) :=
  (cutOr text).attach.map fun ⟨alternative, _⟩ =>
    (cutAnd alternative).attach.map fun ⟨part, _⟩ =>
      match _h : body? negationOpening part with
      | some body => .negation (read body)
      | none =>
        match _h : body? groupOpening part with
        | some body => .group (read body)
        | none => .atom part
termination_by text.length
decreasing_by
  all_goals
    have halternative := length_le_of_mem_cut ‹alternative ∈ _›
    have hpart := length_le_of_mem_cut ‹part ∈ _›
    have hbody := length_lt_of_body? ‹_ = some body›
    omega

def readFactor (part : List Char) : Factor :=
  match body? negationOpening part with
  | some body => .negation (read body)
  | none =>
    match body? groupOpening part with
    | some body => .group (read body)
    | none => .atom part

theorem read_eq (text : List Char) :
    read text = (cutOr text).map fun alternative => (cutAnd alternative).map readFactor := by
  rw [read]
  simp only [List.map_subtype, List.unattach_attach]
  refine List.map_congr_left fun alternative _ => List.map_congr_left fun part _ => ?_
  rw [readFactor]
  cases body? negationOpening part with
  | some body => rfl
  | none => cases body? groupOpening part <;> rfl

/-! ## Reading back -/

namespace Factor

private theorem read_alternatives {alternatives : List (List Factor)}
    (halternatives : alternatives ≠ []) (h : AreSoundAlternatives alternatives)
    (hparts : ((alternativeTexts alternatives).map fun alternative =>
      (cutAnd alternative).map readFactor) = alternatives) :
    read (List.intercalate disjunctionMark (alternativeTexts alternatives)) = alternatives := by
  rw [read_eq, cut_disjunction halternatives h, hparts]

mutual

theorem readFactor_text (factor : Factor) (h : factor.IsSound) :
    readFactor factor.text = factor := by
  cases factor with
  | atom text =>
      rw [Factor.text, readFactor, body?_of_clashes h.negation, body?_of_clashes h.group]
  | group alternatives =>
      have hclash : Clashes negationOpening (group alternatives).text := by
        have hopening : Clashes negationOpening groupOpening := by decide
        rw [text, List.append_assoc]
        exact hopening.append _
      rw [readFactor, body?_of_clashes hclash, text,
        body?_of_isNested groupOpening (isNested_disjunction h.2)]
      exact congrArg group (read_alternatives h.1 h.2 (map_readAlternative alternatives h.2))
  | negation alternatives =>
      rw [readFactor, text, body?_of_isNested negationOpening (isNested_disjunction h.2)]
      exact congrArg negation (read_alternatives h.1 h.2 (map_readAlternative alternatives h.2))

private theorem map_readFactor (factors : List Factor) (h : AreSound factors) :
    (texts factors).map readFactor = factors := by
  cases factors with
  | nil => rfl
  | cons first rest =>
      rw [texts, List.map_cons, readFactor_text first h.1, map_readFactor rest h.2]

private theorem map_readAlternative (alternatives : List (List Factor))
    (h : AreSoundAlternatives alternatives) :
    ((alternativeTexts alternatives).map fun alternative =>
      (cutAnd alternative).map readFactor) = alternatives := by
  cases alternatives with
  | nil => rfl
  | cons first rest =>
      have hcut := cut_conjunction h.1 (areSound_iff.mp h.2.1)
      have hfirst := map_readFactor first h.2.1
      rw [texts_eq_map] at hfirst
      rw [alternativeTexts, List.map_cons, texts_eq_map, hcut, hfirst,
        map_readAlternative rest h.2.2]

end

/-- A conjunction of sound factors is read back as the only alternative. -/
theorem read_conjunction {factors : List Factor} (hfactors : factors ≠ [])
    (h : ∀ factor ∈ factors, factor.IsSound) :
    read (List.intercalate conjunctionMark (factors.map text)) = [factors] := by
  have hsound : AreSoundAlternatives [factors] := ⟨hfactors, areSound_iff.mpr h, trivial⟩
  have hread := read_alternatives (by simp) hsound (map_readAlternative [factors] hsound)
  simpa using hread

end Factor

end FilterSql
