import FilterSql.Proofs.Sql.Phrase
import Mathlib.Algebra.Group.Nat.Even

/-!
# Names and paths in SQL text

What the text of an identifier, a JSON path or a search configuration is made of,
and that a scan passes it.  A dotted name may bring double quotes of its own;
quoting adds them in pairs, so they are paired in the text if and only if they
are in the name.
-/

namespace FilterSql

namespace Identifier

/-! ## Alphabets -/

theorem isDotted_of_isPlain {c : Char} (h : isPlain c) : isDotted c := by
  simp [isDotted, h]

theorem guardDigit_eq (text : List Char) :
    guardDigit text = text ∨ guardDigit text = '_' :: text := by
  cases text with
  | nil => exact .inl rfl
  | cons c rest =>
      by_cases hc : c.isDigit
      · exact .inr (by simp [guardDigit, hc])
      · exact .inl (by simp [guardDigit, hc])

theorem not_isDigit_of_head?_guardDigit {text : List Char} {c : Char}
    (h : (guardDigit text).head? = some c) : ¬ c.isDigit := by
  cases text with
  | nil => cases h
  | cons d rest =>
      by_cases hdigit : d.isDigit
      · rw [guardDigit, if_pos hdigit] at h
        cases h
        decide
      · rw [guardDigit, if_neg hdigit] at h
        cases h
        exact hdigit

theorem keeps_of_mem_sanitizeWith {keeps : Char → Bool} (hunderscore : keeps '_')
    {name : List Char} {c : Char} (h : c ∈ sanitizeWith keeps name) : keeps c := by
  have hfilter : c ∈ name.filter keeps → keeps c := fun hc => (List.mem_filter.mp hc).2
  rcases guardDigit_eq (name.filter keeps) with heq | heq <;>
    rw [sanitizeWith, heq] at h
  · exact hfilter h
  · rcases List.mem_cons.mp h with rfl | hc
    · exact hunderscore
    · exact hfilter hc

theorem count_sanitizeWith {keeps : Char → Bool} {d : Char} (hkept : keeps d)
    (hunderscore : d ≠ '_') (name : List Char) :
    (sanitizeWith keeps name).count d = name.count d := by
  rcases guardDigit_eq (name.filter keeps) with heq | heq <;>
    rw [sanitizeWith, heq]
  · exact List.count_filter hkept
  · rw [List.count_cons_of_ne (Ne.symm hunderscore), List.count_filter hkept]

/-! ## Quoting -/

theorem segments_ne_nil (name : List Char) : segments name ≠ [] := by
  cases name with
  | nil => simp [segments]
  | cons c rest =>
      unfold segments
      split
      · simp
      · split <;> simp

theorem segments_cons (c : Char) (rest : List Char) :
    segments (c :: rest) =
      if c = '.' then [] :: segments rest else (segments rest).modifyHead (c :: ·) := by
  cases hparts : segments rest with
  | nil => exact absurd hparts (segments_ne_nil rest)
  | cons part parts => simp [segments, hparts]

theorem segments_eq_splitOn (name : List Char) : segments name = name.splitOn '.' := by
  induction name with
  | nil => simp [segments]
  | cons c rest ih => simp [segments_cons, List.splitOn_cons_eq_if_modifyHead, ih]

theorem intercalate_segments (name : List Char) :
    List.intercalate ['.'] (segments name) = name := by
  rw [segments_eq_splitOn, List.intercalate_splitOn]

theorem segments_of_not_mem {name : List Char} (h : '.' ∉ name) : segments name = [name] := by
  rw [segments_eq_splitOn, List.splitOn_eq_singleton h]

theorem count_intercalate_dot {d : Char} (hd : d ≠ '.') (parts : List (List Char)) :
    (List.intercalate ['.'] parts).count d = parts.flatten.count d := by
  induction parts with
  | nil => rfl
  | cons first rest ih =>
      cases rest with
      | nil => simp
      | cons second rest =>
          rw [List.intercalate_cons_cons, List.count_append, List.count_append, ih,
            List.flatten_cons, List.count_append, List.count_singleton]
          simp [Ne.symm hd]

theorem count_enclosed {part : List Char} (h : '"' ∉ part) :
    ('"' :: part ++ ['"']).count '"' = 2 := by
  rw [List.count_append, List.count_cons_self, List.count_eq_zero_of_not_mem h,
    List.count_singleton_self]

private theorem even_quoteSegment (part : List Char) :
    Even ((quoteSegment part).count '"') ↔ Even (part.count '"') := by
  unfold quoteSegment
  split
  · rfl
  · next hpart =>
      rw [count_enclosed hpart, List.count_eq_zero_of_not_mem hpart]
      decide

theorem even_count_quoteChars (name : List Char) :
    Even ((quoteChars name).count '"') ↔ Even (name.count '"') := by
  have hparts : ∀ parts : List (List Char),
      (Even ((parts.map quoteSegment).flatten.count '"') ↔ Even (parts.flatten.count '"')) := by
    intro parts
    induction parts with
    | nil => rfl
    | cons part parts ih =>
        simp only [List.map_cons, List.flatten_cons, List.count_append, Nat.even_add,
          even_quoteSegment, ih]
  rw [quoteChars, count_intercalate_dot (by decide), hparts,
    ← count_intercalate_dot (by decide), intercalate_segments]

theorem mem_and_ne_dot_of_mem_segments {name part : List Char} (hpart : part ∈ segments name)
    {c : Char} (hc : c ∈ part) : c ∈ name ∧ c ≠ '.' := by
  induction name generalizing part with
  | nil => simp_all [segments]
  | cons first rest ih =>
      have hrest {later : List Char} (hlater : later ∈ segments rest) (hmem : c ∈ later) :
          c ∈ first :: rest ∧ c ≠ '.' :=
        (ih hlater hmem).imp_left (List.mem_cons_of_mem first)
      rw [segments_cons] at hpart
      split at hpart
      · rcases List.mem_cons.mp hpart with rfl | hpart
        · cases hc
        · exact hrest hpart hc
      · next hdot =>
        cases hparts : segments rest with
        | nil => exact absurd hparts (segments_ne_nil rest)
        | cons head parts =>
            rw [hparts, List.modifyHead_cons] at hpart
            rcases List.mem_cons.mp hpart with rfl | hpart
            · rcases List.mem_cons.mp hc with rfl | hc
              · exact ⟨List.mem_cons_self, hdot⟩
              · exact hrest (by simp [hparts]) hc
            · exact hrest (by simp [hparts, hpart]) hc

theorem mem_of_mem_segments {name part : List Char} (hpart : part ∈ segments name) {c : Char}
    (hc : c ∈ part) : c ∈ name :=
  (mem_and_ne_dot_of_mem_segments hpart hc).1

theorem dot_not_mem_of_mem_segments {name part : List Char} (hpart : part ∈ segments name) :
    '.' ∉ part :=
  fun hdot => (mem_and_ne_dot_of_mem_segments hpart hdot).2 rfl

theorem isDotted_of_mem_append {first second : List Char} (hfirst : ∀ c ∈ first, isDotted c)
    (hsecond : ∀ c ∈ second, isDotted c) : ∀ c ∈ first ++ second, isDotted c :=
  List.forall_mem_append.mpr ⟨hfirst, hsecond⟩

theorem isDotted_of_mem_enclosed {part : List Char} (h : ∀ c ∈ part, isDotted c) :
    ∀ c ∈ '"' :: part ++ ['"'], isDotted c := by
  intro c hc
  simp only [List.cons_append, List.mem_cons, List.mem_append, List.not_mem_nil, or_false] at hc
  rcases hc with rfl | hc | rfl
  · rfl
  · exact h c hc
  · rfl

theorem isDotted_of_mem_quoteChars {name : List Char} (h : ∀ c ∈ name, isDotted c) :
    ∀ c ∈ quoteChars name, isDotted c := by
  have hdot : ∀ c ∈ ['.'], isDotted c := List.forall_mem_singleton.mpr rfl
  refine intercalate_induction (fun text => ∀ c ∈ text, isDotted c) (by simp)
    isDotted_of_mem_append hdot fun segment hsegment => ?_
  obtain ⟨part, hpart, rfl⟩ := List.mem_map.mp hsegment
  have hkept : ∀ d ∈ part, isDotted d := fun d hd => h d (mem_of_mem_segments hpart hd)
  unfold quoteSegment
  split
  · exact hkept
  · exact isDotted_of_mem_enclosed hkept

/-! ### How quoted names begin -/

theorem exists_quoteChars_cons (name : List Char) :
    ∃ c after, quoteChars name = c :: after ∧ (c = '"' ∨ name.head? = some c) := by
  cases hparts : segments name with
  | nil => exact absurd hparts (segments_ne_nil name)
  | cons part parts =>
      obtain ⟨after, hafter⟩ := exists_intercalate_cons ['.'] (quoteSegment part)
        (parts.map quoteSegment)
      obtain ⟨later, hlater⟩ := exists_intercalate_cons ['.'] part parts
      have hname := intercalate_segments name
      rw [hparts, hlater] at hname
      rw [quoteChars, hparts, List.map_cons, hafter, ← hname]
      unfold quoteSegment
      split
      · next hquote =>
          cases part with
          | nil => cases hquote
          | cons c part => exact ⟨c, _, rfl, .inr rfl⟩
      · exact ⟨'"', _, rfl, .inl rfl⟩

theorem doubleQuote_mem_quoteSegment (part : List Char) : '"' ∈ quoteSegment part := by
  unfold quoteSegment
  split <;> simp [*]

theorem doubleQuote_mem_quoteChars (name : List Char) : '"' ∈ quoteChars name := by
  cases hparts : segments name with
  | nil => exact absurd hparts (segments_ne_nil name)
  | cons part parts =>
      obtain ⟨after, hafter⟩ := exists_intercalate_cons ['.'] (quoteSegment part)
        (parts.map quoteSegment)
      rw [quoteChars, hparts, List.map_cons, hafter]
      exact List.mem_append_left _ (doubleQuote_mem_quoteSegment part)

end Identifier

/-! ## Texts of names -/

theorem isDotted_of_mem_columnRef (name : String) :
    ∀ c ∈ (columnRef name).toList, Identifier.isDotted c := by
  simp only [columnRef, quote, sanitizeDotted, String.toList_ofList]
  exact Identifier.isDotted_of_mem_quoteChars fun c hc =>
    Identifier.keeps_of_mem_sanitizeWith rfl hc

theorem even_count_columnRef (name : String) :
    Even ((columnRef name).toList.count '"') ↔ Even (name.toList.count '"') := by
  simp only [columnRef, quote, sanitizeDotted, String.toList_ofList]
  rw [Identifier.even_count_quoteChars,
    Identifier.count_sanitizeWith rfl (by decide)]

theorem exists_columnRef_cons (name : String) :
    ∃ c after, (columnRef name).toList = c :: after ∧ ¬ c.isDigit := by
  simp only [columnRef, quote, sanitizeDotted, String.toList_ofList]
  obtain ⟨c, after, hchars, hc⟩ := Identifier.exists_quoteChars_cons
    (Identifier.sanitizeWith Identifier.isDotted name.toList)
  refine ⟨c, after, hchars, ?_⟩
  rcases hc with rfl | hc
  · decide
  · exact Identifier.not_isDigit_of_head?_guardDigit hc

theorem doubleQuote_mem_columnRef (name : String) : '"' ∈ (columnRef name).toList := by
  simp only [columnRef, quote, sanitizeDotted, String.toList_ofList]
  exact Identifier.doubleQuote_mem_quoteChars _

theorem isPlain_of_mem_sanitize (name : String) :
    ∀ c ∈ (sanitize name).toList, Identifier.isPlain c := by
  rw [sanitize, String.toList_ofList]
  exact fun c hc => Identifier.keeps_of_mem_sanitizeWith rfl hc

theorem toList_nameRef (name : String) :
    (nameRef name).toList = '"' :: (sanitize name).toList ++ ['"'] := by
  have hplain := isPlain_of_mem_sanitize name
  have hdot : '.' ∉ (sanitize name).toList := fun h => absurd (hplain _ h) (by decide)
  have hquote : '"' ∉ (sanitize name).toList := fun h => absurd (hplain _ h) (by decide)
  rw [nameRef, quote, String.toList_ofList, Identifier.quoteChars,
    Identifier.segments_of_not_mem hdot]
  simp [Identifier.quoteSegment, hquote]

/-! ## Scans of names -/

def HasPairedQuotes (name : String) : Prop := Even (name.toList.count '"')

instance (name : String) : Decidable (HasPairedQuotes name) :=
  inferInstanceAs (Decidable (Even _))

def AdmitsName (paired : Bool) (name : String) : Prop := paired → HasPairedQuotes name

theorem admitsName_false (name : String) : AdmitsName false name := by
  intro h
  cases h

section Scan

variable {rules : ScanRules}

theorem ofChar_of_isDotted {c : Char} (h : Identifier.isDotted c) (hquote : c ≠ '"') :
    Glyph.ofChar c = .word := by
  have hcases : Identifier.isPlain c ∨ c = '.' := by
    simpa [Identifier.isDotted, hquote] using h
  rcases hcases with hplain | rfl
  · exact Fragment.ofChar_of_isPlain hplain
  · rfl

private theorem scan_dotted_paired {text : List Char} (h : ∀ c ∈ text, Identifier.isDotted c)
    (hrules : rules.paired) (depth : Nat) :
    scan rules (.outside depth) text =
        some (if Even (text.count '"') then .outside depth else .identifier depth) ∧
      scan rules (.identifier depth) text =
        some (if Even (text.count '"') then .identifier depth else .outside depth) := by
  -- Each double quote changes between the two places, so both are followed at once.
  induction text with
  | nil => simp
  | cons c rest ih =>
      obtain ⟨houtside, hinside⟩ := ih fun d hd => h d (List.mem_cons_of_mem _ hd)
      by_cases hc : c = '"'
      · subst hc
        have hopen : Place.step rules (.outside depth) '"' = some (.identifier depth) := by
          simp [Place.step, Glyph.ofChar, Place.enter, hrules]
        have hclose : Place.step rules (.identifier depth) '"' = some (.outside depth) := rfl
        rw [scan_cons, scan_cons, hopen, hclose, List.count_cons_self]
        simp only [Option.bind_some, houtside, hinside, Nat.even_add_one]
        by_cases heven : Even (rest.count '"') <;> simp [heven]
      · have hdotted := h c List.mem_cons_self
        have hword : Place.step rules (.outside depth) c = some (.outside depth) := by
          simp [Place.step, ofChar_of_isDotted hdotted hc, Place.enter]
        have hname : Place.step rules (.identifier depth) c = some (.identifier depth) := by
          simp [Place.step, hc, hdotted]
        rw [scan_cons, scan_cons, hword, hname, List.count_cons_of_ne hc]
        exact ⟨houtside, hinside⟩

theorem scan_dotted {text : List Char} (h : ∀ c ∈ text, Identifier.isDotted c)
    (hpaired : rules.paired → Even (text.count '"')) (depth : Nat) :
    scan rules (.outside depth) text = some (.outside depth) := by
  by_cases hrules : rules.paired
  · rw [(scan_dotted_paired h hrules depth).1, if_pos (hpaired hrules)]
  · apply scan_of_forall_step
    intro c hc
    by_cases hquote : c = '"'
    · rw [Place.step, Glyph.ofChar_eq_doubleQuote.mpr hquote, Place.enter, if_neg hrules]
    · rw [Place.step, ofChar_of_isDotted (h c hc) hquote, Place.enter]

theorem passes_columnRef {paired : Bool} {name : String} (h : AdmitsName paired name)
    (depth : Nat) : Passes (.pieces paired) depth (columnRef name).toList :=
  scan_append_of_eq_some (scan_dotted (isDotted_of_mem_columnRef name)
    (fun hpaired => (even_count_columnRef name).mpr (h hpaired)) depth)

@[simp] theorem passes_nameRef (name : String) (depth : Nat) :
    Passes rules depth (nameRef name).toList := by
  apply scan_append_of_eq_some
  have hplain := isPlain_of_mem_sanitize name
  have hquote : '"' ∉ (sanitize name).toList := fun h => absurd (hplain _ h) (by decide)
  rw [toList_nameRef]
  apply scan_dotted
  · exact Identifier.isDotted_of_mem_enclosed fun c hc =>
      Identifier.isDotted_of_isPlain (hplain c hc)
  · intro _
    rw [Identifier.count_enclosed hquote]
    decide

end Scan

/-! ## Literals -/

section Literal

variable {rules : ScanRules}

theorem isLiteralChar_of_alphabet {alphabet : Char → Bool} {c : Char} (h : alphabet c)
    (hbreaks : ['\n', '\r', '\x0b', '\x00'].all (!alphabet ·)) : isLiteralChar c := by
  simp only [List.all_cons, List.all_nil, Bool.and_true, Bool.and_eq_true, Bool.not_eq_true']
    at hbreaks
  obtain ⟨hfeed, hreturn, htab, hnul⟩ := hbreaks
  simp [isLiteralChar, ne_of_alphabet h hfeed, ne_of_alphabet h hreturn, ne_of_alphabet h htab,
    ne_of_alphabet h hnul]

theorem isLiteralChar_of_le {c : Char} (h : 0x20 ≤ c.toNat) : isLiteralChar c :=
  @isLiteralChar_of_alphabet (fun d => decide (0x20 ≤ d.toNat)) c (decide_eq_true h) (by decide)

theorem isLiteralChar_of_isPlain {c : Char} (h : Identifier.isPlain c) : isLiteralChar c :=
  isLiteralChar_of_alphabet h (by decide)

theorem scan_doubleQuotes {text : List Char} (h : ∀ c ∈ text, isLiteralChar c) (depth : Nat) :
    scan rules (.literal depth) (JsonPath.doubleQuotes text) = some (.literal depth) := by
  induction text with
  | nil => rfl
  | cons c rest ih =>
      have hrest := ih fun d hd => h d (List.mem_cons_of_mem _ hd)
      unfold JsonPath.doubleQuotes at hrest ⊢
      by_cases hc : c = '\''
      · subst hc
        simpa [Place.step, Glyph.ofChar, Place.enter] using hrest
      · simpa [hc, Place.step, h c List.mem_cons_self] using hrest

theorem scan_literal_plain {text : List Char} (h : ∀ c ∈ text, Identifier.isPlain c)
    (depth : Nat) :
    scan rules (.literal depth) text = some (.literal depth) := by
  apply scan_of_forall_step
  intro c hc
  have hquote : c ≠ '\'' := ne_of_alphabet (h c hc) (by decide)
  rw [Place.step, if_neg hquote, if_pos (isLiteralChar_of_isPlain (h c hc))]

end Literal

/-! ## JSON paths -/

namespace JsonPath

private theorem isLiteralChar_hexDigit {n : Nat} (h : n < 16) :
    isLiteralChar (Json.hexDigit n) := by
  revert n
  decide

private theorem isLiteralChar_of_mem_escapeChar {c d : Char} (h : d ∈ Json.escapeChar c) :
    isLiteralChar d := by
  unfold Json.escapeChar at h
  split at h
  · exact List.all_eq_true.mp (by decide) d h
  iterate 6
    split at h
    · exact List.all_eq_true.mp (by decide) d h
  split at h
  · next hc =>
      have hhigh : isLiteralChar (Json.hexDigit (c.toNat / 16)) :=
        isLiteralChar_hexDigit (by omega)
      have hlow : isLiteralChar (Json.hexDigit (c.toNat % 16)) :=
        isLiteralChar_hexDigit (by omega)
      simp only [List.mem_cons, List.not_mem_nil, or_false] at h
      rcases h with rfl | rfl | rfl | rfl | rfl | rfl
      · rfl
      · rfl
      · rfl
      · rfl
      · exact hhigh
      · exact hlow
  · next hc =>
      rw [List.mem_singleton.mp h]
      exact isLiteralChar_of_le (by omega)

theorem isLiteralChar_of_mem_quoteChars {text : List Char} {c : Char}
    (h : c ∈ Json.quoteChars text) : isLiteralChar c := by
  simp only [Json.quoteChars, List.cons_append, List.mem_cons, List.mem_append,
    List.mem_flatMap, List.not_mem_nil, or_false] at h
  rcases h with rfl | ⟨d, -, hd⟩ | rfl
  · rfl
  · exact isLiteralChar_of_mem_escapeChar hd
  · rfl

theorem isLiteralChar_of_not_needsQuoting {c : Char} (h : ¬ needsQuoting c) :
    isLiteralChar c := by
  by_cases htab : c = '\t'
  · subst htab
    rfl
  · apply isLiteralChar_of_le
    simp only [needsQuoting, Bool.or_eq_true, Bool.and_eq_true, decide_eq_true_eq, not_or] at h
    have hlow := h.1.1.1.1.1.1
    simp only [bne_iff_ne, ne_eq, htab, not_false_eq_true, and_true, not_lt] at hlow
    exact hlow

theorem isLiteralChar_of_mem_stepChars {step : PathStep} {c : Char} (h : c ∈ stepChars step) :
    isLiteralChar c := by
  cases step with
  | index n =>
      simp only [stepChars, List.cons_append, List.mem_cons, List.mem_append, List.not_mem_nil,
        or_false] at h
      rcases h with rfl | hdigit | rfl
      · rfl
      · exact isLiteralChar_of_isPlain (Fragment.isPlain_of_mem_toDigits hdigit)
      · rfl
  | key name =>
      simp only [stepChars] at h
      split at h
      · rcases List.mem_cons.mp h with rfl | hc
        · rfl
        · exact isLiteralChar_of_mem_quoteChars hc
      · next hname =>
          rcases List.mem_cons.mp h with rfl | hc
          · rfl
          · exact isLiteralChar_of_not_needsQuoting fun hneeds =>
              hname (List.any_eq_true.mpr ⟨c, hc, hneeds⟩)

private theorem isLiteralChar_of_isReady {text : List Char} (h : isReady text) {c : Char}
    (hc : c ∈ text) : isLiteralChar c := by
  unfold isReady at h
  split at h
  · next second rest =>
      rw [Bool.and_eq_true, Bool.or_eq_true, beq_iff_eq, beq_iff_eq, List.all_eq_true] at h
      obtain ⟨hsecond, hrest⟩ := h
      rcases List.mem_cons.mp hc with rfl | hc
      · rfl
      · rcases List.mem_cons.mp hc with rfl | hc
        · rcases hsecond with rfl | rfl <;> rfl
        · exact hrest c hc
  · cases h

theorem isLiteralChar_of_mem_chars {path : JsonPath} {c : Char} (h : c ∈ path.chars) :
    isLiteralChar c := by
  have hsteps {steps : List Char} (hsteps : ∀ d ∈ steps, isLiteralChar d)
      (hc : c ∈ '$' :: steps) : isLiteralChar c := by
    rcases List.mem_cons.mp hc with rfl | hc
    · rfl
    · exact hsteps c hc
  cases path with
  | one step =>
      cases step with
      | index n => exact hsteps (fun d hd => isLiteralChar_of_mem_stepChars hd) h
      | key name =>
          simp only [chars] at h
          split at h
          · next hready => exact isLiteralChar_of_isReady hready h
          · exact hsteps (fun d hd => isLiteralChar_of_mem_stepChars hd) h
  | steps list =>
      refine hsteps (fun d hd => ?_) h
      obtain ⟨step, -, hd⟩ := List.mem_flatMap.mp hd
      exact isLiteralChar_of_mem_stepChars hd

end JsonPath

@[simp] theorem scan_path {rules : ScanRules} (path : JsonPath) (depth : Nat)
    (rest : List Char) :
    scan rules (.literal depth) (path.literal.toList ++ rest) =
      scan rules (.literal depth) rest := by
  rw [JsonPath.literal, String.toList_ofList]
  exact scan_append_of_eq_some
    (scan_doubleQuotes (fun c hc => JsonPath.isLiteralChar_of_mem_chars hc) depth) rest

theorem isPlain_of_mem_configName (options : CompileOptions) :
    ∀ c ∈ (Compile.configName options).toList, Identifier.isPlain c := by
  by_cases hname : sanitize options.textSearchConfig = ""
  · rw [Compile.configName, if_pos hname]
    exact List.all_eq_true.mp (by decide)
  · rw [Compile.configName, if_neg hname]
    exact isPlain_of_mem_sanitize _

@[simp] theorem scan_configName {rules : ScanRules} (options : CompileOptions) (depth : Nat)
    (rest : List Char) :
    scan rules (.literal depth) ((Compile.configName options).toList ++ rest) =
      scan rules (.literal depth) rest :=
  scan_append_of_eq_some (scan_literal_plain (isPlain_of_mem_configName options) depth) rest

end FilterSql
