import FilterSql.JsonPath
import FilterSql.Proofs.Json.Strings
import FilterSql.Proofs.Text.Runs

/-!
# JSON paths read back

The text of a path says which steps it takes.  A reader that knows no more than
the marks of indexes, quoted names and plain names gets back the very steps that
were written, so no two lists of steps share a text.

A single key is written as the list of it, unless it reads as a path already.
-/

namespace FilterSql.JsonPath

/-! ## Quotes of the literal -/

/-- Undoes the doubling of single quotes; one that stands alone would end the literal. -/
def undoubled? : List Char → Option (List Char)
  | [] => some []
  | '\'' :: '\'' :: rest => (undoubled? rest).map ('\'' :: ·)
  | c :: rest => if c = '\'' then none else (undoubled? rest).map (c :: ·)

@[simp] theorem undoubled?_doubleQuotes (text : List Char) :
    undoubled? (doubleQuotes text) = some text := by
  induction text with
  | nil => rfl
  | cons c rest ih =>
      unfold doubleQuotes at ih ⊢
      by_cases hc : c = '\''
      · subst hc
        simp [undoubled?, ih]
      · simp [undoubled?, hc, ih]

/-! ## Accessors -/

/-- How a reader of members and subscripts takes names that stand without quotes. -/
structure Grammar where
  /-- The characters that end such a name. -/
  endsName : Char → Bool
  /-- Whether such a name may be empty. -/
  allowsEmpty : Bool

def Grammar.plain : Grammar where
  endsName c := c == '.' || c == '['
  allowsEmpty := true

/-- What stands before the first double quote that no backslash escapes, and what follows it. -/
def upToQuote? : List Char → Option (List Char × List Char)
  | [] => none
  | '"' :: rest => some ([], rest)
  | '\\' :: c :: rest => (upToQuote? rest).map fun (body, rest) => ('\\' :: c :: body, rest)
  | c :: rest => (upToQuote? rest).map fun (body, rest) => (c :: body, rest)

def index? (text : List Char) : Option (PathStep × List Char) :=
  match text.takeWhile Char.isDigit, text.dropWhile Char.isDigit with
  | first :: digits, ']' :: rest => some (.index (Nat.ofDigitChars 10 (first :: digits) 0), rest)
  | _, _ => none

def quotedName? (text : List Char) : Option (PathStep × List Char) := do
  let (body, rest) ← upToQuote? text
  match Json.read? (String.ofList ('"' :: body ++ ['"'])) with
  | some (.string name) => some (.key name, rest)
  | _ => none

def plainName? (grammar : Grammar) (text : List Char) : Option (PathStep × List Char) :=
  let name := text.takeWhile (!grammar.endsName ·)
  if name.isEmpty && !grammar.allowsEmpty then none
  else some (.key (String.ofList name), text.dropWhile (!grammar.endsName ·))

def accessor? (grammar : Grammar) : List Char → Option (PathStep × List Char)
  | '[' :: rest => index? rest
  | '.' :: '"' :: rest => quotedName? rest
  | '.' :: rest => plainName? grammar rest
  | _ => none

theorem length_upToQuote? {text body rest : List Char} (h : upToQuote? text = some (body, rest)) :
    rest.length ≤ text.length := by
  fun_induction upToQuote? text generalizing body with
  | case1 => cases h
  | case2 =>
      cases h
      simp
  | case3 c text ih =>
      obtain ⟨⟨inner, after⟩, hinner, hpair⟩ := Option.map_eq_some_iff.mp h
      cases hpair
      have hlength := ih hinner
      simp only [List.length_cons]
      omega
  | case4 c text _ _ ih =>
      obtain ⟨⟨inner, after⟩, hinner, hpair⟩ := Option.map_eq_some_iff.mp h
      cases hpair
      have hlength := ih hinner
      simp only [List.length_cons]
      omega

theorem length_index? {text rest : List Char} {step : PathStep}
    (h : index? text = some (step, rest)) : rest.length ≤ text.length := by
  unfold index? at h
  split at h
  · next first digits after _ hafter =>
      cases h
      have hdrop := (List.dropWhile_suffix (l := text) Char.isDigit).length_le
      rw [hafter, List.length_cons] at hdrop
      omega
  · cases h

theorem length_quotedName? {text rest : List Char} {step : PathStep}
    (h : quotedName? text = some (step, rest)) : rest.length ≤ text.length := by
  obtain ⟨⟨body, after⟩, hbody, hname⟩ := Option.bind_eq_some_iff.mp h
  dsimp only at hname
  split at hname
  · cases hname
    exact length_upToQuote? hbody
  · cases hname

theorem length_plainName? {grammar : Grammar} {text rest : List Char} {step : PathStep}
    (h : plainName? grammar text = some (step, rest)) : rest.length ≤ text.length := by
  unfold plainName? at h
  dsimp only at h
  split at h
  · cases h
  · cases h
    exact (List.dropWhile_suffix _).length_le

theorem length_accessor? {grammar : Grammar} {text rest : List Char} {step : PathStep}
    (h : accessor? grammar text = some (step, rest)) : rest.length < text.length := by
  unfold accessor? at h
  split at h
  · exact Nat.lt_succ_of_le (length_index? h)
  · exact Nat.lt_succ_of_lt (Nat.lt_succ_of_le (length_quotedName? h))
  · exact Nat.lt_succ_of_le (length_plainName? h)
  · cases h

def accessors? (grammar : Grammar) (text : List Char) : Option (List PathStep) :=
  if text.isEmpty then some []
  else
    match h : accessor? grammar text with
    | none => none
    | some (step, rest) =>
      have := length_accessor? h
      (accessors? grammar rest).map (step :: ·)
termination_by text.length

/-- The steps of a path, which begins at the root. -/
def read? (grammar : Grammar) : List Char → Option (List PathStep)
  | '$' :: rest => accessors? grammar rest
  | _ => none

theorem accessors?_of_accessor? {grammar : Grammar} {text rest : List Char} {step : PathStep}
    (h : accessor? grammar text = some (step, rest)) :
    accessors? grammar text = (accessors? grammar rest).map (step :: ·) := by
  have hne : text.isEmpty = false := by
    cases text with
    | nil => cases h
    | cons => rfl
  rw [accessors?, hne]
  simp only [Bool.false_eq_true, if_false]
  split
  · next hnone =>
      rw [h] at hnone
      cases hnone
  · next hsome =>
      rw [h] at hsome
      cases hsome
      rfl

/-! ## Written steps -/

theorem upToQuote?_flatMap_escapeChar (text rest : List Char) :
    upToQuote? (text.flatMap Json.escapeChar ++ '"' :: rest) =
      some (text.flatMap Json.escapeChar, rest) := by
  induction text with
  | nil => simp [upToQuote?]
  | cons c text ih =>
      rw [List.flatMap_cons, List.append_assoc]
      have hescape := Json.isEscape_escapeChar c
      generalize Json.escapeChar c = written at hescape
      cases hescape with
      | simple letter => simp [upToQuote?, ih]
      | plain hquote hslash => simp [upToQuote?, hslash, ih]
      | code hlow =>
          have hdigit {n : Nat} (h : n < 16) : Json.hexDigit n ≠ '"' ∧ Json.hexDigit n ≠ '\\' := by
            revert n
            decide
          have hhigh := hdigit (n := c.toNat / 16) (by omega)
          have hrest := hdigit (n := c.toNat % 16) (by omega)
          simp [upToQuote?, hhigh, hrest, ih]

theorem quotedName?_written (name : String) (rest : List Char) :
    quotedName? (name.toList.flatMap Json.escapeChar ++ '"' :: rest) = some (.key name, rest) := by
  have hread := Json.read?_quoteChars name.toList
  rw [Json.quoteChars, String.ofList_toList] at hread
  unfold quotedName?
  rw [upToQuote?_flatMap_escapeChar]
  simp only [Option.bind_eq_bind, Option.bind_some, hread]

theorem index?_written (n : Nat) (rest : List Char) :
    index? (Nat.toDigits 10 n ++ ']' :: rest) = some (.index n, rest) := by
  have hstop : Text.StartsWithout Char.isDigit (']' :: rest) := by
    rintro c ⟨⟩
    decide
  have hnumber : Nat.ofDigitChars 10 (Nat.toDigits 10 n) 0 = n :=
    Nat.ofDigitChars_toDigits (by decide) (by decide)
  unfold index?
  rw [Text.takeWhile_digits n hstop, Text.dropWhile_digits n hstop]
  cases hcons : Nat.toDigits 10 n with
  | nil => exact absurd hcons Nat.toDigits_ne_nil
  | cons first digits =>
      rw [hcons] at hnumber
      simp only [hnumber]

def StartsStep (rest : List Char) : Prop := ∀ c ∈ rest.head?, c = '.' ∨ c = '['

theorem stepChars_key_of_exists {name : String} (h : ∃ c ∈ name.toList, needsQuoting c) :
    stepChars (.key name) = '.' :: Json.quoteChars name.toList :=
  if_pos (List.any_eq_true.mpr h)

theorem stepChars_key_of_all {name : String} (h : ∀ c ∈ name.toList, ¬ needsQuoting c) :
    stepChars (.key name) = '.' :: name.toList := by
  apply if_neg
  rw [List.any_eq_true]
  exact fun ⟨c, hc, hneeds⟩ => h c hc hneeds

theorem startsStep_stepChars (step : PathStep) (rest : List Char) :
    StartsStep (stepChars step ++ rest) := by
  have hdot (text : List Char) : StartsStep ('.' :: text ++ rest) := by
    intro c hc
    cases hc
    exact .inl rfl
  cases step with
  | index n =>
      intro c hc
      cases hc
      exact .inr rfl
  | key name =>
      by_cases hname : ∃ c ∈ name.toList, needsQuoting c
      · rw [stepChars_key_of_exists hname]
        exact hdot _
      · rw [stepChars_key_of_all fun c hc hneeds => hname ⟨c, hc, hneeds⟩]
        exact hdot _

theorem startsStep_flatMap (steps : List PathStep) : StartsStep (steps.flatMap stepChars) := by
  cases steps with
  | nil => simp [StartsStep]
  | cons step steps =>
      rw [List.flatMap_cons]
      exact startsStep_stepChars step _

/-! ## Names without quotes -/

namespace Grammar

structure EndsAtSteps (grammar : Grammar) : Prop where
  dot : grammar.endsName '.' = true
  bracket : grammar.endsName '[' = true

structure Admits (grammar : Grammar) (name : List Char) : Prop where
  empty : name = [] → grammar.allowsEmpty = true
  inside : ∀ c ∈ name, grammar.endsName c = false

/-- The step is written as the grammar takes it: a key that may not stand without quotes has them. -/
def Names (grammar : Grammar) : PathStep → Prop
  | .index _ => True
  | .key name => (∃ c ∈ name.toList, needsQuoting c) ∨ grammar.Admits name.toList

theorem endsAtSteps_plain : plain.EndsAtSteps := ⟨rfl, rfl⟩

theorem names_plain (step : PathStep) : plain.Names step := by
  cases step with
  | index n => exact trivial
  | key name =>
      refine or_iff_not_imp_left.mpr fun hname => ⟨fun _ => rfl, fun c hc => ?_⟩
      have hneeds : ¬ needsQuoting c := fun hneeds => hname ⟨c, hc, hneeds⟩
      simp only [needsQuoting, Bool.or_eq_true, beq_iff_eq, not_or] at hneeds
      simp [plain, hneeds]

end Grammar

section Names

variable {grammar : Grammar} {name rest : List Char}

theorem Grammar.EndsAtSteps.startsWithout (hends : grammar.EndsAtSteps) (hrest : StartsStep rest) :
    Text.StartsWithout (!grammar.endsName ·) rest := by
  intro c hc
  rcases hrest c hc with rfl | rfl
  · simp [hends.dot]
  · simp [hends.bracket]

theorem plainName?_written (hends : grammar.EndsAtSteps) (hname : grammar.Admits name)
    (hrest : StartsStep rest) :
    plainName? grammar (name ++ rest) = some (.key (String.ofList name), rest) := by
  have hkeeps : ∀ c ∈ name, (!grammar.endsName c) = true := by
    intro c hc
    rw [hname.inside c hc]
    rfl
  have hstop := hends.startsWithout hrest
  unfold plainName?
  rw [Text.takeWhile_run hkeeps hstop, Text.dropWhile_run hkeeps hstop]
  simpa using hname.empty

theorem accessor?_dot (grammar : Grammar) (hname : ∀ c ∈ name, ¬ needsQuoting c)
    (hrest : StartsStep rest) :
    accessor? grammar ('.' :: (name ++ rest)) = plainName? grammar (name ++ rest) := by
  cases name with
  | cons c name =>
      have hc : c ≠ '"' := by
        rintro rfl
        exact hname '"' List.mem_cons_self rfl
      simp [accessor?, hc]
  | nil =>
      cases rest with
      | nil => rfl
      | cons c rest =>
          have hc : c ≠ '"' := by
            rintro rfl
            have hstarts := hrest '"' rfl
            revert hstarts
            decide
          simp [accessor?, hc]

theorem accessor?_stepChars (hends : grammar.EndsAtSteps) {step : PathStep}
    (hstep : grammar.Names step) (hrest : StartsStep rest) :
    accessor? grammar (stepChars step ++ rest) = some (step, rest) := by
  cases step with
  | index n =>
      have hindex := index?_written n rest
      simpa [stepChars, accessor?] using hindex
  | key name =>
      by_cases hname : ∃ c ∈ name.toList, needsQuoting c
      · have hquoted := quotedName?_written name rest
        rw [stepChars_key_of_exists hname]
        simpa [Json.quoteChars, accessor?] using hquoted
      · have hplain : ∀ c ∈ name.toList, ¬ needsQuoting c := fun c hc hneeds =>
          hname ⟨c, hc, hneeds⟩
        have hread := plainName?_written hends (hstep.resolve_left hname) hrest
        rw [String.ofList_toList] at hread
        rw [stepChars_key_of_all hplain, List.cons_append, accessor?_dot grammar hplain hrest, hread]

/-- A name that ends too early leaves a character with which no step begins. -/
theorem plainName?_split {before after : List Char} {c : Char}
    (hbefore : ∀ d ∈ before, grammar.endsName d = false) (hc : grammar.endsName c = true) :
    plainName? grammar (before ++ c :: after) = none ∨
      plainName? grammar (before ++ c :: after) = some (.key (String.ofList before), c :: after) := by
  have hkeeps : ∀ d ∈ before, (!grammar.endsName d) = true := by
    intro d hd
    rw [hbefore d hd]
    rfl
  have hstop : Text.StartsWithout (!grammar.endsName ·) (c :: after) := by
    rintro _ ⟨⟩
    simp [hc]
  unfold plainName?
  rw [Text.takeWhile_run hkeeps hstop, Text.dropWhile_run hkeeps hstop]
  dsimp only
  split
  · exact .inl rfl
  · exact .inr rfl

theorem accessor?_eq_none {c : Char} (h : ¬ needsQuoting c) :
    accessor? grammar (c :: rest) = none := by
  have hdot : c ≠ '.' := by
    rintro rfl
    exact h rfl
  have hbracket : c ≠ '[' := by
    rintro rfl
    exact h rfl
  simp [accessor?, hdot, hbracket]

theorem accessors?_eq_none_of_accessor? {text : List Char} (hne : text ≠ [])
    (h : accessor? grammar text = none) : accessors? grammar text = none := by
  have hempty : text.isEmpty = false := by simpa using hne
  rw [accessors?, hempty]
  simp only [Bool.false_eq_true, if_false]
  split
  · rfl
  · next hsome =>
      rw [h] at hsome
      cases hsome

theorem accessors?_eq_none (hends : grammar.EndsAtSteps) {step : PathStep}
    (hstep : ¬ grammar.Names step) (hrest : StartsStep rest) :
    accessors? grammar (stepChars step ++ rest) = none := by
  cases step with
  | index n => exact absurd trivial hstep
  | key name =>
      have hplain : ∀ c ∈ name.toList, ¬ needsQuoting c := fun c hc hneeds =>
        hstep (.inl ⟨c, hc, hneeds⟩)
      rw [stepChars_key_of_all hplain, List.cons_append]
      have hdot := accessor?_dot grammar hplain hrest
      by_cases hinside : ∀ c ∈ name.toList, grammar.endsName c = false
      · have hempty : name.toList = [] ∧ grammar.allowsEmpty = false := by
          by_contra hne
          refine hstep (.inr ⟨fun hnil => ?_, hinside⟩)
          simpa [hnil] using hne
        refine accessors?_eq_none_of_accessor? (List.cons_ne_nil _ _) ?_
        rw [hdot, hempty.1, List.nil_append, plainName?,
          (hends.startsWithout hrest).takeWhile_eq_nil]
        simp [hempty.2]
      · have hfound : (name.toList.find? grammar.endsName).isSome := by
          simpa [List.find?_isSome] using hinside
        obtain ⟨c, hc⟩ := Option.isSome_iff_exists.mp hfound
        obtain ⟨hends, before, after, hsplit, hbefore⟩ := List.find?_eq_some_iff_append.mp hc
        have hnext : accessors? grammar (c :: (after ++ rest)) = none :=
          accessors?_eq_none_of_accessor? (List.cons_ne_nil _ _)
            (accessor?_eq_none (hplain c (by simp [hsplit])))
        rw [hsplit, List.append_assoc, List.cons_append] at hdot ⊢
        rcases plainName?_split (fun d hd => by simpa using hbefore d hd) hends with hnone | hsome
        · exact accessors?_eq_none_of_accessor? (List.cons_ne_nil _ _) (hdot.trans hnone)
        · rw [accessors?_of_accessor? (hdot.trans hsome), hnext, Option.map_none]

end Names

theorem accessors?_flatMap {grammar : Grammar} (hends : grammar.EndsAtSteps)
    {steps : List PathStep} (h : ∀ step ∈ steps, grammar.Names step) :
    accessors? grammar (steps.flatMap stepChars) = some steps := by
  induction steps with
  | nil => rw [List.flatMap_nil, accessors?, List.isEmpty_nil, if_pos rfl]
  | cons step steps ih =>
      rw [List.forall_mem_cons] at h
      rw [List.flatMap_cons, accessors?_of_accessor?
        (accessor?_stepChars hends h.1 (startsStep_flatMap steps)), ih h.2, Option.map_some]

theorem accessors?_flatMap_eq_none {grammar : Grammar} (hends : grammar.EndsAtSteps)
    {steps : List PathStep} (h : ∃ step ∈ steps, ¬ grammar.Names step) :
    accessors? grammar (steps.flatMap stepChars) = none := by
  induction steps with
  | nil => exact absurd h (by simp)
  | cons step steps ih =>
      rw [List.flatMap_cons]
      by_cases hstep : grammar.Names step
      · have hrest : ∃ step ∈ steps, ¬ grammar.Names step := by
          simpa [hstep] using h
        rw [accessors?_of_accessor? (accessor?_stepChars hends hstep (startsStep_flatMap steps)),
          ih hrest, Option.map_none]
      · exact accessors?_eq_none hends hstep (startsStep_flatMap steps)

theorem read?_chars_steps (steps : List PathStep) :
    read? .plain (chars (.steps steps)) = some steps :=
  accessors?_flatMap Grammar.endsAtSteps_plain fun step _ => Grammar.names_plain step

/-! ## Literals -/

theorem undoubled?_literal (path : JsonPath) :
    undoubled? path.literal.toList = some path.chars := by
  rw [literal, String.toList_ofList, undoubled?_doubleQuotes]

theorem literal_eq_iff {path other : JsonPath} :
    path.literal = other.literal ↔ path.chars = other.chars := by
  constructor
  · intro h
    have hread := undoubled?_literal path
    rw [h, undoubled?_literal] at hread
    exact (Option.some.inj hread).symm
  · intro h
    rw [literal, literal, h]

def ofLiteral? (grammar : Grammar) (text : String) : Option (List PathStep) :=
  (undoubled? text.toList).bind (read? grammar)

theorem ofLiteral?_steps (steps : List PathStep) :
    ofLiteral? .plain (JsonPath.steps steps).literal = some steps := by
  rw [ofLiteral?, undoubled?_literal, Option.bind_some, read?_chars_steps]

/-! ## Single steps -/

def lineBreaks : List Char := ['\n', '\r', '\x0b', '\x00']

/-- A key that reads as a path already: it begins like one, and stands on one line. -/
def IsReadyKey (step : PathStep) : Prop :=
  ∃ name, step = .key name ∧ (['$', '.'] <+: name.toList ∨ ['$', '['] <+: name.toList) ∧
    ∀ c ∈ name.toList, c ∉ lineBreaks

theorem isReady_iff (text : List Char) :
    isReady text ↔ (['$', '.'] <+: text ∨ ['$', '['] <+: text) ∧ ∀ c ∈ text, c ∉ lineBreaks := by
  match text with
  | [] => simp [isReady]
  | [c] => simp [isReady]
  | first :: second :: rest =>
      have hbegins (mark : Char) :
          ['$', mark] <+: first :: second :: rest ↔ first = '$' ∧ second = mark := by
        simp [List.cons_prefix_cons, eq_comm]
      have hline (c : Char) :
          (!(c == '\n' || c == '\r' || c == '\x0b' || c == '\x00')) = true ↔ c ∉ lineBreaks := by
        simp [lineBreaks, and_assoc]
      rw [hbegins, hbegins, ← and_or_left, List.forall_mem_cons, List.forall_mem_cons]
      by_cases hfirst : first = '$'
      · subst hfirst
        have hmark : second = '.' ∨ second = '[' → second ∉ lineBreaks := by
          rintro (rfl | rfl) <;> decide
        have hroot : '$' ∉ lineBreaks := by decide
        simp only [isReady, Bool.and_eq_true, Bool.or_eq_true, beq_iff_eq, List.all_eq_true, hline]
        constructor
        · exact fun ⟨hsecond, hrest⟩ => ⟨⟨trivial, hsecond⟩, hroot, hmark hsecond, hrest⟩
        · exact fun ⟨⟨_, hsecond⟩, _, _, hrest⟩ => ⟨hsecond, hrest⟩
      · simp [isReady, hfirst]

theorem isReadyKey_key {name : String} : IsReadyKey (.key name) ↔ isReady name.toList := by
  rw [isReady_iff]
  constructor
  · rintro ⟨_, heq, h⟩
    cases heq
    exact h
  · exact fun h => ⟨name, rfl, h⟩

theorem length_lt_quoteChars (text : List Char) : text.length < (Json.quoteChars text).length := by
  have hwritten : text.length ≤ (text.flatMap Json.escapeChar).length := by
    induction text with
    | nil => simp
    | cons c rest ih =>
        have hc : 1 ≤ (Json.escapeChar c).length := by
          have hescape := Json.isEscape_escapeChar c
          generalize Json.escapeChar c = written at hescape
          cases hescape <;> simp
        rw [List.flatMap_cons, List.length_append, List.length_cons]
        omega
  simp only [Json.quoteChars, List.cons_append, List.length_cons, List.length_append,
    List.length_nil]
  omega

theorem chars_one_eq_iff (step : PathStep) :
    chars (.one step) = chars (.steps [step]) ↔ ¬ IsReadyKey step := by
  have hlist : chars (.steps [step]) = '$' :: stepChars step := by simp [chars]
  rw [hlist]
  cases step with
  | index n => simp [chars, IsReadyKey]
  | key name =>
      rw [isReadyKey_key]
      by_cases hready : isReady name.toList
      · have hmark : ∃ c ∈ name.toList, needsQuoting c := by
          obtain ⟨⟨rest, hrest⟩ | ⟨rest, hrest⟩, -⟩ := (isReady_iff _).mp hready
          · exact ⟨'.', by simp [← hrest], rfl⟩
          · exact ⟨'[', by simp [← hrest], rfl⟩
        have hlength := length_lt_quoteChars name.toList
        have hne : name.toList ≠ '$' :: stepChars (.key name) := by
          intro heq
          rw [stepChars_key_of_exists hmark] at heq
          have hlengths := congrArg List.length heq
          simp only [List.length_cons] at hlengths
          omega
        simp [chars, hready, hne]
      · simp [chars, hready]

/-! ## Unique reading -/

/-- A reader gets back the steps of a literal, so that literals of different steps differ; a single
step is written as the list of it unless it is a key that reads as a path already. -/
theorem literal_uniquely_decodable (steps others : List PathStep) (step : PathStep) :
    ofLiteral? .plain (JsonPath.steps steps).literal = some steps ∧
      ((JsonPath.steps steps).literal = (JsonPath.steps others).literal ↔ steps = others) ∧
      ((JsonPath.one step).literal = (JsonPath.steps [step]).literal ↔ ¬ IsReadyKey step) := by
  refine ⟨ofLiteral?_steps steps, ?_, literal_eq_iff.trans (chars_one_eq_iff step)⟩
  constructor
  · intro h
    have hread := ofLiteral?_steps steps
    rw [h, ofLiteral?_steps] at hread
    exact (Option.some.inj hread).symm
  · rintro rfl
    rfl

end FilterSql.JsonPath
