import FilterSql.Sql.Compile
import Mathlib.Tactic.SplitIfs

/-!
# Scanning SQL text

A scan reads SQL text from left to right and knows where it stands: how many
round brackets are open, and whether it is inside a literal.  It fails where
compiled text must never get, so that a scan that comes back to its start says
in one equation that the text closes its literals and brackets and keeps to its
alphabets.

At bracket depth zero a scan also refuses a blank before `a` or `o`: a text that
passes there has no connective of its own.
-/

namespace FilterSql

/-! ## Characters -/

/-- The kinds of characters that SQL text is made of outside literals. -/
inductive Glyph where
  | quote
  | doubleQuote
  | opening
  | closing
  | blank
  | hyphen
  /-- Letters and digits of names and keywords, and the signs of operators. -/
  | word
  /-- The first characters of placeholder tokens. -/
  | token
  | other
  deriving DecidableEq, Repr

namespace Glyph

def isWord (c : Char) : Bool :=
  Identifier.isPlain c || c == '.' || c == '=' || c == '<' || c == '>' || c == '|' ||
    c == '@' || c == ',' || c == ':'

def ofChar (c : Char) : Glyph :=
  if c = '\'' then .quote
  else if c = '"' then .doubleQuote
  else if c = '(' then .opening
  else if c = ')' then .closing
  else if c = ' ' then .blank
  else if c = '-' then .hyphen
  else if isWord c then .word
  else if c = '?' ∨ c = '$' then .token
  else .other

variable {c : Char}

theorem ofChar_eq_quote : ofChar c = .quote ↔ c = '\'' := by
  unfold ofChar
  split_ifs <;> simp_all

theorem ofChar_eq_doubleQuote : ofChar c = .doubleQuote ↔ c = '"' := by
  unfold ofChar
  split_ifs <;> simp_all

theorem ofChar_eq_opening : ofChar c = .opening ↔ c = '(' := by
  unfold ofChar
  split_ifs <;> simp_all

theorem ofChar_eq_closing : ofChar c = .closing ↔ c = ')' := by
  unfold ofChar
  split_ifs <;> simp_all

end Glyph

/-- Literals hold no line breaks and no NUL. -/
def isLiteralChar (c : Char) : Bool :=
  !(c == '\n' || c == '\r' || c == '\x0b' || c == '\x00')

theorem ne_of_alphabet {alphabet : Char → Bool} {c d : Char} (h : alphabet c)
    (hd : alphabet d = false) : c ≠ d := by
  rintro rfl
  rw [h] at hd
  cases hd

/-! ## Places -/

inductive Place where
  | outside (depth : Nat)
  /-- After a blank at depth zero. -/
  | spaced
  /-- After a hyphen, which has to be the start of an arrow. -/
  | hyphen (depth : Nat)
  | literal (depth : Nat)
  /-- Inside double quotes, where a scan follows them. -/
  | identifier (depth : Nat)
  deriving DecidableEq, Repr

/-- What a scan asks of a text beyond closed literals and brackets. -/
structure ScanRules where
  /-- Double quotes have to come in pairs around names. -/
  paired : Bool
  /-- Placeholder tokens may stand in the text. -/
  tokens : Bool
  deriving DecidableEq, Repr

namespace Place

def enter (rules : ScanRules) (depth : Nat) : Glyph → Option Place
  | .quote => some (.literal depth)
  | .doubleQuote => some (if rules.paired then .identifier depth else .outside depth)
  | .opening => some (.outside (depth + 1))
  | .closing =>
    match depth with
    | 0 => none
    | depth + 1 => some (.outside depth)
  | .blank => some (if depth = 0 then .spaced else .outside depth)
  | .hyphen => some (.hyphen depth)
  | .word => some (.outside depth)
  | .token => if rules.tokens then some (.outside depth) else none
  | .other => none

def step (rules : ScanRules) : Place → Char → Option Place
  | .outside depth, c => enter rules depth (.ofChar c)
  | .spaced, c =>
    if c = 'a' ∨ c = 'o' ∨ c = ' ' then none else enter rules 0 (.ofChar c)
  | .hyphen depth, c => if c = '>' then some (.outside depth) else none
  | .literal depth, c =>
    if c = '\'' then some (.outside depth)
    else if isLiteralChar c then some (.literal depth) else none
  | .identifier depth, c =>
    if c = '"' then some (.outside depth)
    else if Identifier.isDotted c then some (.identifier depth) else none

/-- All the steps there are, with what each of them asks of the character. -/
inductive IsStep (rules : ScanRules) (c : Char) : Place → Place → Prop where
  | outside {depth : Nat} {next : Place} :
      enter rules depth (.ofChar c) = some next → IsStep rules c (.outside depth) next
  | spaced {next : Place} : ¬ (c = 'a' ∨ c = 'o' ∨ c = ' ') →
      enter rules 0 (.ofChar c) = some next → IsStep rules c .spaced next
  | arrow {depth : Nat} : c = '>' → IsStep rules c (.hyphen depth) (.outside depth)
  | unquote {depth : Nat} : c = '\'' → IsStep rules c (.literal depth) (.outside depth)
  | literal {depth : Nat} :
      c ≠ '\'' → isLiteralChar c → IsStep rules c (.literal depth) (.literal depth)
  | unname {depth : Nat} : c = '"' → IsStep rules c (.identifier depth) (.outside depth)
  | name {depth : Nat} : c ≠ '"' → Identifier.isDotted c →
      IsStep rules c (.identifier depth) (.identifier depth)

theorem isStep_of_step {rules : ScanRules} {place next : Place} {c : Char}
    (h : place.step rules c = some next) : IsStep rules c place next := by
  cases place with
  | outside depth => exact .outside h
  | spaced =>
      simp only [step] at h
      split_ifs at h with hblank
      exact .spaced hblank h
  | hyphen depth =>
      simp only [step] at h
      split_ifs at h with hc
      cases h
      exact .arrow hc
  | literal depth =>
      simp only [step] at h
      split_ifs at h with hquote hliteral
      · cases h
        exact .unquote hquote
      · cases h
        exact .literal hquote hliteral
  | identifier depth =>
      simp only [step] at h
      split_ifs at h with hquote hdotted
      · cases h
        exact .unname hquote
      · cases h
        exact .name hquote hdotted

theorem IsStep.step_eq {rules : ScanRules} {place next : Place} {c : Char}
    (h : IsStep rules c place next) : place.step rules c = some next := by
  cases h with
  | outside h => exact h
  | spaced hblank h => rw [step, if_neg hblank, h]
  | arrow hc => rw [step, if_pos hc]
  | unquote hquote => rw [step, if_pos hquote]
  | literal hquote hliteral => rw [step, if_neg hquote, if_pos hliteral]
  | unname hquote => rw [step, if_pos hquote]
  | name hquote hdotted => rw [step, if_neg hquote, if_pos hdotted]

@[simp] def hole : Place → Option Place
  | .outside depth => some (.outside depth)
  | .spaced => some (.outside 0)
  | _ => none

def nest : Place → Place
  | .outside depth => .outside (depth + 1)
  | .spaced => .outside 1
  | .hyphen depth => .hyphen (depth + 1)
  | .literal depth => .literal (depth + 1)
  | .identifier depth => .identifier (depth + 1)

variable {rules : ScanRules}

private theorem enter_nest {depth : Nat} {glyph : Glyph} {next : Place}
    (h : enter rules depth glyph = some next) :
    enter rules (depth + 1) glyph = some next.nest := by
  cases glyph with
  | closing =>
      cases depth with
      | zero => cases h
      | succ depth =>
          cases h
          rfl
  | blank =>
      cases h
      cases depth <;> rfl
  | doubleQuote =>
      cases h
      cases hpaired : rules.paired <;> simp [enter, nest, hpaired]
  | token =>
      simp only [enter] at h ⊢
      split at h
      · next htokens =>
          cases h
          rw [if_pos htokens]
          rfl
      · cases h
  | other => cases h
  | quote | opening | hyphen | word =>
      cases h
      rfl

theorem step_nest {place next : Place} {c : Char} (h : place.step rules c = some next) :
    place.nest.step rules c = some next.nest := by
  apply IsStep.step_eq
  cases isStep_of_step h with
  | outside henter => exact .outside (enter_nest henter)
  | spaced _ henter => exact .outside (enter_nest henter)
  | arrow hc => exact .arrow hc
  | unquote hquote => exact .unquote hquote
  | literal hquote hliteral => exact .literal hquote hliteral
  | unname hquote => exact .unname hquote
  | name hquote hdotted => exact .name hquote hdotted

end Place

/-! ## Scans of texts -/

def scan (rules : ScanRules) (place : Place) (text : List Char) : Option Place :=
  text.foldlM (Place.step rules) place

section Text

variable {rules : ScanRules}

@[simp] theorem scan_nil (place : Place) : scan rules place [] = some place := by
  rw [scan, List.foldlM_nil]
  rfl

theorem scan_cons (place : Place) (c : Char) (rest : List Char) :
    scan rules place (c :: rest) = (place.step rules c).bind (scan rules · rest) := by
  simp [scan, List.foldlM_cons]

theorem scan_cons_eq_some_iff {place last : Place} {c : Char} {rest : List Char} :
    scan rules place (c :: rest) = some last ↔
      ∃ next, place.step rules c = some next ∧ scan rules next rest = some last := by
  rw [scan_cons, Option.bind_eq_some_iff]

theorem scan_append (place : Place) (first second : List Char) :
    scan rules place (first ++ second) = (scan rules place first).bind (scan rules · second) := by
  simp [scan, List.foldlM_append]

theorem scan_append_of_eq_some {place next : Place} {first : List Char}
    (h : scan rules place first = some next) (second : List Char) :
    scan rules place (first ++ second) = scan rules next second := by
  rw [scan_append, h, Option.bind_some]

theorem scan_of_forall_step {place : Place} {text : List Char}
    (h : ∀ c ∈ text, place.step rules c = some place) : scan rules place text = some place := by
  induction text with
  | nil => exact scan_nil place
  | cons c rest ih =>
      rw [scan_cons, h c List.mem_cons_self]
      exact ih fun d hd => h d (List.mem_cons_of_mem _ hd)

abbrev Passes (rules : ScanRules) (depth : Nat) (text : List Char) : Prop :=
  ∀ rest, scan rules (.outside depth) (text ++ rest) = scan rules (.outside depth) rest

theorem exists_step_of_scan {place last : Place} {before after : List Char} {c : Char}
    (h : scan rules place (before ++ c :: after) = some last) :
    ∃ here next, scan rules place before = some here ∧ here.step rules c = some next ∧
      scan rules next after = some last := by
  rw [scan_append, Option.bind_eq_some_iff] at h
  obtain ⟨here, hbefore, hrest⟩ := h
  obtain ⟨next, hstep, hafter⟩ := scan_cons_eq_some_iff.mp hrest
  exact ⟨here, next, hbefore, hstep, hafter⟩

theorem scan_nest {place last : Place} {text : List Char}
    (h : scan rules place text = some last) :
    scan rules place.nest text = some last.nest := by
  induction text generalizing place with
  | nil =>
      cases h
      rfl
  | cons c rest ih =>
      obtain ⟨next, hstep, hrest⟩ := scan_cons_eq_some_iff.mp h
      rw [scan_cons, Place.step_nest hstep]
      exact ih hrest

theorem Passes.append {depth : Nat} {first second : List Char} (hfirst : Passes rules depth first)
    (hsecond : Passes rules depth second) : Passes rules depth (first ++ second) := by
  intro rest
  rw [List.append_assoc, hfirst, hsecond]

theorem Passes.nest {depth : Nat} {text : List Char} (h : Passes rules depth text) :
    Passes rules (depth + 1) text := by
  have htext := h []
  rw [List.append_nil, scan_nil] at htext
  exact scan_append_of_eq_some (scan_nest htext)

/-! ### Single characters

These step through a text that is known, such as the keywords of a clause.
-/

@[simp] theorem scan_word {c : Char} (h : Glyph.ofChar c = .word) (depth : Nat)
    (rest : List Char) :
    scan rules (.outside depth) (c :: rest) = scan rules (.outside depth) rest := by
  simp [scan_cons, Place.step, h, Place.enter]

@[simp] theorem scan_opening (depth : Nat) (rest : List Char) :
    scan rules (.outside depth) ('(' :: rest) = scan rules (.outside (depth + 1)) rest := by
  rw [scan_cons]
  rfl

@[simp] theorem scan_closing (depth : Nat) (rest : List Char) :
    scan rules (.outside (depth + 1)) (')' :: rest) = scan rules (.outside depth) rest := by
  rw [scan_cons]
  rfl

@[simp] theorem scan_blank (depth : Nat) (rest : List Char) :
    scan rules (.outside (depth + 1)) (' ' :: rest) = scan rules (.outside (depth + 1)) rest := by
  rw [scan_cons]
  rfl

@[simp] theorem scan_blank_top (rest : List Char) :
    scan rules (.outside 0) (' ' :: rest) = scan rules .spaced rest := by
  rw [scan_cons]
  rfl

@[simp] theorem scan_spaced {c : Char} (h : ¬ (c = 'a' ∨ c = 'o' ∨ c = ' '))
    (rest : List Char) :
    scan rules .spaced (c :: rest) = scan rules (.outside 0) (c :: rest) := by
  simp only [scan_cons, Place.step, if_neg h]

@[simp] theorem scan_arrow (depth : Nat) (rest : List Char) :
    scan rules (.outside depth) ('-' :: '>' :: rest) = scan rules (.outside depth) rest := by
  rw [scan_cons]
  rfl

@[simp] theorem scan_quote (depth : Nat) (rest : List Char) :
    scan rules (.outside depth) ('\'' :: rest) = scan rules (.literal depth) rest := by
  rw [scan_cons]
  rfl

@[simp] theorem scan_unquote (depth : Nat) (rest : List Char) :
    scan rules (.literal depth) ('\'' :: rest) = scan rules (.outside depth) rest := by
  rw [scan_cons]
  rfl

@[simp] theorem scan_literal {c : Char} (h : c ≠ '\'' ∧ isLiteralChar c) (depth : Nat)
    (rest : List Char) :
    scan rules (.literal depth) (c :: rest) = scan rules (.literal depth) rest := by
  simp [scan_cons, Place.step, h.1, h.2]

end Text

end FilterSql
