import FilterSql.Proofs.Sql.Rendering
import FilterSql.Proofs.Sql.Scan

/-!
# Phrases

A fragment is scanned piece by piece, and a hole counts as a placeholder.  A
phrase is a fragment that a scan passes at bracket depth zero; a balanced one is
passed inside any brackets.  Rendering keeps a scan.
-/

namespace FilterSql

def ScanRules.pieces (paired : Bool) : ScanRules := ⟨paired, false⟩

def ScanRules.rendered (paired : Bool) : ScanRules := ⟨paired, true⟩

namespace Fragment

variable {paired : Bool}

/-! ## Scans of fragments -/

def scan (paired : Bool) : Place → Fragment → Option Place
  | place, [] => some place
  | place, .text sql :: rest =>
    (FilterSql.scan (.pieces paired) place sql.toList).bind (scan paired · rest)
  | place, .hole _ :: rest => place.hole.bind (scan paired · rest)

theorem scan_append (place : Place) (first second : Fragment) :
    scan paired place (first ++ second) =
      (scan paired place first).bind (scan paired · second) := by
  induction first generalizing place with
  | nil => rfl
  | cons piece rest ih =>
      cases piece <;> simp [scan, ih, Option.bind_assoc]

def resume (paired : Bool) (place : Option Place) (rest : Fragment) : Option Place :=
  place.bind (scan paired · rest)

@[simp] theorem resume_some (place : Place) (rest : Fragment) :
    resume paired (some place) rest = scan paired place rest := rfl

@[simp] theorem scan_fragment_nil (place : Place) : scan paired place [] = some place := rfl

@[simp] theorem scan_text_cons (place : Place) (sql : String) (rest : Fragment) :
    scan paired place (.text sql :: rest) =
      resume paired (FilterSql.scan (.pieces paired) place sql.toList) rest := rfl

@[simp] theorem scan_hole_cons (place : Place) (value : Value) (rest : Fragment) :
    scan paired place (.hole value :: rest) = resume paired place.hole rest := rfl

private theorem hole_nest {place next : Place} (h : place.hole = some next) :
    place.nest.hole = some next.nest := by
  cases place <;> cases h <;> rfl

theorem scan_nest {place last : Place} {fragment : Fragment}
    (h : scan paired place fragment = some last) :
    scan paired place.nest fragment = some last.nest := by
  induction fragment generalizing place with
  | nil =>
      cases h
      rfl
  | cons piece rest ih =>
      cases piece with
      | text sql =>
          obtain ⟨next, hsql, hrest⟩ := Option.bind_eq_some_iff.mp h
          simp only [scan, FilterSql.scan_nest hsql, Option.bind_some]
          exact ih hrest
      | hole value =>
          obtain ⟨next, hhole, hrest⟩ := Option.bind_eq_some_iff.mp h
          simp only [scan, hole_nest hhole, Option.bind_some]
          exact ih hrest

/-! ## Scans of rendered text -/

private theorem step_rendered {place next : Place} {c : Char}
    (h : place.step (.pieces paired) c = some next) :
    place.step (.rendered paired) c = some next := by
  have henter {depth : Nat} {glyph : Glyph}
      (h : Place.enter (.pieces paired) depth glyph = some next) :
      Place.enter (.rendered paired) depth glyph = some next := by
    cases glyph with
    | token => cases h
    | quote | doubleQuote | opening | closing | blank | hyphen | word | other => exact h
  cases Place.isStep_of_step h with
  | outside h => exact (Place.IsStep.outside (henter h)).step_eq
  | spaced hblank h => exact (Place.IsStep.spaced hblank (henter h)).step_eq
  | arrow | unquote | literal | unname | name => exact h

private theorem scan_text_rendered {place last : Place} {text : List Char}
    (h : FilterSql.scan (.pieces paired) place text = some last) :
    FilterSql.scan (.rendered paired) place text = some last := by
  induction text generalizing place with
  | nil => exact h
  | cons c rest ih =>
      obtain ⟨next, hstep, hrest⟩ := scan_cons_eq_some_iff.mp h
      rw [scan_cons, step_rendered hstep]
      exact ih hrest

theorem scan_words (rules : ScanRules) {text : List Char}
    (h : ∀ c ∈ text, Glyph.ofChar c = .word) (depth : Nat) :
    FilterSql.scan rules (.outside depth) text = some (.outside depth) := by
  apply scan_of_forall_step
  intro c hc
  rw [Place.step, h c hc, Place.enter]

theorem ofChar_of_isPlain {c : Char} (h : Identifier.isPlain c) : Glyph.ofChar c = .word := by
  have hne (d : Char) (hd : Identifier.isPlain d = false) : c ≠ d := ne_of_alphabet h hd
  simp [Glyph.ofChar, Glyph.isWord, h, hne '\'' (by decide), hne '"' (by decide),
    hne '(' (by decide), hne ')' (by decide), hne ' ' (by decide), hne '-' (by decide)]

theorem isPlain_of_mem_toDigits {number : Nat} {c : Char} (h : c ∈ Nat.toDigits 10 number) :
    Identifier.isPlain c := by
  have hdigit : c.isDigit := Nat.isDigit_of_mem_toDigits (by decide) (by decide) h
  simp [Identifier.isPlain, Char.isAlphanum, hdigit]

theorem scan_digits (rules : ScanRules) (number depth : Nat) :
    FilterSql.scan rules (.outside depth) (Nat.toDigits 10 number) = some (.outside depth) :=
  scan_words rules (fun _ hc => ofChar_of_isPlain (isPlain_of_mem_toDigits hc)) depth

private theorem scan_token {place next : Place} (h : place.hole = some next)
    (dialect : Dialect) (number : UInt64) :
    FilterSql.scan (.rendered paired) place (Bindings.token dialect number).toList =
      some next := by
  cases dialect with
  | sqlite =>
      rw [Bindings.toList_token_sqlite]
      cases place <;> cases h <;> rfl
  | postgres =>
      have hdigits := scan_digits (.rendered paired) number.toNat
      rw [Bindings.toList_token_postgres, scan_cons]
      cases place with
      | outside depth =>
          cases h
          exact hdigits depth
      | spaced =>
          cases h
          exact hdigits 0
      | hyphen | literal | identifier => cases h

/-- A scan passes the rendered text of a fragment as it passes the fragment. -/
theorem scan_chars {place last : Place} {fragment : Fragment}
    (h : scan paired place fragment = some last) (bindings : Bindings) :
    FilterSql.scan (.rendered paired) place (fragment.chars bindings) = some last := by
  induction fragment generalizing place bindings with
  | nil => exact h
  | cons piece rest ih =>
      obtain ⟨next, hpiece, hrest⟩ : ∃ next, scan paired place [piece] = some next ∧
          scan paired next rest = some last := by
        rwa [← Option.bind_eq_some_iff, ← scan_append, List.singleton_append]
      cases piece with
      | text sql =>
          have hsql : FilterSql.scan (.pieces paired) place sql.toList = some next := by
            simpa [scan] using hpiece
          rw [chars_text_cons, scan_append_of_eq_some (scan_text_rendered hsql)]
          exact ih hrest bindings
      | hole value =>
          have hhole : place.hole = some next := by simpa [scan] using hpiece
          rw [chars_hole_cons, scan_append_of_eq_some (scan_token hhole _ _)]
          exact ih hrest (bindings.push value).2

/-! ## Phrases and balanced fragments -/

/-- Passed at depth zero: brackets and literals are closed, and no connective stands there. -/
def IsPhrase (paired : Bool) (fragment : Fragment) : Prop :=
  scan paired (.outside 0) fragment = some (.outside 0)

def IsBalanced (paired : Bool) (fragment : Fragment) : Prop :=
  ∀ depth, scan paired (.outside (depth + 1)) fragment = some (.outside (depth + 1))

theorem IsPhrase.append {first second : Fragment} (hfirst : IsPhrase paired first)
    (hsecond : IsPhrase paired second) : IsPhrase paired (first ++ second) := by
  rw [IsPhrase, scan_append, hfirst]
  exact hsecond

theorem IsPhrase.balanced {fragment : Fragment} (h : IsPhrase paired fragment) :
    IsBalanced paired fragment := by
  intro depth
  induction depth with
  | zero => exact scan_nest h
  | succ depth ih => exact scan_nest ih

theorem IsBalanced.append {first second : Fragment} (hfirst : IsBalanced paired first)
    (hsecond : IsBalanced paired second) : IsBalanced paired (first ++ second) := by
  intro depth
  rw [scan_append, hfirst depth]
  exact hsecond depth

theorem isBalanced_join {separator : String}
    (hseparator : IsBalanced paired (text separator)) {parts : List Fragment}
    (h : ∀ part ∈ parts, IsBalanced paired part) :
    IsBalanced paired (join separator parts) := by
  rw [join_eq_intercalate]
  exact intercalate_induction (IsBalanced paired) (fun _ => rfl) IsBalanced.append hseparator h

theorem IsBalanced.phrase_brackets {inner : Fragment} (h : IsBalanced paired inner) :
    IsPhrase paired (text "(" ++ inner ++ text ")") := by
  have hopen : scan paired (.outside 0) (text "(") = some (.outside 1) := rfl
  have hclose : scan paired (.outside 1) (text ")") = some (.outside 0) := rfl
  rw [IsPhrase, scan_append, scan_append, hopen]
  simp only [Option.bind_some, h 0]
  exact hclose

end Fragment

end FilterSql
