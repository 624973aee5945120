import FilterSql.Proofs.Sql.Names

/-!
# Gaps between connectives

An expression has a gap where a connective, a pair of brackets or a `where` has no
operand.  To find gaps it is enough to read the words of a text from left to right
and to know whether an operand is due.
-/

namespace FilterSql

/-! ## Reading words -/

inductive Stand where
  /-- In a word that has these letters so far; before it an operand was due or not. -/
  | word (letters : List Char) (due : Bool)
  /-- In a word that has other signs too, so that it is no keyword. -/
  | operand
  | literal
  deriving DecidableEq, Repr

namespace Stand

/-- Whether an operand is due after a word; a connective must not come while one is. -/
def dueAfter (letters : List Char) (due : Bool) : Option Bool :=
  if letters = [] then some due
  else if letters = ['a', 'n', 'd'] ∨ letters = ['o', 'r'] then if due then none else some true
  else some (letters = ['W', 'H', 'E', 'R', 'E'] ∨ letters = ['w', 'h', 'e', 'r', 'e'] ∨
    letters = ['n', 'o', 't'])

def due? : Stand → Option Bool
  | .word letters due => dueAfter letters due
  | .operand => some false
  | .literal => none

def step : Stand → Char → Option Stand
  | .literal, c => some (if c = '\'' then .operand else .literal)
  | stand, c =>
    if c = '\'' then some .literal
    else if c = ' ' then stand.due?.map (.word [])
    else if c = '(' then stand.due?.map fun _ => .word [] true
    else if c = ')' then if stand.due? = some false then some (.word [] false) else none
    else match stand with
      | .word letters due => if c.isAlpha then some (.word (letters ++ [c]) due) else some .operand
      | other => some other

@[simp] def sign : Stand → Stand
  | .word _ _ | .operand => .operand
  | .literal => .literal

def verdict : Option Stand → Option Bool
  | none => some false
  | some .literal => none
  | some stand => some (stand.due? = some false)

@[simp] theorem verdict_operand : verdict (some .operand) = some true := rfl

@[simp] theorem verdict_word (letters : List Char) (due : Bool) :
    verdict (some (.word letters due)) = some (decide (dueAfter letters due = some false)) := rfl

end Stand

def follow (stand : Option Stand) (text : List Char) : Option Stand :=
  text.foldl (fun stand c => stand.bind (Stand.step · c)) stand

/-- Either no text at all, or one that supplies an operand and has no gap. -/
def isGapless (text : List Char) : Bool :=
  text = [] ∨ Stand.verdict (follow (some (.word [] true)) text) = some true

example : isGapless "WHERE (\"a\"=? or not (\"b\")) and \"c\" in (select \"d\" from \"e\")".toList ∧
    ["WHERE ", "()", "not ()", "? and ", " or ?", "(? or )", "? and  and ?", "(select ? where )"].all
      fun text => ¬ isGapless text.toList := by
  decide

/-! ## Steps of a reader -/

def isSolid (c : Char) : Bool := !(c == '\'' || c == ' ' || c == '(' || c == ')')

theorem isSolid_of_isDotted {c : Char} (h : Identifier.isDotted c) : isSolid c := by
  have hne (d : Char) (hd : Identifier.isDotted d = false) : c ≠ d := ne_of_alphabet h hd
  simp [isSolid, hne '\'' (by decide), hne ' ' (by decide), hne '(' (by decide),
    hne ')' (by decide)]

section Text

variable {letters : List Char} {due : Bool} {rest : List Char}

theorem follow_append (stand : Option Stand) (first second : List Char) :
    follow stand (first ++ second) = follow (follow stand first) second :=
  List.foldl_append

theorem follow_cons (stand : Stand) (c : Char) (rest : List Char) :
    follow (some stand) (c :: rest) = follow (stand.step c) rest := by
  rw [follow, List.foldl_cons, Option.bind_some]
  rfl

@[simp] theorem follow_nil (stand : Option Stand) : follow stand [] = stand := by
  rw [follow, List.foldl_nil]

@[simp] theorem follow_none (text : List Char) : follow none text = none := by
  induction text with
  | nil => rfl
  | cons c text ih => exact ih

@[simp] theorem follow_letter {c : Char} (h : c.isAlpha) :
    follow (some (.word letters due)) (c :: rest) =
      follow (some (.word (letters ++ [c]) due)) rest := by
  have hne (d : Char) (hd : d.isAlpha = false) : c ≠ d := ne_of_alphabet h hd
  simp [follow_cons, Stand.step, h, hne '\'' (by decide), hne ' ' (by decide),
    hne '(' (by decide), hne ')' (by decide)]

@[simp] theorem follow_sign {c : Char} (h : ¬ c.isAlpha ∧ isSolid c) :
    follow (some (.word letters due)) (c :: rest) = follow (some .operand) rest := by
  simp_all [follow_cons, Stand.step, isSolid]

@[simp] theorem follow_operand {c : Char} (h : isSolid c) :
    follow (some .operand) (c :: rest) = follow (some .operand) rest := by
  simp_all [follow_cons, Stand.step, isSolid]

@[simp] theorem follow_blank :
    follow (some (.word letters due)) (' ' :: rest) =
      follow ((Stand.dueAfter letters due).map (.word [])) rest := by
  rw [follow_cons]
  rfl

@[simp] theorem follow_operand_blank :
    follow (some .operand) (' ' :: rest) = follow (some (.word [] false)) rest := by
  rw [follow_cons]
  rfl

@[simp] theorem follow_opening :
    follow (some (.word letters due)) ('(' :: rest) =
      follow ((Stand.dueAfter letters due).map fun _ => .word [] true) rest := by
  rw [follow_cons]
  rfl

@[simp] theorem follow_operand_opening :
    follow (some .operand) ('(' :: rest) = follow (some (.word [] true)) rest := by
  rw [follow_cons]
  rfl

@[simp] theorem follow_closing :
    follow (some (.word letters due)) (')' :: rest) =
      follow (if Stand.dueAfter letters due = some false then some (.word [] false) else none)
        rest := by
  rw [follow_cons]
  rfl

@[simp] theorem follow_operand_closing :
    follow (some .operand) (')' :: rest) = follow (some (.word [] false)) rest := by
  rw [follow_cons]
  rfl

@[simp] theorem follow_quote :
    follow (some (.word letters due)) ('\'' :: rest) = follow (some .literal) rest := by
  rw [follow_cons]
  rfl

@[simp] theorem follow_operand_quote :
    follow (some .operand) ('\'' :: rest) = follow (some .literal) rest := by
  rw [follow_cons]
  rfl

@[simp] theorem follow_unquote :
    follow (some .literal) ('\'' :: rest) = follow (some .operand) rest := by
  rw [follow_cons]
  rfl

@[simp] theorem follow_literal {c : Char} (h : c ≠ '\'') :
    follow (some .literal) (c :: rest) = follow (some .literal) rest := by
  simp [follow_cons, Stand.step, h]

/-! ## Names and literals -/

theorem follow_literal_text {text : List Char} (h : '\'' ∉ text) (rest : List Char) :
    follow (some .literal) (text ++ rest) = follow (some .literal) rest := by
  induction text with
  | nil => rfl
  | cons c text ih =>
      simp only [List.mem_cons, not_or] at h
      rw [List.cons_append, follow_literal (Ne.symm h.1), ih h.2]

theorem follow_solid {text : List Char} (h : ∀ c ∈ text, isSolid c) (rest : List Char) :
    follow (some .operand) (text ++ rest) = follow (some .operand) rest := by
  induction text with
  | nil => rfl
  | cons c text ih =>
      rw [List.cons_append, follow_operand (h c List.mem_cons_self)]
      exact ih fun d hd => h d (List.mem_cons_of_mem _ hd)

theorem follow_signed {text : List Char} {sign : Char} (h : ∀ c ∈ text, isSolid c)
    (hmem : sign ∈ text) (hsign : ¬ sign.isAlpha) (stand : Stand) (rest : List Char) :
    follow (some stand) (text ++ rest) = follow (some stand.sign) rest := by
  cases stand with
  | literal =>
      exact follow_literal_text (fun hquote => absurd (h _ hquote) (by decide)) rest
  | operand => exact follow_solid h rest
  | word letters due =>
      induction text generalizing letters with
      | nil => cases hmem
      | cons c text ih =>
          have hc := h c List.mem_cons_self
          have htext : ∀ d ∈ text, isSolid d := fun d hd => h d (List.mem_cons_of_mem _ hd)
          -- As long as letters come the sign is still ahead; any other sign ends the search.
          by_cases hletter : c.isAlpha
          · have hlater : sign ∈ text := by
              rcases List.mem_cons.mp hmem with rfl | hlater
              · exact absurd hletter hsign
              · exact hlater
            rw [List.cons_append, follow_letter hletter]
            exact ih htext hlater _
          · rw [List.cons_append, follow_sign ⟨hletter, hc⟩]
            exact follow_solid htext rest

@[simp] theorem follow_columnRef (stand : Stand) (name : String) (rest : List Char) :
    follow (some stand) ((columnRef name).toList ++ rest) = follow (some stand.sign) rest :=
  follow_signed (fun c hc => isSolid_of_isDotted (isDotted_of_mem_columnRef name c hc))
    (doubleQuote_mem_columnRef name) (by decide) stand rest

@[simp] theorem follow_nameRef (stand : Stand) (name : String) (rest : List Char) :
    follow (some stand) ((nameRef name).toList ++ rest) = follow (some stand.sign) rest := by
  have hquote : '"' ∈ (nameRef name).toList := by
    rw [toList_nameRef]
    exact List.mem_cons_self
  refine follow_signed (fun c hc => ?_) hquote (by decide) stand rest
  rw [toList_nameRef] at hc
  exact isSolid_of_isDotted (Identifier.isDotted_of_mem_enclosed
    (fun d hd => Identifier.isDotted_of_isPlain (isPlain_of_mem_sanitize name d hd)) c hc)

@[simp] theorem follow_columnRef_last (stand : Stand) (name : String) :
    follow (some stand) (columnRef name).toList = some stand.sign := by
  simpa using follow_columnRef stand name []

@[simp] theorem follow_path (path : JsonPath) (rest : List Char) :
    follow (some .literal) (path.literal.toList ++ rest) = follow (some .literal) rest := by
  rw [JsonPath.literal, String.toList_ofList, JsonPath.doubleQuotes]
  induction path.chars with
  | nil => rfl
  | cons c text ih =>
      rw [List.flatMap_cons, List.append_assoc]
      split
      · rw [List.cons_append, follow_unquote, List.singleton_append, follow_operand_quote, ih]
      · next hc => rw [List.singleton_append, follow_literal hc, ih]

@[simp] theorem follow_configName (options : CompileOptions) (rest : List Char) :
    follow (some .literal) ((Compile.configName options).toList ++ rest) =
      follow (some .literal) rest :=
  follow_literal_text
    (fun hquote => absurd (isPlain_of_mem_configName options _ hquote) (by decide)) rest

end Text

/-! ## Fragments -/

namespace Fragment

def follow : Option Stand → Fragment → Option Stand
  | stand, [] => stand
  | stand, .text sql :: rest => follow (FilterSql.follow stand sql.toList) rest
  | stand, .hole _ :: rest => follow (stand.map Stand.sign) rest

/-- Whether the fragment supplies the operand that is due where it begins, and has no gap. -/
def supplies? (fragment : Fragment) : Option Bool :=
  Stand.verdict (fragment.follow (some (.word [] true)))

private theorem follow_token (stand : Option Stand) (dialect : Dialect) (number : UInt64)
    (rest : List Char) :
    FilterSql.follow stand ((Bindings.token dialect number).toList ++ rest) =
      FilterSql.follow (stand.map Stand.sign) rest := by
  cases stand with
  | none => simp
  | some stand =>
      cases dialect with
      | sqlite =>
          rw [Bindings.toList_token_sqlite]
          exact follow_signed (List.forall_mem_singleton.mpr rfl) List.mem_cons_self (by decide)
            stand rest
      | postgres =>
          rw [Bindings.toList_token_postgres]
          refine follow_signed (fun c hc => ?_) List.mem_cons_self (by decide) stand rest
          rcases List.mem_cons.mp hc with rfl | hc
          · decide
          · exact isSolid_of_isDotted (Identifier.isDotted_of_isPlain (isPlain_of_mem_toDigits hc))

/-- A reader follows the text of a fragment as it follows the fragment. -/
theorem follow_chars (stand : Option Stand) (fragment : Fragment) (bindings : Bindings) :
    FilterSql.follow stand (fragment.chars bindings) = fragment.follow stand := by
  induction fragment generalizing stand bindings with
  | nil => rfl
  | cons piece rest ih =>
      cases piece with
      | text sql => rw [chars_text_cons, follow_append, follow, ih]
      | hole value => rw [chars_hole_cons, follow_token, ih, follow]

@[simp] theorem follow_fragment_append (stand : Option Stand) (first second : Fragment) :
    follow stand (first ++ second) = follow (follow stand first) second := by
  induction first generalizing stand with
  | nil => rfl
  | cons piece rest ih => cases piece <;> simp [follow, ih]

@[simp] theorem follow_fragment_nil (stand : Option Stand) : follow stand [] = stand := rfl

@[simp] theorem follow_fragment_none (fragment : Fragment) : follow none fragment = none := by
  induction fragment with
  | nil => rfl
  | cons piece rest ih => cases piece <;> simpa [follow] using ih

@[simp] theorem follow_text (stand : Option Stand) (sql : String) :
    follow stand (text sql) = FilterSql.follow stand sql.toList := rfl

@[simp] theorem follow_hole (stand : Option Stand) (value : Value) :
    follow stand (hole value) = stand.map Stand.sign := rfl

/-! ### Connectives -/

section Connectives

variable {supplied : Bool} {fragment : Fragment}

private theorem follow_separator {separator : String} (h : separator = " and " ∨ separator = " or ")
    {stand : Option Stand} (hstand : Stand.verdict stand = some supplied) :
    FilterSql.follow stand separator.toList = if supplied then some (.word [] true) else none := by
  obtain ⟨connective, hchars, hconnective⟩ : ∃ connective, separator.toList = ' ' :: connective ∧
      ∀ due, FilterSql.follow (some (.word [] due)) connective =
        if due then none else some (.word [] true) := by
    rcases h with rfl | rfl
    · exact ⟨"and ".toList, rfl, by decide⟩
    · exact ⟨"or ".toList, rfl, by decide⟩
  rw [hchars]
  cases stand with
  | none =>
      cases hstand
      exact follow_none _
  | some stand =>
      cases stand with
      | literal => cases hstand
      | operand =>
          cases hstand
          rw [follow_operand_blank]
          exact hconnective false
      | word letters due =>
          obtain rfl : decide (Stand.dueAfter letters due = some false) = supplied :=
            Option.some.inj hstand
          rw [follow_blank]
          rcases hdue : Stand.dueAfter letters due with _ | _ | _ <;> simp [hconnective]

theorem follow_bracket {stand : Option Stand}
    (hstand : Stand.verdict stand = some supplied) :
    FilterSql.follow stand ")".toList = if supplied then some (.word [] false) else none := by
  cases stand with
  | none =>
      cases hstand
      exact follow_none _
  | some stand =>
      cases stand with
      | literal => cases hstand
      | operand =>
          cases hstand
          rfl
      | word letters due =>
          obtain rfl : decide (Stand.dueAfter letters due = some false) = supplied :=
            Option.some.inj hstand
          simp

theorem supplies?_join {separator : String} (hseparator : separator = " and " ∨ separator = " or ")
    {parts : List Fragment} {verdicts : List Bool}
    (h : parts.map supplies? = verdicts.map some) :
    (join separator parts).supplies? = some (!verdicts.isEmpty && verdicts.all id) := by
  induction parts generalizing verdicts with
  | nil =>
      obtain rfl : verdicts = [] := by simpa using h.symm
      rfl
  | cons first rest ih =>
      obtain ⟨supplied, later, rfl⟩ : ∃ supplied later, verdicts = supplied :: later := by
        cases verdicts with
        | nil => simp at h
        | cons supplied later => exact ⟨supplied, later, rfl⟩
      simp only [List.map_cons, List.cons.injEq] at h
      obtain ⟨hfirst, hrest⟩ := h
      cases rest with
      | nil =>
          obtain rfl : later = [] := by simpa using hrest.symm
          simp [hfirst]
      | cons second rest =>
          have hlater : later ≠ [] := by
            rintro rfl
            simp at hrest
          -- The separator asks for the next part, or finds that the first has supplied nothing.
          have hnext := ih hrest
          rw [supplies?] at hnext
          rw [supplies?, join_cons_cons, follow_fragment_append, follow,
            follow_separator hseparator hfirst]
          cases supplied with
          | false => simp [Stand.verdict]
          | true => simp [hnext, hlater]

theorem supplies?_brackets {opening : String} (hopening : opening = "(" ∨ opening = "not (")
    (h : fragment.supplies? = some supplied) :
    (text opening ++ fragment ++ text ")").supplies? = some supplied := by
  have hopen : follow (some (.word [] true)) (text opening) = some (.word [] true) := by
    rcases hopening with rfl | rfl <;> rfl
  rw [supplies?, follow_fragment_append, follow_fragment_append, hopen, follow_text,
    follow_bracket h]
  cases supplied <;> rfl

end Connectives

end Fragment

end FilterSql
