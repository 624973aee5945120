import FilterSql.Json.Printer
import FilterSql.Json.Reader

/-!
# Written strings read back

A string that is written as JSON text reads back as itself.  The reader gathers a
written character either as it stands or, below the blank, as the 16 bits of an
escape, and both give that character again.
-/

namespace FilterSql.Json

/-! ## Escapes -/

def gatheredUnit (c : Char) : Unit16 :=
  if (escapeChar c).length ≤ 2 then .char c else .escape c.toNat

theorem hexValue?_hexDigit {n : Nat} (h : n < 16) : hexValue? (hexDigit n) = some n := by
  revert n
  decide

/-- The ways in which a character is written, one by one. -/
inductive IsEscape (c : Char) : List Char → Prop where
  | simple (letter : Char) : letter ≠ 'u' → simpleEscape? letter = some c →
      IsEscape c ['\\', letter]
  | code : c.toNat < 0x20 →
      IsEscape c ['\\', 'u', '0', '0', hexDigit (c.toNat / 16), hexDigit (c.toNat % 16)]
  | plain : c ≠ '"' → c ≠ '\\' → 0x20 ≤ c.toNat → IsEscape c [c]

theorem isEscape_escapeChar (c : Char) : IsEscape c (escapeChar c) := by
  unfold escapeChar
  split
  · next hc => exact .simple _ (by decide) (by rw [hc]; rfl)
  · next hquote =>
    split
    · next hc => exact .simple _ (by decide) (by rw [hc]; rfl)
    · next hslash =>
      iterate 5
        split
        · next hc => exact .simple _ (by decide) (by rw [hc]; rfl)
      split
      · next hlow => exact .code hlow
      · next hhigh => exact .plain hquote hslash (by omega)

theorem escapeChar_of_plain {c : Char} (hquote : c ≠ '"') (hslash : c ≠ '\\') (h : 0x20 ≤ c.toNat) :
    escapeChar c = [c] := by
  have hcontrol {d : Char} (hd : d.toNat < 0x20) : c ≠ d := by
    rintro rfl
    omega
  unfold escapeChar
  rw [if_neg hquote, if_neg hslash, if_neg (hcontrol (by decide)), if_neg (hcontrol (by decide)),
    if_neg (hcontrol (by decide)), if_neg (hcontrol (by decide)), if_neg (hcontrol (by decide)),
    if_neg (Nat.not_lt.mpr h)]

theorem quoteChars_of_plain {text : List Char}
    (h : ∀ c ∈ text, c ≠ '"' ∧ c ≠ '\\' ∧ 0x20 ≤ c.toNat) :
    quoteChars text = '"' :: text ++ ['"'] := by
  have hplain : text.map escapeChar = text.map fun c => [c] :=
    List.map_congr_left fun c hc => escapeChar_of_plain (h c hc).1 (h c hc).2.1 (h c hc).2.2
  rw [quoteChars, List.flatMap_def, hplain, ← List.flatMap_def, List.flatMap_singleton']

theorem foldlM_escapeChar (tokens : List Token) (units : List Unit16) (c : Char) :
    (escapeChar c).foldlM Scanner.step ⟨tokens, .inString units⟩ =
      some ⟨tokens, .inString (gatheredUnit c :: units)⟩ := by
  have hescape := isEscape_escapeChar c
  unfold gatheredUnit
  generalize escapeChar c = written at hescape
  cases hescape with
  | simple letter hletter hvalue => simp [Scanner.step, hletter, hvalue]
  | plain hquote hslash hhigh => simp [Scanner.step, hquote, hslash, Nat.not_lt.mpr hhigh]
  | code hlow =>
      have hzero : hexValue? '0' = some 0 := by decide
      have hhigh := hexValue?_hexDigit (n := c.toNat / 16) (by omega)
      have hrest := hexValue?_hexDigit (n := c.toNat % 16) (by omega)
      have hcode : 16 * (c.toNat / 16) + c.toNat % 16 = c.toNat := Nat.div_add_mod _ _
      simp [Scanner.step, hzero, hhigh, hrest, hcode]

/-! ## Strings -/

theorem foldlM_flatMap_escapeChar (tokens : List Token) (units : List Unit16)
    (text : List Char) :
    (text.flatMap escapeChar).foldlM Scanner.step ⟨tokens, .inString units⟩ =
      some ⟨tokens, .inString ((text.map gatheredUnit).reverse ++ units)⟩ := by
  induction text generalizing units with
  | nil => rfl
  | cons c rest ih =>
      rw [List.flatMap_cons, List.foldlM_append, foldlM_escapeChar]
      simpa using ih (gatheredUnit c :: units)

private theorem characters?_escape {code : Nat} (h : code < 0xD800) (rest : List Unit16) :
    characters? (.escape code :: rest) = (characters? rest).map (Char.ofNat code :: ·) := by
  have hhigh : isHighSurrogate code = false := by
    simp only [isHighSurrogate, Bool.and_eq_false_iff, decide_eq_false_iff_not]
    omega
  have hlow : isLowSurrogate code = false := by
    simp only [isLowSurrogate, Bool.and_eq_false_iff, decide_eq_false_iff_not]
    omega
  -- The reader looks one unit ahead, for the second half of a pair.
  cases rest with
  | nil => simp [characters?, hhigh, hlow]
  | cons next rest => cases next <;> simp [characters?, hhigh, hlow]

private theorem characters?_gatheredUnit (c : Char) (rest : List Unit16) :
    characters? (gatheredUnit c :: rest) = (characters? rest).map (c :: ·) := by
  have hescape := isEscape_escapeChar c
  unfold gatheredUnit
  generalize escapeChar c = written at hescape
  cases hescape with
  | simple | plain => rfl
  | code hlow =>
      have hcode : c.toNat < 0xD800 := by omega
      simp [characters?_escape hcode]

theorem characters?_map_gatheredUnit (text : List Char) :
    characters? (text.map gatheredUnit) = some text := by
  induction text with
  | nil => rfl
  | cons c rest ih => rw [List.map_cons, characters?_gatheredUnit, ih, Option.map_some]

/-! ## Tokens behind others -/

/-- The tokens of a text that goes on behind others. -/
def tokensAfter? (before : List Token) (text : List Char) : Option (List Token) :=
  (text.foldlM Scanner.step ⟨before.reverse, .between⟩).bind Scanner.finish

variable {before : List Token} {rest : List Char}

theorem tokens?_eq_tokensAfter? (text : List Char) : tokens? text = tokensAfter? [] text := rfl

theorem tokensAfter?_nil (before : List Token) : tokensAfter? before [] = some before := by
  simp [tokensAfter?, Scanner.finish]

theorem tokensAfter?_append {text : List Char} {token : Token}
    (h : text.foldlM Scanner.step ⟨before.reverse, .between⟩ =
      some (Scanner.push before.reverse token)) :
    tokensAfter? before (text ++ rest) = tokensAfter? (before ++ [token]) rest := by
  rw [tokensAfter?, List.foldlM_append, h]
  simp [tokensAfter?, Scanner.push]

theorem tokensAfter?_quoteChars (text : List Char) :
    tokensAfter? before (quoteChars text ++ rest) =
      tokensAfter? (before ++ [.string (String.ofList text)]) rest := by
  refine tokensAfter?_append ?_
  have hopen : Scanner.step ⟨before.reverse, .between⟩ '"' = some ⟨before.reverse, .inString []⟩ :=
    rfl
  have hclose : Scanner.step ⟨before.reverse, .inString (text.map gatheredUnit).reverse⟩ '"' =
      some (Scanner.push before.reverse (.string (String.ofList text))) := by
    simp [Scanner.step, characters?_map_gatheredUnit]
  have hbody := foldlM_flatMap_escapeChar before.reverse [] text
  rw [List.append_nil] at hbody
  simp [quoteChars, hopen, hbody, hclose]

theorem tokens?_quoteChars (text : List Char) :
    tokens? (quoteChars text) = some [.string (String.ofList text)] := by
  have hscan : tokensAfter? [] (quoteChars text ++ []) = _ := tokensAfter?_quoteChars text
  rwa [List.append_nil, tokensAfter?_nil] at hscan

/-- A string in its JSON form reads back as itself. -/
theorem read?_quoteChars (text : List Char) :
    read? (String.ofList (quoteChars text)) = some (.string (String.ofList text)) := by
  unfold read? readWithin?
  rw [String.toList_ofList, tokens?_quoteChars]
  rfl

end FilterSql.Json
