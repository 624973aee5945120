import FilterSql.Proofs.Json.Elements

/-!
# The tokens of written values

The characters of a value that is written as compact JSON text are gathered into the tokens of that
value.  Only the numbers are read again from their digits: a double is scaled with a rounding or
two on the way, and need not come back as it was.
-/

namespace FilterSql.Json

/-! ## Words -/

inductive IsScalar : Json → Prop where
  | null : IsScalar .null
  | bool (value : Bool) : IsScalar (.bool value)
  | integer (n : Int) : IsScalar (.integer n)
  | float (x : Double) : IsScalar (.float x)

theorem of_splitWhole?_eq_some {text whole rest : List Char}
    (h : splitWhole? text = some (whole, rest)) :
    text = whole ++ rest ∧ ∀ c ∈ whole, c.isDigit := by
  unfold splitWhole? at h
  rw [List.span_eq_takeWhile_dropWhile] at h
  split at h
  · cases h
  · cases h
  · next heq =>
    cases h
    cases heq
    exact ⟨List.takeWhile_append_dropWhile.symm, fun _ => List.mem_takeWhile_imp⟩

theorem of_readInteger?_eq_some {negative : Bool} {digits : List Char} {json : Json}
    (h : readInteger? negative digits = some json) :
    (∃ x, json = .float x) ∨ ∃ n, json = .integer n := by
  have hcases {small : Prop} [Decidable small] {n : Int} {read : Option Double}
      (h : (if small then some (Json.integer n) else read.map .float) = some json) :
      (∃ x, json = .float x) ∨ ∃ n, json = .integer n := by
    split at h
    · cases h
      exact .inr ⟨n, rfl⟩
    · obtain ⟨x, -, rfl⟩ := Option.map_eq_some_iff.mp h
      exact .inl ⟨x, rfl⟩
  cases negative with
  | true => exact hcases h
  | false => exact hcases h

/-- Only a text that is all digits, but for a sign, is read as a whole number. -/
theorem of_number?_eq_some {text : List Char} {json : Json} (h : number? text = some json) :
    (∃ x, json = .float x) ∨ ∃ n, json = .integer n ∧ ∀ c ∈ text, c.isDigit ∨ c = '-' := by
  have hfloat {read : Option Double} (h : read.map Json.float = some json) :
      ∃ x, json = .float x := by
    obtain ⟨x, -, rfl⟩ := Option.map_eq_some_iff.mp h
    exact ⟨x, rfl⟩
  unfold number? at h
  simp only [Option.bind_eq_bind, Option.bind_eq_some_iff, Prod.exists] at h
  obtain ⟨whole, rest, hsplit, hread⟩ := h
  obtain ⟨hbody, hwhole⟩ := of_splitWhole?_eq_some hsplit
  split at hread
  · rw [List.append_nil] at hbody
    have htext : ∀ c ∈ text, c.isDigit ∨ c = '-' := by
      split at hbody
      · cases hbody
        exact List.forall_mem_cons.mpr ⟨.inr rfl, fun c hc => .inl (hwhole c hc)⟩
      · cases hbody
        exact fun c hc => .inl (hwhole c hc)
    exact (of_readInteger?_eq_some hread).imp_right fun ⟨n, hn⟩ => ⟨n, hn, htext⟩
  · split at hread
    · cases hread
    · obtain ⟨_, _, hread⟩ := Option.bind_eq_some_iff.mp hread
      exact .inl (hfloat hread)
  · obtain ⟨_, _, hread⟩ := Option.bind_eq_some_iff.mp hread
    exact .inl (hfloat hread)

theorem isScalar_of_word? {text : List Char} {json : Json} (h : word? text = some json) :
    json.IsScalar := by
  unfold word? at h
  split at h
  · cases h
    exact .null
  split at h
  · cases h
    exact .bool true
  split at h
  · cases h
    exact .bool false
  · obtain ⟨x, rfl⟩ | ⟨n, rfl, -⟩ := of_number?_eq_some h
    · exact .float x
    · exact .integer n

theorem word?_of_isNumeric {text : List Char} (h : ∀ c ∈ text, Decimal.isNumeric c) :
    word? text = number? text := by
  have hne {word : String} {c : Char} (hc : c ∈ word.toList) (hword : Decimal.isNumeric c = false) :
      text ≠ word.toList := by
    rintro rfl
    exact Bool.false_ne_true (hword.symm.trans (h c hc))
  have hnull : text ≠ "null".toList := hne (c := 'n') (by decide) rfl
  have htrue : text ≠ "true".toList := hne (c := 't') (by decide) rfl
  have hfalse : text ≠ "false".toList := hne (c := 'f') (by decide) rfl
  rw [word?, if_neg hnull, if_neg htrue, if_neg hfalse]

/-! ## Values with their numbers read again -/

mutual

/-- The value with each number in it as its own text is read; `none` if one of them is too large. -/
def reread? : Json → Option Json
  | .null => some .null
  | .bool value => some (.bool value)
  | .integer n => word? (toString n).toList
  | .float x => word? (floatChars x)
  | .string text => some (.string text)
  | .array items => (rereadItems? items).map .array
  | .object members => (rereadMembers? members).map .object

def rereadItems? : List Json → Option (List Json)
  | [] => some []
  | item :: rest => item.reread?.bind fun first => (rereadItems? rest).map (first :: ·)

def rereadMembers? : List (String × Json) → Option (List (String × Json))
  | [] => some []
  | (name, value) :: rest =>
    value.reread?.bind fun first => (rereadMembers? rest).map ((name, first) :: ·)

end

theorem rereadItems?_eq_mapM (items : List Json) : rereadItems? items = items.mapM reread? := by
  induction items with
  | nil => rfl
  | cons item rest ih =>
      rw [rereadItems?, ih, List.mapM_cons]
      simp [Option.map_eq_bind]

theorem rereadMembers?_eq_mapM (members : List (String × Json)) :
    rereadMembers? members = members.mapM fun (name, value) => value.reread?.map (name, ·) := by
  induction members with
  | nil => rfl
  | cons member rest ih =>
      rw [rereadMembers?, ih, List.mapM_cons]
      simp [Option.map_eq_bind, Option.bind_assoc]

section Lists

variable {α β : Type} {f : α → Option β} {xs : List α} {ys : List β}

theorem exists_of_mapM_cons {x : α} (h : (x :: xs).mapM f = some ys) :
    ∃ y others, f x = some y ∧ xs.mapM f = some others ∧ ys = y :: others := by
  rw [List.mapM_cons] at h
  simp only [Option.bind_eq_bind, Option.bind_eq_some_iff, Option.pure_def, Option.some.injEq] at h
  obtain ⟨y, hy, others, hothers, rfl⟩ := h
  exact ⟨y, others, hy, hothers, rfl⟩

theorem ne_nil_of_mapM_cons {x : α} (h : (x :: xs).mapM f = some ys) : ys ≠ [] := by
  obtain ⟨y, others, -, -, rfl⟩ := exists_of_mapM_cons h
  exact List.cons_ne_nil y others

theorem exists_of_mem_mapM (h : xs.mapM f = some ys) {y : β} (hy : y ∈ ys) :
    ∃ x ∈ xs, f x = some y := by
  induction xs generalizing ys with
  | nil =>
      cases h
      cases hy
  | cons x xs ih =>
      obtain ⟨first, others, hfirst, hothers, rfl⟩ := exists_of_mapM_cons h
      obtain rfl | hy := List.mem_cons.mp hy
      · exact ⟨x, List.mem_cons_self, hfirst⟩
      · obtain ⟨found, hfound, hvalue⟩ := ih hothers hy
        exact ⟨found, List.mem_cons_of_mem x hfound, hvalue⟩

end Lists

/-- The members of an object keep their names when their values are read again. -/
theorem names_of_rereadMembers? {members read : List (String × Json)}
    (h : rereadMembers? members = some read) : read.map Prod.fst = members.map Prod.fst := by
  rw [rereadMembers?_eq_mapM] at h
  induction members generalizing read with
  | nil =>
      cases h
      rfl
  | cons member rest ih =>
      obtain ⟨first, others, hfirst, hothers, rfl⟩ := exists_of_mapM_cons h
      obtain ⟨value, -, rfl⟩ := Option.map_eq_some_iff.mp hfirst
      rw [List.map_cons, List.map_cons, ih hothers]

theorem lookup?_of_rereadMembers? {members read : List (String × Json)}
    (h : rereadMembers? members = some read) (name : String) :
    lookup? name read = (lookup? name members).bind reread? := by
  rw [rereadMembers?_eq_mapM] at h
  induction members generalizing read with
  | nil =>
      cases h
      rfl
  | cons member rest ih =>
      obtain ⟨first, others, hfirst, hothers, rfl⟩ := exists_of_mapM_cons h
      obtain ⟨value, hvalue, rfl⟩ := Option.map_eq_some_iff.mp hfirst
      rw [lookup?_cons, lookup?_cons, ih hothers]
      split
      · exact hvalue.symm
      · rfl

theorem rereadMembers?_eq_self {members : List (String × Json)}
    (h : ∀ member ∈ members, member.2.reread? = some member.2) :
    rereadMembers? members = some members := by
  induction members with
  | nil => rfl
  | cons member rest ih =>
      obtain ⟨hmember, hrest⟩ := List.forall_mem_cons.mp h
      simp [rereadMembers?, hmember, ih hrest]

/-- The double that the text of a double is read as. -/
def rereadDouble? (x : Double) : Option Double :=
  match number? (floatChars x) with
  | some (.float y) => some y
  | _ => none

/-- The text of a double has a point or an exponent, and is not read as a whole number. -/
theorem reread?_float {x : Double} (h : x.isFinite) :
    (Json.float x).reread? = (rereadDouble? x).map .float := by
  have hchars : floatChars x = numberLayout.write x := if_pos h
  have hnumeric : ∀ c ∈ floatChars x, Decimal.isNumeric c := fun c hc =>
    Layout.isNumeric_of_mem_write endsWhole_numberLayout (hchars ▸ hc)
  rw [reread?, word?_of_isNumeric hnumeric, rereadDouble?]
  cases hread : number? (floatChars x) with
  | none => rfl
  | some json =>
      obtain ⟨y, rfl⟩ | ⟨n, rfl, hdigits⟩ := of_number?_eq_some hread
      · rfl
      · obtain ⟨c, hc, hmark⟩ := numberLayout.exists_mark_write (by decide) x
        have hnot : ¬(c.isDigit ∨ c = '-') := by obtain rfl | rfl := hmark <;> decide
        exact absurd (hdigits c (hchars ▸ hc)) hnot

theorem isFinite_of_rereadDouble? {x y : Double} (h : rereadDouble? x = some y) : x.isFinite := by
  by_contra hnot
  rw [rereadDouble?, floatChars, if_neg hnot] at h
  cases h

/-! ## Tokens -/

mutual

def tokens : Json → List Token
  | .string text => [.string text]
  | .array items => .beginArray :: itemTokens items ++ [.endArray]
  | .object members => .beginObject :: memberTokens members ++ [.endObject]
  | .null => [.scalar .null]
  | .bool value => [.scalar (.bool value)]
  | .integer n => [.scalar (.integer n)]
  | .float x => [.scalar (.float x)]

def itemTokens : List Json → List Token
  | [] => []
  | [item] => item.tokens
  | item :: rest => item.tokens ++ .comma :: itemTokens rest

def memberTokens : List (String × Json) → List Token
  | [] => []
  | [(name, value)] => .string name :: .colon :: value.tokens
  | (name, value) :: rest =>
    .string name :: .colon :: value.tokens ++ .comma :: memberTokens rest

end

theorem IsScalar.tokens_eq {json : Json} (h : json.IsScalar) : json.tokens = [.scalar json] := by
  cases h <;> rw [tokens]

theorem itemTokens_cons (item : Json) {rest : List Json} (h : rest ≠ []) :
    itemTokens (item :: rest) = item.tokens ++ .comma :: itemTokens rest := by
  cases rest with
  | nil => exact absurd rfl h
  | cons => rfl

theorem memberTokens_cons (name : String) (value : Json) {rest : List (String × Json)}
    (h : rest ≠ []) :
    memberTokens ((name, value) :: rest) =
      .string name :: .colon :: value.tokens ++ .comma :: memberTokens rest := by
  cases rest with
  | nil => exact absurd rfl h
  | cons => rfl

/-! ## Words among other text -/

variable {before : List Token} {rest : List Char}

theorem tokensAfter?_cons {c : Char} {token : Token} (h : punctuation? c = some token) :
    tokensAfter? before (c :: rest) = tokensAfter? (before ++ [token]) rest := by
  have hstep : [c].foldlM Scanner.step ⟨before.reverse, .between⟩ =
      some (Scanner.push before.reverse token) := by
    unfold punctuation? at h
    split at h <;> cases h <;> rfl
  exact tokensAfter?_append hstep

def IsWord (text : List Char) : Prop := text ≠ [] ∧ ∀ c ∈ text, Scanner.endsWord c = false

instance : DecidablePred IsWord := fun text =>
  decidable_of_iff (text ≠ [] ∧ text.all fun c => !Scanner.endsWord c) (by simp [IsWord])

theorem foldlM_inWord (tokens : List Token) {word text : List Char}
    (h : ∀ c ∈ text, Scanner.endsWord c = false) :
    text.foldlM Scanner.step ⟨tokens, .inWord word⟩ =
      some ⟨tokens, .inWord (text.reverse ++ word)⟩ := by
  induction text generalizing word with
  | nil => rfl
  | cons c text ih =>
      obtain ⟨hc, htext⟩ := List.forall_mem_cons.mp h
      have hstep : Scanner.step ⟨tokens, .inWord word⟩ c = some ⟨tokens, .inWord (c :: word)⟩ := by
        simp [Scanner.step, hc]
      rw [List.foldlM_cons, hstep]
      simpa using ih htext

/-- A word goes on to the next character that ends it, or to the end of the text. -/
theorem tokensAfter?_word {word : List Char} (hword : IsWord word)
    (hrest : ∀ c ∈ rest.head?, Scanner.endsWord c) :
    tokensAfter? before (word ++ rest) =
      (word? word).bind fun value => tokensAfter? (before ++ [.scalar value]) rest := by
  obtain ⟨hne, hplain⟩ := hword
  obtain ⟨c, word, rfl⟩ := List.exists_cons_of_ne_nil hne
  obtain ⟨hc, hword⟩ := List.forall_mem_cons.mp hplain
  have hfirst : Scanner.step ⟨before.reverse, .between⟩ c =
      some ⟨before.reverse, .inWord [c]⟩ := by
    simp only [Scanner.endsWord, Bool.or_eq_false_iff, Option.isSome_eq_false_iff,
      Option.isNone_iff_eq_none, beq_eq_false_iff_ne] at hc
    simp [Scanner.step, Scanner.stepBetween, hc]
  have hgather : (c :: word).foldlM Scanner.step ⟨before.reverse, .between⟩ =
      some ⟨before.reverse, .inWord (c :: word).reverse⟩ := by
    rw [List.foldlM_cons, hfirst, List.reverse_cons]
    exact foldlM_inWord before.reverse hword
  rw [tokensAfter?, List.foldlM_append, hgather]
  generalize c :: word = word
  cases rest with
  | nil =>
      simp only [List.foldlM_nil, Option.bind_eq_bind, Option.bind_some, Option.pure_def,
        Scanner.finish, List.reverse_reverse, tokensAfter?_nil]
      cases word? word <;> simp
  | cons stop rest =>
      have hstop := hrest stop rfl
      simp only [List.foldlM_cons, Option.bind_eq_bind, Option.bind_some, tokensAfter?,
        Scanner.step, hstop, if_true, List.reverse_reverse, Option.bind_assoc, List.reverse_append,
        List.reverse_singleton, List.singleton_append]

theorem endsWord_of_isNumeric {c : Char} (h : Decimal.isNumeric c) :
    Scanner.endsWord c = false := by
  have hne {d : Char} (hd : Decimal.isNumeric d = false) : c ≠ d := by
    rintro rfl
    exact Bool.false_ne_true (hd.symm.trans h)
  have hpunctuation : punctuation? c = none := by
    unfold punctuation?
    split
    case h_7 => rfl
    all_goals exact absurd rfl (hne rfl)
  simp only [Scanner.endsWord, isJsonBlank, hpunctuation, Option.isSome_none, Bool.or_false,
    Bool.or_eq_false_iff, beq_eq_false_iff_ne]
  exact ⟨⟨⟨⟨hne rfl, hne rfl⟩, hne rfl⟩, hne rfl⟩, hne rfl⟩

theorem isWord_of_isNumeric {text : List Char} (hne : text ≠ [])
    (h : ∀ c ∈ text, Decimal.isNumeric c) : IsWord text :=
  ⟨hne, fun c hc => endsWord_of_isNumeric (h c hc)⟩

theorem isWord_integer (n : Int) : IsWord (toString n).toList := by
  have hne := chars_ne_nil (.integer n)
  rw [chars] at hne
  exact isWord_of_isNumeric hne fun _ => isNumeric_of_mem_integer

theorem isWord_floatChars (x : Double) : IsWord (floatChars x) := by
  have hne := chars_ne_nil (.float x)
  rw [chars] at hne
  by_cases h : x.isFinite
  · refine isWord_of_isNumeric hne fun c hc => ?_
    rw [floatChars, if_pos h] at hc
    exact Layout.isNumeric_of_mem_write endsWhole_numberLayout hc
  · rw [floatChars, if_neg h]
    decide

/-! ## From characters to tokens -/

/-- What stands between two brackets is read behind the first of them. -/
theorem tokensAfter?_enclosed {α : Type} {opening closing : Char} {first last : Token}
    (hopening : punctuation? opening = some first) (hclosing : punctuation? closing = some last)
    {body : List Char} {read? : Option α} {inner : α → List Token}
    (hbody : tokensAfter? (before ++ [first]) (body ++ closing :: rest) =
      read?.bind fun read => tokensAfter? (before ++ [first] ++ inner read) (closing :: rest)) :
    tokensAfter? before (opening :: body ++ [closing] ++ rest) =
      read?.bind fun read => tokensAfter? (before ++ (first :: inner read ++ [last])) rest := by
  rw [List.append_assoc, List.cons_append, List.singleton_append, tokensAfter?_cons hopening, hbody]
  refine Option.bind_congr fun read _ => ?_
  rw [tokensAfter?_cons hclosing]
  simp

mutual

theorem tokensAfter?_chars : (json : Json) → (before : List Token) → {rest : List Char} →
    (∀ c ∈ rest.head?, Scanner.endsWord c) →
    tokensAfter? before (json.chars ++ rest) =
      json.reread?.bind fun read => tokensAfter? (before ++ read.tokens) rest
  | .null, before, rest, hrest => by
    rw [chars, tokensAfter?_word (by decide) hrest]
    rfl
  | .bool value, before, rest, hrest => by
    rw [chars, tokensAfter?_word (by cases value <;> decide) hrest]
    cases value <;> rfl
  | .integer n, before, rest, hrest => by
    rw [chars, tokensAfter?_word (isWord_integer n) hrest, reread?]
    exact Option.bind_congr fun read hread => by rw [(isScalar_of_word? hread).tokens_eq]
  | .float x, before, rest, hrest => by
    rw [chars, tokensAfter?_word (isWord_floatChars x) hrest, reread?]
    exact Option.bind_congr fun read hread => by rw [(isScalar_of_word? hread).tokens_eq]
  | .string text, before, rest, hrest => by
    rw [chars, tokensAfter?_quoteChars, String.ofList_toList]
    rfl
  | .array items, before, rest, _ => by
    rw [chars, reread?, Option.bind_map]
    exact tokensAfter?_enclosed rfl rfl
      (tokensAfter?_itemChars items (before ++ [.beginArray]) (by rintro c ⟨⟩; decide))
  | .object members, before, rest, _ => by
    rw [chars, reread?, Option.bind_map]
    exact tokensAfter?_enclosed rfl rfl
      (tokensAfter?_memberChars members (before ++ [.beginObject]) (by rintro c ⟨⟩; decide))

theorem tokensAfter?_itemChars : (items : List Json) → (before : List Token) →
    {rest : List Char} → (∀ c ∈ rest.head?, Scanner.endsWord c) →
    tokensAfter? before (itemChars items ++ rest) =
      (rereadItems? items).bind fun read => tokensAfter? (before ++ itemTokens read) rest
  | [], before, rest, _ => by
    simp [itemChars, rereadItems?, itemTokens]
  | [item], before, rest, hrest => by
    rw [itemChars, tokensAfter?_chars item before hrest, rereadItems?, rereadItems?,
      Option.bind_assoc]
    rfl
  | item :: next :: items, before, rest, hrest => by
    unfold itemChars
    rw [List.append_assoc, List.cons_append,
      tokensAfter?_chars item before (by rintro c ⟨⟩; decide), rereadItems?, Option.bind_assoc]
    refine Option.bind_congr fun first _ => ?_
    rw [tokensAfter?_cons rfl, tokensAfter?_itemChars (next :: items) _ hrest, Option.bind_map]
    refine Option.bind_congr fun others hothers => ?_
    rw [rereadItems?_eq_mapM] at hothers
    rw [Function.comp_apply, itemTokens_cons first (ne_nil_of_mapM_cons hothers)]
    simp

theorem tokensAfter?_memberChars : (members : List (String × Json)) → (before : List Token) →
    {rest : List Char} → (∀ c ∈ rest.head?, Scanner.endsWord c) →
    tokensAfter? before (memberChars members ++ rest) =
      (rereadMembers? members).bind fun read => tokensAfter? (before ++ memberTokens read) rest
  | [], before, rest, _ => by
    simp [memberChars, rereadMembers?, memberTokens]
  | [(name, value)], before, rest, hrest => by
    rw [memberChars, List.append_assoc, List.cons_append, tokensAfter?_quoteChars,
      String.ofList_toList, tokensAfter?_cons rfl, tokensAfter?_chars value _ hrest,
      rereadMembers?, rereadMembers?, Option.bind_assoc]
    refine Option.bind_congr fun first _ => ?_
    simp [memberTokens]
  | (name, value) :: next :: members, before, rest, hrest => by
    unfold memberChars
    rw [List.append_assoc, List.cons_append, List.append_assoc, List.cons_append,
      tokensAfter?_quoteChars, String.ofList_toList, tokensAfter?_cons rfl,
      tokensAfter?_chars value _ (by rintro c ⟨⟩; decide), rereadMembers?, Option.bind_assoc]
    refine Option.bind_congr fun first _ => ?_
    rw [tokensAfter?_cons rfl, tokensAfter?_memberChars (next :: members) _ hrest, Option.bind_map]
    refine Option.bind_congr fun others hothers => ?_
    rw [rereadMembers?_eq_mapM] at hothers
    rw [Function.comp_apply, memberTokens_cons name first (ne_nil_of_mapM_cons hothers)]
    simp

end

theorem tokens?_chars (json : Json) : tokens? json.chars = json.reread?.map tokens := by
  have hscan : tokensAfter? [] (json.chars ++ []) = _ := tokensAfter?_chars json [] nofun
  rw [List.append_nil] at hscan
  rw [tokens?_eq_tokensAfter?, hscan]
  simp [tokensAfter?_nil, Option.map_eq_bind]

end FilterSql.Json
