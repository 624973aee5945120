import FilterSql.Proofs.Select.Grammar
import FilterSql.Proofs.Select.Leading

/-!
# Limits of zero

A limit that is zero as a number counts as unset.  A number that is only rounded to zero is written
out nevertheless, and so is a text that begins with zero; nothing else makes a limit or an offset
of zero.
-/

namespace FilterSql.Double

theorem isZero_iff {x : Double} : x.isZero ↔ x.units = 0 := by
  rw [isZero, beq_iff_eq, units]
  constructor
  · intro h
    rw [h]
    rfl
  · intro h
    by_contra hne
    have hpos := Decimal.unitsOf_pos (Nat.pos_of_ne_zero hne)
    omega

theorem round_eq_zero_iff {x : Double} : x.round = 0 ↔ 2 * x.units < unitsPerOne := by
  have hone : 0 < unitsPerOne := by decide
  have hsize : (2 * x.units + unitsPerOne) / (2 * unitsPerOne) = 0 ↔
      2 * x.units < unitsPerOne := by
    rw [Nat.div_eq_zero_iff]
    omega
  unfold round
  rw [← hsize]
  dsimp only
  split <;> omega

end FilterSql.Double

namespace FilterSql.NumberOrText

/-! ## Numbers -/

/-- A number less than a half away from zero, but not zero, or a text that leads with zeros. -/
def IsZeroLimit : NumberOrText → Prop
  | .number x => x.isFinite ∧ 0 < x.units ∧ 2 * x.units < Double.unitsPerOne
  | .text written => ∃ negative zeros,
      LeadsWith negative zeros written.toList ∧ ∀ c ∈ zeros, c = '0'

theorem saturate_eq_zero_iff {n : Int} : saturate n = 0 ↔ n = 0 := by
  rw [← Int64.toInt_inj, saturate, Int64.toInt_maxValue, Int64.toInt_minValue,
    Int64.toInt_ofInt_of_le (by omega) (by omega), Int64.toInt_zero]
  omega

theorem leadingInt?_eq_zero_iff {text : List Char} :
    leadingInt? text = some 0 ↔
      ∃ negative zeros, LeadsWith negative zeros text ∧ ∀ c ∈ zeros, c = '0' := by
  rw [leadingInt?_eq_some_iff]
  refine exists_congr fun negative => exists_congr fun digits => and_congr_right fun hleads => ?_
  rw [← Text.digitsValue_eq_zero_iff hleads.isDigits.digit, Int64.toInt_zero, Int64.toInt_maxValue]
  cases negative <;> simp <;> omega

theorem toLimit?_eq_zero_iff {number : NumberOrText} :
    number.toLimit? = some 0 ↔ number.IsZeroLimit := by
  cases number with
  | number x =>
      have hzero : x.isZero ↔ x.units = 0 := Double.isZero_iff
      unfold toLimit? IsZeroLimit
      dsimp only
      split
      · next hunset =>
        simp only [Bool.or_eq_true, Bool.not_eq_true', hzero] at hunset
        refine iff_of_false nofun fun ⟨hfinite, hpos, _⟩ => ?_
        rcases hunset with hunset | hunset
        · omega
        · simp [hfinite] at hunset
      · next hset =>
        simp only [Bool.or_eq_true, Bool.not_eq_true', hzero, not_or, Bool.not_eq_false] at hset
        rw [Option.some_inj, saturate_eq_zero_iff, Double.round_eq_zero_iff]
        simp [hset.2, Nat.pos_of_ne_zero hset.1]
  | text written => exact leadingInt?_eq_zero_iff

end FilterSql.NumberOrText

namespace FilterSql.SelectOptions

open Text (StartsWithout)
open Decimal.Literal (digitsValue)

/-! ## Words of the text -/

variable {keyword word first rest text : List Char}

/-- A blank that divides two words, in a text that is itself divided at a blank. -/
theorem infix_blank_iff {left right : List Char} (hleft : ' ' ∉ left) (hright : ' ' ∉ right) :
    left ++ ' ' :: right <:+: first ++ ' ' :: rest ↔
      left ++ ' ' :: right <:+: first ∨ left ++ ' ' :: right <:+: rest ∨
        left <:+ first ∧ right <+: rest := by
  constructor
  · intro h
    obtain hfirst | hrest | ⟨before, after, heq, hbefore, hafter⟩ := List.infix_append_iff.mp h
    · exact .inl hfirst
    · obtain ⟨after, heq⟩ | hrest := List.infix_cons_iff.mp hrest
      · cases left with
        | nil => exact .inr (.inr ⟨List.nil_suffix, after, (List.cons.inj heq).2⟩)
        | cons c left =>
            cases (List.cons.inj heq).1
            exact absurd List.mem_cons_self hleft
      · exact .inr (.inl hrest)
    · cases after with
      | nil =>
          rw [List.append_nil] at heq
          exact .inl (heq ▸ hbefore.isInfix)
      | cons c after =>
          -- Neither word has a blank, so the two blanks are one.
          obtain ⟨rfl, hbegins⟩ := List.cons_prefix_cons.mp hafter
          obtain ⟨rfl, -, rfl⟩ := (List.append_cons_inj_of_notMem hleft hright).mp heq
          exact .inr (.inr ⟨hbefore, hbegins⟩)
  · rintro (hfirst | hrest | ⟨⟨before, rfl⟩, after, rfl⟩)
    · exact hfirst.trans (List.prefix_append _ _).isInfix
    · exact hrest.trans ⟨first ++ [' '], [], by simp⟩
    · exact ⟨before, after, by simp⟩

theorem infix_intercalate_iff {parts : List (List Char)} (hkeyword : ' ' ∉ keyword)
    (h : ∀ part ∈ parts, part ≠ [] ∧ StartsWithout Char.isDigit part) :
    keyword ++ [' ', '0'] <:+: List.intercalate [' '] parts ↔
      ∃ part ∈ parts, keyword ++ [' ', '0'] <:+: part := by
  induction parts with
  | nil => simp
  | cons part parts ih =>
      obtain ⟨hpart, hparts⟩ := List.forall_mem_cons.mp h
      cases parts with
      | nil => simp
      | cons next parts =>
          have hnext : ¬ ['0'] <+: List.intercalate [' '] (next :: parts) := by
            obtain ⟨hne, hstart⟩ := hparts next List.mem_cons_self
            obtain ⟨c, after, rfl⟩ := List.exists_cons_of_ne_nil hne
            have hc : '0' ≠ c := by
              rintro rfl
              exact hstart '0' rfl rfl
            cases parts <;> simp [hc]
          rw [List.intercalate_cons_cons, List.append_assoc, List.singleton_append,
            infix_blank_iff hkeyword (by decide), ih hparts, List.exists_mem_cons_iff]
          simp [hnext]

/-! ## Orders without limits -/

/-- The text has no zero behind a word that ends as the keywords of limits do. -/
def IsClear (text : List Char) : Prop := ¬ ['T', ' ', '0'] <:+: text

theorem isClear_of_not_mem (h : ' ' ∉ text) : IsClear text :=
  fun hzero => h (hzero.subset (by decide))

theorem IsClear.append_blank (hfirst : IsClear first) (hrest : IsClear rest)
    (h : ['T'] <:+ first → ¬ ['0'] <+: rest) : IsClear (first ++ ' ' :: rest) := by
  have hdivided := @infix_blank_iff first rest ['T'] ['0'] (by decide) (by decide)
  intro hzero
  rcases hdivided.mp hzero with hoccurs | hoccurs | ⟨hend, hstart⟩
  · exact hfirst hoccurs
  · exact hrest hoccurs
  · exact h hend hstart

theorem IsClear.append_operator (hword : ' ' ∉ word) {operator : Char}
    (hoperator : operator ∉ ['T', ' ', '0']) (hrest : IsClear rest) :
    IsClear (word ++ ' ' :: operator :: ' ' :: rest) := by
  simp only [List.mem_cons, List.not_mem_nil, or_false, not_or] at hoperator
  have hbehind : IsClear ([operator] ++ ' ' :: rest) := by
    refine IsClear.append_blank (isClear_of_not_mem ?_) hrest fun hend => ?_
    · simp [Ne.symm hoperator.2.1]
    · exact absurd (List.mem_singleton.mp (hend.subset List.mem_cons_self)).symm hoperator.1
  refine IsClear.append_blank (isClear_of_not_mem hword) hbehind fun _ hstart => ?_
  simp [Ne.symm hoperator.2.2] at hstart

theorem IsName.blank_not_mem (h : IsName text) : ' ' ∉ text :=
  fun hblank => absurd (h.dotted ' ' hblank) (by decide)

theorem blank_not_mem_of_isNumeral (h : Decimal.IsNumeral text) : ' ' ∉ text := by
  obtain ⟨negative, body, hbody, rfl⟩ := exists_of_isNumeral h
  cases negative <;> simp [Decimal.signChars, hbody.blank_not_mem]

theorem isClear_columnText (options : SelectOptions) (h : IsName text) :
    IsClear (columnText options text) := by
  have hcolumn :
      ' ' ∉ if options.nocase then "lower(".toList ++ text ++ ")".toList else text := by
    split <;> simp [h.blank_not_mem]
  unfold columnText
  generalize (if options.nocase then _ else text) = column at *
  split
  · exact .append_blank (isClear_of_not_mem hcolumn) (isClear_of_not_mem (by decide))
      fun _ => by decide
  · exact isClear_of_not_mem (by simpa using hcolumn)

theorem isClear_distanceText {latName lat longName long scale : List Char}
    (hlatName : IsName latName) (hlat : Decimal.IsNumeral lat) (hlongName : IsName longName)
    (hlong : Decimal.IsNumeral long) (hscale : Decimal.IsNumeral scale) :
    IsClear (distanceText latName lat longName long scale) := by
  -- Every blank has an operator on one side.
  have hsplit : distanceText latName lat longName long scale =
      ("((".toList ++ latName) ++ ' ' :: '-' :: ' ' :: ((lat ++ ")*(".toList ++ latName) ++
        ' ' :: '-' :: ' ' :: ((lat ++ "))".toList) ++ ' ' :: '+' :: ' ' ::
          (("((".toList ++ longName) ++ ' ' :: '-' :: ' ' :: ((long ++ ")*(".toList ++ longName) ++
            ' ' :: '-' :: ' ' :: (long ++ ")*".toList ++ scale ++ ")".toList))))) := by
    simp [distanceText, squareText, differenceText]
  rw [hsplit]
  refine .append_operator ?_ (by decide) (.append_operator ?_ (by decide) (.append_operator ?_
    (by decide) (.append_operator ?_ (by decide) (.append_operator ?_ (by decide)
      (isClear_of_not_mem ?_)))))
  all_goals
    simp [hlatName.blank_not_mem, hlongName.blank_not_mem, blank_not_mem_of_isNumeral hlat,
      blank_not_mem_of_isNumeral hlong, blank_not_mem_of_isNumeral hscale]

theorem IsOrdering.isClear {options : SelectOptions} {order : OrderBy}
    (h : IsOrdering options order text) : IsClear text := by
  cases h with
  | random => exact isClear_of_not_mem (by decide)
  | column hname => exact isClear_columnText options hname
  | distance hlatName hlongName hlat hlong hscale =>
      exact isClear_distanceText hlatName hlat.numeral hlongName hlong.numeral hscale

theorem IsClear.order (h : IsClear text) : IsClear ("ORDER BY ".toList ++ text) := by
  have hby : IsClear ("BY".toList ++ ' ' :: text) :=
    .append_blank (isClear_of_not_mem (by decide)) h fun hend => absurd hend (by decide)
  have hsplit : "ORDER BY ".toList ++ text =
      "ORDER".toList ++ ' ' :: ("BY".toList ++ ' ' :: text) := by
    simp
  rw [hsplit]
  exact .append_blank (isClear_of_not_mem (by decide)) hby fun hend => absurd hend (by decide)

/-! ## Written limits -/

theorem zero_prefix_digits_iff {n : Nat} : ['0'] <+: Decimal.digitChars n ↔ n = 0 := by
  constructor
  · rintro ⟨digits, hdigits⟩
    by_contra hne
    have hdigit : ∀ c ∈ digits, c.isDigit := fun c hc =>
      Decimal.isDigit_of_mem_digitChars (hdigits ▸ List.mem_append_right ['0'] hc)
    have hvalue : n = digitsValue digits := by
      rw [← Decimal.digitsValue_digitChars n, ← hdigits]
      exact Text.digitsValue_zeros_append digits 1
    have hlength : Decimal.digitCount n = digits.length + 1 := congrArg List.length hdigits.symm
    -- With a zero in front the other digits alone would have to make up the number.
    have hlow := Decimal.pow_digitCount_le hne
    have hhigh := Text.digitsValue_lt hdigit
    rw [hlength, Nat.add_sub_cancel] at hlow
    omega
  · rintro rfl
    exact List.prefix_refl _

theorem zero_prefix_toString_iff {n : Int} : ['0'] <+: (toString n).toList ↔ n = 0 := by
  rw [Json.toList_toString_int, Decimal.signChars]
  split
  · next hnegative =>
    have hne : n ≠ 0 := by
      rintro rfl
      simp at hnegative
    simp [hne]
  · rw [List.nil_append, zero_prefix_digits_iff, Int.natAbs_eq_zero]

variable {cosine : Double.Cosine} {options : SelectOptions}

theorem infix_words_iff (hkeyword : ' ' ∉ keyword) (hfirst : ' ' ∉ first) (hrest : ' ' ∉ rest) :
    keyword ++ [' ', '0'] <:+: first ++ ' ' :: rest ↔ keyword <:+ first ∧ ['0'] <+: rest := by
  have hinside {word : List Char} (h : ' ' ∉ word) : ¬ keyword ++ [' ', '0'] <:+: word :=
    fun hoccurs => h (hoccurs.subset (by simp))
  rw [infix_blank_iff hkeyword (by decide), iff_false_intro (hinside hfirst),
    iff_false_intro (hinside hrest), false_or, false_or]

theorem infix_countText?_iff {other : String} {limit : Option NumberOrText}
    (hkeyword : ' ' ∉ keyword) (hother : ' ' ∉ other.toList) :
    (∃ text ∈ (countText? other limit).map String.toList, keyword ++ [' ', '0'] <:+: text) ↔
      keyword <:+ other.toList ∧ ∃ number ∈ limit, number.IsZeroLimit := by
  have hlimit : (∃ number ∈ limit, number.IsZeroLimit) ↔
      limit.bind NumberOrText.toLimit? = some 0 := by
    simp only [Option.bind_eq_some_iff, NumberOrText.toLimit?_eq_zero_iff, Option.mem_def]
  rw [countText?, hlimit]
  cases limit.bind NumberOrText.toLimit? with
  | none => simp
  | some n =>
      have hblank : ' ' ∉ (toString n.toInt).toList :=
        blank_not_mem_of_isNumeral (.inl (Decimal.isWhole_toString n.toInt))
      have htext : (other ++ " " ++ toString n.toInt).toList =
          other.toList ++ ' ' :: (toString n.toInt).toList := by
        simp
      have hzero : n.toInt = 0 ↔ n = 0 := by
        rw [← Int64.toInt_zero, Int64.toInt_inj]
      simp only [Option.map_some, Option.mem_some_iff, exists_eq_left', htext, Option.some_inj]
      rw [infix_words_iff hkeyword hother hblank, zero_prefix_toString_iff, hzero]

theorem not_infix_order (hkeyword : ['T'] <:+ keyword) :
    ∀ text ∈ (Parts.ofOptions cosine options).order, ¬ keyword ++ [' ', '0'] <:+: text := by
  intro text htext hoccurs
  obtain ⟨order, -, ordering, hordering, rfl⟩ :=
    (Parts.followsGrammar_ofOptions cosine options).order text htext
  obtain ⟨before, rfl⟩ := hkeyword
  refine hordering.isClear.order (List.IsInfix.trans ?_ hoccurs)
  exact ⟨before, [], by simp⟩

theorem Parts.FollowsGrammar.starts {parts : Parts} (h : parts.FollowsGrammar options) :
    ∀ part ∈ parts.toList, part ≠ [] ∧ StartsWithout Char.isDigit part := by
  have hstarts (keyword rest : List Char) (hkeyword : keyword ≠ [])
      (hletter : keyword.head?.all fun c => !c.isDigit) :
      keyword ++ rest ≠ [] ∧ StartsWithout Char.isDigit (keyword ++ rest) := by
    refine ⟨List.append_ne_nil_of_left_ne_nil hkeyword rest, fun c hc => ?_⟩
    rw [List.head?_append_of_ne_nil _ hkeyword] at hc
    simpa using (Option.all_eq_true _ _).mp hletter c hc
  simp only [toList, List.forall_mem_append, Option.mem_toList]
  refine ⟨⟨fun part hpart => ?_, fun part hpart => ?_⟩, fun part hpart => ?_⟩
  · obtain ⟨-, -, ordering, -, rfl⟩ := h.order part hpart
    exact hstarts _ ordering (by decide) (by decide)
  · obtain ⟨count, -, rfl⟩ := h.limit part hpart
    exact hstarts _ count (by decide) (by decide)
  · obtain ⟨count, -, rfl⟩ := h.offset part hpart
    exact hstarts _ count (by decide) (by decide)

theorem infix_sql_iff (hkeyword : ['T'] <:+ keyword) (hblank : ' ' ∉ keyword) :
    keyword ++ [' ', '0'] <:+: (options.sqlWith cosine.of).toList ↔
      (keyword <:+ "LIMIT".toList ∧ ∃ number ∈ options.limit, number.IsZeroLimit) ∨
        keyword <:+ "OFFSET".toList ∧ ∃ number ∈ options.offset, number.IsZeroLimit := by
  have hstarts := (Parts.followsGrammar_ofOptions cosine options).starts
  have horder : ¬ ∃ text ∈ (Parts.ofOptions cosine options).order,
      keyword ++ [' ', '0'] <:+: text :=
    fun ⟨text, htext, hoccurs⟩ => not_infix_order hkeyword text htext hoccurs
  rw [Parts.toList_sql, Parts.chars, infix_intercalate_iff hblank hstarts, Parts.toList,
    ← infix_countText?_iff hblank (by decide), ← infix_countText?_iff hblank (by decide)]
  simp only [List.mem_append, Option.mem_toList, ← Option.mem_def, or_and_right, exists_or]
  rw [iff_false_intro horder, false_or]
  rfl

/-- A limit of zero comes from a number that is rounded to it or from a text that begins with it,
and the text of the options has a limit or an offset of zero just when its number is such. -/
theorem zero_limit_iff (number : NumberOrText) (cosine : Double.Cosine)
    (options : SelectOptions) :
    (number.toLimit? = some 0 ↔ number.IsZeroLimit) ∧
      ("LIMIT 0".toList <:+: (options.sqlWith cosine.of).toList ↔
        ∃ limit ∈ options.limit, limit.IsZeroLimit) ∧
      ("OFFSET 0".toList <:+: (options.sqlWith cosine.of).toList ↔
        ∃ offset ∈ options.offset, offset.IsZeroLimit) := by
  refine ⟨NumberOrText.toLimit?_eq_zero_iff, ?_, ?_⟩
  · have hother : ¬ "LIMIT".toList <:+ "OFFSET".toList := by decide
    change "LIMIT".toList ++ [' ', '0'] <:+: _ ↔ _
    rw [infix_sql_iff (by decide) (by decide), and_iff_right (List.suffix_refl _),
      iff_false_intro hother, false_and, or_false]
  · have hother : ¬ "OFFSET".toList <:+ "LIMIT".toList := by decide
    change "OFFSET".toList ++ [' ', '0'] <:+: _ ↔ _
    rw [infix_sql_iff (by decide) (by decide), and_iff_right (List.suffix_refl _),
      iff_false_intro hother, false_and, false_or]

/-- A limit that is the text of a zero is not unset. -/
theorem not_zero_unset_text :
    (NumberOrText.text "0").toLimit? = some 0 ∧
      { SelectOptions.default with limit := some (.text "0") }.sql = "LIMIT 0" ∧
      ¬ ∀ number : NumberOrText, number.toLimit? ≠ some 0 := by
  have hzero : (NumberOrText.text "0").toLimit? = some 0 := by decide +kernel
  exact ⟨hzero, by decide +kernel, fun h => h (.text "0") hzero⟩

end FilterSql.SelectOptions
