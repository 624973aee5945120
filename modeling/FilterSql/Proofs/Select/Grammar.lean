import FilterSql.Proofs.Decimal.Numerals
import FilterSql.Proofs.Double.Cosine
import FilterSql.Proofs.Sql.Names
import FilterSql.Select.Options
import Mathlib.Data.List.Chain

/-!
# Select options stay in their grammar

Whatever a caller sends, the text is an order, a limit and an offset as far as they are set, with
one blank between them.  Names bring only their own characters and numbers only numerals, so
nothing in the text opens a literal, begins a comment or ends a statement.
-/

namespace FilterSql.SelectOptions

open Decimal (IsDigits IsWhole IsNumeral signChars)

/-! ## Tame texts -/

def isOptionChar (c : Char) : Bool := Identifier.isDotted c || " ()*+-".toList.contains c

def isLone (c : Char) : Bool := c == '-' || c == ' '

abbrev Apart (c d : Char) : Prop := isLone c → c ≠ d

/-- Neither comment marks nor two blanks in succession can be made of these characters. -/
def IsTame (text : List Char) : Prop := text.all isOptionChar ∧ text.IsChain Apart

instance (text : List Char) : Decidable (IsTame text) := inferInstanceAs (Decidable (_ ∧ _))

def IsTail (text : List Char) : Prop := IsTame text ∧ text.getLast?.all (!isLone ·)

instance (text : List Char) : Decidable (IsTail text) := inferInstanceAs (Decidable (_ ∧ _))

def IsPart (text : List Char) : Prop := IsTail text ∧ text.head?.any (· != ' ')

instance (text : List Char) : Decidable (IsPart text) := inferInstanceAs (Decidable (_ ∧ _))

def IsOpening (text : List Char) : Prop := IsTame text ∧ text.getLast?.all (· != '-')

instance (text : List Char) : Decidable (IsOpening text) := inferInstanceAs (Decidable (_ ∧ _))

def IsStart (text : List Char) : Prop := IsOpening text ∧ text.head?.any (· != ' ')

instance (text : List Char) : Decidable (IsStart text) := inferInstanceAs (Decidable (_ ∧ _))

variable {text first rest opening : List Char}

theorem isLone_iff {c : Char} : isLone c ↔ c = '-' ∨ c = ' ' := by
  simp [isLone]

theorem IsTame.not_mem (h : IsTame text) {c : Char} (hc : isOptionChar c = false) : c ∉ text := by
  intro hmem
  rw [List.all_eq_true.mp h.1 c hmem] at hc
  cases hc

theorem IsTame.not_twice (h : IsTame text) {c : Char} (hc : isLone c) : ¬ [c, c] <:+: text := by
  intro htwice
  have hchain : [c, c].IsChain Apart := List.IsChain.infix h.2 htwice
  exact (List.isChain_cons_cons.mp hchain).1 hc rfl

theorem IsTame.append (hfirst : IsTame first) (hrest : IsTame rest)
    (h : ∀ c ∈ first.getLast?, ∀ d ∈ rest.head?, Apart c d) : IsTame (first ++ rest) := by
  refine ⟨?_, List.isChain_append.mpr ⟨hfirst.2, hrest.2, h⟩⟩
  rw [List.all_append, hfirst.1, hrest.1, Bool.and_true]

theorem IsTail.not_isLone (h : IsTail text) {c : Char} (hc : c ∈ text.getLast?) : ¬ isLone c := by
  have hlast := (Option.all_eq_true _ _).mp h.2 c hc
  simpa using hlast

theorem IsTail.append (hfirst : IsTail first) (hrest : IsTail rest) : IsTail (first ++ rest) := by
  refine ⟨hfirst.1.append hrest.1 fun c hc d _ hlone => absurd hlone (hfirst.not_isLone hc), ?_⟩
  have hlast := hrest.2
  rw [List.getLast?_append]
  cases hend : rest.getLast? with
  | none => exact hfirst.2
  | some c => rwa [hend] at hlast

theorem IsPart.ne_nil (h : IsPart text) : text ≠ [] := by
  rintro rfl
  cases h.2

theorem IsPart.head?_ne (h : IsPart text) {c : Char} (hc : c ∈ text.head?) : c ≠ ' ' := by
  obtain ⟨d, hd, hblank⟩ := (Option.any_eq_true _ _).mp h.2
  cases hc.symm.trans hd
  simpa using hblank

theorem IsPart.append (h : IsPart first) (hrest : IsTail rest) : IsPart (first ++ rest) := by
  refine ⟨h.1.append hrest, ?_⟩
  rw [List.head?_append_of_ne_nil _ h.ne_nil]
  exact h.2

theorem IsOpening.tail (hopening : IsOpening opening) (h : IsPart text) :
    IsTail (opening ++ text) := by
  refine ⟨hopening.1.append h.1.1 fun c hc d hd hlone => ?_, ?_⟩
  · have hminus := (Option.all_eq_true _ _).mp hopening.2 c hc
    obtain rfl | rfl := isLone_iff.mp hlone
    · cases hminus
    · exact Ne.symm (h.head?_ne hd)
  · rw [List.getLast?_append_of_ne_nil _ h.ne_nil]
    exact h.1.2

theorem IsStart.part (hstart : IsStart opening) (h : IsPart text) : IsPart (opening ++ text) := by
  have hne : opening ≠ [] := by
    rintro rfl
    cases hstart.2
  refine ⟨hstart.1.tail h, ?_⟩
  rw [List.head?_append_of_ne_nil _ hne]
  exact hstart.2

theorem isPart_intercalate {parts : List (List Char)} (hne : parts ≠ [])
    (h : ∀ part ∈ parts, IsPart part) : IsPart (List.intercalate [' '] parts) := by
  induction parts with
  | nil => exact absurd rfl hne
  | cons part parts ih =>
      obtain ⟨hpart, hparts⟩ := List.forall_mem_cons.mp h
      cases parts with
      | nil => simpa using hpart
      | cons next parts =>
          have hblank : IsOpening [' '] := by decide
          rw [List.intercalate_cons_cons, List.append_assoc]
          exact hpart.append (hblank.tail (ih (List.cons_ne_nil _ _) hparts))

/-! ## Names and numerals -/

/-- What a caller's name may bring into the text: letters, digits, `_`, `.` and `"`. -/
structure IsName (text : List Char) : Prop where
  ne_nil : text ≠ []
  dotted : ∀ c ∈ text, Identifier.isDotted c

theorem isName_columnRef (name : String) : IsName (columnRef name).toList := by
  obtain ⟨c, after, htext, -⟩ := exists_columnRef_cons name
  exact ⟨htext ▸ List.cons_ne_nil c after, isDotted_of_mem_columnRef name⟩

theorem isLone_eq_false {c : Char} (h : Identifier.isDotted c) : isLone c = false := by
  have hminus : c ≠ '-' := ne_of_alphabet h rfl
  have hblank : c ≠ ' ' := ne_of_alphabet h rfl
  simp [isLone, hminus, hblank]

theorem IsName.isTame (h : IsName text) : IsTame text := by
  constructor
  · exact List.all_eq_true.mpr fun c hc => by simp [isOptionChar, h.dotted c hc]
  · refine (List.pairwise_of_forall_mem_list fun c hc d _ hlone => ?_).isChain
    rw [isLone_eq_false (h.dotted c hc)] at hlone
    cases hlone

theorem IsName.isTail (h : IsName text) : IsTail text := by
  refine ⟨h.isTame, (Option.all_eq_true _ _).mpr fun c hc => ?_⟩
  rw [isLone_eq_false (h.dotted c (List.mem_of_mem_getLast? hc))]
  rfl

theorem IsName.isPart (h : IsName text) : IsPart text := by
  obtain ⟨c, rest, rfl⟩ := List.exists_cons_of_ne_nil h.ne_nil
  exact ⟨h.isTail, bne_iff_ne.mpr (ne_of_alphabet (h.dotted c List.mem_cons_self) rfl)⟩

/-- Behind its sign a numeral has only characters that a name may have too. -/
theorem exists_of_isNumeral (h : IsNumeral text) :
    ∃ negative body, IsName body ∧ text = signChars negative ++ body := by
  have hdigits {digits : List Char} (h : IsDigits digits) : ∀ c ∈ digits, Identifier.isDotted c :=
    fun c hc => by simp [Identifier.isDotted, Identifier.isPlain, Char.isAlphanum, h.digit c hc]
  obtain ⟨negative, digits, hwhole, rfl⟩ |
    ⟨_, fraction, ⟨negative, digits, hwhole, rfl⟩, hrest, rfl⟩ := h
  · exact ⟨negative, digits, ⟨hwhole.ne_nil, hdigits hwhole⟩, rfl⟩
  · refine ⟨negative, digits ++ '.' :: fraction, ⟨?_, ?_⟩, List.append_assoc ..⟩
    · exact List.append_ne_nil_of_left_ne_nil hwhole.ne_nil _
    · exact Identifier.isDotted_of_mem_append (hdigits hwhole)
        (List.forall_mem_cons.mpr ⟨rfl, hdigits hrest⟩)

theorem isPart_of_isNumeral (h : IsNumeral text) : IsPart text := by
  obtain ⟨negative, body, hbody, rfl⟩ := exists_of_isNumeral h
  cases negative with
  | false => exact hbody.isPart
  | true =>
      obtain ⟨c, rest, rfl⟩ := List.exists_cons_of_ne_nil hbody.ne_nil
      have hminus : IsTame ['-'] := by decide
      have hc : '-' ≠ c := Ne.symm (ne_of_alphabet (hbody.dotted c List.mem_cons_self) rfl)
      refine ⟨⟨hminus.append hbody.isTame ?_, hbody.isTail.2⟩, rfl⟩
      rintro _ ⟨⟩ _ ⟨⟩ -
      exact hc

/-! ## Grammar -/

def differenceText (name number : List Char) : List Char :=
  "(".toList ++ name ++ " - ".toList ++ number ++ ")".toList

def squareText (name number : List Char) : List Char :=
  differenceText name number ++ "*".toList ++ differenceText name number

def distanceText (latName lat longName long scale : List Char) : List Char :=
  "(".toList ++ squareText latName lat ++ ") + (".toList ++ squareText longName long ++
    "*".toList ++ scale ++ ")".toList

def columnText (options : SelectOptions) (name : List Char) : List Char :=
  (if options.nocase then "lower(".toList ++ name ++ ")".toList else name) ++
    if options.descending then " DESC".toList else []

structure IsCoordinate (number : NumberOrText) (text : List Char) : Prop where
  numeral : IsNumeral text
  read : ∃ x, number.toDouble? = some x ∧ Decimal.Literal.read? text = some x

inductive IsOrdering (options : SelectOptions) : OrderBy → List Char → Prop
  | random : IsOrdering options .random "RANDOM()".toList
  | column {name : String} (h : IsName (columnRef name).toList) :
      IsOrdering options (.column name) (columnText options (columnRef name).toList)
  | distance {place : Coordinates} {lat long scale : List Char}
      (hlatName : IsName (columnRef place.latField).toList)
      (hlongName : IsName (columnRef place.longField).toList)
      (hlat : IsCoordinate place.lat lat) (hlong : IsCoordinate place.long long)
      (hscale : IsNumeral scale) :
      IsOrdering options (.distance place)
        (distanceText (columnRef place.latField).toList lat
          (columnRef place.longField).toList long scale)

theorem isStart_bracket : IsStart "(".toList := by decide

theorem isTail_bracket : IsTail ")".toList := by decide

theorem isOpening_times : IsOpening "*".toList := by decide

theorem isPart_differenceText {name number : List Char} (hname : IsName name)
    (hnumber : IsNumeral number) : IsPart (differenceText name number) := by
  -- The blank keeps the minus sign apart from that of a negative number.
  have hminus : IsOpening " - ".toList := by decide
  have hrest : IsTail (" - ".toList ++ (number ++ ")".toList)) :=
    hminus.tail ((isPart_of_isNumeral hnumber).append isTail_bracket)
  unfold differenceText
  simp only [List.append_assoc]
  exact isStart_bracket.part (hname.isPart.append hrest)

theorem isPart_squareText {name number : List Char} (hname : IsName name)
    (hnumber : IsNumeral number) : IsPart (squareText name number) := by
  have hdifference := isPart_differenceText hname hnumber
  unfold squareText
  rw [List.append_assoc]
  exact hdifference.append (isOpening_times.tail hdifference)

theorem isPart_distanceText {latName lat longName long scale : List Char}
    (hlatName : IsName latName) (hlat : IsNumeral lat) (hlongName : IsName longName)
    (hlong : IsNumeral long) (hscale : IsNumeral scale) :
    IsPart (distanceText latName lat longName long scale) := by
  have hplus : IsOpening ") + (".toList := by decide
  have hlongitude : IsPart (squareText longName long ++ ("*".toList ++ (scale ++ ")".toList))) :=
    (isPart_squareText hlongName hlong).append
      (isOpening_times.tail ((isPart_of_isNumeral hscale).append isTail_bracket))
  unfold distanceText
  simp only [List.append_assoc]
  exact isStart_bracket.part ((isPart_squareText hlatName hlat).append (hplus.tail hlongitude))

theorem isPart_columnText (options : SelectOptions) {name : List Char} (h : IsName name) :
    IsPart (columnText options name) := by
  have hlower : IsStart "lower(".toList := by decide
  have hcolumn :
      IsPart (if options.nocase then "lower(".toList ++ name ++ ")".toList else name) := by
    split
    · rw [List.append_assoc]
      exact hlower.part (h.isPart.append isTail_bracket)
    · exact h.isPart
  refine hcolumn.append ?_
  split <;> decide

theorem IsOrdering.isPart {options : SelectOptions} {order : OrderBy}
    (h : IsOrdering options order text) : IsPart text := by
  cases h with
  | random => decide
  | column hname => exact isPart_columnText options hname
  | distance hlatName hlongName hlat hlong hscale =>
      exact isPart_distanceText hlatName hlat.numeral hlongName hlong.numeral hscale

/-! ## Orders -/

def IsFinite : NumberOrText → Prop
  | .number x => x.isFinite
  | .text written => Text.trim written.toList = [] ∨
      ∃ x, Decimal.Literal.read? (Text.trim written.toList) = some x ∧ x.isFinite

def IsDropped : OrderBy → Prop
  | .random => False
  | .column name => ∀ c ∈ name.toList, ¬ Identifier.isDotted c
  | .distance place => ¬ IsFinite place.lat ∨ ¬ IsFinite place.long

theorem isFinite_of_toDouble? {number : NumberOrText} {x : Double}
    (h : number.toDouble? = some x) : x.isFinite :=
  (Option.filter_eq_some_iff.mp h).2

theorem exists_toDouble?_iff {number : NumberOrText} :
    (∃ x, number.toDouble? = some x) ↔ IsFinite number := by
  simp only [NumberOrText.toDouble?, Option.filter_eq_some_iff]
  cases number with
  | number x => simp [IsFinite]
  | text written =>
      by_cases hblank : Text.trim written.toList = []
      · have hzero : Double.zero.isFinite := by decide
        simp [IsFinite, hblank, hzero]
      · simp [IsFinite, hblank]

theorem toDouble?_eq_none_iff {number : NumberOrText} :
    number.toDouble? = none ↔ ¬ IsFinite number := by
  rw [← exists_toDouble?_iff]
  cases number.toDouble? <;> simp

theorem sanitizeDotted_eq_empty_iff {name : String} :
    sanitizeDotted name = "" ↔ ∀ c ∈ name.toList, ¬ Identifier.isDotted c := by
  have hguard : sanitizeDotted name = "" ↔ name.toList.filter Identifier.isDotted = [] := by
    rw [← String.toList_eq_nil_iff, sanitizeDotted, String.toList_ofList, Identifier.sanitizeWith]
    cases name.toList.filter Identifier.isDotted with
    | nil => simp [Identifier.guardDigit]
    | cons c rest => by_cases hdigit : c.isDigit <;> simp [Identifier.guardDigit, hdigit]
  rw [hguard, List.filter_eq_nil_iff]

theorem isCoordinate_display {number : NumberOrText} {x : Double}
    (h : number.toDouble? = some x) : IsCoordinate number x.display.toList := by
  have hfinite := isFinite_of_toDouble? h
  exact ⟨Double.isNumeral_display hfinite, x, h, Double.read?_display hfinite⟩

variable (cosine : Double.Cosine) {options : SelectOptions} {order : OrderBy}

theorem placeText?_eq_none_iff {place : Coordinates} :
    place.orderText? cosine.of = none ↔ IsDropped (.distance place) := by
  rw [IsDropped, ← toDouble?_eq_none_iff, ← toDouble?_eq_none_iff, Coordinates.orderText?]
  cases place.lat.toDouble? <;> cases place.long.toDouble? <;> simp

variable {cosine} in
theorem isOrdering_place {place : Coordinates} {written : String}
    (h : place.orderText? cosine.of = some written) :
    IsOrdering options (.distance place) written.toList := by
  unfold Coordinates.orderText? at h
  simp only [Option.bind_eq_bind, Option.bind_eq_some_iff, Option.some.injEq] at h
  obtain ⟨lat, hlat, long, hlong, rfl⟩ := h
  have hangle : lat.toRadians.isFinite := Double.isFinite_toRadians (isFinite_of_toDouble? hlat)
  have hscale := Double.isNumeral_display (cosine.isFinite_square hangle)
  have hordering : IsOrdering options (.distance place) _ :=
    .distance (isName_columnRef place.latField) (isName_columnRef place.longField)
      (isCoordinate_display hlat) (isCoordinate_display hlong) hscale
  simpa only [distanceText, squareText, differenceText, String.toList_append,
    List.append_assoc] using hordering

/-- An order is dropped, or it is one of the orderings behind its keyword. -/
theorem orderText?_cases (h : options.orderBy = some order) :
    (IsDropped order ∧ options.orderText? cosine.of = none) ∨
      ¬ IsDropped order ∧ ∃ ordering, IsOrdering options order ordering ∧
        (options.orderText? cosine.of).map String.toList = some ("ORDER BY ".toList ++ ordering) := by
  unfold orderText?
  rw [h]
  cases order with
  | random => exact .inr ⟨not_false, _, .random, rfl⟩
  | column name =>
      rw [IsDropped, ← sanitizeDotted_eq_empty_iff]
      by_cases hempty : sanitizeDotted name = ""
      · exact .inl ⟨hempty, by simp [columnOrderText?, hempty]⟩
      · refine .inr ⟨hempty, _, .column (isName_columnRef name), ?_⟩
        cases hcase : options.nocase <;> cases hdirection : options.descending <;>
          simp [columnOrderText?, columnText, hempty, hcase, hdirection]
  | distance place =>
      rw [← placeText?_eq_none_iff cosine]
      simp only [Option.bind_eq_bind, Option.bind_some]
      cases hplace : place.orderText? cosine.of with
      | none => exact .inl ⟨rfl, rfl⟩
      | some written =>
          refine .inr ⟨Option.some_ne_none _, _, isOrdering_place hplace, ?_⟩
          rw [Option.bind_some, Option.map_some, String.toList_append]

/-! ## The whole text -/

/-- A count of rows, written as the number that it is cut to. -/
structure IsCount (number : Option NumberOrText) (text : List Char) : Prop where
  whole : IsWhole text
  written : ∃ n, number.bind NumberOrText.toLimit? = some n ∧ text = (toString n.toInt).toList

theorem exists_of_countText? {keyword : String} {number : Option NumberOrText}
    (h : text ∈ (countText? keyword number).map String.toList) :
    ∃ count, IsCount number count ∧ text = keyword.toList ++ " ".toList ++ count := by
  obtain ⟨written, hwritten, rfl⟩ := Option.map_eq_some_iff.mp h
  obtain ⟨n, hn, rfl⟩ := Option.map_eq_some_iff.mp hwritten
  refine ⟨(toString n.toInt).toList, ⟨Decimal.isWhole_toString _, n, hn, rfl⟩, ?_⟩
  rw [String.toList_append, String.toList_append]

structure Parts where
  order : Option (List Char)
  limit : Option (List Char)
  offset : Option (List Char)

namespace Parts

def toList (parts : Parts) : List (List Char) :=
  parts.order.toList ++ parts.limit.toList ++ parts.offset.toList

def chars (parts : Parts) : List Char := List.intercalate [' '] parts.toList

structure FollowsGrammar (options : SelectOptions) (parts : Parts) : Prop where
  order : ∀ text ∈ parts.order, ∃ order ∈ options.orderBy, ∃ ordering,
    IsOrdering options order ordering ∧ text = "ORDER BY ".toList ++ ordering
  limit : ∀ text ∈ parts.limit, ∃ count,
    IsCount options.limit count ∧ text = "LIMIT ".toList ++ count
  offset : ∀ text ∈ parts.offset, ∃ count,
    IsCount options.offset count ∧ text = "OFFSET ".toList ++ count

def ofOptions (cosine : Double.Cosine) (options : SelectOptions) : Parts where
  order := (options.orderText? cosine.of).map String.toList
  limit := (countText? "LIMIT" options.limit).map String.toList
  offset := (countText? "OFFSET" options.offset).map String.toList

theorem toList_sql (options : SelectOptions) :
    (options.sqlWith cosine.of).toList = (ofOptions cosine options).chars := by
  rw [sqlWith, String.toList_intercalate, chars, toList, ofOptions]
  congr 1
  cases options.orderText? cosine.of <;> cases countText? "LIMIT" options.limit <;>
    cases countText? "OFFSET" options.offset <;> rfl

theorem followsGrammar_ofOptions (options : SelectOptions) :
    (ofOptions cosine options).FollowsGrammar options where
  order := by
    intro text htext
    cases horder : options.orderBy with
    | none =>
        rw [ofOptions, orderText?, horder] at htext
        cases htext
    | some order =>
        obtain ⟨-, hnone⟩ | ⟨-, ordering, hordering, hsome⟩ := orderText?_cases cosine horder
        · rw [ofOptions, hnone] at htext
          cases htext
        · exact ⟨order, rfl, ordering, hordering, Option.some.inj (htext.symm.trans hsome)⟩
  limit := fun _ => exists_of_countText?
  offset := fun _ => exists_of_countText?

theorem order_eq_none_iff :
    (ofOptions cosine options).order = none ↔ ∀ order ∈ options.orderBy, IsDropped order := by
  rw [ofOptions]
  cases horder : options.orderBy with
  | none =>
      rw [orderText?, horder]
      exact iff_of_true rfl nofun
  | some order =>
      obtain ⟨hdropped, hnone⟩ | ⟨hkept, ordering, -, hsome⟩ := orderText?_cases cosine horder
      · simp [hnone, hdropped]
      · simp [hsome, hkept]

theorem FollowsGrammar.isPart {parts : Parts} (h : parts.FollowsGrammar options) :
    ∀ part ∈ parts.toList, IsPart part := by
  have horder : IsStart "ORDER BY ".toList := by decide
  have hlimit : IsStart "LIMIT ".toList := by decide
  have hoffset : IsStart "OFFSET ".toList := by decide
  simp only [toList, List.forall_mem_append, Option.mem_toList]
  refine ⟨⟨fun part hpart => ?_, fun part hpart => ?_⟩, fun part hpart => ?_⟩
  · obtain ⟨order, -, ordering, hordering, rfl⟩ := h.order part hpart
    exact horder.part hordering.isPart
  · obtain ⟨count, hcount, rfl⟩ := h.limit part hpart
    exact hlimit.part (isPart_of_isNumeral (.inl hcount.whole))
  · obtain ⟨count, hcount, rfl⟩ := h.offset part hpart
    exact hoffset.part (isPart_of_isNumeral (.inl hcount.whole))

end Parts

/-- A text that does not leave the statement it stands in, and has no blank too many. -/
structure IsInert (text : List Char) : Prop where
  quote : '\'' ∉ text
  semicolon : ';' ∉ text
  backslash : '\\' ∉ text
  lineComment : ¬ ['-', '-'] <:+: text
  blockComment : ¬ ['/', '*'] <:+: text
  leading : ' ' ∉ text.head?
  trailing : ' ' ∉ text.getLast?
  double : ¬ [' ', ' '] <:+: text

theorem isInert_nil : IsInert [] := by
  constructor <;> decide

theorem IsPart.isInert (h : IsPart text) : IsInert text := by
  have htame : IsTame text := h.1.1
  exact {
    quote := htame.not_mem (by decide)
    semicolon := htame.not_mem (by decide)
    backslash := htame.not_mem (by decide)
    lineComment := htame.not_twice (by decide)
    blockComment := fun hmark =>
      htame.not_mem (by decide) (hmark.subset List.mem_cons_self : '/' ∈ text)
    leading := fun hleading => h.head?_ne hleading rfl
    trailing := fun htrailing => h.1.not_isLone htrailing (by decide)
    double := htame.not_twice (by decide) }

theorem Parts.FollowsGrammar.isInert {parts : Parts} (h : parts.FollowsGrammar options) :
    IsInert parts.chars := by
  unfold Parts.chars
  by_cases hempty : parts.toList = []
  · rw [hempty]
    exact isInert_nil
  · exact (isPart_intercalate hempty h.isPart).isInert

/-- The text is an order, a limit and an offset as far as they are set, each in its grammar.  There
is no order when its column or a coordinate is of no use, and the rest is as without it. -/
theorem sql_in_grammar (cosine : Double.Cosine) (options : SelectOptions) :
    ∃ parts : Parts, (options.sqlWith cosine.of).toList = parts.chars ∧
      parts.FollowsGrammar options ∧ IsInert parts.chars ∧
      (parts.order = none ↔ ∀ order ∈ options.orderBy, IsDropped order) ∧
      ({ options with orderBy := none }.sqlWith cosine.of).toList =
        { parts with order := none }.chars := by
  have hgrammar := Parts.followsGrammar_ofOptions cosine options
  exact ⟨Parts.ofOptions cosine options, Parts.toList_sql cosine options, hgrammar,
    hgrammar.isInert, Parts.order_eq_none_iff cosine,
    Parts.toList_sql cosine { options with orderBy := none }⟩

/-- A name that begins a comment and a limit that ends the statement. -/
example : { SelectOptions.default with
    orderBy := some (.column "a' -- b"), limit := some (.text " -12;"), descending := true }.sql =
      "ORDER BY \"ab\" DESC LIMIT -12" := by
  decide +kernel

end FilterSql.SelectOptions
