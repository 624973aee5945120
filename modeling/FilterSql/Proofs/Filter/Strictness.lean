import FilterSql.Filter.OfJson

/-!
# Strict reading is lenient reading without fallbacks

Lenient reading falls back in three places: it compares a condition object without
a known tag, and an object on either side of a comparison, as a JSON value, and it
takes the JSON text of a slug that is no text.  Strict reading refuses all three.
Where none of them is needed the two modes read the same filter, and strict reading
accepts nothing else.
-/

namespace FilterSql

/-! ## What a filter compares with -/

/-- The right side of an equality: an operand, or the text of a slug. -/
inductive Comparand where
  | operand (operand : Operand)
  | slug (text : String)

namespace Comparand

def slug? : Comparand → Option String
  | .operand _ => none
  | .slug text => some text

/-- An object that stands for itself because it has no other meaning. -/
def IsFallback (comparand : Comparand) : Prop :=
  ∃ document, comparand = .operand (.literal (.json document))

end Comparand

mutual

/-- All that a clause compares with, in order, the filters of its sub-selects included. -/
def Clause.comparands : Clause → List Comparand
  | .search _ | .notColumn _ | .notValue _ => []
  | .or alternatives => Filter.comparandsOfAll alternatives
  | .not negated => Filter.comparands negated
  | .compare left right => [.operand left, .operand right]
  | .field _ condition => Condition.comparands condition

def Filter.comparands : List Clause → List Comparand
  | [] => []
  | first :: rest => Clause.comparands first ++ Filter.comparands rest

def Filter.comparandsOfAll : List (List Clause) → List Comparand
  | [] => []
  | first :: rest => Filter.comparands first ++ Filter.comparandsOfAll rest

def Condition.comparands : Condition → List Comparand
  | .oneOf _ | .contains _ | .range _ _ _ | .json _ | .isNull => []
  | .slug text => [.slug text]
  | .anyOf alternatives => Condition.comparandsOfAll alternatives
  | .allOf conditions => Condition.comparandsOfAll conditions
  | .inSelect _ filter => Filter.comparands filter
  | .inChain _ filter => Filter.comparands filter
  | .equals operand => [.operand operand]

def Condition.comparandsOfAll : List Condition → List Comparand
  | [] => []
  | first :: rest => Condition.comparands first ++ Condition.comparandsOfAll rest

end

/-! ## The slugs of a JSON filter -/

namespace FilterJson

open Json

def slugText : Json → String
  | .string text => text
  | other => other.text

def taggedSlugs (members : List (String × Json)) (alternatives : Option (List Json))
    (select chain : List Json) : List Json :=
  match rawColumn? members with
  | some _ => []
  | none =>
  match lookup? "in" members with
  | some _ => []
  | none =>
  match lookup? "slugify" members with
  | some value => [value]
  | none =>
  match alternatives with
  | some slugs => slugs
  | none =>
  match lookup? "ilike" members with
  | some _ => []
  | none =>
  match lookup? "gt" members with
  | some _ => []
  | none =>
  match lookup? "lt" members with
  | some _ => []
  | none =>
  match lookup? "inSelect" members with
  | some _ => select
  | none =>
  match lookup? "inSelectWithLevels" members with
  | some _ => chain
  | none => []

mutual

/-- The values that are read as slugs, in order. -/
def filterSlugs : Json → List Json
  | .object members => clausesSlugs members
  | _ => []

def clausesSlugs : List (String × Json) → List Json
  | [] => []
  | (key, value) :: rest => clauseSlugs key value ++ clausesSlugs rest

def filtersSlugs : List Json → List Json
  | [] => []
  | value :: rest => filterSlugs value ++ filtersSlugs rest

def clauseSlugs (key : String) : Json → List Json
  | .array items =>
    if key = "_fts" then []
    else if key = "or" then filtersSlugs items
    else if key = "eq" ∧ items.length = 2 then []
    else conditionsSlugs items
  | .object members =>
    if key = "_fts" then []
    else if key = "not" ∧ ¬ (hasMember "in" members ∨ hasMember "slugify" members) then
      match rawColumn? members with
      | some _ => []
      | none => clausesSlugs members
    else
      taggedSlugs members (alternativesSlugs? members) (nestedSlugs "inSelect" 2 members)
        (nestedSlugs "inSelectWithLevels" 0 members)
  | _ => []

def conditionSlugs : Json → List Json
  | .array items => conditionsSlugs items
  | .object members =>
    taggedSlugs members (alternativesSlugs? members) (nestedSlugs "inSelect" 2 members)
      (nestedSlugs "inSelectWithLevels" 0 members)
  | _ => []

def conditionsSlugs : List Json → List Json
  | [] => []
  | value :: rest => conditionSlugs value ++ conditionsSlugs rest

def alternativesSlugs? : List (String × Json) → Option (List Json)
  | [] => none
  | (name, value) :: rest =>
    if name = "or" then
      match value with
      | .array items => some (conditionsSlugs items)
      | _ => none
    else alternativesSlugs? rest

def nestedSlugs (tag : String) (place : Nat) : List (String × Json) → List Json
  | [] => []
  | (name, descriptor) :: rest =>
    if name = tag then
      match descriptor with
      | .object members => memberSlugs members
      | .array items => itemSlugs place items
      | _ => []
    else nestedSlugs tag place rest

def memberSlugs : List (String × Json) → List Json
  | [] => []
  | (name, value) :: rest => if name = "where" then filterSlugs value else memberSlugs rest

def itemSlugs : Nat → List Json → List Json
  | _, [] => []
  | 0, value :: _ => filterSlugs value
  | place + 1, _ :: rest => itemSlugs place rest

end

/-! ## Two modes side by side -/

/-- The lenient outcome tells its slugs, and is the strict one wherever no fallback was used. -/
structure Restricts {α : Type} (comparands : α → List Comparand) (slugs : List Json)
    (strict lenient : Except ParseError α) : Prop where
  ok_iff (a : α) : strict = .ok a ↔
    lenient = .ok a ∧ (∀ comparand ∈ comparands a, ¬ comparand.IsFallback) ∧
      ∀ value ∈ slugs, ∃ text, value = .string text
  slugs_eq (a : α) : lenient = .ok a → (comparands a).filterMap Comparand.slug? = slugs.map slugText

namespace Restricts

variable {α β γ : Type} {strict lenient : Except ParseError α} {slugs : List Json}
  {comparands : α → List Comparand}

theorem same (outcome : Except ParseError α) :
    Restricts (fun _ => []) [] outcome outcome where
  ok_iff a := by simp
  slugs_eq a _ := rfl

theorem silent (a : α) (h : comparands a = []) : Restricts comparands [] (.ok a) (.ok a) where
  ok_iff b := by
    simp only [Except.ok.injEq, List.not_mem_nil, false_implies, implies_true, and_true]
    constructor
    · rintro rfl
      simp [h]
    · exact And.left
  slugs_eq b hb := by
    cases hb
    simp [h]

theorem refused (error : ParseError) : Restricts comparands [] (.error error) (.error error) where
  ok_iff a := by simp
  slugs_eq a h := by cases h

theorem operand {operand : Operand} (h : ¬ (Comparand.operand operand).IsFallback) :
    Restricts (fun read => [.operand read]) [] (.ok operand) (.ok operand) where
  ok_iff read := by
    simp only [Except.ok.injEq, List.not_mem_nil, false_implies, implies_true, and_true,
      List.mem_singleton, forall_eq]
    constructor
    · rintro rfl
      exact ⟨rfl, h⟩
    · exact And.left
  slugs_eq read _ := rfl

theorem fallback (error : ParseError) (document : Json) :
    Restricts (fun read => [.operand read]) [] (.error error)
      (.ok (.literal (.json document))) where
  ok_iff read := by
    constructor
    · intro h
      cases h
    · rintro ⟨hread, hnone, -⟩
      cases hread
      exact absurd ⟨document, rfl⟩ (hnone _ List.mem_cons_self)
  slugs_eq read _ := rfl

theorem bind_ok (outcome : Except ParseError α) (f : α → β) :
    (outcome >>= fun a => .ok (f a)) = outcome.map f := by
  cases outcome <;> rfl

theorem map {comparands' : β → List Comparand} (f : α → β)
    (h : Restricts comparands slugs strict lenient)
    (hf : ∀ a, comparands' (f a) = comparands a) :
    Restricts comparands' slugs (strict.map f) (lenient.map f) where
  ok_iff b := by
    have hmap (outcome : Except ParseError α) :
        outcome.map f = .ok b ↔ ∃ a, outcome = .ok a ∧ f a = b := by
      cases outcome <;> simp [Except.map]
    simp only [hmap, h.ok_iff]
    constructor
    · rintro ⟨a, ⟨ha, horder⟩, rfl⟩
      exact ⟨⟨a, ha, rfl⟩, by rwa [hf]⟩
    · rintro ⟨⟨a, ha, rfl⟩, horder⟩
      exact ⟨a, ⟨ha, by rwa [hf] at horder⟩, rfl⟩
  slugs_eq b hb := by
    cases lenient with
    | error error => cases hb
    | ok a =>
        cases hb
        rw [hf, h.slugs_eq a rfl]

theorem after {comparands : β → List Comparand} (first : Except ParseError α)
    {strict lenient : α → Except ParseError β}
    (h : ∀ a, Restricts comparands slugs (strict a) (lenient a)) :
    Restricts comparands slugs (first >>= strict) (first >>= lenient) := by
  cases first with
  | error error =>
      refine ⟨fun b => ⟨fun hb => ?_, fun hb => ?_⟩, fun b hb => ?_⟩
      · cases hb
      · cases hb.1
      · cases hb
  | ok a => exact h a

theorem both {strict' lenient' : Except ParseError β} {slugs' : List Json}
    {comparands' : β → List Comparand} {whole : γ → List Comparand} (combine : α → β → γ)
    (h : Restricts comparands slugs strict lenient)
    (h' : Restricts comparands' slugs' strict' lenient')
    (hwhole : ∀ a b, whole (combine a b) = comparands a ++ comparands' b) :
    Restricts whole (slugs ++ slugs')
      (strict >>= fun a => strict' >>= fun b => .ok (combine a b))
      (lenient >>= fun a => lenient' >>= fun b => .ok (combine a b)) := by
  have hbind (first : Except ParseError α) (second : Except ParseError β) (c : γ) :
      (first >>= fun a => second >>= fun b => .ok (combine a b)) = .ok c ↔
        ∃ a b, first = .ok a ∧ second = .ok b ∧ combine a b = c := by
    cases first <;> cases second <;> simp [bind, Except.bind]
  refine ⟨fun c => ?_, fun c hc => ?_⟩
  · simp only [hbind, h.ok_iff, h'.ok_iff]
    constructor
    · rintro ⟨a, b, ⟨ha, horder, htexts⟩, ⟨hb, horder', htexts'⟩, rfl⟩
      rw [hwhole]
      exact ⟨⟨a, b, ha, hb, rfl⟩, List.forall_mem_append.mpr ⟨horder, horder'⟩,
        List.forall_mem_append.mpr ⟨htexts, htexts'⟩⟩
    · rintro ⟨⟨a, b, ha, hb, rfl⟩, horder, htexts⟩
      rw [hwhole] at horder
      obtain ⟨horder, horder'⟩ := List.forall_mem_append.mp horder
      obtain ⟨htexts, htexts'⟩ := List.forall_mem_append.mp htexts
      exact ⟨a, b, ⟨ha, horder, htexts⟩, ⟨hb, horder', htexts'⟩, rfl⟩
  · obtain ⟨a, b, ha, hb, rfl⟩ := (hbind lenient lenient' c).mp hc
    rw [hwhole, List.filterMap_append, List.map_append, h.slugs_eq a ha, h'.slugs_eq b hb]

end Restricts

/-! ## Parts of conditions -/

/-- Only objects can be fallbacks. -/
theorem not_isFallback_ofJson {value : Json} (h : ∀ members, value ≠ .object members) :
    ¬ (Comparand.operand (.literal (.ofJson value))).IsFallback := by
  rintro ⟨document, hdocument⟩
  cases value with
  | object members => exact h members rfl
  | integer n =>
      simp only [Value.ofJson, Value.ofInt] at hdocument
      split at hdocument <;> cases hdocument
  | null | bool | float | string | array =>
      simp [Value.ofJson] at hdocument

theorem not_isFallback_column (column : String) :
    ¬ (Comparand.operand (.column column)).IsFallback := by
  rintro ⟨document, hdocument⟩
  cases hdocument

theorem restricts_operand (value : Json) :
    Restricts (fun read => [.operand read]) [] (operand .strict value)
      (operand .lenient value) := by
  cases value with
  | object members =>
      simp only [operand]
      cases rawColumn? members with
      | none => exact .fallback _ _
      | some column => exact .operand (not_isFallback_column column)
  | null => exact .operand fun ⟨_, h⟩ => by cases h
  | bool | integer | float | string | array => exact .operand (not_isFallback_ofJson (by simp))

theorem restricts_slug (key : String) (value : Json) :
    Restricts (fun text => [.slug text]) [value] (slug .strict key value)
      (slug .lenient key value) := by
  have hfallback (text : String) : ¬ (Comparand.slug text).IsFallback := by
    simp [Comparand.IsFallback]
  refine ⟨fun text => ?_, fun text htext => ?_⟩
  · cases value <;> simp [slug, hfallback]
  · cases value <;> simp_all [slug, slugText, Comparand.slug?]

/-! ## Condition objects -/

inductive RestrictsAlternatives : Option (List Json) →
    Option (Except ParseError (List Condition)) →
    Option (Except ParseError (List Condition)) → Prop
  | none : RestrictsAlternatives none none none
  | some {slugs : List Json} {strict lenient : Except ParseError (List Condition)}
      (h : Restricts Condition.comparandsOfAll slugs strict lenient) :
      RestrictsAlternatives (some slugs) (some strict) (some lenient)

theorem restricts_tagged (key : String) (members : List (String × Json))
    {alternatives : Option (List Json)} {selectSlugs chainSlugs : List Json}
    {strictAlternatives lenientAlternatives : Option (Except ParseError (List Condition))}
    {strictSelect lenientSelect strictChain lenientChain : Except ParseError Filter}
    (halternatives : RestrictsAlternatives alternatives strictAlternatives lenientAlternatives)
    (hselect : Restricts Filter.comparands selectSlugs strictSelect lenientSelect)
    (hchain : Restricts Filter.comparands chainSlugs strictChain lenientChain) :
    Restricts Condition.comparands (taggedSlugs members alternatives selectSlugs chainSlugs)
      (tagged .strict key members ⟨strictAlternatives, strictSelect, strictChain⟩)
      (tagged .lenient key members ⟨lenientAlternatives, lenientSelect, lenientChain⟩) := by
  unfold tagged taggedSlugs
  -- Both modes look the tags up in this order, and the first one that is there decides.
  cases rawColumn? members with
  | some column =>
      exact (Restricts.operand (not_isFallback_column column)).map Condition.equals fun _ => rfl
  | none =>
  cases lookup? "in" members with
  | some list => exact .silent _ rfl
  | none =>
  cases lookup? "slugify" members with
  | some value => exact (restricts_slug key value).map Condition.slug fun _ => rfl
  | none =>
  cases halternatives with
  | some h => exact h.map Condition.anyOf fun _ => rfl
  | none =>
  cases lookup? "ilike" members with
  | some needle => exact .silent _ rfl
  | none =>
  cases lookup? "gt" members with
  | some value => exact .silent _ rfl
  | none =>
  cases lookup? "lt" members with
  | some value => exact .silent _ rfl
  | none =>
  cases lookup? "inSelect" members with
  | some descriptor =>
      simp only [Restricts.bind_ok]
      exact .after _ fun select => hselect.map (Condition.inSelect select) fun _ => rfl
  | none =>
  cases lookup? "inSelectWithLevels" members with
  | some descriptor =>
      refine .after _ fun (schema, levels) => ?_
      simpa using hchain.both (fun filter chain => Condition.inChain chain filter)
        (.same (chain schema levels)) fun _ _ => (List.append_nil _).symm
  | none =>
  cases lookup? "json" members with
  | some value => exact (Restricts.same (jsonCondition key value)).map Condition.json fun _ => rfl
  | none =>
      -- No tag at all: only here does an object stand for itself.
      exact (Restricts.fallback _ (.object members)).map Condition.equals fun _ => rfl

/-! ## Whole filters -/

mutual

theorem restricts_filter (value : Json) :
    Restricts Filter.comparands (filterSlugs value) (filter .strict value)
      (filter .lenient value) := by
  cases value with
  | object members => exact restricts_clauses members
  | null => exact .silent [] rfl
  | bool | integer | float | string | array =>
      exact .refused _

theorem restricts_clauses (members : List (String × Json)) :
    Restricts Filter.comparands (clausesSlugs members) (clauses .strict members)
      (clauses .lenient members) := by
  cases members with
  | nil => exact .silent [] rfl
  | cons first rest =>
      obtain ⟨key, value⟩ := first
      exact (restricts_clause key value).both List.cons (restricts_clauses rest) fun _ _ => rfl

theorem restricts_filters (items : List Json) :
    Restricts Filter.comparandsOfAll (filtersSlugs items) (filters .strict items)
      (filters .lenient items) := by
  cases items with
  | nil => exact .silent [] rfl
  | cons value rest =>
      exact (restricts_filter value).both List.cons (restricts_filters rest) fun _ _ => rfl

theorem restricts_clause (key : String) (value : Json) :
    Restricts Clause.comparands (clauseSlugs key value) (clause .strict key value)
      (clause .lenient key value) := by
  cases value with
  | array items =>
      unfold clause clauseSlugs
      by_cases hsearch : key = "_fts"
      · simp only [if_pos hsearch]
        exact (Restricts.same (search key (.array items))).map Clause.search fun _ => rfl
      by_cases hor : key = "or"
      · simp only [if_neg hsearch, if_pos hor]
        exact (restricts_filters items).map Clause.or fun _ => rfl
      simp only [if_neg hsearch, if_neg hor]
      by_cases heq : key = "eq" ∧ items.length = 2
      · obtain ⟨rfl, hlength⟩ := heq
        obtain ⟨left, right, rfl⟩ : ∃ left right, items = [left, right] := by
          match items, hlength with
          | [left, right], _ => exact ⟨left, right, rfl⟩
        exact (restricts_operand left).both Clause.compare (restricts_operand right) fun _ _ => rfl
      · simp only [if_neg heq]
        split
        · exact absurd ⟨rfl, rfl⟩ heq
        · exact (restricts_conditions key items).map (Clause.field key ∘ Condition.allOf)
            fun _ => rfl
  | object members =>
      unfold clause clauseSlugs
      by_cases hsearch : key = "_fts"
      · simp only [if_pos hsearch]
        exact (Restricts.same (search key (.object members))).map Clause.search fun _ => rfl
      simp only [if_neg hsearch]
      by_cases hnot : key = "not" ∧ ¬ (hasMember "in" members ∨ hasMember "slugify" members)
      · simp only [if_pos hnot]
        cases rawColumn? members with
        | some column => exact .silent (Clause.notColumn column) rfl
        | none => exact (restricts_clauses members).map Clause.not fun _ => rfl
      · simp only [if_neg hnot]
        have htagged := restricts_tagged key members (restricts_alternatives key members)
          (restricts_nestedFilter "inSelect" 2 members)
          (restricts_nestedFilter "inSelectWithLevels" 0 members)
        exact htagged.map (Clause.field key) fun _ => rfl
  | null =>
      unfold clause clauseSlugs
      split
      · exact (Restricts.same (search key .null)).map Clause.search fun _ => rfl
      · exact .silent _ rfl
  | bool | integer | float | string =>
      unfold clause clauseSlugs
      split
      · exact (Restricts.same (search key _)).map Clause.search fun _ => rfl
      · split
        · exact .silent _ rfl
        · exact (Restricts.operand (not_isFallback_ofJson (by simp))).map
            (Clause.field key ∘ Condition.equals) fun _ => rfl

theorem restricts_condition (key : String) (value : Json) :
    Restricts Condition.comparands (conditionSlugs value) (condition .strict key value)
      (condition .lenient key value) := by
  cases value with
  | object members =>
      exact restricts_tagged key members (restricts_alternatives key members)
        (restricts_nestedFilter "inSelect" 2 members)
        (restricts_nestedFilter "inSelectWithLevels" 0 members)
  | array items => exact (restricts_conditions key items).map Condition.allOf fun _ => rfl
  | null => exact .silent Condition.isNull rfl
  | bool | integer | float | string =>
      exact (Restricts.operand (not_isFallback_ofJson (by simp))).map Condition.equals fun _ => rfl

theorem restricts_conditions (key : String) (items : List Json) :
    Restricts Condition.comparandsOfAll (conditionsSlugs items) (conditions .strict key items)
      (conditions .lenient key items) := by
  cases items with
  | nil => exact .silent [] rfl
  | cons value rest =>
      exact (restricts_condition key value).both List.cons (restricts_conditions key rest)
        fun _ _ => rfl

theorem restricts_alternatives (key : String) (members : List (String × Json)) :
    RestrictsAlternatives (alternativesSlugs? members) (alternatives? .strict key members)
      (alternatives? .lenient key members) := by
  cases members with
  | nil => exact .none
  | cons first rest =>
      obtain ⟨name, value⟩ := first
      unfold alternatives? alternativesSlugs?
      by_cases hname : name = "or"
      · simp only [if_pos hname]
        cases value with
        | array items => exact .some (restricts_conditions key items)
        | null | bool | integer | float | string | object => exact .none
      · simp only [if_neg hname]
        exact restricts_alternatives key rest

theorem restricts_nestedFilter (tag : String) (place : Nat) (members : List (String × Json)) :
    Restricts Filter.comparands (nestedSlugs tag place members)
      (nestedFilter .strict tag place members) (nestedFilter .lenient tag place members) := by
  cases members with
  | nil => exact .silent [] rfl
  | cons first rest =>
      obtain ⟨name, descriptor⟩ := first
      unfold nestedFilter nestedSlugs
      by_cases hname : name = tag
      · simp only [if_pos hname]
        cases descriptor with
        | object members => exact restricts_memberFilter members
        | array items => exact restricts_itemFilter place items
        | null | bool | integer | float | string =>
            exact .silent [] rfl
      · simp only [if_neg hname]
        exact restricts_nestedFilter tag place rest

theorem restricts_memberFilter (members : List (String × Json)) :
    Restricts Filter.comparands (memberSlugs members) (memberFilter .strict members)
      (memberFilter .lenient members) := by
  cases members with
  | nil => exact .silent [] rfl
  | cons first rest =>
      obtain ⟨name, value⟩ := first
      unfold memberFilter memberSlugs
      by_cases hname : name = "where"
      · simp only [if_pos hname]
        exact restricts_filter value
      · simp only [if_neg hname]
        exact restricts_memberFilter rest

theorem restricts_itemFilter (place : Nat) (items : List Json) :
    Restricts Filter.comparands (itemSlugs place items) (itemFilter .strict place items)
      (itemFilter .lenient place items) := by
  cases items with
  | nil => exact .silent [] rfl
  | cons value rest =>
      cases place with
      | zero => exact restricts_filter value
      | succ place => exact restricts_itemFilter place rest

end

end FilterJson

/-- Strict reading accepts what lenient reading reads without a fallback, and reads the same: no
object is compared as a JSON value and every slug is taken from a text.  The slugs are those that
the filter compares with. -/
theorem ofJson_strict_iff (value : Json) (filter : Filter) :
    (Filter.ofJson .strict value = .ok filter ↔
      Filter.ofJson .lenient value = .ok filter ∧
        (∀ comparand ∈ Filter.comparands filter, ¬ comparand.IsFallback) ∧
          ∀ slug ∈ FilterJson.filterSlugs value, ∃ text, slug = .string text) ∧
      (Filter.ofJson .lenient value = .ok filter →
        (Filter.comparands filter).filterMap Comparand.slug? =
          (FilterJson.filterSlugs value).map FilterJson.slugText) ∧
      ((∃ error, Filter.ofJson .lenient value = .error error) →
        ∃ error, Filter.ofJson .strict value = .error error) := by
  have hmodes : FilterJson.Restricts Filter.comparands (FilterJson.filterSlugs value)
      (Filter.ofJson .strict value) (Filter.ofJson .lenient value) :=
    FilterJson.restricts_filter value
  refine ⟨hmodes.ok_iff filter, hmodes.slugs_eq filter, ?_⟩
  rintro ⟨error, hlenient⟩
  cases hstrict : Filter.ofJson .strict value with
  | error refusal => exact ⟨refusal, rfl⟩
  | ok read =>
      have hread := ((hmodes.ok_iff read).mp hstrict).1
      rw [hlenient] at hread
      cases hread

/-- The number of a slug is read as its text by one mode only. -/
example : let value := Json.object [("title", .object [("slugify", .integer 7)])]
    Filter.ofJson .lenient value = .ok [.field "title" (.slug "7")] ∧
      Filter.ofJson .strict value =
        .error (.invalidDescriptor "title" (.slug (.integer 7))) :=
  ⟨rfl, rfl⟩

end FilterSql
