import FilterSql.Proofs.Filter.Nulls

/-!
# Tags

An object may carry several of the tags that condition objects are known by.  Only
the first of them counts, with what stands under it: two objects that agree there
are read alike, whatever else they hold.  The reserved names of clauses count for
values of certain shapes only, and are the keys of ordinary fields otherwise.
-/

namespace FilterSql.FilterJson

open Json

/-! ## Condition objects -/

inductive Tagged where
  | column (name : String)
  | oneOf (list : Json)
  | slug (text : Json)
  | anyOf (alternatives : List Json)
  | contains (needle : Json)
  | above (bound : Json)
  | below (bound : Json)
  | inSelect (descriptor : Json)
  | inChain (descriptor : Json)
  | json (asked : Json)

namespace Tagged

/-- A `$raw` counts where it is all there is, and a text. -/
def column? (members : List (String × Json)) : Option String :=
  match members.length, lookup? "$raw" members with
  | 1, some (.string name) => some name
  | _, _ => none

/-- An `or` counts where it holds an array. -/
def alternatives? (members : List (String × Json)) : Option (List Json) :=
  match lookup? "or" members with
  | some (.array items) => some items
  | _ => none

/-- All tags, the one that goes before all others first. -/
def inOrder (members : List (String × Json)) : List (Option Tagged) :=
  [(column? members).map column,
    (lookup? "in" members).map oneOf,
    (lookup? "slugify" members).map slug,
    (alternatives? members).map anyOf,
    (lookup? "ilike" members).map contains,
    (lookup? "gt" members).map above,
    (lookup? "lt" members).map below,
    (lookup? "inSelect" members).map inSelect,
    (lookup? "inSelectWithLevels" members).map inChain,
    (lookup? "json" members).map json]

def winner? (members : List (String × Json)) : Option Tagged :=
  (inOrder members).findSome? id

def IsRange : Tagged → Prop
  | above _ | below _ => True
  | _ => False

def Asks : Tagged → Condition → Prop
  | column _, .equals (.column _) => True
  | oneOf _, .oneOf _ => True
  | slug _, .slug _ => True
  | anyOf _, .anyOf _ => True
  | contains _, .contains _ => True
  | above _, .range .above _ _ => True
  | below _, .range .below _ _ => True
  | inSelect _, .inSelect _ _ => True
  | inChain _, .inChain _ _ => True
  | json _, .json _ => True
  | _, _ => False

end Tagged

def isInclusive (members : List (String × Json)) : Bool :=
  ((lookup? "equal" members).map isTruthy).getD false

variable {strictness : Strictness} {key : String} {members : List (String × Json)}

theorem rawColumn?_eq (members : List (String × Json)) :
    rawColumn? members = Tagged.column? members := by
  match members with
  | [] => rfl
  | [(name, value)] =>
      by_cases hname : name = "$raw"
      · subst hname
        cases value <;> simp [Tagged.column?, rawColumn?]
      · cases value <;> simp [Tagged.column?, rawColumn?, hname]
  | _ :: _ :: _ => simp [Tagged.column?, rawColumn?]

theorem alternatives?_eq_map (members : List (String × Json)) :
    alternatives? strictness key members =
      (Tagged.alternatives? members).map (conditions strictness key) := by
  rw [alternatives?_eq, Tagged.alternatives?]
  cases lookup? "or" members with
  | none => rfl
  | some value => cases value <;> rfl

theorem nestedFilter_of_lookup? {tag : String} {place : Nat} {descriptor : Json}
    (h : lookup? tag members = some descriptor) :
    nestedFilter strictness tag place members =
      nestedFilter strictness tag place [(tag, descriptor)] := by
  induction members with
  | nil => cases h
  | cons first rest ih =>
      obtain ⟨name, value⟩ := first
      rw [lookup?_cons] at h
      by_cases hname : name = tag
      · rw [if_pos hname] at h
        cases h
        rw [hname, nestedFilter.eq_def, nestedFilter.eq_def]
        simp
      · rw [if_neg hname] at h
        rw [← ih h, nestedFilter.eq_def]
        simp [hname]

def Tagged.read (strictness : Strictness) (key : String) (inclusive : Bool) :
    Tagged → Except ParseError Condition
  | column name => .ok (.equals (.column name))
  | oneOf list => .ok (.oneOf (.ofJson list))
  | slug text => (FilterJson.slug strictness key text).map .slug
  | anyOf alternatives => (conditions strictness key alternatives).map .anyOf
  | contains needle => .ok (.contains (.ofJson needle))
  | above bound => .ok (.range .above (.ofJson bound) inclusive)
  | below bound => .ok (.range .below (.ofJson bound) inclusive)
  | inSelect descriptor => do
    let select ← select key descriptor
    let filter ← nestedFilter strictness "inSelect" 2 [("inSelect", descriptor)]
    .ok (.inSelect select filter)
  | inChain descriptor => do
    let (schema, levels) ← chainParts key descriptor
    let filter ← nestedFilter strictness "inSelectWithLevels" 0 [("inSelectWithLevels", descriptor)]
    let chain ← chain schema levels
    .ok (.inChain chain filter)
  | json asked => (jsonCondition key asked).map .json

theorem condition_of_winner? {winner : Tagged} (h : Tagged.winner? members = some winner) :
    condition strictness key (.object members) =
      winner.read strictness key (isInclusive members) := by
  simp only [Tagged.winner?, Tagged.inOrder, List.findSome?_cons, id] at h
  rw [condition, tagged.eq_def]
  dsimp only
  rw [rawColumn?_eq, alternatives?_eq_map]
  -- One tag after the other, in the order in which they are looked for.
  cases hcolumn : Tagged.column? members with
  | some column =>
      rw [hcolumn] at h
      cases h
      rfl
  | none =>
  rw [hcolumn] at h
  cases hin : lookup? "in" members with
  | some list =>
      rw [hin] at h
      cases h
      rfl
  | none =>
  rw [hin] at h
  cases hslug : lookup? "slugify" members with
  | some text =>
      rw [hslug] at h
      cases h
      rfl
  | none =>
  rw [hslug] at h
  cases hor : Tagged.alternatives? members with
  | some items =>
      rw [hor] at h
      cases h
      rfl
  | none =>
  rw [hor] at h
  cases hneedle : lookup? "ilike" members with
  | some needle =>
      rw [hneedle] at h
      cases h
      rfl
  | none =>
  rw [hneedle] at h
  cases habove : lookup? "gt" members with
  | some bound =>
      rw [habove] at h
      cases h
      rfl
  | none =>
  rw [habove] at h
  cases hbelow : lookup? "lt" members with
  | some bound =>
      rw [hbelow] at h
      cases h
      rfl
  | none =>
  rw [hbelow] at h
  cases hselect : lookup? "inSelect" members with
  | some descriptor =>
      rw [hselect] at h
      cases h
      dsimp only
      rw [nestedFilter_of_lookup? hselect]
      rfl
  | none =>
  rw [hselect] at h
  cases hchain : lookup? "inSelectWithLevels" members with
  | some descriptor =>
      rw [hchain] at h
      cases h
      dsimp only
      rw [nestedFilter_of_lookup? hchain]
      rfl
  | none =>
  rw [hchain] at h
  cases hjson : lookup? "json" members with
  | some asked =>
      rw [hjson] at h
      cases h
      rfl
  | none =>
      rw [hjson] at h
      cases h

theorem gives_read (winner : Tagged) (inclusive : Bool) :
    Gives (winner.read strictness key inclusive) winner.Asks := by
  have hany {α : Type} (outcome : Except ParseError α) : Gives outcome fun _ => True :=
    fun _ _ => trivial
  cases winner with
  | column | oneOf | contains | above | below => exact .ok trivial
  | slug | anyOf | json => exact .map (hany _)
  | inSelect descriptor => exact (hany _).bind fun _ _ => (hany _).bind fun _ _ => .ok trivial
  | inChain descriptor =>
      exact (hany _).bind fun _ _ => (hany _).bind fun _ _ => (hany _).bind fun _ _ => .ok trivial

/-! ## Members in another order -/

theorem lookup?_perm {others : List (String × Json)} (hperm : members.Perm others)
    (hnames : (members.map Prod.fst).Nodup) (name : String) :
    lookup? name members = lookup? name others := by
  induction hperm with
  | nil => rfl
  | cons first _ ih =>
      rw [List.map_cons, List.nodup_cons] at hnames
      rw [lookup?_cons, lookup?_cons, ih hnames.2]
  | swap first second rest =>
      obtain ⟨name₁, value₁⟩ := first
      obtain ⟨name₂, value₂⟩ := second
      have hne : name₂ ≠ name₁ := by
        simp only [List.map_cons, List.nodup_cons, List.mem_cons, not_or] at hnames
        exact hnames.1.1
      simp only [lookup?_cons]
      by_cases hname : name₁ = name
      · have hother : name₂ ≠ name := fun heq => hne (heq.trans hname.symm)
        rw [if_neg hother, if_pos hname, if_pos hname]
      · rw [if_neg hname, if_neg hname]
  | trans hfirst _ ihfirst ihsecond =>
      exact (ihfirst hnames).trans (ihsecond ((hfirst.map Prod.fst).nodup_iff.mp hnames))

theorem winner?_perm {others : List (String × Json)} (hperm : members.Perm others)
    (hnames : (members.map Prod.fst).Nodup) :
    Tagged.winner? members = Tagged.winner? others := by
  simp only [Tagged.winner?, Tagged.inOrder, Tagged.column?, Tagged.alternatives?,
    lookup?_perm hperm hnames, hperm.length_eq]

/-! ## Clauses -/

def IsNegatable : Json → Prop
  | .object members => ¬ hasMember "in" members ∧ ¬ hasMember "slugify" members
  | .bool _ | .integer _ | .float _ | .string _ => True
  | .null | .array _ => False

/-- The key is a reserved name, and the value of the shape that it counts for. -/
def IsReserved (key : String) (value : Json) : Prop :=
  key = "_fts" ∨ (key = "or" ∧ ∃ items, value = .array items) ∨
    (key = "not" ∧ IsNegatable value) ∨ (key = "eq" ∧ ∃ left right, value = .array [left, right])

/-- What a member of a filter object is read as, a rule for each reserved name and one for fields. -/
inductive Reads (strictness : Strictness) : String → Json → Except ParseError Clause → Prop where
  | search (value : Json) : Reads strictness "_fts" value ((search "_fts" value).map .search)
  | or (items : List Json) :
      Reads strictness "or" (.array items) ((items.mapM (filter strictness)).map .or)
  | notColumn {members : List (String × Json)} {name : String} : IsNegatable (.object members) →
      Tagged.column? members = some name →
      Reads strictness "not" (.object members) (.ok (.notColumn name))
  | not {members : List (String × Json)} : IsNegatable (.object members) →
      Tagged.column? members = none →
      Reads strictness "not" (.object members) ((filter strictness (.object members)).map .not)
  | notValue {value : Json} : IsNegatable value → (∀ members, value ≠ .object members) →
      Reads strictness "not" value (.ok (.notValue (.ofJson value)))
  | compare (left right : Json) :
      Reads strictness "eq" (.array [left, right]) (do
        let left ← operand strictness left
        let right ← operand strictness right
        .ok (.compare left right))
  | field {key : String} {value : Json} : ¬ IsReserved key value →
      Reads strictness key value ((condition strictness key value).map (.field key))

theorem filters_eq_mapM (items : List Json) :
    filters strictness items = items.mapM (filter strictness) := by
  induction items with
  | nil => rfl
  | cons first rest ih =>
      rw [List.mapM_cons, filters, ih]
      rfl

theorem not_isReserved {value : Json} (hsearch : key ≠ "_fts")
    (hor : key = "or" → ∀ items, value ≠ .array items)
    (hnot : key = "not" → ¬ IsNegatable value)
    (hcompare : key = "eq" → ∀ left right, value ≠ .array [left, right]) :
    ¬ IsReserved key value := by
  rintro (hkey | ⟨hkey, items, heq⟩ | ⟨hkey, hvalue⟩ | ⟨hkey, left, right, heq⟩)
  · exact hsearch hkey
  · exact hor hkey items heq
  · exact hnot hkey hvalue
  · exact hcompare hkey left right heq

theorem not_isReserved_of_not_array {value : Json} (hsearch : key ≠ "_fts")
    (harray : ∀ items, value ≠ .array items) (hnot : key = "not" → ¬ IsNegatable value) :
    ¬ IsReserved key value :=
  not_isReserved hsearch (fun _ => harray) hnot fun _ left right => harray [left, right]

theorem reads_clause_array (hsearch : key ≠ "_fts") (items : List Json) :
    Reads strictness key (.array items) (clause strictness key (.array items)) := by
  rw [clause.eq_def]
  dsimp only
  rw [if_neg hsearch]
  split
  · next hor =>
      subst hor
      rw [filters_eq_mapM]
      exact .or items
  · next hor =>
      split
      · next left right => exact .compare left right
      · next hcompare =>
          have hread : (conditions strictness key items).map
                (fun list => Clause.field key (.allOf list)) =
              (condition strictness key (.array items)).map (Clause.field key) := by
            rw [condition]
            cases conditions strictness key items <;> rfl
          rw [hread]
          refine .field (not_isReserved hsearch (fun hkey => absurd hkey hor) (fun _ => id) ?_)
          rintro hkey left right ⟨⟩
          exact hcompare left right hkey rfl

theorem reads_clause (key : String) (value : Json) :
    Reads strictness key value (clause strictness key value) := by
  by_cases hsearch : key = "_fts"
  · subst hsearch
    have hclause : clause strictness "_fts" value = (search "_fts" value).map .search := by
      cases value <;> simp [clause]
    rw [hclause]
    exact .search value
  · cases value with
    | array items => exact reads_clause_array hsearch items
    | object members =>
        rw [clause, if_neg hsearch]
        split
        · next hnot =>
            obtain ⟨rfl, htags⟩ := hnot
            rw [rawColumn?_eq]
            cases hcolumn : Tagged.column? members with
            | some name => exact .notColumn (not_or.mp htags) hcolumn
            | none => exact .not (not_or.mp htags) hcolumn
        · next hnot =>
            refine .field (not_isReserved_of_not_array hsearch ?_ fun hkey htags => ?_)
            · rintro items ⟨⟩
            · exact hnot ⟨hkey, not_or.mpr htags⟩
    | null =>
        rw [clause, if_neg hsearch]
        refine .field (not_isReserved_of_not_array hsearch ?_ fun _ => id)
        rintro items ⟨⟩
    | bool | integer | float | string =>
        rw [clause.eq_def]
        dsimp only
        rw [if_neg hsearch]
        split
        · next hnot =>
            subst hnot
            refine .notValue trivial ?_
            rintro members ⟨⟩
        · next hnot =>
            refine .field (not_isReserved_of_not_array hsearch ?_ fun hkey => absurd hkey hnot)
            rintro items ⟨⟩

/-! ## Precedence -/

/-- Two condition objects that agree in the tag that decides, in what stands under it and, where it
is a range, in whether the bound is taken in, are read alike, as a condition of the tag's kind;
the order of members does not matter to the tag.  Members of filter objects are read by the
reserved name where the value is of the shape that it counts for, and as fields otherwise. -/
theorem reads_by_first_tag (strictness : Strictness) (key : String) :
    (∀ {members others : List (String × Json)} {winner : Tagged},
      Tagged.winner? members = some winner → Tagged.winner? others = some winner →
      (winner.IsRange → isInclusive members = isInclusive others) →
        condition strictness key (.object members) = condition strictness key (.object others) ∧
          Gives (condition strictness key (.object members)) winner.Asks) ∧
    (∀ {members others : List (String × Json)}, members.Perm others →
      (members.map Prod.fst).Nodup → Tagged.winner? members = Tagged.winner? others) ∧
    ∀ value : Json, Reads strictness key value (clause strictness key value) := by
  refine ⟨fun {members others winner} hmembers hothers hinclusive => ?_, winner?_perm,
    reads_clause key⟩
  have hread : winner.read strictness key (isInclusive members) =
      winner.read strictness key (isInclusive others) := by
    cases winner with
    | above | below => rw [hinclusive trivial]
    | column | oneOf | slug | anyOf | contains | inSelect | inChain | json => rfl
  rw [condition_of_winner? hmembers, condition_of_winner? hothers]
  exact ⟨hread, gives_read winner _⟩

theorem reads_by_first_tag_range :
    let members := [("lt", Json.integer 5), ("or", .string "x"), ("gt", .integer 1)]
    let others := [("gt", Json.integer 1), ("equal", .integer 0), ("json", .null)]
    condition .strict "n" (.object members) = condition .strict "n" (.object others) ∧
      Gives (condition .strict "n" (.object members)) (Tagged.above (.integer 1)).Asks ∧
      Reads .strict "not" (.object [("in", .array [])])
        (clause .strict "not" (.object [("in", .array [])])) := by
  intro members others
  obtain ⟨hsame, -, -⟩ := reads_by_first_tag .strict "n"
  obtain ⟨hread, hasks⟩ := @hsame members others (.above (.integer 1)) rfl rfl fun _ => rfl
  exact ⟨hread, hasks, (reads_by_first_tag .strict "not").2.2 _⟩

end FilterSql.FilterJson
