import FilterSql.Filter.OfJson
import FilterSql.Proofs.Filter.Parts
import FilterSql.Proofs.Json.Records

/-!
# What reading gives

Reading a JSON value gives filters of a certain make: every value in them is taken
from inside the JSON value, null is never taken for a value to compare with, and
texts that are left empty count as left out.  One look at the reader shows this
for each kind of part; an invariant of filters that were read is then a fact about
the kinds.
-/

namespace FilterSql

/-! ## Kinds of parts -/

section Kinds

variable (admits : Json → Prop)

inductive Operand.IsRead : Operand → Prop where
  | null : IsRead .null
  | column (name : String) : IsRead (.column name)
  | literal {json : Json} : admits json → json ≠ .null → IsRead (.literal (.ofJson json))

def JsonCondition.IsRead (condition : JsonCondition) : Prop :=
  ∀ payload ∈ condition.payloads, ∃ json, admits json ∧ payload = .value (.ofJson json)

def SubSelect.IsRead (select : SubSelect) : Prop :=
  select.tenant ≠ some "" ∧ select.through ≠ some "" ∧ select.valueField ≠ some ""

def JoinKey.column : JoinKey → String
  | .foreign column | .inbound column => column

def JoinChain.IsRead (chain : JoinChain) : Prop :=
  chain.schema ≠ some "" ∧ ∀ level ∈ chain.levels, level.key.column ≠ ""

/-- All kinds of parts that reading gives, with values that are taken from admitted JSON values. -/
inductive Part.IsRead : Part → Prop where
  | search (search : TextSearch) : IsRead (.clause (.search search))
  | or (alternatives : List Filter) : IsRead (.clause (.or alternatives))
  | not (negated : Filter) : IsRead (.clause (.not negated))
  | notColumn (name : String) : IsRead (.clause (.notColumn name))
  | notValue {json : Json} : admits json → json ≠ .null →
      IsRead (.clause (.notValue (.ofJson json)))
  | compare {left right : Operand} : left.IsRead admits → right.IsRead admits →
      IsRead (.clause (.compare left right))
  | field (key : String) (condition : Condition) : IsRead (.clause (.field key condition))
  | oneOf {json : Json} : admits json → IsRead (.condition (.oneOf (.ofJson json)))
  | slug (text : String) : IsRead (.condition (.slug text))
  | anyOf (alternatives : List Condition) : IsRead (.condition (.anyOf alternatives))
  | allOf (conditions : List Condition) : IsRead (.condition (.allOf conditions))
  | contains {json : Json} : admits json → IsRead (.condition (.contains (.ofJson json)))
  | range (bound : RangeBound) {json : Json} (inclusive : Bool) : admits json →
      IsRead (.condition (.range bound (.ofJson json) inclusive))
  | inSelect {select : SubSelect} (filter : Filter) : select.IsRead →
      IsRead (.condition (.inSelect select filter))
  | inChain {chain : JoinChain} (filter : Filter) : chain.IsRead →
      IsRead (.condition (.inChain chain filter))
  | json {condition : JsonCondition} : condition.IsRead admits →
      IsRead (.condition (.json condition))
  | isNull : IsRead (.condition .isNull)
  | equals {operand : Operand} : operand.IsRead admits → operand ≠ .null →
      IsRead (.condition (.equals operand))

end Kinds

variable {admits : Json → Prop}

theorem Operand.IsRead.origin {operand : Operand} (h : operand.IsRead admits) :
    ∀ payload ∈ operand.payloads, ∃ json, admits json ∧ payload = .value (.ofJson json) := by
  cases h with
  | null | column => exact nofun
  | literal hjson => exact List.forall_mem_singleton.mpr ⟨_, hjson, rfl⟩

theorem Part.IsRead.origin {part : Part} (h : part.IsRead admits) :
    ∀ payload ∈ part.payloads, (∃ text, payload = .term text) ∨
      (∃ text, payload = .value (.string text)) ∨
        ∃ json, admits json ∧ payload = .value (.ofJson json) := by
  have hvalue {json : Json} (hjson : admits json) :
      ∀ payload ∈ [Payload.value (.ofJson json)], (∃ text, payload = .term text) ∨
        (∃ text, payload = .value (.string text)) ∨
          ∃ json, admits json ∧ payload = .value (.ofJson json) :=
    List.forall_mem_singleton.mpr (.inr (.inr ⟨json, hjson, rfl⟩))
  cases h with
  | search search => exact List.forall_mem_singleton.mpr (.inl ⟨_, rfl⟩)
  | slug text => exact List.forall_mem_singleton.mpr (.inr (.inl ⟨text, rfl⟩))
  | notValue hjson => exact hvalue hjson
  | oneOf hjson => exact hvalue hjson
  | contains hjson => exact hvalue hjson
  | range _ _ hjson => exact hvalue hjson
  | compare hleft hright =>
      refine List.forall_mem_append.mpr ⟨?_, ?_⟩
      · exact fun payload hpayload => .inr (.inr (hleft.origin payload hpayload))
      · exact fun payload hpayload => .inr (.inr (hright.origin payload hpayload))
  | json hread => exact fun payload hpayload => .inr (.inr (hread payload hpayload))
  | equals hread => exact fun payload hpayload => .inr (.inr (hread.origin payload hpayload))
  | or | not | notColumn | field | anyOf | allOf | inSelect | inChain | isNull => exact nofun

namespace FilterJson

open Json

variable {strictness : Strictness} {key : String}

/-! ## Leaves -/

theorem gives_operand {json : Json} (h : admits json) :
    Gives (operand strictness json) (Operand.IsRead admits) := by
  cases json with
  | null => exact .ok .null
  | object members =>
      unfold operand
      dsimp only
      cases rawColumn? members with
      | some column => exact .ok (.column column)
      | none =>
          cases strictness with
          | strict => exact .error _ _
          | lenient => exact .ok (@Operand.IsRead.literal admits (.object members) h nofun)
  | bool | integer | float | string | array => exact .ok (.literal h nofun)

theorem nonEmpty_ne (text : Option String) : nonEmpty text ≠ some "" := by
  simp [nonEmpty, Option.filter_eq_some_iff]

theorem gives_select (descriptor : Json) : Gives (select key descriptor) SubSelect.IsRead := by
  refine .mapError (Shape.gives_decode fun result hresult => ?_)
  simp only [Reading.seq_eq_value, Reading.map_eq_value] at hresult
  obtain ⟨_, valueField, ⟨_, through, ⟨_, tenant, ⟨_, _, ⟨_, _, ⟨_, _, rfl⟩, _, rfl⟩, _, rfl⟩,
    _, rfl⟩, _, rfl⟩, _, rfl⟩ := hresult
  exact ⟨nonEmpty_ne tenant, nonEmpty_ne through, nonEmpty_ne valueField⟩

private theorem gives_levelRecord (json : Json) :
    Gives (levelRecord json) fun record => record.2.1 ≠ some "" ∧ record.2.2 ≠ some "" := by
  refine Shape.gives_decode fun result hresult => ?_
  simp only [Reading.seq_eq_value, Reading.map_eq_value] at hresult
  obtain ⟨_, inbound, ⟨_, foreign, ⟨_, _, rfl⟩, _, rfl⟩, _, rfl⟩ := hresult
  exact ⟨nonEmpty_ne foreign, nonEmpty_ne inbound⟩

private theorem gives_chainRecord (descriptor : Json) :
    Gives (chainRecord descriptor) fun parts => parts.1 ≠ some "" ∧
      ∀ record ∈ parts.2, record.2.1 ≠ some "" ∧ record.2.2 ≠ some "" := by
  refine Shape.gives_decode fun result hresult => ?_
  simp only [Reading.seq_eq_value, Reading.map_eq_value] at hresult
  obtain ⟨_, records, ⟨_, schema, ⟨_, _, rfl⟩, _, rfl⟩, hrecords, rfl⟩ := hresult
  obtain ⟨_, json, _, hjson⟩ := Shape.exists_of_required hrecords
  refine ⟨nonEmpty_ne schema, ?_⟩
  cases json with
  | array items => exact Gives.mapM (fun item _ => gives_levelRecord item) records hjson
  | null | bool | integer | float | string | object => cases hjson

theorem gives_level {record : String × Option String × Option String}
    (h : record.2.1 ≠ some "" ∧ record.2.2 ≠ some "") :
    Gives (level record) fun level => level.key.column ≠ "" := by
  obtain ⟨table, foreign, inbound⟩ := record
  cases foreign with
  | some column => exact .ok fun heq => h.1 (congrArg some heq)
  | none =>
      cases inbound with
      | some column => exact .ok fun heq => h.2 (congrArg some heq)
      | none => exact .error _ _

theorem gives_chainParts (descriptor : Json) :
    Gives (chainParts key descriptor) fun parts => parts.1 ≠ some "" ∧
      ∀ level ∈ parts.2, level.key.column ≠ "" := by
  refine (Gives.mapError (gives_chainRecord descriptor)).bind fun (schema, records) hparts => ?_
  refine (Gives.mapM fun record hrecord => gives_level (hparts.2 record hrecord)).bind
    fun levels hlevels => ?_
  exact .ok ⟨hparts.1, hlevels⟩

theorem gives_chain {schema : Option String} {levels : List JoinLevel} (hschema : schema ≠ some "")
    (hlevels : ∀ level ∈ levels, level.key.column ≠ "") :
    Gives (chain schema levels) JoinChain.IsRead := by
  cases levels with
  | nil => exact .error _ _
  | cons first rest => exact .ok ⟨hschema, hlevels⟩

theorem isRead_predicate (hadmits : IsHereditary admits) {json : Json} (h : admits json) :
    ∀ payload ∈ (predicate json).payloads,
      ∃ json, admits json ∧ payload = .value (.ofJson json) := by
  have hequals (value : Json) (hvalue : admits value) :
      ∀ payload ∈ (JsonPredicate.equals (.ofJson value)).payloads,
        ∃ json, admits json ∧ payload = .value (.ofJson json) := by
    intro payload hpayload
    exact ⟨value, hvalue, List.mem_singleton.mp hpayload⟩
  cases json with
  | object members =>
      have hmember {name : String} {value : Json} (hlookup : lookup? name members = some value) :
          admits value := hadmits.members h _ (mem_of_lookup? hlookup)
      unfold predicate
      dsimp only
      split
      · next needle hneedle =>
        rw [Option.filter_eq_some_iff] at hneedle
        intro payload hpayload
        exact ⟨needle, hmember hneedle.1, List.mem_singleton.mp hpayload⟩
      · split
        · intro payload hpayload
          simp only [JsonPredicate.payloads, List.mem_map, List.mem_append, Option.mem_toList,
            Option.map_eq_some_iff] at hpayload
          obtain ⟨_, ⟨value, hvalue, rfl⟩ | ⟨value, hvalue, rfl⟩, rfl⟩ := hpayload
          · exact ⟨value, hmember hvalue, rfl⟩
          · exact ⟨value, hmember hvalue, rfl⟩
        · exact hequals _ h
  | null | bool | integer | float | string | array => exact hequals _ h

theorem gives_jsonCondition (hadmits : IsHereditary admits) {json : Json} (h : admits json) :
    Gives (jsonCondition key json) (JsonCondition.IsRead admits) := by
  unfold jsonCondition
  split
  · next place value _ =>
    have hvalue : admits value := hadmits.items h value (by simp)
    have hpath : Gives (path key place) fun _ => True := fun _ _ => trivial
    refine hpath.bind fun place _ => .ok ?_
    intro payload hpayload
    exact ⟨value, hvalue, List.mem_singleton.mp hpayload⟩
  · next members =>
    refine .ok fun payload hpayload => ?_
    rw [JsonCondition.payloads, List.mem_flatMap] at hpayload
    obtain ⟨_, hentry, hpayload⟩ := hpayload
    obtain ⟨⟨place, value⟩, hmember, rfl⟩ := List.mem_map.mp hentry
    exact isRead_predicate hadmits (hadmits.members h _ hmember) payload hpayload
  · exact .error _ _

/-! ## Condition objects -/

theorem gives_tagged (hadmits : IsHereditary admits) {members : List (String × Json)}
    (h : admits (.object members)) {nested : Nested}
    (halternatives : ∀ outcome ∈ nested.alternatives,
      Gives outcome fun list => ∀ part ∈ Condition.partsOfAll list, part.IsRead admits)
    (hselect : Gives nested.select fun filter => ∀ part ∈ Filter.parts filter, part.IsRead admits)
    (hchain : Gives nested.chain fun filter => ∀ part ∈ Filter.parts filter, part.IsRead admits) :
    Gives (tagged strictness key members nested) fun condition =>
      ∀ part ∈ condition.parts, part.IsRead admits := by
  have hmember {name : String} {value : Json} (hlookup : lookup? name members = some value) :
      admits value := hadmits.members h _ (mem_of_lookup? hlookup)
  have halone {condition : Condition} (hpart : (Part.condition condition).IsRead admits) :
      ∀ part ∈ [Part.condition condition], part.IsRead admits :=
    List.forall_mem_singleton.mpr hpart
  unfold tagged
  cases rawColumn? members with
  | some column => exact .ok (halone (.equals (.column column) nofun))
  | none =>
  cases hin : lookup? "in" members with
  | some list => exact .ok (halone (.oneOf (hmember hin)))
  | none =>
  cases lookup? "slugify" members with
  | some value => exact .map fun text _ => halone (.slug text)
  | none =>
  cases hor : nested.alternatives with
  | some outcome =>
      exact .map fun list hlist =>
        List.forall_mem_cons.mpr ⟨.anyOf list, halternatives outcome hor list hlist⟩
  | none =>
  cases hneedle : lookup? "ilike" members with
  | some needle => exact .ok (halone (.contains (hmember hneedle)))
  | none =>
  cases hgreater : lookup? "gt" members with
  | some value => exact .ok (halone (.range _ _ (hmember hgreater)))
  | none =>
  cases hless : lookup? "lt" members with
  | some value => exact .ok (halone (.range _ _ (hmember hless)))
  | none =>
  cases lookup? "inSelect" members with
  | some descriptor =>
      refine (gives_select descriptor).bind fun select hread =>
        hselect.bind fun filter hfilter => ?_
      exact .ok (List.forall_mem_cons.mpr ⟨.inSelect filter hread, hfilter⟩)
  | none =>
  cases lookup? "inSelectWithLevels" members with
  | some descriptor =>
      refine (gives_chainParts descriptor).bind fun (schema, levels) hparts =>
        hchain.bind fun filter hfilter => ?_
      refine (gives_chain hparts.1 hparts.2).bind fun chain hread => ?_
      exact .ok (List.forall_mem_cons.mpr ⟨.inChain filter hread, hfilter⟩)
  | none =>
  cases hjson : lookup? "json" members with
  | some value =>
      exact .map ((gives_jsonCondition hadmits (hmember hjson)).mono fun condition hread =>
        halone (.json hread))
  | none =>
  cases strictness with
  | strict => exact .error _ _
  | lenient =>
      exact .ok (halone (.equals (@Operand.IsRead.literal admits (.object members) h nofun) nofun))

/-! ## Whole filters -/

variable {strictness : Strictness}

mutual

theorem gives_filter (hadmits : IsHereditary admits) {json : Json} (h : admits json) :
    Gives (filter strictness json) fun read => ∀ part ∈ Filter.parts read, part.IsRead admits := by
  cases json with
  | null => exact .ok nofun
  | object members => exact gives_clauses hadmits (hadmits.members h)
  | bool | integer | float | string | array => exact .error _ _

theorem gives_clauses (hadmits : IsHereditary admits) {members : List (String × Json)}
    (h : ∀ member ∈ members, admits member.2) :
    Gives (clauses strictness members) fun read =>
      ∀ part ∈ Filter.parts read, part.IsRead admits := by
  cases members with
  | nil => exact .ok nofun
  | cons first rest =>
      obtain ⟨key, value⟩ := first
      rw [List.forall_mem_cons] at h
      refine (gives_clause hadmits key h.1).bind fun first hfirst => ?_
      refine (gives_clauses hadmits h.2).bind fun others hothers => ?_
      exact .ok (List.forall_mem_append.mpr ⟨hfirst, hothers⟩)

theorem gives_filters (hadmits : IsHereditary admits) {items : List Json}
    (h : ∀ item ∈ items, admits item) :
    Gives (filters strictness items) fun read =>
      ∀ part ∈ Filter.partsOfAll read, part.IsRead admits := by
  cases items with
  | nil => exact .ok nofun
  | cons value rest =>
      rw [List.forall_mem_cons] at h
      refine (gives_filter hadmits h.1).bind fun first hfirst => ?_
      refine (gives_filters hadmits h.2).bind fun others hothers => ?_
      exact .ok (List.forall_mem_append.mpr ⟨hfirst, hothers⟩)

theorem gives_clause (hadmits : IsHereditary admits) (key : String) {json : Json}
    (h : admits json) :
    Gives (clause strictness key json) fun read => ∀ part ∈ read.parts, part.IsRead admits := by
  have halone {requirement : Clause} (hpart : (Part.clause requirement).IsRead admits) :
      ∀ part ∈ [Part.clause requirement], part.IsRead admits :=
    List.forall_mem_singleton.mpr hpart
  have hfield {condition : Condition} (hparts : ∀ part ∈ condition.parts, part.IsRead admits) :
      ∀ part ∈ (Clause.field key condition).parts, part.IsRead admits :=
    List.forall_mem_cons.mpr ⟨.field key condition, hparts⟩
  cases json with
  | array items =>
      unfold clause
      split
      · exact .map fun search _ => halone (.search search)
      split
      · exact .map fun alternatives halternatives => List.forall_mem_cons.mpr
          ⟨.or alternatives, gives_filters hadmits (hadmits.items h) alternatives halternatives⟩
      split
      · next left right _ _ =>
        refine (gives_operand (hadmits.items h left (by simp))).bind fun first hfirst => ?_
        refine (gives_operand (hadmits.items h right (by simp))).bind fun second hsecond => ?_
        exact .ok (halone (.compare hfirst hsecond))
      · exact .map fun list hlist => hfield (List.forall_mem_cons.mpr
          ⟨.allOf list, gives_conditions hadmits key (hadmits.items h) list hlist⟩)
  | object members =>
      unfold clause
      split
      · exact .map fun search _ => halone (.search search)
      split
      · cases rawColumn? members with
        | some column => exact .ok (halone (.notColumn column))
        | none =>
            exact .map fun negated hnegated => List.forall_mem_cons.mpr
              ⟨.not negated, gives_clauses hadmits (hadmits.members h) negated hnegated⟩
      · refine .map fun condition hcondition => hfield ?_
        exact gives_tagged hadmits h (gives_alternatives hadmits key (hadmits.members h))
          (gives_nestedFilter hadmits (hadmits.members h))
          (gives_nestedFilter hadmits (hadmits.members h)) condition hcondition
  | null =>
      unfold clause
      split
      · exact .map fun search _ => halone (.search search)
      · exact .ok (hfield (List.forall_mem_singleton.mpr .isNull))
  | bool | integer | float | string =>
      unfold clause
      split
      · exact .map fun search _ => halone (.search search)
      split
      · exact .ok (halone (.notValue h nofun))
      · exact .ok (hfield (List.forall_mem_singleton.mpr (.equals (.literal h nofun) nofun)))

theorem gives_condition (hadmits : IsHereditary admits) (key : String) {json : Json}
    (h : admits json) :
    Gives (condition strictness key json) fun read =>
      ∀ part ∈ read.parts, part.IsRead admits := by
  cases json with
  | null => exact .ok (List.forall_mem_singleton.mpr .isNull)
  | array items =>
      exact .map fun list hlist => List.forall_mem_cons.mpr
        ⟨.allOf list, gives_conditions hadmits key (hadmits.items h) list hlist⟩
  | object members =>
      exact gives_tagged hadmits h (gives_alternatives hadmits key (hadmits.members h))
        (gives_nestedFilter hadmits (hadmits.members h))
        (gives_nestedFilter hadmits (hadmits.members h))
  | bool | integer | float | string =>
      exact .ok (List.forall_mem_singleton.mpr (.equals (.literal h nofun) nofun))

theorem gives_conditions (hadmits : IsHereditary admits) (key : String) {items : List Json}
    (h : ∀ item ∈ items, admits item) :
    Gives (conditions strictness key items) fun read =>
      ∀ part ∈ Condition.partsOfAll read, part.IsRead admits := by
  cases items with
  | nil => exact .ok nofun
  | cons value rest =>
      rw [List.forall_mem_cons] at h
      refine (gives_condition hadmits key h.1).bind fun first hfirst => ?_
      refine (gives_conditions hadmits key h.2).bind fun others hothers => ?_
      exact .ok (List.forall_mem_append.mpr ⟨hfirst, hothers⟩)

theorem gives_alternatives (hadmits : IsHereditary admits) (key : String)
    {members : List (String × Json)} (h : ∀ member ∈ members, admits member.2) :
    ∀ outcome ∈ alternatives? strictness key members,
      Gives outcome fun read => ∀ part ∈ Condition.partsOfAll read, part.IsRead admits := by
  cases members with
  | nil => exact nofun
  | cons first rest =>
      obtain ⟨name, value⟩ := first
      rw [List.forall_mem_cons] at h
      unfold alternatives?
      split
      · cases value with
        | array items =>
            rintro outcome ⟨⟩
            exact gives_conditions hadmits key (hadmits.items h.1)
        | null | bool | integer | float | string | object => exact nofun
      · exact gives_alternatives hadmits key h.2

theorem gives_nestedFilter (hadmits : IsHereditary admits) {tag : String} {place : Nat}
    {members : List (String × Json)} (h : ∀ member ∈ members, admits member.2) :
    Gives (nestedFilter strictness tag place members) fun read =>
      ∀ part ∈ Filter.parts read, part.IsRead admits := by
  cases members with
  | nil => exact .ok nofun
  | cons first rest =>
      obtain ⟨name, descriptor⟩ := first
      rw [List.forall_mem_cons] at h
      unfold nestedFilter
      split
      · cases descriptor with
        | object members => exact gives_memberFilter hadmits (hadmits.members h.1)
        | array items => exact gives_itemFilter hadmits (hadmits.items h.1)
        | null | bool | integer | float | string => exact .ok nofun
      · exact gives_nestedFilter hadmits h.2

theorem gives_memberFilter (hadmits : IsHereditary admits) {members : List (String × Json)}
    (h : ∀ member ∈ members, admits member.2) :
    Gives (memberFilter strictness members) fun read =>
      ∀ part ∈ Filter.parts read, part.IsRead admits := by
  cases members with
  | nil => exact .ok nofun
  | cons first rest =>
      obtain ⟨name, value⟩ := first
      rw [List.forall_mem_cons] at h
      unfold memberFilter
      split
      · exact gives_filter hadmits h.1
      · exact gives_memberFilter hadmits h.2

theorem gives_itemFilter (hadmits : IsHereditary admits) {place : Nat} {items : List Json}
    (h : ∀ item ∈ items, admits item) :
    Gives (itemFilter strictness place items) fun read =>
      ∀ part ∈ Filter.parts read, part.IsRead admits := by
  cases items with
  | nil => exact .ok nofun
  | cons value rest =>
      obtain ⟨hvalue, hrest⟩ := List.forall_mem_cons.mp h
      cases place with
      | zero => exact gives_filter hadmits hvalue
      | succ place =>
          change Gives (itemFilter strictness place rest) _
          exact gives_itemFilter hadmits hrest

end

end FilterJson

/-- Every part of a filter that was read is of one of the kinds that reading gives. -/
theorem isRead_of_ofJson {admits : Json → Prop} (hadmits : Json.IsHereditary admits)
    {strictness : Strictness} {value : Json} {filter : Filter} (hvalue : admits value)
    (h : Filter.ofJson strictness value = .ok filter) :
    ∀ part ∈ Filter.parts filter, part.IsRead admits :=
  FilterJson.gives_filter hadmits hvalue filter h

end FilterSql
