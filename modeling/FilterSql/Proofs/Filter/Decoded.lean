import FilterSql.Proofs.Filter.Stored
import FilterSql.Proofs.Instant.Reading

/-!
# Filters from their stored form

Whatever JSON value a filter is read from, the chains in it come from descriptors that
list a level at least: an empty list of levels is refused, at any depth.  With the
values that can be stored, this is all there is to tell of the stored form, which a
filter survives as it is.
-/

namespace FilterSql

/-! ## Chains -/

/-- The chain is what the descriptor says, which lists at least one level. -/
def JoinChain.IsFrom (chain : JoinChain) (descriptor : Json) : Prop :=
  ∃ place items, Wire.chainShape.locate? descriptor "join_levels" = some (place, .array items) ∧
    items ≠ [] ∧ items.mapM Wire.decodeLevel? = some chain.levels

def Part.IsStored (admits : Json → Prop) : Part → Prop
  | .condition (.inChain chain _) => ∃ descriptor, admits descriptor ∧ chain.IsFrom descriptor
  | _ => True

namespace Wire

open Json

variable {admits : Json → Prop}

theorem list_any_eq_ok_iff {json : Json} {items : List Json} :
    Decoder.any.list json = .ok items ↔ json = .array items := by
  cases json with
  | array found =>
      rw [list_any_eq_ok]
      simp
  | null | bool | integer | float | string | object => simp [Decoder.list]

theorem yields_chain (descriptor : Json) :
    Yields (decodeChain? descriptor) fun chain => chain.IsFrom descriptor := by
  unfold decodeChain?
  refine (Yields.toOption (Shape.gives_decode fun record hrecord => ?_)).bind
    fun record (hrecord : ∃ place,
      chainShape.locate? descriptor "join_levels" = some (place, .array record.2)) => ?_
  · simp only [Reading.seq_eq_value, Reading.map_eq_value] at hrecord
    obtain ⟨_, items, ⟨_, schema, ⟨_, _, rfl⟩, _, rfl⟩, hitems, rfl⟩ := hrecord
    obtain ⟨place, json, hplace, hjson⟩ := Shape.exists_of_required hitems
    rw [list_any_eq_ok_iff.mp hjson] at hplace
    exact ⟨place, hplace⟩
  · obtain ⟨schema, items⟩ := record
    obtain ⟨place, hplace⟩ := hrecord
    refine (Yields.self _).bind fun levels hlevels => ?_
    intro chain hchain
    cases levels with
    | nil => cases hchain
    | cons first rest =>
        cases hchain
        refine ⟨place, items, hplace, ?_, hlevels⟩
        rintro rfl
        cases hlevels

mutual

theorem yields_filter (hadmits : IsHereditary admits) {json : Json} (h : admits json) :
    Yields (decodeFilter? json) fun read => ∀ part ∈ Filter.parts read, part.IsStored admits := by
  unfold decodeFilter?
  split
  · exact yields_memberClauses hadmits (hadmits.members h)
  · exact yields_clauses hadmits (hadmits.items (hadmits.items h _ List.mem_cons_self))
  · exact .none _
termination_by sizeOf json

theorem yields_memberClauses (hadmits : IsHereditary admits) {members : List (String × Json)}
    (h : ∀ member ∈ members, admits member.2) :
    Yields (memberClauses? members) fun read =>
      ∀ part ∈ Filter.parts read, part.IsStored admits := by
  match members, h with
  | [], _ => exact .none _
  | (name, value) :: rest, h =>
      rw [List.forall_mem_cons] at h
      unfold memberClauses?
      split
      · split
        · exact yields_clauses hadmits (hadmits.items h.1)
        · exact .none _
      · exact yields_memberClauses hadmits h.2
termination_by sizeOf members

theorem yields_clauses (hadmits : IsHereditary admits) {items : List Json}
    (h : ∀ item ∈ items, admits item) :
    Yields (decodeClauses? items) fun read => ∀ part ∈ Filter.parts read, part.IsStored admits := by
  cases items with
  | nil => exact .some nofun
  | cons item rest =>
      rw [List.forall_mem_cons] at h
      refine (yields_clause hadmits h.1).bind fun first hfirst => ?_
      refine (yields_clauses hadmits h.2).bind fun others hothers => ?_
      exact .some (List.forall_mem_append.mpr ⟨hfirst, hothers⟩)
termination_by sizeOf items

theorem yields_filters (hadmits : IsHereditary admits) {items : List Json}
    (h : ∀ item ∈ items, admits item) :
    Yields (decodeFilters? items) fun read =>
      ∀ part ∈ Filter.partsOfAll read, part.IsStored admits := by
  cases items with
  | nil => exact .some nofun
  | cons item rest =>
      rw [List.forall_mem_cons] at h
      refine (yields_filter hadmits h.1).bind fun first hfirst => ?_
      refine (yields_filters hadmits h.2).bind fun others hothers => ?_
      exact .some (List.forall_mem_append.mpr ⟨hfirst, hothers⟩)
termination_by sizeOf items

theorem yields_clause (hadmits : IsHereditary admits) {json : Json} (h : admits json) :
    Yields (decodeClause? json) fun read => ∀ part ∈ read.parts, part.IsStored admits := by
  have halone (requirement : Clause) : ∀ part ∈ [Part.clause requirement], part.IsStored admits :=
    List.forall_mem_singleton.mpr trivial
  unfold decodeClause?
  split
  · next tag content =>
    have hcontent : admits content := hadmits.members h _ List.mem_cons_self
    split
    · exact .map fun search _ => halone (.search search)
    · split
      · exact .map fun alternatives halternatives => List.forall_mem_cons.mpr
          ⟨trivial, yields_filters hadmits (hadmits.items hcontent) alternatives halternatives⟩
      · exact .none _
    · split
      · next filter =>
        have hfilter : admits filter := hadmits.members hcontent _ List.mem_cons_self
        exact .map fun negated hnegated => List.forall_mem_cons.mpr
          ⟨trivial, yields_filter hadmits hfilter negated hnegated⟩
      · next name => exact .some (halone (.notColumn name))
      · exact .map fun value _ => halone (.notValue value)
      · exact .none _
    · split
      · refine (Yields.trivial _).bind fun left _ => (Yields.trivial _).bind fun right _ => ?_
        exact .some (halone (.compare left right))
      · exact .none _
    · split
      · refine (Yields.trivial _).bind fun key _ => ?_
        refine (yields_memberCondition hadmits (hadmits.members hcontent)).bind
          fun condition hcondition => ?_
        exact .some (List.forall_mem_cons.mpr ⟨trivial, hcondition⟩)
      · exact .none _
    · exact .none _
  · exact .none _
termination_by sizeOf json

theorem yields_memberCondition (hadmits : IsHereditary admits) {members : List (String × Json)}
    (h : ∀ member ∈ members, admits member.2) :
    Yields (memberCondition? members) fun read => ∀ part ∈ read.parts, part.IsStored admits := by
  match members, h with
  | [], _ => exact .none _
  | (name, value) :: rest, h =>
      rw [List.forall_mem_cons] at h
      unfold memberCondition?
      split
      · exact yields_condition hadmits h.1
      · exact yields_memberCondition hadmits h.2
termination_by sizeOf members

theorem yields_condition (hadmits : IsHereditary admits) {json : Json} (h : admits json) :
    Yields (decodeCondition? json) fun read => ∀ part ∈ read.parts, part.IsStored admits := by
  unfold decodeCondition?
  split
  · split
    · exact .some (List.forall_mem_singleton.mpr trivial)
    · exact .none _
  · next tag content =>
    have hcontent : admits content := hadmits.members h _ List.mem_cons_self
    split
    · exact .map fun members _ => List.forall_mem_singleton.mpr trivial
    · exact .map fun text _ => List.forall_mem_singleton.mpr trivial
    · split
      · exact .map fun alternatives halternatives => List.forall_mem_cons.mpr
          ⟨trivial, yields_conditions hadmits (hadmits.items hcontent) alternatives halternatives⟩
      · exact .none _
    · split
      · exact .map fun conditions hconditions => List.forall_mem_cons.mpr
          ⟨trivial, yields_conditions hadmits (hadmits.items hcontent) conditions hconditions⟩
      · exact .none _
    · exact .map fun needle _ => List.forall_mem_singleton.mpr trivial
    · split
      · refine (Yields.trivial _).bind fun bound _ => (Yields.trivial _).bind fun value _ =>
          (Yields.trivial _).bind fun inclusive _ => ?_
        exact .some (List.forall_mem_singleton.mpr trivial)
      · exact .none _
    · refine (Yields.trivial _).bind fun select _ => ?_
      split
      · refine (yields_memberFilter hadmits (hadmits.members hcontent)).bind
          fun filter hfilter => ?_
        exact .some (List.forall_mem_cons.mpr ⟨trivial, hfilter⟩)
      · refine (yields_itemFilter hadmits (hadmits.items hcontent)).bind
          fun filter hfilter => ?_
        exact .some (List.forall_mem_cons.mpr ⟨trivial, hfilter⟩)
      · exact .none _
    · refine (yields_chain content).bind fun chain hchain => ?_
      have hpart : ∃ descriptor, admits descriptor ∧ chain.IsFrom descriptor :=
        ⟨content, hcontent, hchain⟩
      split
      · refine (yields_memberFilter hadmits (hadmits.members hcontent)).bind
          fun filter hfilter => ?_
        exact .some (List.forall_mem_cons.mpr ⟨hpart, hfilter⟩)
      · refine (yields_itemFilter hadmits (hadmits.items hcontent)).bind
          fun filter hfilter => ?_
        exact .some (List.forall_mem_cons.mpr ⟨hpart, hfilter⟩)
      · exact .none _
    · exact .map fun condition _ => List.forall_mem_singleton.mpr trivial
    · split
      · exact .some (List.forall_mem_singleton.mpr trivial)
      · exact .none _
    · exact .map fun operand _ => List.forall_mem_singleton.mpr trivial
    · exact .none _
  · exact .none _
termination_by sizeOf json

theorem yields_conditions (hadmits : IsHereditary admits) {items : List Json}
    (h : ∀ item ∈ items, admits item) :
    Yields (decodeConditions? items) fun read =>
      ∀ part ∈ Condition.partsOfAll read, part.IsStored admits := by
  cases items with
  | nil => exact .some nofun
  | cons item rest =>
      rw [List.forall_mem_cons] at h
      refine (yields_condition hadmits h.1).bind fun first hfirst => ?_
      refine (yields_conditions hadmits h.2).bind fun others hothers => ?_
      exact .some (List.forall_mem_append.mpr ⟨hfirst, hothers⟩)
termination_by sizeOf items

theorem yields_memberFilter (hadmits : IsHereditary admits) {members : List (String × Json)}
    (h : ∀ member ∈ members, admits member.2) :
    Yields (memberFilter? members) fun read =>
      ∀ part ∈ Filter.parts read, part.IsStored admits := by
  match members, h with
  | [], _ => exact .none _
  | (name, value) :: rest, h =>
      rw [List.forall_mem_cons] at h
      unfold memberFilter?
      split
      · exact yields_filter hadmits h.1
      · exact yields_memberFilter hadmits h.2
termination_by sizeOf members

theorem yields_itemFilter (hadmits : IsHereditary admits) {place : Nat} {items : List Json}
    (h : ∀ item ∈ items, admits item) :
    Yields (itemFilter? place items) fun read =>
      ∀ part ∈ Filter.parts read, part.IsStored admits := by
  cases items with
  | nil => exact .none _
  | cons item rest =>
      obtain ⟨hitem, hrest⟩ := List.forall_mem_cons.mp h
      cases place with
      | zero => exact yields_filter hadmits hitem
      | succ place =>
          change Yields (itemFilter? place rest) _
          exact yields_itemFilter hadmits hrest
termination_by sizeOf items

end

end Wire

namespace Filter

/-- A filter of storable values is read back from its stored form, and all dates that there are can
be stored.  Whatever else is read as a filter, each chain in it comes from a descriptor inside that
lists a level at least. -/
theorem decode?_encode :
    (∀ filter : Filter, AreStorable (payloads filter) → decode? filter.encode = some filter) ∧
      (∀ (json : Json) (filter : Filter), decode? json = some filter →
        ∀ part ∈ parts filter, part.IsStored json.IsWithin) ∧
      ∀ instant : Instant, instant.IsValid → (Value.date instant).IsStorable := by
  refine ⟨?_, ?_, ?_⟩
  · intro filter h
    rw [decode?, encode, Wire.decodeFilter?_encodeClauses]
    exact Wire.decodeClauses?_encodeFilter h
  · intro json filter h
    exact Wire.yields_filter json.isHereditary_isWithin .self filter h
  · intro instant h
    exact .date (Instant.ofText?_text h)

/-- A bound that is null beside one that is absent, a double, a date with a fraction of a second and
a chain, all in one filter. -/
theorem decode?_encode_released :
    let filter : Filter :=
      [.field "released" (.range .above (.date ⟨1435708799, 500000000⟩) true),
        .field "data" (.json (.each [("price", .between none (some .null))])),
        .not [.notValue (.float ⟨0x3FF8000000000000⟩)],
        .field "author" (.inChain ⟨none, ⟨"books", .foreign "author"⟩, []⟩ [])]
    decode? filter.encode = some filter ∧
      ∀ part ∈ parts filter, part.IsStored filter.encode.IsWithin := by
  intro filter
  obtain ⟨hround, hchains, hdates⟩ := decode?_encode
  have hstorable : AreStorable (payloads filter) := by
    have hdate : (Value.date ⟨1435708799, 500000000⟩).IsStorable :=
      hdates _ ⟨.inl (by decide), by decide, by decide⟩
    have hfloat : (Value.float ⟨0x3FF8000000000000⟩).IsStorable := .float (by decide)
    have hpayloads : payloads filter =
        [.value (.date ⟨1435708799, 500000000⟩), .value .null,
          .value (.float ⟨0x3FF8000000000000⟩)] := rfl
    rw [hpayloads, AreStorable.value_cons, AreStorable.value_cons, AreStorable.value_cons]
    exact ⟨hdate, .null, hfloat, .nil⟩
  exact ⟨hround filter hstorable, hchains filter.encode filter (hround filter hstorable)⟩

end Filter

end FilterSql
