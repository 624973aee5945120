import FilterSql.Proofs.Json.Tokens

/-!
# Written values read back

A value that is written as compact JSON text is read again with its structure, its names and its
strings, and with each number as the text of that number is read.  For this the reader needs enough
room for what is inside one another, and no name may occur twice in an object.
-/

namespace FilterSql.Json

/-! ## From tokens to a value -/

/-- At most so many arrays and objects inside one another, and no name twice in an object. -/
inductive IsReadable : Nat → Json → Prop where
  | scalar {levels : Nat} {json : Json} : json.IsScalar → IsReadable levels json
  | string {levels : Nat} (text : String) : IsReadable levels (.string text)
  | array {levels : Nat} {items : List Json} : (∀ item ∈ items, IsReadable levels item) →
      IsReadable (levels + 1) (.array items)
  | object {levels : Nat} {members : List (String × Json)} : (members.map Prod.fst).Nodup →
      (∀ member ∈ members, IsReadable levels member.2) → IsReadable (levels + 1) (.object members)

variable {limit depth : Nat} {frames : List Frame}

/-- Behind so many open arrays and objects the tokens of the value are read as the value. -/
def IsGathered (limit depth : Nat) (json : Json) : Prop :=
  ∀ frames : List Frame, frames.length = depth →
    json.tokens.foldlM (Stage.step limit) (.beforeValue frames) = some (.afterValue frames json)

theorem IsScalar.isGathered {json : Json} (h : json.IsScalar) : IsGathered limit depth json :=
  fun frames _ => by rw [h.tokens_eq]; rfl

theorem exists_tokens_eq_cons (json : Json) :
    ∃ first rest, json.tokens = first :: rest ∧ first ≠ .endArray := by
  cases json with
  | null | bool | integer | float | string | array | object => exact ⟨_, _, rfl, nofun⟩

/-- The first item of an array is read as any later one. -/
theorem foldlM_openedArray (item : Json) (items : List Json) (more : List Token) :
    (itemTokens (item :: items) ++ more).foldlM (Stage.step limit) (.openedArray frames) =
      (itemTokens (item :: items) ++ more).foldlM (Stage.step limit)
        (.beforeValue (.array [] :: frames)) := by
  obtain ⟨first, rest, htokens, hfirst⟩ := item.exists_tokens_eq_cons
  have hhead : ∃ others, itemTokens (item :: items) = first :: others := by
    cases items with
    | nil => exact ⟨rest, htokens⟩
    | cons => exact ⟨_, by rw [itemTokens_cons item (List.cons_ne_nil _ _), htokens]; rfl⟩
  obtain ⟨others, hothers⟩ := hhead
  have hstep : Stage.step limit (.openedArray frames) first =
      Stage.step limit (.beforeValue (.array [] :: frames)) first := by
    cases first with
    | endArray => exact absurd rfl hfirst
    | beginArray | beginObject | endObject | comma | colon | string | scalar => rfl
  rw [hothers, List.cons_append, List.foldlM_cons, List.foldlM_cons, hstep]

theorem foldlM_openedObject (member : String × Json) (members : List (String × Json))
    (more : List Token) :
    (memberTokens (member :: members) ++ more).foldlM (Stage.step limit) (.openedObject frames) =
      (memberTokens (member :: members) ++ more).foldlM (Stage.step limit)
        (.beforeName frames []) := by
  cases members <;> rfl

theorem foldlM_itemTokens (frames : List Frame) {item : Json} {items : List Json}
    (h : ∀ part ∈ item :: items, IsGathered limit (frames.length + 1) part) (before : List Json) :
    (itemTokens (item :: items) ++ [Token.endArray]).foldlM (Stage.step limit)
        (.beforeValue (.array before :: frames)) =
      some (.afterValue frames (.array (before.reverse ++ item :: items))) := by
  have hitem := h item List.mem_cons_self (.array before :: frames) rfl
  induction items generalizing item before with
  | nil =>
      rw [itemTokens, List.foldlM_append, hitem]
      simp [Stage.step]
  | cons next items ih =>
      have hnext := List.forall_mem_cons.mp h |>.2
      have htail := ih hnext (item :: before) (hnext next List.mem_cons_self _ rfl)
      rw [itemTokens_cons item (List.cons_ne_nil _ _), List.append_assoc, List.foldlM_append, hitem,
        List.cons_append, Option.bind_eq_bind, Option.bind_some, List.foldlM_cons]
      simpa [Stage.step] using htail

theorem foldlM_memberTokens (frames : List Frame) {member : String × Json}
    {members : List (String × Json)}
    (h : ∀ part ∈ member :: members, IsGathered limit (frames.length + 1) part.2)
    (before : List (String × Json)) :
    (memberTokens (member :: members) ++ [Token.endObject]).foldlM (Stage.step limit)
        (.beforeName frames before) =
      some (.afterValue frames (Stage.closeObject ((member :: members).reverse ++ before))) := by
  obtain ⟨name, value⟩ := member
  have hvalue := h (name, value) List.mem_cons_self (.member before name :: frames) rfl
  induction members generalizing name value before with
  | nil =>
      simp [memberTokens, Stage.step, hvalue]
  | cons next members ih =>
      have hnext := List.forall_mem_cons.mp h |>.2
      have htail := ih ((name, value) :: before) next.1 next.2 hnext
        (hnext next List.mem_cons_self _ rfl)
      rw [memberTokens_cons name value (List.cons_ne_nil _ _)]
      simpa [Stage.step, hvalue] using htail

theorem insert_of_not_mem {name : String} {members : List (String × Json)}
    (h : name ∉ members.map Prod.fst) (value : Json) :
    insert name value members = members ++ [(name, value)] := by
  induction members with
  | nil => rfl
  | cons first rest ih =>
      obtain ⟨other, old⟩ := first
      simp only [List.map_cons, List.mem_cons, not_or] at h
      rw [insert, if_neg (Ne.symm h.1), ih h.2, List.cons_append]

theorem foldl_insert (before : List (String × Json)) {members : List (String × Json)}
    (h : ((before ++ members).map Prod.fst).Nodup) :
    members.foldl (fun kept (name, value) => insert name value kept) before =
      before ++ members := by
  induction members generalizing before with
  | nil => simp
  | cons first rest ih =>
      obtain ⟨name, value⟩ := first
      have hname : name ∉ before.map Prod.fst := by
        rw [List.map_append, List.nodup_append] at h
        exact fun hmem => h.2.2 name hmem name List.mem_cons_self rfl
      rw [List.append_cons] at h ⊢
      rw [← insert_of_not_mem hname value] at h ⊢
      exact ih _ h

theorem closeObject_reverse {members : List (String × Json)} (h : (members.map Prod.fst).Nodup) :
    Stage.closeObject members.reverse = .object members := by
  rw [Stage.closeObject, List.reverse_reverse, foldl_insert [] h, List.nil_append]

theorem IsReadable.isGathered {json : Json} {levels : Nat} (h : IsReadable levels json)
    (hroom : depth + levels ≤ limit) : IsGathered limit depth json := by
  induction h generalizing depth with
  | scalar hscalar => exact hscalar.isGathered
  | string => exact fun _ _ => rfl
  | @array levels items _ ih =>
      rintro frames rfl
      have hopen : Stage.step limit (.beforeValue frames) .beginArray =
          some (.openedArray frames) := if_pos (by omega)
      rw [tokens, List.cons_append, List.foldlM_cons, hopen]
      cases items with
      | nil => rfl
      | cons item items =>
          have hparts := foldlM_itemTokens frames (fun part hpart => ih part hpart (by omega)) []
          rwa [← foldlM_openedArray] at hparts
  | @object levels members hnames _ ih =>
      rintro frames rfl
      have hopen : Stage.step limit (.beforeValue frames) .beginObject =
          some (.openedObject frames) := if_pos (by omega)
      rw [tokens, List.cons_append, List.foldlM_cons, hopen]
      cases members with
      | nil => rfl
      | cons member members =>
          have hparts := foldlM_memberTokens frames (fun part hpart => ih part hpart (by omega)) []
          rw [List.append_nil, closeObject_reverse hnames] at hparts
          rwa [← foldlM_openedObject] at hparts

/-! ## Whole texts -/

theorem IsScalar.of_reread? {json read : Json} (h : json.IsScalar)
    (hread : json.reread? = some read) : read.IsScalar := by
  cases h with
  | null | bool =>
      cases hread
      constructor
  | integer | float => exact isScalar_of_word? hread

theorem IsReadable.of_reread? {json read : Json} {levels : Nat} (h : IsReadable levels json)
    (hread : json.reread? = some read) : IsReadable levels read := by
  induction h generalizing read with
  | scalar hscalar => exact .scalar (hscalar.of_reread? hread)
  | string text =>
      cases hread
      exact .string text
  | array _ ih =>
      obtain ⟨parts, hparts, rfl⟩ := Option.map_eq_some_iff.mp hread
      refine .array fun part hpart => ?_
      rw [rereadItems?_eq_mapM] at hparts
      obtain ⟨item, hitem, hread⟩ := exists_of_mem_mapM hparts hpart
      exact ih item hitem hread
  | object hnames _ ih =>
      obtain ⟨parts, hparts, rfl⟩ := Option.map_eq_some_iff.mp hread
      refine .object (by rwa [names_of_rereadMembers? hparts]) fun part hpart => ?_
      rw [rereadMembers?_eq_mapM] at hparts
      obtain ⟨member, hmember, hread⟩ := exists_of_mem_mapM hparts hpart
      obtain ⟨value, hvalue, rfl⟩ := Option.map_eq_some_iff.mp hread
      exact ih member hmember hvalue

/-- A written value is read back with each number as its own text is read. -/
theorem read?_text {json : Json} (h : IsReadable maxDepth json) :
    read? json.text = json.reread? := by
  unfold read? readWithin?
  rw [text, String.toList_ofList, tokens?_chars]
  cases hread : json.reread? with
  | none => rfl
  | some read =>
      have hgathered : IsGathered maxDepth 0 read :=
        (h.of_reread? hread).isGathered (Nat.zero_add _).le
      simp [hgathered [] rfl, Stage.finish]

end FilterSql.Json
