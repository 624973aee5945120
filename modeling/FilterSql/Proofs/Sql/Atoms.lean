import FilterSql.Proofs.Sql.Reading

/-!
# Single conditions are atoms

No single condition begins like a connective, a negation or a group: it begins with
a name that has a double quote in it, with a token, or with a word of its own.
-/

namespace FilterSql

/-- A beginning that no connective, negation or group has. -/
def IsLead (lead : List Char) : Prop :=
  Clashes ['o', 'r', ' '] lead ∧ Clashes negationOpening lead ∧ Clashes groupOpening lead

instance (lead : List Char) : Decidable (IsLead lead) :=
  inferInstanceAs (Decidable (_ ∧ _ ∧ _))

theorem isLead_columnRef (name : String) : IsLead (columnRef name).toList := by
  -- A keyword has a character that names never have, and a name a double quote.
  have hclash {keyword : List Char} {c : Char} (hc : c ∈ keyword)
      (hdotted : Identifier.isDotted c = false) (hquote : '"' ∉ keyword) :
      Clashes keyword (columnRef name).toList := by
    constructor
    · intro hkeyword
      have hkept := isDotted_of_mem_columnRef name c (hkeyword.subset hc)
      rw [hdotted] at hkept
      cases hkept
    · intro hcolumn
      exact hquote (hcolumn.subset (doubleQuote_mem_columnRef name))
  have hblank : Identifier.isDotted ' ' = false := rfl
  have hopening : Identifier.isDotted '(' = false := rfl
  exact ⟨hclash (by decide) hblank (by decide), hclash (by decide) hblank (by decide),
    hclash (by decide) hopening (by decide)⟩

namespace Fragment

def HasLead (fragment : Fragment) : Prop :=
  ∀ bindings, ∃ lead after, fragment.chars bindings = lead ++ after ∧ IsLead lead

theorem HasLead.append {first : Fragment} (h : HasLead first) (second : Fragment) :
    HasLead (first ++ second) := by
  intro bindings
  obtain ⟨lead, after, hchars, hlead⟩ := h bindings
  exact ⟨lead, _, by rw [chars_append, hchars, List.append_assoc], hlead⟩

theorem hasLead_text (lead : List Char) {sql : String} (hlead : IsLead lead)
    (h : lead <+: sql.toList) : HasLead (text sql) := by
  intro bindings
  obtain ⟨after, hafter⟩ := h
  exact ⟨lead, after, by simp [text, hafter], hlead⟩

theorem hasLead_hole (value : Value) : HasLead (hole value) := by
  intro bindings
  have hchars : (hole value).chars bindings =
      (Bindings.token bindings.dialect (bindings.count + 1)).toList := by
    simp [hole]
  rw [hchars]
  cases bindings.dialect with
  | sqlite =>
      rw [Bindings.toList_token_sqlite]
      exact ⟨['?'], [], rfl, by decide⟩
  | postgres =>
      rw [Bindings.toList_token_postgres]
      exact ⟨['$'], _, rfl, by decide⟩

structure IsAtomic (fragment : Fragment) : Prop where
  phrase : IsPhrase false fragment
  lead : HasLead fragment

theorem IsAtomic.isAtom {fragment : Fragment} (h : IsAtomic fragment) (bindings : Bindings) :
    IsAtom (fragment.chars bindings) := by
  obtain ⟨lead, after, hchars, hor, hnot, hgroup⟩ := h.lead bindings
  refine ⟨scan_chars h.phrase bindings, ?_, ?_, ?_⟩
  · rw [hchars]
    exact hor.append after
  · rw [hchars]
    exact hnot.append after
  · rw [hchars]
    exact hgroup.append after

end Fragment

namespace Compile

open Fragment

variable {dialect : Dialect} {key : String}

private theorem hasLead_column (key after : String) : HasLead (text (columnRef key ++ after)) :=
  hasLead_text (columnRef key).toList (isLead_columnRef key) (by simp)

theorem atomic_column (name : String) : IsAtomic (text (columnRef name)) :=
  ⟨phrase_column (admitsName_false name),
    hasLead_text (columnRef name).toList (isLead_columnRef name) List.prefix_rfl⟩

theorem atomic_value (value : Value) : IsAtomic (hole value) :=
  ⟨phrase_value value, hasLead_hole value⟩

private theorem hasLead_operand (compared : Operand) (h : compared ≠ .null) :
    HasLead (operand dialect compared) := by
  cases compared with
  | null => exact absurd rfl h
  | literal value =>
      rw [operand]
      unfold literal
      split
      · exact (hasLead_hole _).append _
      · exact hasLead_hole _
  | column name => exact (atomic_column name).lead

theorem atomic_comparison (left right : Operand) : IsAtomic (comparison dialect left right) := by
  refine ⟨phrase_comparison (fun name _ => admitsName_false name)
    (fun name _ => admitsName_false name), ?_⟩
  unfold comparison
  split
  · exact hasLead_text ['n', 'u'] (by decide) (by simp)
  · next hright => exact (hasLead_operand right (by simpa using hright)).append _
  · next hleft => exact (hasLead_operand left (by simpa using hleft)).append _
  · next hleft _ _ => exact ((hasLead_operand left (by simpa using hleft)).append _).append _

theorem atomic_isNull : IsAtomic (isNull key) :=
  ⟨phrase_isNull (admitsName_false key), hasLead_column key _⟩

theorem atomic_equals (compared : Operand) : IsAtomic (equals dialect key compared) := by
  refine ⟨phrase_equals (admitsName_false key) fun name _ => admitsName_false name, ?_⟩
  cases compared with
  | null => exact atomic_isNull.lead
  | literal | column => exact (hasLead_column key _).append _

theorem atomic_oneOf (members : Value) : IsAtomic (oneOf dialect key members) := by
  refine ⟨phrase_oneOf (admitsName_false key) members, ?_⟩
  unfold oneOf
  cases dialect <;> exact ((hasLead_column key _).append _).append _

theorem atomic_slug (value : String) : IsAtomic (slug dialect key value) := by
  refine ⟨phrase_slug (admitsName_false key) value, ?_⟩
  unfold slug slugOf
  cases dialect <;> exact (hasLead_text ['R'] (by decide) (by simp)).append _

theorem atomic_contains (needle : Value) :
    IsAtomic (containing dialect (columnRef key) needle) := by
  refine ⟨phrase_contains (admitsName_false key) needle, ?_⟩
  rw [containing, String.append_assoc, String.append_assoc]
  exact ((hasLead_column key _).append _).append _

theorem atomic_range (bound : RangeBound) (value : Value) (inclusive : Bool) :
    IsAtomic (range key bound value inclusive) :=
  ⟨phrase_range (admitsName_false key) bound value inclusive, (hasLead_column key _).append _⟩

theorem atomic_textSearch (options : CompileOptions) (scope : Option String)
    (search : TextSearch) : IsAtomic (textSearch options scope search) := by
  refine ⟨phrase_textSearch options scope search, ?_⟩
  unfold textSearch
  cases options.dialect with
  | sqlite =>
      have hdocument := exists_searchDocument .sqlite search (search.table <|> scope)
      refine HasLead.append (HasLead.append ?_ _) _
      rcases hdocument with hempty | ⟨after, hpieces⟩
      · exact hasLead_text ['\''] (by decide) (by simp only [hempty]; simp)
      · exact hasLead_text ['c'] (by decide)
          (by rw [String.toList_append, hpieces]; simp)
  | postgres =>
      by_cases hword : isSingleWord search.term <;> simp only [hword] <;>
        exact ((hasLead_text ['t'] (by decide) (by simp)).append _).append _

theorem atomic_membership {select : String} (hselect : Passes (.pieces false) 1 select.toList)
    {parts : List Fragment} (hparts : ∀ part ∈ parts, IsBalanced false part) :
    IsAtomic (membership key select parts) := by
  refine ⟨phrase_membership (admitsName_false key) hselect hparts, ?_⟩
  rw [membership, String.append_assoc]
  exact ((hasLead_column key _).append _).append _

/-! ## Conditions on JSON columns -/

private theorem hasLead_jsonPlace (key : String) (path : JsonPath) (asText : Bool)
    (after : String) : HasLead (text (jsonPlace dialect key path asText ++ after)) := by
  refine hasLead_text ['j'] (by decide) ?_
  unfold jsonPlace
  cases dialect <;> cases asText <;> simp

theorem atomic_jsonEquals (path : JsonPath) (value : Value) :
    IsAtomic (jsonEquals dialect key path value) :=
  ⟨phrase_jsonEquals (admitsName_false key) path value,
    (hasLead_jsonPlace key path true _).append _⟩

theorem atomic_jsonContains (path : JsonPath) (needle : Value) :
    IsAtomic (containing dialect (jsonPlace dialect key path true) needle) := by
  refine ⟨phrase_jsonContains (admitsName_false key) path needle, ?_⟩
  rw [containing, String.append_assoc, String.append_assoc]
  exact ((hasLead_jsonPlace key path true _).append _).append _

theorem atomic_jsonBound (path : JsonPath) {operator : String}
    (hoperator : operator = ">=" ∨ operator = "<=") (bound : Option Value) :
    ∀ part ∈ jsonBound dialect key path operator bound, IsAtomic part := by
  intro part hpart
  refine ⟨phrase_jsonBound (admitsName_false key) path hoperator bound part hpart, ?_⟩
  obtain ⟨value, -, rfl⟩ := List.mem_map.mp hpart
  rw [String.append_assoc, String.append_assoc]
  exact (hasLead_jsonPlace key path false _).append _

end Compile

end FilterSql
