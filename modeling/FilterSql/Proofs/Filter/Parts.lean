import FilterSql.Proofs.Sql.Payloads

/-!
# The parts of a filter

A filter is made of clauses and conditions, those of its groups and sub-selects
included.  What a filter binds is what its parts bind, each on its own and in
their order.
-/

namespace FilterSql

/-! ## Parts -/

inductive Part where
  | clause (requirement : Clause)
  | condition (asked : Condition)

mutual

/-- The clause itself, and after it all that is inside. -/
def Clause.parts : Clause → List Part
  | .search search => [.clause (.search search)]
  | .or alternatives => .clause (.or alternatives) :: Filter.partsOfAll alternatives
  | .not negated => .clause (.not negated) :: Filter.parts negated
  | .notColumn name => [.clause (.notColumn name)]
  | .notValue value => [.clause (.notValue value)]
  | .compare left right => [.clause (.compare left right)]
  | .field key condition => .clause (.field key condition) :: Condition.parts condition

def Filter.parts : List Clause → List Part
  | [] => []
  | first :: rest => Clause.parts first ++ Filter.parts rest

def Filter.partsOfAll : List (List Clause) → List Part
  | [] => []
  | first :: rest => Filter.parts first ++ Filter.partsOfAll rest

def Condition.parts : Condition → List Part
  | .oneOf members => [.condition (.oneOf members)]
  | .slug text => [.condition (.slug text)]
  | .anyOf alternatives => .condition (.anyOf alternatives) :: Condition.partsOfAll alternatives
  | .allOf conditions => .condition (.allOf conditions) :: Condition.partsOfAll conditions
  | .contains needle => [.condition (.contains needle)]
  | .range bound value inclusive => [.condition (.range bound value inclusive)]
  | .inSelect select filter => .condition (.inSelect select filter) :: Filter.parts filter
  | .inChain chain filter => .condition (.inChain chain filter) :: Filter.parts filter
  | .json condition => [.condition (.json condition)]
  | .isNull => [.condition .isNull]
  | .equals operand => [.condition (.equals operand)]

def Condition.partsOfAll : List Condition → List Part
  | [] => []
  | first :: rest => Condition.parts first ++ Condition.partsOfAll rest

end

/-! ## What a part binds -/

/-- What a part binds beside the parts inside it. -/
def Part.payloads : Part → List Payload
  | .clause (.search search) => [.term search.term]
  | .clause (.notValue value) => [.value value]
  | .clause (.compare left right) => left.payloads ++ right.payloads
  | .clause (.or _) | .clause (.not _) | .clause (.notColumn _) | .clause (.field _ _) => []
  | .condition (.oneOf members) => [.value members]
  | .condition (.slug text) => [.value (.string text)]
  | .condition (.contains needle) => [.value needle]
  | .condition (.range _ value _) => [.value value]
  | .condition (.json asked) => asked.payloads
  | .condition (.equals operand) => operand.payloads
  | .condition (.anyOf _) | .condition (.allOf _) | .condition (.inSelect _ _)
  | .condition (.inChain _ _) | .condition (.isNull) => []

mutual

theorem Clause.payloads_eq_flatMap (requirement : Clause) :
    requirement.payloads = requirement.parts.flatMap Part.payloads := by
  cases requirement with
  | or alternatives => exact Filter.payloadsOfAll_eq_flatMap alternatives
  | not negated => exact Filter.payloads_eq_flatMap negated
  | field key condition => exact Condition.payloads_eq_flatMap condition
  | search | notColumn | notValue | compare =>
      simp [Clause.payloads, Clause.parts, Part.payloads]

theorem Filter.payloads_eq_flatMap (filter : List Clause) :
    Filter.payloads filter = (Filter.parts filter).flatMap Part.payloads := by
  cases filter with
  | nil => rfl
  | cons first rest =>
      rw [Filter.payloads, Filter.parts, List.flatMap_append, Clause.payloads_eq_flatMap first,
        Filter.payloads_eq_flatMap rest]

theorem Filter.payloadsOfAll_eq_flatMap (filters : List (List Clause)) :
    Filter.payloadsOfAll filters = (Filter.partsOfAll filters).flatMap Part.payloads := by
  cases filters with
  | nil => rfl
  | cons first rest =>
      rw [Filter.payloadsOfAll, Filter.partsOfAll, List.flatMap_append,
        Filter.payloads_eq_flatMap first, Filter.payloadsOfAll_eq_flatMap rest]

theorem Condition.payloads_eq_flatMap (condition : Condition) :
    condition.payloads = condition.parts.flatMap Part.payloads := by
  cases condition with
  | anyOf alternatives => exact Condition.payloadsOfAll_eq_flatMap alternatives
  | allOf conditions => exact Condition.payloadsOfAll_eq_flatMap conditions
  | inSelect select filter => exact Filter.payloads_eq_flatMap filter
  | inChain chain filter => exact Filter.payloads_eq_flatMap filter
  | oneOf | slug | contains | range | json | isNull | equals =>
      simp [Condition.payloads, Condition.parts, Part.payloads]

theorem Condition.payloadsOfAll_eq_flatMap (conditions : List Condition) :
    Condition.payloadsOfAll conditions =
      (Condition.partsOfAll conditions).flatMap Part.payloads := by
  cases conditions with
  | nil => rfl
  | cons first rest =>
      rw [Condition.payloadsOfAll, Condition.partsOfAll, List.flatMap_append,
        Condition.payloads_eq_flatMap first, Condition.payloadsOfAll_eq_flatMap rest]

end

def Part.bound (dialect : Dialect) (part : Part) : List Value :=
  part.payloads.map (Payload.bound dialect)

theorem Filter.values_compile_eq_flatMap (options : CompileOptions) (filter : Filter) :
    (filter.compile options).values =
      (Filter.parts filter).flatMap (Part.bound options.dialect) := by
  rw [Filter.values_compile, Filter.payloads_eq_flatMap, List.map_flatMap]
  rfl

end FilterSql
