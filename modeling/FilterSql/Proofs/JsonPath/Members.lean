import FilterSql.Proofs.JsonPath.Decoding
import FilterSql.Text.Blank

/-!
# Member names of Postgres

The path language of Postgres ends an unquoted member name at white space and at
every character that means something to it.  Keys are written in quotes only for
the characters that would end a name in any path language, so that a path is read
as its steps exactly when no key is left that Postgres wants in quotes.

The grammar has members and subscripts only.  What Postgres makes of any other
path, be it a wildcard, a method, a filter or an error, is not told here.
-/

namespace FilterSql.JsonPath

/-- The characters that mean something in a path of Postgres, wherever they stand without quotes. -/
def memberMarks : List Char :=
  ['?', '%', '$', '.', '[', ']', '{', '}', '(', ')', '|', '&', '!', '=', '<', '>', '@', '#', ',',
    '*', ':', '-', '+', '/', '"']

/-- Member names of Postgres, which are not empty, for what counts as white space. -/
def Grammar.postgres (isBlank : Char → Bool) : Grammar where
  endsName c := isBlank c || memberMarks.contains c
  allowsEmpty := false

theorem Grammar.endsAtSteps_postgres (isBlank : Char → Bool) :
    (Grammar.postgres isBlank).EndsAtSteps :=
  ⟨Bool.or_true _, Bool.or_true _⟩

/-- A path is read as members and subscripts exactly when each key that stands without quotes is not
empty, and free of white space and of the characters that mean something.  They are then the steps
that it was written for. -/
theorem ofLiteral?_postgres_iff (isBlank : Char → Bool) (steps others : List PathStep) :
    ofLiteral? (.postgres isBlank) (JsonPath.steps steps).literal = some others ↔
      others = steps ∧ ∀ step ∈ steps, (Grammar.postgres isBlank).Names step := by
  have hends := Grammar.endsAtSteps_postgres isBlank
  have hread : ofLiteral? (.postgres isBlank) (JsonPath.steps steps).literal =
      accessors? (.postgres isBlank) (steps.flatMap stepChars) := by
    rw [ofLiteral?, undoubled?_literal, Option.bind_some]
    rfl
  rw [hread]
  by_cases hnames : ∀ step ∈ steps, (Grammar.postgres isBlank).Names step
  · rw [accessors?_flatMap hends hnames, Option.some_inj]
    exact ⟨fun heq => ⟨heq.symm, hnames⟩, fun h => h.1.symm⟩
  · have hbad : ∃ step ∈ steps, ¬ (Grammar.postgres isBlank).Names step := by
      simpa using hnames
    rw [accessors?_flatMap_eq_none hends hbad]
    constructor
    · rintro ⟨⟩
    · intro h
      exact absurd h.2 hnames

/-- A star is written without quotes, where it is no member name. -/
theorem ofLiteral?_postgres_star :
    (JsonPath.steps [.key "*"]).literal = "$.*" ∧
      ofLiteral? (.postgres Text.isBlank) (JsonPath.steps [.key "*"]).literal ≠
        some [.key "*"] := by
  have hstar : ¬ (Grammar.postgres Text.isBlank).Names (.key "*") := by
    rintro (⟨c, hc, hneeds⟩ | ⟨-, hinside⟩)
    · cases List.mem_singleton.mp hc
      exact absurd hneeds (by decide)
    · exact absurd (hinside '*' List.mem_cons_self) (by decide)
  have hread : accessors? (.postgres Text.isBlank) ([PathStep.key "*"].flatMap stepChars) = none :=
    accessors?_flatMap_eq_none (Grammar.endsAtSteps_postgres _)
      ⟨_, List.mem_cons_self, hstar⟩
  refine ⟨by decide, ?_⟩
  rw [ofLiteral?, undoubled?_literal, Option.bind_some]
  intro h
  cases hread.symm.trans h

end FilterSql.JsonPath
