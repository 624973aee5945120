import FilterSql.Sql.Bindings

/-!
# Fragments

A fragment is SQL text with holes for values, before placeholders are numbered.
Rendering a fragment onto bindings fills its holes from left to right, so the
order of the values is the order of the placeholders.
-/

namespace FilterSql

inductive Piece where
  | text (sql : String)
  | hole (value : Value)
  deriving Repr

abbrev Fragment := List Piece

namespace Fragment

/-! ## Building fragments -/

def text (sql : String) : Fragment := [.text sql]

def hole (value : Value) : Fragment := [.hole value]

def isBlank (fragment : Fragment) : Bool :=
  fragment.all fun piece => match piece with
    | .text sql => sql == ""
    | .hole _ => false

def join (separator : String) (fragments : List Fragment) : Fragment :=
  List.flatten (fragments.intersperse (text separator))

/-- Round brackets, except around nothing. -/
def parens (fragment : Fragment) : Fragment :=
  if fragment.isBlank then fragment
  else text "(" ++ fragment ++ text ")"

/-! ## Views -/

def values (fragment : Fragment) : List Value :=
  fragment.filterMap fun piece => match piece with
    | .text _ => none
    | .hole value => some value

@[simp] theorem values_append (first second : Fragment) :
    values (first ++ second) = values first ++ values second :=
  List.filterMap_append ..

/-! ## Rendering -/

def render : Fragment → Bindings → String × Bindings
  | [], bindings => ("", bindings)
  | .text sql :: rest, bindings =>
    let (tail, bindings) := render rest bindings
    (sql ++ tail, bindings)
  | .hole value :: rest, bindings =>
    let (token, bindings) := bindings.push value
    let (tail, bindings) := render rest bindings
    (token ++ tail, bindings)

theorem render_append (first second : Fragment) (bindings : Bindings) :
    render (first ++ second) bindings =
      ((render first bindings).1 ++ (render second (render first bindings).2).1,
        (render second (render first bindings).2).2) := by
  induction first generalizing bindings with
  | nil => simp [render]
  | cons piece rest ih =>
    cases piece with
    | text sql => simp [render, ih, String.append_assoc]
    | hole value => simp [render, ih, String.append_assoc]

theorem render_values (fragment : Fragment) (bindings : Bindings) :
    (render fragment bindings).2.values = bindings.values ++ fragment.values := by
  induction fragment generalizing bindings with
  | nil => simp [render, values]
  | cons piece rest ih =>
    cases piece with
    | text sql => simpa [render, values] using ih bindings
    | hole value =>
      have h := ih (bindings.push value).2
      simp only [Bindings.push_values, List.append_assoc] at h
      simpa [render, values] using h

end Fragment

end FilterSql
