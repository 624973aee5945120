import FilterSql.Json.Record
import Mathlib.Data.List.Forall2

/-!
# What decoders give

A decoder that does not fail gives results of a certain make.  A record that was
read was read without a fault, each of its fields included.
-/

namespace FilterSql

/-! ## Outcomes -/

/-- A result, if there is one, has the property. -/
def Gives {ε α : Type} (outcome : Except ε α) (holds : α → Prop) : Prop :=
  ∀ a, outcome = .ok a → holds a

namespace Gives

variable {ε ε' α β : Type} {outcome : Except ε α}

theorem ok {a : α} {holds : α → Prop} (h : holds a) :
    Gives (Except.ok a : Except ε α) holds := by
  rintro _ ⟨⟩
  exact h

theorem error (e : ε) (holds : α → Prop) : Gives (Except.error e : Except ε α) holds := by
  rintro _ ⟨⟩

theorem map {f : α → β} {holds : β → Prop} (h : Gives outcome fun a => holds (f a)) :
    Gives (outcome.map f) holds := by
  cases outcome with
  | error e => exact error e holds
  | ok a => exact ok (h a rfl)

theorem mapError {f : ε → ε'} {holds : α → Prop} (h : Gives outcome holds) :
    Gives (outcome.mapError f) holds := by
  cases outcome with
  | error e => exact error (f e) holds
  | ok a => exact ok (h a rfl)

theorem bind {holds : α → Prop} {next : α → Except ε β} {holds' : β → Prop}
    (h : Gives outcome holds) (hnext : ∀ a, holds a → Gives (next a) holds') :
    Gives (outcome >>= next) holds' := by
  cases outcome with
  | error e => exact error e holds'
  | ok a => exact hnext a (h a rfl)

theorem exists_of_map {f : α → β} {b : β} (h : outcome.map f = .ok b) :
    ∃ a, outcome = .ok a ∧ f a = b := by
  cases outcome with
  | error e => cases h
  | ok a =>
      cases h
      exact ⟨a, rfl, rfl⟩

theorem exists_of_bind {next : α → Except ε β} {b : β} (h : (outcome >>= next) = .ok b) :
    ∃ a, outcome = .ok a ∧ next a = .ok b := by
  cases outcome with
  | error e => cases h
  | ok a => exact ⟨a, rfl, h⟩

theorem mono {holds holds' : α → Prop} (h : Gives outcome holds)
    (himplies : ∀ a, holds a → holds' a) : Gives outcome holds' :=
  fun a ha => himplies a (h a ha)

theorem mapM {f : α → Except ε β} {holds : β → Prop} {xs : List α}
    (h : ∀ x ∈ xs, Gives (f x) holds) : Gives (xs.mapM f) fun ys => ∀ y ∈ ys, holds y := by
  induction xs with
  | nil => exact ok nofun
  | cons x xs ih =>
      rw [List.mapM_cons]
      refine (h x List.mem_cons_self).bind fun y hy => ?_
      refine (ih fun x' hx' => h x' (List.mem_cons_of_mem _ hx')).bind fun ys hys => ?_
      exact ok (List.forall_mem_cons.mpr ⟨hy, hys⟩)

theorem exists_mapM {f : α → Except ε β} {xs : List α} (h : ∀ x ∈ xs, ∃ y, f x = .ok y) :
    ∃ ys, xs.mapM f = .ok ys := by
  induction xs with
  | nil => exact ⟨[], rfl⟩
  | cons x xs ih =>
      rw [List.forall_mem_cons] at h
      obtain ⟨y, hy⟩ := h.1
      obtain ⟨ys, hys⟩ := ih h.2
      refine ⟨y :: ys, ?_⟩
      rw [List.mapM_cons, hy, hys]
      rfl

theorem mapM_eq_ok_iff {f : α → Except ε β} {xs : List α} {ys : List β} :
    xs.mapM f = .ok ys ↔ List.Forall₂ (fun x y => f x = .ok y) xs ys := by
  induction xs generalizing ys with
  | nil =>
      constructor
      · rintro ⟨⟩
        exact .nil
      · rintro ⟨⟩
        rfl
  | cons x xs ih =>
      rw [List.mapM_cons, List.forall₂_cons_left_iff]
      constructor
      · intro h
        obtain ⟨y, hy, h⟩ := exists_of_bind h
        obtain ⟨others, hothers, h⟩ := exists_of_bind h
        cases h
        exact ⟨y, others, hy, ih.mp hothers, rfl⟩
      · rintro ⟨y, others, hy, hothers, rfl⟩
        rw [hy, ih.mpr hothers]
        rfl

/-- The error of a list is that of its first item without a result. -/
theorem mapM_eq_error_iff {f : α → Except ε β} {xs : List α} {e : ε} :
    xs.mapM f = .error e ↔ ∃ before x after, xs = before ++ x :: after ∧
      (∀ earlier ∈ before, ∃ y, f earlier = .ok y) ∧ f x = .error e := by
  induction xs with
  | nil =>
      constructor
      · rintro ⟨⟩
      · rintro ⟨before, x, after, heq, -⟩
        exact absurd heq.symm (List.append_ne_nil_of_right_ne_nil _ (List.cons_ne_nil x after))
  | cons first xs ih =>
      rw [List.mapM_cons]
      cases hfirst : f first with
      | error other =>
          constructor
          · rintro ⟨⟩
            exact ⟨[], first, xs, rfl, nofun, hfirst⟩
          · rintro ⟨before, x, after, heq, hbefore, hx⟩
            -- The item before which all have results cannot stand behind the first one.
            cases before with
            | nil =>
                cases heq
                rw [hfirst] at hx
                cases hx
                rfl
            | cons earlier before =>
                cases heq
                obtain ⟨y, hy⟩ := hbefore _ List.mem_cons_self
                rw [hfirst] at hy
                cases hy
      | ok y =>
          have hrest : (do let y ← Except.ok y; let ys ← xs.mapM f; pure (y :: ys)) =
              (Except.error e : Except ε (List β)) ↔ xs.mapM f = .error e := by
            change (xs.mapM f >>= fun ys => pure (y :: ys)) = _ ↔ _
            cases xs.mapM f with
            | error other => exact Iff.rfl
            | ok ys => exact ⟨nofun, nofun⟩
          rw [hrest, ih]
          constructor
          · rintro ⟨before, x, after, rfl, hbefore, hx⟩
            exact ⟨first :: before, x, after, rfl,
              List.forall_mem_cons.mpr ⟨⟨y, hfirst⟩, hbefore⟩, hx⟩
          · rintro ⟨before, x, after, heq, hbefore, hx⟩
            cases before with
            | nil =>
                cases heq
                rw [hfirst] at hx
                cases hx
            | cons earlier before =>
                cases heq
                exact ⟨before, x, after, rfl, (List.forall_mem_cons.mp hbefore).2, hx⟩

theorem getElem?_mapM {f : α → Except ε β} {xs : List α} {ys : List β} (h : xs.mapM f = .ok ys)
    {place : Nat} {x : α} (hx : xs[place]? = some x) : ∃ y, ys[place]? = some y ∧ f x = .ok y := by
  have hplaces := mapM_eq_ok_iff.mp h
  clear h
  induction hplaces generalizing place with
  | nil => cases hx
  | cons hfirst _ ih =>
      cases place with
      | zero =>
          cases hx
          exact ⟨_, rfl, hfirst⟩
      | succ place => exact ih hx

end Gives

def Yields {α : Type} (outcome : Option α) (holds : α → Prop) : Prop :=
  ∀ a, outcome = some a → holds a

namespace Yields

variable {α β : Type} {outcome : Option α}

theorem some {a : α} {holds : α → Prop} (h : holds a) : Yields (Option.some a) holds := by
  rintro _ ⟨⟩
  exact h

theorem none (holds : α → Prop) : Yields Option.none holds := nofun

theorem map {f : α → β} {holds : β → Prop} (h : Yields outcome fun a => holds (f a)) :
    Yields (outcome.map f) holds := by
  cases outcome with
  | none => exact none holds
  | some a => exact some (h a rfl)

theorem bind {holds : α → Prop} {next : α → Option β} {holds' : β → Prop}
    (h : Yields outcome holds) (hnext : ∀ a, holds a → Yields (next a) holds') :
    Yields (outcome.bind next) holds' := by
  cases outcome with
  | none => exact none holds'
  | some a => exact hnext a (h a rfl)

theorem toOption {ε : Type} {outcome : Except ε α} {holds : α → Prop} (h : Gives outcome holds) :
    Yields outcome.toOption holds := by
  cases outcome with
  | error e => exact none holds
  | ok a => exact some (h a rfl)

theorem self (outcome : Option α) : Yields outcome fun a => outcome = Option.some a := fun _ h => h

theorem trivial (outcome : Option α) : Yields outcome fun _ => True := fun _ _ => True.intro

end Yields

/-! ## Records -/

namespace Json

namespace Reading

variable {α β : Type}

theorem seq_eq_value {first : Reading (α → β)} {second : Reading α} {b : β} :
    (first <*> second) = .value b ↔ ∃ f a, first = .value f ∧ second = .value a ∧ f a = b := by
  cases first with
  | value f =>
      cases second with
      | value a =>
          change Reading.value (f a) = .value b ↔ _
          simp
      | fault place error =>
          change Reading.fault place error = .value b ↔ _
          simp
  | fault place error =>
      cases second with
      | value a =>
          change Reading.fault place error = .value b ↔ _
          simp
      | fault place' error' =>
          change (if place' < place then Reading.fault place' error'
            else Reading.fault place error) = .value b ↔ _
          split <;> simp

theorem map_eq_value {f : α → β} {reading : Reading α} {b : β} :
    (f <$> reading) = .value b ↔ ∃ a, reading = .value a ∧ f a = b := by
  have hpure : (f <$> reading) = (Reading.value f <*> reading) := rfl
  rw [hpure, seq_eq_value]
  simp

@[simp] theorem value_seq_value (f : α → β) (a : α) :
    (Reading.value f <*> Reading.value a) = .value (f a) := rfl

@[simp] theorem map_value (f : α → β) (a : α) : (f <$> Reading.value a) = .value (f a) := rfl

@[simp] theorem toExcept_value (a : α) : (Reading.value a).toExcept = .ok a := rfl

@[simp] theorem ofExcept_ok (place : Nat) (a : α) : ofExcept place (.ok a) = .value a := rfl

theorem toExcept_eq_ok {reading : Reading α} {a : α} :
    reading.toExcept = .ok a ↔ reading = .value a := by
  cases reading <;> simp [toExcept]

theorem ofExcept_eq_value {place : Nat} {outcome : Except DecodeError α} {a : α} :
    ofExcept place outcome = .value a ↔ outcome = .ok a := by
  cases outcome <;> simp [ofExcept]

end Reading

theorem Shape.gives_decode {α : Type} {shape : Shape} {read : Json → Reading α} {holds : α → Prop}
    {json : Json} (h : ∀ a, read json = .value a → holds a) :
    Gives (shape.decode read json) holds := by
  intro a ha
  cases json with
  | object members =>
      refine h a ?_
      cases hread : read (.object members) with
      | value b =>
          rw [decode, hread] at ha
          cases ha
          rfl
      | fault place error =>
          rw [decode, hread] at ha
          cases ha
  | array items =>
      rw [decode] at ha
      cases hread : read (.array items) <* shape.withinLength (.array items) with
      | value b =>
          rw [hread] at ha
          cases ha
          obtain ⟨f, u, hf, -, rfl⟩ := Reading.seq_eq_value.mp hread
          obtain ⟨a, ha, rfl⟩ := Reading.map_eq_value.mp hf
          exact h a ha
      | fault place error =>
          rw [hread] at ha
          cases ha
  | null | bool | integer | float | string => cases ha

theorem Shape.exists_of_required {α : Type} {shape : Shape} {record : Json} {name : String}
    {decode : Decoder α} {a : α} (h : shape.required record name decode = .value a) :
    ∃ place json, shape.locate? record name = some (place, json) ∧ decode json = .ok a := by
  unfold required field at h
  split at h
  · next place json hplace => exact ⟨place, json, hplace, Reading.ofExcept_eq_value.mp h⟩
  · cases record <;> cases h

/-- A field that may be missing is read as its default, or as what its decoder gives. -/
theorem Shape.field_eq_value_iff {α : Type} {shape : Shape} {record : Json} {name : String}
    {default : α} {decode : Decoder α} {a : α} :
    shape.field record name (.fromEither default) decode = .value a ↔
      (shape.locate? record name = none ∧ default = a) ∨
        ∃ place json, shape.locate? record name = some (place, json) ∧ decode json = .ok a := by
  unfold field
  cases shape.locate? record name with
  | none => simp [absent]
  | some found =>
      obtain ⟨place, json⟩ := found
      simp [Reading.ofExcept_eq_value]

theorem Shape.field_object_eq_value_iff {α : Type} {shape : Shape}
    {members : List (String × Json)} {name : String} {default : α} {decode : Decoder α} {a : α} :
    shape.field (.object members) name (.fromEither default) decode = .value a ↔
      (lookup? name members).elim (.ok default) decode = .ok a := by
  rw [field_eq_value_iff, locate?]
  cases lookup? name members <;> simp

theorem Decoder.of_nullable_eq_some {α : Type} {decode : Decoder α} {json : Json} {a : α}
    (h : decode.nullable json = .ok (some a)) : decode json = .ok a := by
  cases json with
  | null => cases h
  | bool | integer | float | string | array | object =>
      obtain ⟨b, hb, heq⟩ := Gives.exists_of_map h
      cases heq
      exact hb

/-! ## What is inside a JSON value -/

/-- Holds of all that is inside a JSON value, wherever it holds of the value. -/
structure IsHereditary (admits : Json → Prop) : Prop where
  items {items : List Json} : admits (.array items) → ∀ item ∈ items, admits item
  members {members : List (String × Json)} :
    admits (.object members) → ∀ member ∈ members, admits member.2

inductive IsWithin (outer : Json) : Json → Prop where
  | self : IsWithin outer outer
  | item {items : List Json} {item : Json} : IsWithin outer (.array items) → item ∈ items →
      IsWithin outer item
  | member {members : List (String × Json)} {member : String × Json} :
      IsWithin outer (.object members) → member ∈ members → IsWithin outer member.2

theorem isHereditary_isWithin (outer : Json) : IsHereditary outer.IsWithin where
  items h _ hitem := .item h hitem
  members h _ hmember := .member h hmember

/-- The numbers in the JSON value are those of JSON: whole numbers are of 64 bits, signed or
unsigned, and all others are finite. -/
inductive HasJsonNumbers : Json → Prop where
  | null : HasJsonNumbers .null
  | bool (value : Bool) : HasJsonNumbers (.bool value)
  | integer {n : Int} : Int64.minValue.toInt ≤ n → n < UInt64.size → HasJsonNumbers (.integer n)
  | float {x : Double} : x.isFinite → HasJsonNumbers (.float x)
  | string (text : String) : HasJsonNumbers (.string text)
  | array {items : List Json} : (∀ item ∈ items, HasJsonNumbers item) →
      HasJsonNumbers (.array items)
  | object {members : List (String × Json)} : (∀ member ∈ members, HasJsonNumbers member.2) →
      HasJsonNumbers (.object members)

theorem isHereditary_hasJsonNumbers : IsHereditary HasJsonNumbers where
  items := fun (.array hitems) => hitems
  members := fun (.object hmembers) => hmembers

theorem HasJsonNumbers.natAbs_lt {n : Int} (h : HasJsonNumbers (.integer n)) :
    n.natAbs < UInt64.size := by
  cases h with
  | integer hlow hhigh =>
      have hmin : Int64.minValue.toInt = -2 ^ 63 := by decide
      have hsize : UInt64.size = 2 ^ 64 := by decide
      omega

theorem mem_of_lookup? {name : String} {value : Json} {members : List (String × Json)}
    (h : lookup? name members = some value) : (name, value) ∈ members := by
  induction members with
  | nil => cases h
  | cons first rest ih =>
      obtain ⟨other, found⟩ := first
      rw [lookup?_cons] at h
      split at h
      · next hname =>
          cases h
          rw [hname]
          exact List.mem_cons_self
      · exact List.mem_cons_of_mem _ (ih h)

theorem lookup?_append (name : String) (first second : List (String × Json)) :
    lookup? name (first ++ second) = (lookup? name first).or (lookup? name second) := by
  induction first with
  | nil => rfl
  | cons member rest ih =>
      obtain ⟨other, value⟩ := member
      rw [List.cons_append, lookup?_cons, lookup?_cons]
      split
      · rfl
      · exact ih

theorem IsHereditary.locate? {admits : Json → Prop} (h : IsHereditary admits) {shape : Shape}
    {record json : Json} {name : String} {place : Nat} (hrecord : admits record)
    (hjson : shape.locate? record name = some (place, json)) : admits json := by
  unfold Shape.locate? at hjson
  cases record with
  | object members =>
      obtain ⟨value, hvalue, heq⟩ := Option.map_eq_some_iff.mp hjson
      cases heq
      exact h.members hrecord _ (mem_of_lookup? hvalue)
  | array items =>
      obtain ⟨value, hvalue, heq⟩ := Option.map_eq_some_iff.mp hjson
      cases heq
      exact h.items hrecord _ (List.mem_of_getElem? hvalue)
  | null | bool | integer | float | string => cases hjson

end Json

end FilterSql
