import FilterSql.Dialect
import FilterSql.Value

/-!
# Bindings

The values bound so far in one query, with the tokens that stand for them.
Postgres tokens are numbered, starting after the parameters that the enclosing
query binds already; SQLite tokens are all alike and bind by position.
-/

namespace FilterSql

structure Bindings where
  dialect : Dialect
  /-- The number of the last parameter. -/
  count : UInt64
  values : List Value
  deriving Repr

namespace Bindings

def new (dialect : Dialect) (initial : UInt64) : Bindings := ⟨dialect, initial, []⟩

def postgres (initial : UInt64) : Bindings := new .postgres initial

def sqlite : Bindings := new .sqlite 0

def token (dialect : Dialect) (number : UInt64) : String :=
  match dialect with
  | .postgres => "$" ++ toString number.toNat
  | .sqlite => "?"

def push (bindings : Bindings) (value : Value) : String × Bindings :=
  (token bindings.dialect (bindings.count + 1),
    { bindings with
      count := bindings.count + 1
      values := bindings.values ++ [value] })

@[simp] theorem push_dialect (bindings : Bindings) (value : Value) :
    (bindings.push value).2.dialect = bindings.dialect := rfl

@[simp] theorem push_count (bindings : Bindings) (value : Value) :
    (bindings.push value).2.count = bindings.count + 1 := rfl

@[simp] theorem push_values (bindings : Bindings) (value : Value) :
    (bindings.push value).2.values = bindings.values ++ [value] := rfl

end Bindings

end FilterSql
