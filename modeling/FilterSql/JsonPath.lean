import FilterSql.Json.Printer

/-!
# JSON paths

Where a value lies inside a JSON document, and the text of that place between
the single quotes of an SQL literal.
-/

namespace FilterSql

inductive PathStep where
  | key (name : String)
  | index (n : Nat)
  deriving DecidableEq, Repr

inductive JsonPath where
  | one (step : PathStep)
  | steps (list : List PathStep)
  deriving DecidableEq, Repr

namespace JsonPath

/-! ## Steps -/

/-- Characters that may not stand in a member name without quotes. -/
def needsQuoting (c : Char) : Bool :=
  (c.toNat < 0x20 && c != '\t') || c == '"' || c == '\'' || c == '\x7f' ||
  c == '.' || c == '[' || c == ']'

def stepChars : PathStep → List Char
  | .index n => '[' :: Nat.toDigits 10 n ++ [']']
  | .key name =>
    if name.toList.any needsQuoting then '.' :: Json.quoteChars name.toList
    else '.' :: name.toList

/-! ## Ready-made paths -/

/-- A single key that reads as a path already, on one line. -/
def isReady : List Char → Bool
  | '$' :: c :: rest =>
    (c == '.' || c == '[') &&
      rest.all fun d => !(d == '\n' || d == '\r' || d == '\x0b' || d == '\x00')
  | _ => false

/-! ## The literal -/

def doubleQuotes (text : List Char) : List Char :=
  text.flatMap fun c => if c = '\'' then ['\'', '\''] else [c]

def chars : JsonPath → List Char
  | .one (.key name) =>
    if isReady name.toList then name.toList else '$' :: stepChars (.key name)
  | .one step => '$' :: stepChars step
  | .steps list => '$' :: list.flatMap stepChars

def literal (path : JsonPath) : String := String.ofList (doubleQuotes path.chars)

end JsonPath

end FilterSql
