/-!
# Identifiers

Every name that reaches SQL text is first cut down to a safe alphabet and then
put in double quotes.  Nothing is ever refused: characters outside the alphabet
are dropped, which may leave an empty name.

A *plain* name (table, schema, alias, column) keeps letters, digits and `_`.  A
*dotted* name (field key, column operand) also keeps `.` and `"`, so that
`t.col` and names that are already quoted keep their shape.
-/

namespace FilterSql.Identifier

/-! ## Alphabets -/

def isPlain (c : Char) : Bool := c.isAlphanum || c == '_'

def isDotted (c : Char) : Bool := isPlain c || c == '.' || c == '"'

def guardDigit : List Char → List Char
  | [] => []
  | c :: rest => if c.isDigit then '_' :: c :: rest else c :: rest

def sanitizeWith (keeps : Char → Bool) (name : List Char) : List Char :=
  guardDigit (name.filter keeps)

/-! ## Quoting -/

def segments : List Char → List (List Char)
  | [] => [[]]
  | c :: rest =>
    if c = '.' then [] :: segments rest
    else match segments rest with
      | [] => [[c]]
      | part :: parts => (c :: part) :: parts

/-- A part that holds a double quote counts as quoted already. -/
def quoteSegment (part : List Char) : List Char :=
  if '"' ∈ part then part else '"' :: part ++ ['"']

def quoteChars (name : List Char) : List Char :=
  List.intercalate ['.'] ((segments name).map quoteSegment)

end FilterSql.Identifier

namespace FilterSql

open Identifier

/-- Letters, digits and `_` of a name, with `_` in front of a leading digit. -/
def sanitize (name : String) : String :=
  String.ofList (sanitizeWith isPlain name.toList)

def sanitizeDotted (name : String) : String :=
  String.ofList (sanitizeWith isDotted name.toList)

def quote (name : String) : String :=
  String.ofList (quoteChars name.toList)

def columnRef (name : String) : String := quote (sanitizeDotted name)

def nameRef (name : String) : String := quote (sanitize name)

end FilterSql
