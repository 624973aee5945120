import FilterSql.Decimal.Layout
import FilterSql.Json.Basic

/-!
# Compact JSON text

One line without blanks, members in their order.  Strings escape the quote, the
backslash and the characters below the blank, and nothing else; doubles are
written with the fewest digits that read back and always look like doubles.
-/

namespace FilterSql.Json

/-! ## Strings -/

def hexDigit (n : Nat) : Char := Char.ofNat (if n < 10 then 48 + n else 87 + n)

def escapeChar (c : Char) : List Char :=
  if c = '"' then ['\\', '"']
  else if c = '\\' then ['\\', '\\']
  else if c = '\x08' then ['\\', 'b']
  else if c = '\t' then ['\\', 't']
  else if c = '\n' then ['\\', 'n']
  else if c = '\x0c' then ['\\', 'f']
  else if c = '\r' then ['\\', 'r']
  else if c.toNat < 0x20 then
    ['\\', 'u', '0', '0', hexDigit (c.toNat / 16), hexDigit (c.toNat % 16)]
  else [c]

def quoteChars (text : List Char) : List Char :=
  '"' :: text.flatMap escapeChar ++ ['"']

/-! ## Numbers -/

/--
Leading exponents from -5 to 15 are written out, others in scientific form; a
whole double written out ends in `.0`.
-/
def numberLayout : Layout where
  isPositional := fun leading => -5 ≤ leading && leading ≤ 15
  wholeEnd := ['.', '0']
  tie := .even

def floatChars (x : Double) : List Char :=
  if x.isFinite then numberLayout.write x else "null".toList

def floatText (x : Double) : String := String.ofList (floatChars x)

/-! ## Values -/

mutual

def chars : Json → List Char
  | .null => "null".toList
  | .bool value => (if value then "true" else "false").toList
  | .integer value => (toString value).toList
  | .float value => floatChars value
  | .string value => quoteChars value.toList
  | .array items => '[' :: itemChars items ++ [']']
  | .object members => '{' :: memberChars members ++ ['}']

def itemChars : List Json → List Char
  | [] => []
  | [item] => item.chars
  | item :: rest => item.chars ++ ',' :: itemChars rest

def memberChars : List (String × Json) → List Char
  | [] => []
  | [(name, value)] => quoteChars name.toList ++ ':' :: value.chars
  | (name, value) :: rest =>
    quoteChars name.toList ++ ':' :: value.chars ++ ',' :: memberChars rest

end

def text (value : Json) : String := String.ofList value.chars

end FilterSql.Json
