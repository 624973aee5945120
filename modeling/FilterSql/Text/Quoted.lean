import FilterSql.Text.Unprintable

/-!
# Quoted text in messages

A string as an error message shows it: in double quotes, with everything a
reader could not see or tell apart written as an escape.
-/

namespace FilterSql.Text

def hexChars (n : Nat) : List Char := Nat.toDigits 16 n

def escapeVisible (c : Char) : List Char :=
  if c = '\x00' then ['\\', '0']
  else if c = '\t' then ['\\', 't']
  else if c = '\r' then ['\\', 'r']
  else if c = '\n' then ['\\', 'n']
  else if c = '"' then ['\\', '"']
  else if c = '\\' then ['\\', '\\']
  else if isUnprintable c then
    '\\' :: 'u' :: '\x7b' :: hexChars c.toNat ++ ['\x7d']
  else [c]

def quoted (text : String) : String :=
  String.ofList ('"' :: text.toList.flatMap escapeVisible ++ ['"'])

end FilterSql.Text
