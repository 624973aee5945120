import FilterSql.Decimal.Literal
import FilterSql.Json.Basic

/-!
# Reading JSON text

Reading goes in two steps, each a fold over its input: characters are gathered
into tokens, and tokens drive a stack of the arrays and objects that are still
open.  A member name that is repeated keeps its first place and takes the last
value.
-/

namespace FilterSql.Json

/-! ## Tokens -/

inductive Token where
  | beginArray
  | endArray
  | beginObject
  | endObject
  | comma
  | colon
  | string (value : String)
  | scalar (value : Json)
  deriving Repr, Inhabited

def punctuation? : Char → Option Token
  | '[' => some .beginArray
  | ']' => some .endArray
  | '{' => some .beginObject
  | '}' => some .endObject
  | ',' => some .comma
  | ':' => some .colon
  | _ => none

/-! ## Numbers -/

def powerOfTen (exponent : Nat) : Double := .ofRatio false (Nat.pow 10 exponent) 1

/-- Division by `10 ^ 308`, the largest power of ten among the doubles, a number of times. -/
def lower (x : Double) : Nat → Double
  | 0 => x
  | count + 1 => lower (x.div (powerOfTen 308)) count

/--
Scales a double by a power of ten, in steps that doubles can hold and with one
rounding in each; `none` when the number grows too large.
-/
def scale? (x : Double) (exponent : Int) : Option Double :=
  if x.isZero then some x
  else if 308 < exponent then none
  else if 0 ≤ exponent then
    let scaled := x.mul (powerOfTen exponent.toNat)
    if scaled.isFinite then some scaled else none
  else if exponent < -700 then some .zero
  else
    let down := (-exponent).toNat
    let steps := (down - 1) / 308
    some ((lower x steps).div (powerOfTen (down - 308 * steps)))

/--
Appends digits to a number for as long as it fits in 64 bits; the second
component is the digits that are left.
-/
def appendDigits (value : Nat) : List Char → Nat × List Char
  | [] => (value, [])
  | c :: rest =>
    let next := 10 * value + Decimal.Literal.digitValue c
    if next < UInt64.size then appendDigits next rest else (value, c :: rest)

/--
The double for `whole.fraction * 10 ^ exponent`: the digits that fit in 64 bits
make a whole number, which is then scaled once.
-/
def readFloat? (negative : Bool) (whole fraction : List Char) (exponent : Int) :
    Option Double :=
  let (value, wholeLeft) := appendDigits 0 whole
  let (value, fractionLeft) := appendDigits value fraction
  let taken := fraction.length - fractionLeft.length
  (scale? (.ofInt value) (exponent + wholeLeft.length - taken)).map fun size =>
    .ofMagnitude negative size.magnitude

/-- A whole number, or the double nearest to it when it needs more than 64 bits. -/
def readInteger? (negative : Bool) (digits : List Char) : Option Json :=
  let size := Decimal.Literal.digitsValue digits
  if negative then
    if 0 < size ∧ size ≤ Double.signBit then some (.integer (-size))
    else (readFloat? true digits [] 0).map .float
  else if size < UInt64.size then some (.integer size)
  else (readFloat? false digits [] 0).map .float

def splitWhole? (text : List Char) : Option (List Char × List Char) :=
  match text.span Char.isDigit with
  | ([], _) => none
  | ('0' :: _ :: _, _) => none
  | (whole, rest) => some (whole, rest)

def number? (text : List Char) : Option Json := do
  let (negative, body) := match text with
    | '-' :: rest => (true, rest)
    | _ => (false, text)
  let (whole, rest) ← splitWhole? body
  match rest with
  | [] => readInteger? negative whole
  | '.' :: rest =>
    let (fraction, rest) := rest.span Char.isDigit
    if fraction.isEmpty then none
    else
      let exponent ← Decimal.Literal.exponent? rest
      (readFloat? negative whole fraction exponent).map .float
  | _ =>
    let exponent ← Decimal.Literal.exponent? rest
    (readFloat? negative whole [] exponent).map .float

def word? (text : List Char) : Option Json :=
  if text = "null".toList then some .null
  else if text = "true".toList then some (.bool true)
  else if text = "false".toList then some (.bool false)
  else number? text

/-! ## Strings -/

/-- A part of a string: a character, or the 16 bits of a `\u` escape. -/
inductive Unit16 where
  | char (c : Char)
  | escape (code : Nat)
  deriving DecidableEq, Repr

def isHighSurrogate (code : Nat) : Bool := 0xD800 ≤ code && code < 0xDC00

def isLowSurrogate (code : Nat) : Bool := 0xDC00 ≤ code && code < 0xE000

/-- The characters of a string; a surrogate without its partner makes it invalid. -/
def characters? : List Unit16 → Option (List Char)
  | [] => some []
  | .char c :: rest => (characters? rest).map (c :: ·)
  | .escape high :: .escape low :: rest =>
    if isHighSurrogate high then
      if isLowSurrogate low then
        let code := 0x10000 + (high - 0xD800) * 0x400 + (low - 0xDC00)
        (characters? rest).map (Char.ofNat code :: ·)
      else none
    else if isLowSurrogate high then none
    else (characters? (.escape low :: rest)).map (Char.ofNat high :: ·)
  | .escape code :: rest =>
    if isHighSurrogate code || isLowSurrogate code then none
    else (characters? rest).map (Char.ofNat code :: ·)

def simpleEscape? : Char → Option Char
  | '"' => some '"'
  | '\\' => some '\\'
  | '/' => some '/'
  | 'b' => some '\x08'
  | 'f' => some '\x0c'
  | 'n' => some '\n'
  | 'r' => some '\r'
  | 't' => some '\t'
  | _ => none

def hexValue? (c : Char) : Option Nat :=
  if c.isDigit then some (c.toNat - 48)
  else if 'a' ≤ c ∧ c ≤ 'f' then some (c.toNat - 87)
  else if 'A' ≤ c ∧ c ≤ 'F' then some (c.toNat - 55)
  else none

/-! ## From characters to tokens -/

/-- Where a scan stands; what has been gathered is held in reverse. -/
inductive Scan where
  | between
  | inWord (word : List Char)
  | inString (units : List Unit16)
  | inEscape (units : List Unit16)
  | inHex (units : List Unit16) (missing code : Nat)
  deriving Repr

structure Scanner where
  /-- The tokens so far, last first. -/
  tokens : List Token
  scan : Scan

def isJsonBlank (c : Char) : Bool := c == ' ' || c == '\t' || c == '\n' || c == '\r'

namespace Scanner

def start : Scanner := ⟨[], .between⟩

def push (tokens : List Token) (token : Token) : Scanner := ⟨token :: tokens, .between⟩

def stepBetween (tokens : List Token) (c : Char) : Option Scanner :=
  if isJsonBlank c then some ⟨tokens, .between⟩
  else if c = '"' then some ⟨tokens, .inString []⟩
  else match punctuation? c with
    | some token => some (push tokens token)
    | none => some ⟨tokens, .inWord [c]⟩

def endsWord (c : Char) : Bool := isJsonBlank c || c == '"' || (punctuation? c).isSome

def step (scanner : Scanner) (c : Char) : Option Scanner :=
  match scanner.scan with
  | .between => stepBetween scanner.tokens c
  | .inWord word =>
    if endsWord c then do
      let value ← word? word.reverse
      stepBetween (.scalar value :: scanner.tokens) c
    else some ⟨scanner.tokens, .inWord (c :: word)⟩
  | .inString units =>
    if c = '"' then
      (characters? units.reverse).map fun text =>
        push scanner.tokens (.string (String.ofList text))
    else if c = '\\' then some ⟨scanner.tokens, .inEscape units⟩
    else if c.toNat < 0x20 then none
    else some ⟨scanner.tokens, .inString (.char c :: units)⟩
  | .inEscape units =>
    if c = 'u' then some ⟨scanner.tokens, .inHex units 4 0⟩
    else (simpleEscape? c).map fun plain =>
      ⟨scanner.tokens, .inString (.char plain :: units)⟩
  | .inHex units missing code =>
    (hexValue? c).map fun value =>
      let code := 16 * code + value
      if missing ≤ 1 then ⟨scanner.tokens, .inString (.escape code :: units)⟩
      else ⟨scanner.tokens, .inHex units (missing - 1) code⟩

def finish (scanner : Scanner) : Option (List Token) :=
  match scanner.scan with
  | .between => some scanner.tokens.reverse
  | .inWord word => (word? word.reverse).map fun value => (.scalar value :: scanner.tokens).reverse
  | _ => none

end Scanner

def tokens? (text : List Char) : Option (List Token) := do
  let scanner ← text.foldlM Scanner.step Scanner.start
  scanner.finish

/-! ## From tokens to a value -/

/-- An array or object that is still open, with its parts so far, last first. -/
inductive Frame where
  | array (items : List Json)
  | member (members : List (String × Json)) (name : String)

inductive Stage where
  | beforeValue (frames : List Frame)
  | openedArray (frames : List Frame)
  | openedObject (frames : List Frame)
  | beforeName (frames : List Frame) (members : List (String × Json))
  | beforeColon (frames : List Frame) (members : List (String × Json)) (name : String)
  | afterValue (frames : List Frame) (value : Json)

namespace Stage

def closeObject (members : List (String × Json)) : Json :=
  .object (members.reverse.foldl (fun kept (name, value) => insert name value kept) [])

/-- A token at the place of a value; at most `limit` containers may be open. -/
def stepValue (limit : Nat) (frames : List Frame) : Token → Option Stage
  | .scalar value => some (.afterValue frames value)
  | .string value => some (.afterValue frames (.string value))
  | .beginArray => if frames.length < limit then some (.openedArray frames) else none
  | .beginObject => if frames.length < limit then some (.openedObject frames) else none
  | _ => none

def step (limit : Nat) : Stage → Token → Option Stage
  | .beforeValue frames, token => stepValue limit frames token
  | .openedArray frames, .endArray => some (.afterValue frames (.array []))
  | .openedArray frames, token => stepValue limit (.array [] :: frames) token
  | .openedObject frames, .endObject => some (.afterValue frames (.object []))
  | .openedObject frames, .string name => some (.beforeColon frames [] name)
  | .beforeName frames members, .string name => some (.beforeColon frames members name)
  | .beforeColon frames members name, .colon => some (.beforeValue (.member members name :: frames))
  | .afterValue (.array items :: frames) value, .comma =>
    some (.beforeValue (.array (value :: items) :: frames))
  | .afterValue (.array items :: frames) value, .endArray =>
    some (.afterValue frames (.array (value :: items).reverse))
  | .afterValue (.member members name :: frames) value, .comma =>
    some (.beforeName frames ((name, value) :: members))
  | .afterValue (.member members name :: frames) value, .endObject =>
    some (.afterValue frames (closeObject ((name, value) :: members)))
  | _, _ => none

def finish : Stage → Option Json
  | .afterValue [] value => some value
  | _ => none

end Stage

def readWithin? (limit : Nat) (text : String) : Option Json := do
  let tokens ← tokens? text.toList
  let stage ← tokens.foldlM (Stage.step limit) (.beforeValue [])
  stage.finish

def maxDepth : Nat := 127

def read? (text : String) : Option Json := readWithin? maxDepth text

end FilterSql.Json
