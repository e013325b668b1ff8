import TripPlanner.Text.Digits
import TripPlanner.Value

/-!
# JSON texts

Self-describing values as JSON text. A number that is written without point and exponent and fits
64 bits is an integer, every other one a decimal. Of two values for one key of an object the later
one counts.
-/

namespace TripPlanner

namespace Json

/-- The text that is left to read. -/
abbrev Rest := List Char

/-! ## Reading -/

/-- Passes over blanks between tokens. -/
def skipBlank (cs : Rest) : Rest :=
  cs.dropWhile fun c => c = ' ' || c = '\t' || c = '\n' || c = '\r'

/-- The character that a backslash and a letter stand for. -/
def escape? : Char → Option Char
  | '"' => some '"'
  | '\\' => some '\\'
  | '/' => some '/'
  | 'b' => some '\x08'
  | 'f' => some '\x0c'
  | 'n' => some '\n'
  | 'r' => some '\r'
  | 't' => some '\t'
  | _ => none

/-- The character of two halves of a pair of 16-bit units. -/
def ofPair? (high low : Nat) : Option Char :=
  if 0xD800 ≤ high ∧ high < 0xDC00 ∧ 0xDC00 ≤ low ∧ low < 0xE000 then
    some (Char.ofNat (0x10000 + (high - 0xD800) * 0x400 + (low - 0xDC00)))
  else none

/-- The character of a single 16-bit unit. -/
def ofUnit? (n : Nat) : Option Char := if n.isValidChar then some (Char.ofNat n) else none

/-- Takes the characters of a string from behind its opening quote. -/
def chars? : Nat → Rest → Option (List Char × Rest)
  | 0, _ => none
  | fuel + 1, cs =>
    let more (c : Char) (cs : Rest) := (chars? fuel cs).map fun (body, cs) => (c :: body, cs)
    match cs with
    | [] => none
    | '"' :: cs => some ([], cs)
    | '\\' :: 'u' :: cs => do
      if cs.length < 4 then none
      else
        let n ← Text.ofHex? (cs.take 4)
        match ofUnit? n, cs.drop 4 with
        | some c, cs => more c cs
        | none, '\\' :: 'u' :: cs =>
          if cs.length < 4 then none
          else more (← ofPair? n (← Text.ofHex? (cs.take 4))) (cs.drop 4)
        | none, _ => none
    | '\\' :: c :: cs => do more (← escape? c) cs
    | c :: cs => if c < ' ' then none else more c cs

/-- Takes a string from behind its opening quote. -/
def string? (cs : Rest) : Option (String × Rest) :=
  (chars? (cs.length + 1) cs).map fun (body, cs) => (String.ofList body, cs)

/-- Whether the characters are one digit or more. -/
def isDigits (cs : List Char) : Bool := !cs.isEmpty && cs.all Char.isDigit

/-- Whether a character may stand in a number. -/
def isNumeral (c : Char) : Bool :=
  c.isDigit || c = '-' || c = '+' || c = '.' || c = 'e' || c = 'E'

/-- Reads a number. -/
def number? (cs : List Char) : Option Value :=
  let (negative, body) := match cs with
    | '-' :: cs => (true, cs)
    | cs => (false, cs)
  let parts := Text.literalParts body
  let fraction := parts.fraction.getD []
  let (down, exponent) := Text.sign (parts.exponent.getD ['0'])
  if !isDigits parts.whole || !isDigits exponent || !parts.fraction.all isDigits
      || (parts.whole.head? = some '0' && parts.whole.length != 1) then none
  else
    let n := Text.ofDigits 10 (parts.whole ++ fraction)
    let i : Int := if negative then -Int.ofNat n else n
    let scale := Int.ofNat (Text.ofDigits 10 exponent)
    if parts.fraction.isNone && parts.exponent.isNone && !(negative && n = 0)
        && -(Nat.pow 2 63 : Int) ≤ i && i < Nat.pow 2 64 then some (.int i)
    else some (.decimal (.finite negative n
      ((if down then -scale else scale) - Int.ofNat fraction.length)))

mutual

/-- Takes a value. -/
def value? : Nat → Rest → Option (Value × Rest)
  | 0, _ => none
  | fuel + 1, cs =>
    match skipBlank cs with
    | '"' :: cs => (string? cs).map fun (s, cs) => (.text s, cs)
    | '[' :: cs =>
      match skipBlank cs with
      | ']' :: cs => some (.list [], cs)
      | cs => (items? fuel cs).map fun (items, cs) => (.list items, cs)
    | '\x7b' :: cs =>
      match skipBlank cs with
      | '\x7d' :: cs => some (.record [], cs)
      | cs => (fields? fuel cs).map fun (fields, cs) => (.record fields, cs)
    | 't' :: 'r' :: 'u' :: 'e' :: cs => some (.bool true, cs)
    | 'f' :: 'a' :: 'l' :: 's' :: 'e' :: cs => some (.bool false, cs)
    | 'n' :: 'u' :: 'l' :: 'l' :: cs => some (.null, cs)
    | cs =>
      let numeral := cs.takeWhile isNumeral
      (number? numeral).map fun v => (v, cs.drop numeral.length)

/-- Takes the items of an array up to its closing bracket. -/
def items? : Nat → Rest → Option (List Value × Rest)
  | 0, _ => none
  | fuel + 1, cs => do
    let (item, cs) ← value? fuel cs
    match skipBlank cs with
    | ',' :: cs =>
      let (items, cs) ← items? fuel cs
      return (item :: items, cs)
    | ']' :: cs => return ([item], cs)
    | _ => none

/-- Takes the fields of an object up to its closing brace. -/
def fields? : Nat → Rest → Option (List (String × Value) × Rest)
  | 0, _ => none
  | fuel + 1, cs =>
    match skipBlank cs with
    | '"' :: cs => do
      let (name, cs) ← string? cs
      match skipBlank cs with
      | ':' :: cs =>
        let (v, cs) ← value? fuel cs
        match skipBlank cs with
        | ',' :: cs =>
          let (fields, cs) ← fields? fuel cs
          let isRepeated := fields.any fun field => field.1 = name
          return (if isRepeated then fields else (name, v) :: fields, cs)
        | '\x7d' :: cs => return ([(name, v)], cs)
        | _ => none
      | _ => none
    | _ => none

end

/-- The value that a text stands for. -/
def read? (text : String) : Option Value :=
  let cs := text.toList
  match value? (cs.length + 1) cs with
  | some (v, rest) => if (skipBlank rest).isEmpty then some v else none
  | none => none

/-! ## Writing -/

/-- A character inside a string. -/
def quoted (c : Char) : String :=
  if c = '"' then "\\\""
  else if c = '\\' then "\\\\"
  else if c < ' ' then
    "\\u" ++ String.ofList ((Nat.toDigits 16 c.toNat).leftpad 4 '0')
  else String.ofList [c]

/-- A string with its quotes. -/
def quote (s : String) : String := "\"" ++ String.join (s.toList.map quoted) ++ "\""

/-- A decimal. What is not finite has no JSON form and is null. -/
def decimalText : Decimal → String
  | .finite negative digits exponent =>
    (if negative then "-" else "") ++ toString digits ++ "e" ++ toString exponent
  | .infinite _ => "null"
  | .notANumber _ => "null"

mutual

/-- A value as JSON text, on one line. -/
def write : Value → String
  | .null => "null"
  | .bool b => if b then "true" else "false"
  | .int i => toString i
  | .decimal d => decimalText d
  | .text s => quote s
  | .list items => "[" ++ ",".intercalate (writeItems items) ++ "]"
  | .record fields => "\x7b" ++ ",".intercalate (writeFields fields) ++ "\x7d"

/-- The items of an array. -/
def writeItems : List Value → List String
  | [] => []
  | item :: rest => write item :: writeItems rest

/-- The fields of an object. -/
def writeFields : List (String × Value) → List String
  | [] => []
  | (name, v) :: rest => (quote name ++ ":" ++ write v) :: writeFields rest

end

end Json

end TripPlanner
