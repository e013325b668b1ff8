import TripPlanner.LocalTime
import TripPlanner.Toml.Blank
import TripPlanner.Value

/-!
# Scalars of a TOML text

Values that are written as one word without quotes: truth values, numbers and dates.

Numbers may have any size here; who reads a value says how far it reaches. Dates are checked and
left aside, since nothing asks for one: the record that stands for a date has no field that anything
reads.
-/

namespace TripPlanner

namespace Toml

/-! ## Numbers -/

/-- Digits with single underscores between them, taken together. -/
def joinDigits? (isDigit : Char → Bool) : List Char → Option (List Char)
  | [] => none
  | [c] => if isDigit c then some [c] else none
  | c :: '_' :: cs => if isDigit c then (joinDigits? isDigit cs).map (c :: ·) else none
  | c :: cs => if isDigit c then (joinDigits? isDigit cs).map (c :: ·) else none

/-- The digits of a decimal number without needless zeros in front. -/
def wholeDigits? (cs : List Char) : Option (List Char) :=
  match joinDigits? Char.isDigit cs with
  | some ('0' :: _ :: _) => none
  | digits => digits

/-- The exponent of a float. -/
def exponent? (cs : List Char) : Option Int := do
  let (negative, cs) := Text.sign cs
  let n := Int.ofNat (Text.ofDigits 10 (← joinDigits? Char.isDigit cs))
  return if negative then -n else n

/-- A decimal number without its sign: an integer, unless it has a point or an exponent. -/
def unsigned? (negative : Bool) (cs : List Char) : Option Value := do
  let parts := Text.literalParts cs
  let whole ← wholeDigits? parts.whole
  match parts.fraction, parts.exponent with
  | none, none =>
    let n := Int.ofNat (Text.ofDigits 10 whole)
    return .int (if negative then -n else n)
  | fraction, exponent =>
    let fraction ← match fraction with
      | none => some []
      | some digits => joinDigits? Char.isDigit digits
    let exponent ← match exponent with
      | none => some 0
      | some text => exponent? text
    return .decimal (.finite negative (Text.ofDigits 10 (whole ++ fraction))
      (exponent - Int.ofNat fraction.length))

/-- An integer in digits of some base. -/
def based? (base : Nat) (isDigit : Char → Bool) (cs : List Char) : Option Value :=
  (joinDigits? isDigit cs).map fun digits => .int (Text.ofDigits base digits)

/-- A number. -/
def number? (cs : List Char) : Option Value :=
  match cs with
  | '0' :: 'x' :: cs => based? 16 (fun c => (Text.digit? c).isSome) cs
  | '0' :: 'o' :: cs => based? 8 (fun c => '0' ≤ c && c ≤ '7') cs
  | '0' :: 'b' :: cs => based? 2 (fun c => c = '0' || c = '1') cs
  | cs =>
    let (negative, body) := Text.sign cs
    if body = "inf".toList then some (.decimal (.infinite negative))
    else if body = "nan".toList then some (.decimal (.notANumber negative))
    else unsigned? negative body

/-! ## Dates -/

/-- Takes a number of exactly `width` digits up to a bound. -/
def upTo? (bound width : Nat) (cs : Rest) : Option (Nat × Rest) :=
  let digits := cs.take width
  let n := Text.ofDigits 10 digits
  if digits.length = width ∧ digits.all Char.isDigit ∧ n ≤ bound then some (n, cs.drop width)
  else none

/-- Passes over a character. -/
def mark? (c : Char) : Rest → Option Rest
  | [] => none
  | d :: cs => if d = c then some cs else none

/-- Passes over a date that exists. -/
def skipDate? (cs : Rest) : Option Rest := do
  let (year, cs) ← upTo? 9999 4 cs
  let (month, cs) ← upTo? 12 2 (← mark? '-' cs)
  let (day, cs) ← upTo? (LocalTime.daysIn year month) 2 (← mark? '-' cs)
  if month = 0 ∨ day = 0 then none else some cs

/-- Passes over the fraction of a second, if there is one. -/
def skipFraction? : Rest → Option Rest
  | '.' :: cs =>
    let digits := cs.takeWhile Char.isDigit
    if digits.isEmpty then none else some (cs.drop digits.length)
  | cs => some cs

/-- Passes over a time of day, with or without seconds. -/
def skipTime? (cs : Rest) : Option Rest := do
  let (_, cs) ← upTo? 23 2 cs
  let (_, cs) ← upTo? 59 2 (← mark? ':' cs)
  match cs with
  | ':' :: cs => do
    let (_, cs) ← upTo? 60 2 cs
    skipFraction? cs
  | cs => some cs

/-- Passes over the offset of a time zone, if there is one. -/
def skipOffset? (cs : Rest) : Option Rest :=
  match cs with
  | [] => some []
  | c :: cs =>
    if c = 'Z' ∨ c = 'z' then some cs
    else if c = '+' ∨ c = '-' then do
      let (_, cs) ← upTo? 23 2 cs
      let (_, cs) ← upTo? 59 2 (← mark? ':' cs)
      return cs
    else none

/-- Passes over a date that may have a time of day. -/
def skipDateTime? (cs : Rest) : Option Rest := do
  match ← skipDate? cs with
  | [] => return []
  | c :: cs => if c = 'T' ∨ c = 't' ∨ c = ' ' then skipOffset? (← skipTime? cs) else none

/-- Whether a text is a date, a time of day, or both. -/
def isMoment (cs : List Char) : Bool := skipDateTime? cs = some [] || skipTime? cs = some []

/-- The record that stands for a date. -/
def moment (cs : List Char) : Value := .record [("$date", .text (String.ofList cs))]

/-! ## Words -/

/-- Whether a character may stand in a word. -/
def isWord (c : Char) : Bool :=
  c.isAlphanum || c = '_' || c = '+' || c = '-' || c = '.' || c = ':'

/-- The value of a word. -/
def word? (cs : List Char) : Option Value :=
  if cs = "true".toList then some (.bool true)
  else if cs = "false".toList then some (.bool false)
  else if isMoment cs then some (moment cs)
  else number? cs

/-- Takes a word, or two that are a date and a time of day. -/
def scalar? (cs : Rest) : Option (Value × Rest) :=
  let word := cs.takeWhile isWord
  let clock := (cs.drop (word.length + 1)).takeWhile isWord
  let both := cs.take (word.length + 1 + clock.length)
  if isMoment both then some (moment both, cs.drop both.length)
  else (word? word).map (·, cs.drop word.length)

end Toml

end TripPlanner
