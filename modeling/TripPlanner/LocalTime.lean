import TripPlanner.Text.Blank
import TripPlanner.Text.Digits

/-!
# Local date and time

A calendar date with a time of day and no zone, read from and written in the form
`2024-05-01T08:00:00.5`. The fraction is written with three, six or nine digits, the fewest that
are exact, and left out if it is zero.
-/

namespace TripPlanner

/-- A date of the Gregorian calendar with a time of day. -/
structure LocalTime where
  /-- The year, possibly before the common era. -/
  year : Int
  /-- The month, from 1. -/
  month : Nat
  /-- The day of the month, from 1. -/
  day : Nat
  /-- The hour, up to 23. -/
  hour : Nat
  /-- The minute, up to 59. -/
  minute : Nat
  /-- The second, 60 only if it is a leap second. -/
  second : Nat
  /-- Billionths of a second. -/
  nanosecond : Nat
  deriving DecidableEq, Repr

namespace LocalTime

/-- Whether the year has a 29th of February. -/
def isLeapYear (year : Int) : Bool := year % 4 = 0 && (year % 100 != 0 || year % 400 = 0)

/-- The number of days of a month. -/
def daysIn (year : Int) (month : Nat) : Nat :=
  if month = 2 then (if isLeapYear year then 29 else 28)
  else if month ∈ [4, 6, 9, 11] then 30 else 31

/-- The years that a date can have. -/
def yearRange : Int × Int := (-262143, 262142)

/-- Whether date and time exist. -/
def isValid (t : LocalTime) : Bool :=
  yearRange.1 ≤ t.year && t.year ≤ yearRange.2
    && 1 ≤ t.month && t.month ≤ 12 && 1 ≤ t.day && t.day ≤ daysIn t.year t.month
    && t.hour ≤ 23 && t.minute ≤ 59 && t.second ≤ 60

/-! ## Reading -/

/-- Takes a number of at least one and at most `width` digits, after blank characters. -/
def number? (width : Nat) (cs : List Char) : Option (Nat × List Char) :=
  let cs := Text.trimStart cs
  let digits := (cs.take width).takeWhile Char.isDigit
  if digits.isEmpty then none else some (Text.ofDigits 10 digits, cs.drop digits.length)

/-- Takes a year: four digits, or any number of them after a sign. -/
def year? (cs : List Char) : Option (Int × List Char) :=
  match Text.trimStart cs with
  | '-' :: rest => signed rest fun n => -Int.ofNat n
  | '+' :: rest => signed rest Int.ofNat
  | cs => (number? 4 cs).map fun (n, rest) => (Int.ofNat n, rest)
where
  /-- The digits after a sign. -/
  signed (rest : List Char) (sign : Nat → Int) : Option (Int × List Char) :=
    let digits := rest.takeWhile Char.isDigit
    if digits.isEmpty then none else some (sign (Text.ofDigits 10 digits), rest.drop digits.length)

/-- Takes a fixed character, after blank characters. -/
def mark? (c : Char) (cs : List Char) : Option (List Char) :=
  match Text.trimStart cs with
  | d :: rest => if c = d then some rest else none
  | [] => none

/-- Takes a fraction of a second, if there is one. Digits after the ninth are passed over. -/
def fraction? : List Char → Option (Nat × List Char)
  | '.' :: rest =>
    let digits := rest.takeWhile Char.isDigit
    if digits.isEmpty then none
    else some (Text.ofDigits 10 ((digits.take 9).rightpad 9 '0'), rest.drop digits.length)
  | cs => some (0, cs)

/-- Reads a date and time that exists. -/
def ofString? (text : String) : Option LocalTime := do
  let (year, cs) ← year? text.toList
  let (month, cs) ← number? 2 (← mark? '-' cs)
  let (day, cs) ← number? 2 (← mark? '-' cs)
  let (hour, cs) ← number? 2 (← mark? 'T' cs)
  let (minute, cs) ← number? 2 (← mark? ':' cs)
  let (second, cs) ← number? 2 (← mark? ':' cs)
  let (nanosecond, cs) ← fraction? cs
  let time : LocalTime := ⟨year, month, day, hour, minute, second, nanosecond⟩
  if (Text.trimStart cs).isEmpty && time.isValid then some time else none

/-! ## Writing -/

/-- A number with at least `width` digits. -/
def padded (width n : Nat) : String :=
  String.ofList ((Nat.toDigits 10 n).leftpad width '0')

/-- The year with four digits, or with a sign and at least four if four do not do. -/
def yearText (year : Int) : String :=
  if 0 ≤ year ∧ year ≤ 9999 then padded 4 year.toNat
  else (if year < 0 then "-" else "+") ++ padded 4 year.natAbs

/-- The fraction of a second with its point. -/
def fractionText (nanosecond : Nat) : String :=
  if nanosecond = 0 then ""
  else if nanosecond % 1000000 = 0 then "." ++ padded 3 (nanosecond / 1000000)
  else if nanosecond % 1000 = 0 then "." ++ padded 6 (nanosecond / 1000)
  else "." ++ padded 9 nanosecond

/-- The written form. -/
def toText (t : LocalTime) : String :=
  yearText t.year ++ "-" ++ padded 2 t.month ++ "-" ++ padded 2 t.day ++ "T" ++ padded 2 t.hour
    ++ ":" ++ padded 2 t.minute ++ ":" ++ padded 2 t.second ++ fractionText t.nanosecond

end LocalTime

end TripPlanner
