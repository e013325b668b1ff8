/-!
# Digits

Numbers as digits of some base, and decimal literals taken apart into their digits.
-/

namespace TripPlanner

namespace Text

/-- The number of a hexadecimal digit. -/
def digit? (c : Char) : Option Nat :=
  if c.isDigit then some (c.toNat - '0'.toNat)
  else if 'a' ≤ c ∧ c ≤ 'f' then some (c.toNat - 'a'.toNat + 10)
  else if 'A' ≤ c ∧ c ≤ 'F' then some (c.toNat - 'A'.toNat + 10)
  else none

/-- The number that digits of a base stand for. -/
def ofDigits (base : Nat) (digits : List Char) : Nat :=
  digits.foldl (fun n c => base * n + (digit? c).getD 0) 0

/-- The number that hexadecimal digits stand for. -/
def ofHex? (digits : List Char) : Option Nat :=
  digits.foldlM (fun n c => (digit? c).map (16 * n + ·)) 0

/-- A sign in front of what is left; none counts as plus. -/
def sign (cs : List Char) : Bool × List Char :=
  match cs with
  | '-' :: cs => (true, cs)
  | '+' :: cs => (false, cs)
  | cs => (false, cs)

/-- The parts of a decimal literal behind its sign. -/
structure LiteralParts where
  /-- What stands before the point. -/
  whole : List Char
  /-- What stands behind the point, if there is one. -/
  fraction : Option (List Char)
  /-- What stands behind the mark of the exponent, if there is one. -/
  exponent : Option (List Char)

/-- Takes a literal apart at its first mark of an exponent and the first point before that. -/
def literalParts (cs : List Char) : LiteralParts :=
  let mantissa := cs.takeWhile fun c => c != 'e' && c != 'E'
  let whole := mantissa.takeWhile (· != '.')
  { whole := whole
    fraction := match mantissa.drop whole.length with
      | [] => none
      | _ :: fraction => some fraction
    exponent := match cs.drop mantissa.length with
      | [] => none
      | _ :: exponent => some exponent }

end Text

end TripPlanner
