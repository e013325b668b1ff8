import TripPlanner.Decimal

/-!
# Doubles taken apart

A finite double is a sign and a whole number of powers of two. All decimal texts of doubles are
computed from these parts in exact arithmetic.
-/

namespace TripPlanner

/-- The number `significand * 2 ^ exponent`, negated if so marked. -/
structure Dyadic where
  /-- The sign; zero has one too. -/
  negative : Bool
  /-- The scaled digits. -/
  significand : Nat
  /-- The power of two that scales them. -/
  exponent : Int
  deriving DecidableEq, Repr

namespace Dyadic

/-- The least exponent of a double, that of the numbers around zero. -/
def minExponent : Int := -1074

/-- The least significand of a double above the numbers around zero. -/
def leadingBit : Nat := Nat.pow 2 52

/-- The parts of a finite double. -/
def ofDouble? : Double → Option Dyadic
  | .undefined _ => none
  | .number x =>
    let bits := x.toBits.toNat
    let negative := bits / Nat.pow 2 63 == 1
    let fraction := bits % leadingBit
    match bits / leadingBit % Nat.pow 2 11 with
    | 2047 => none
    | 0 => some ⟨negative, fraction, minExponent⟩
    | biased => some ⟨negative, leadingBit + fraction, Int.ofNat biased - 1 + minExponent⟩

/-- The size of the number as a quotient of natural numbers. -/
def quotient (d : Dyadic) : Nat × Nat :=
  if 0 ≤ d.exponent then (d.significand * Nat.pow 2 d.exponent.toNat, 1)
  else (d.significand, Nat.pow 2 (-d.exponent).toNat)

/-- The number in decimal, exactly. -/
def toDecimal (d : Dyadic) : Decimal :=
  if 0 ≤ d.exponent then .finite d.negative (d.significand * Nat.pow 2 d.exponent.toNat) 0
  else .finite d.negative (d.significand * Nat.pow 5 (-d.exponent).toNat) d.exponent

end Dyadic

/-- The text of a double without parts: an infinity, or something undefined of either sign. -/
def nonFiniteText : Double → String
  | .undefined _ => "NaN"
  | .number x => if x < 0 then "-inf" else "inf"

end TripPlanner
