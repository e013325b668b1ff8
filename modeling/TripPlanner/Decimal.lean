import TripPlanner.Quantity.Double

/-!
# Decimal literals

A number as a text writes it: its digits and the power of ten that scales them, before anything
is rounded.
-/

namespace TripPlanner

/-- A number written in decimal. -/
inductive Decimal where
  /-- The digits times ten to the exponent. -/
  | finite (negative : Bool) (digits : Nat) (exponent : Int)
  /-- An infinity. -/
  | infinite (negative : Bool)
  /-- Something undefined. -/
  | notANumber (negative : Bool)
  deriving DecidableEq, Repr

/-- Number types that decimal literals can be read into. -/
class OfDecimal (R : Type) where
  /-- The number closest to the literal. -/
  ofDecimal : Decimal → R

namespace Decimal

/-- The literal of an integer. -/
def ofInt (i : Int) : Decimal := .finite (i < 0) i.natAbs 0

/-- The double closest to a literal. -/
def toDouble : Decimal → Double
  | .finite negative digits exponent =>
    let size := Float.ofScientific digits (exponent < 0) exponent.natAbs
    .number (if negative then -size else size)
  | .infinite negative => .number (if negative then -(1 / 0) else 1 / 0)
  | .notANumber negative => .undefined negative

/-- Whether a literal with digits is too large for a double. -/
def overflows (d : Decimal) : Bool :=
  match d, d.toDouble with
  | .finite .., .number x => x.isInf
  | _, _ => false

end Decimal

instance : OfDecimal Double := ⟨Decimal.toDouble⟩

end TripPlanner
