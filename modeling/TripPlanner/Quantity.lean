/-!
# Quantities

Coordinates, lengths, times and weights are numbers of one type `R`. The planner uses nothing of
it but the operations of `Quantity R`, so that it can run on double precision numbers and be
reasoned about over an ordered field.
-/

namespace TripPlanner

/-- The operations on numbers that trip planning needs. -/
class Quantity (R : Type) extends Zero R, Add R, Sub R, Mul R, Div R, LE R, LT R, Max R, Min R where
  /-- Comparison is decidable. -/
  decidableLE : DecidableLE R
  /-- Strict comparison is decidable. -/
  decidableLT : DecidableLT R
  /-- The number closest to an integer. -/
  ofInt : Int → R
  /-- The least integral number that is not smaller. -/
  ceil : R → R
  /-- Whether the first number may be served no later than the second, in an order that also
  places numbers which `≤` does not compare. -/
  ranksBefore : R → R → Bool

namespace Quantity

variable {R : Type} [Quantity R]

instance (a b : R) : Decidable (a ≤ b) := decidableLE a b

instance (a b : R) : Decidable (a < b) := decidableLT a b

/-- The number one. -/
def one : R := ofInt 1

/-- The quotient of two integers. -/
def ratio (numerator denominator : Int) : R := ofInt numerator / ofInt denominator

/-- The sum of the numbers, added up from the left. -/
def sum (xs : List R) : R := xs.foldl (· + ·) 0

end Quantity

end TripPlanner
