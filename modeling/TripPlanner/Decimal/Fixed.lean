import TripPlanner.Decimal.Dyadic

/-!
# Fixed places

A double with a fixed number of digits after the point, rounded on its exact value, halves to the
even neighbour.
-/

namespace TripPlanner

namespace Fixed

/-- The whole number closest to a quotient, the even one of two. -/
def roundQuotient (numerator denominator : Nat) : Nat :=
  let whole := numerator / denominator
  let rest := 2 * (numerator % denominator)
  if rest < denominator then whole
  else if denominator < rest then whole + 1
  else whole + whole % 2

/-- A whole number of units of the last place, with the point put in. -/
def place (places units : Nat) : String :=
  let digits := (Nat.toDigits 10 units).leftpad (places + 1) '0'
  let point := digits.length - places
  String.ofList (digits.take point ++ '.' :: digits.drop point)

/-- The size of a dyadic number in units of the last place. -/
def units (places : Nat) (d : Dyadic) : Nat :=
  let (numerator, denominator) := d.quotient
  roundQuotient (numerator * Nat.pow 10 places) denominator

/-- A double with the given number of places, its sign kept even if all digits are zero. -/
def render (places : Nat) (x : Double) : String :=
  match Dyadic.ofDouble? x with
  | none => nonFiniteText x
  | some d => (if d.negative then "-" else "") ++ place places (units places d)

/-- Like `render`, but without the sign if all digits are zero. -/
def renderUnsignedZero (places : Nat) (x : Double) : String :=
  match Dyadic.ofDouble? x with
  | none => nonFiniteText x
  | some d =>
    let n := units places d
    (if d.negative && n != 0 then "-" else "") ++ place places n

end Fixed

end TripPlanner
