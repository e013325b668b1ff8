import TripPlanner.Quantity

/-!
# Double precision quantities

Double precision numbers, and what is left where an operation has no result. The undefined keeps a
sign through all that is computed from it, for the sign says at which end of a queue it stands.
-/

namespace TripPlanner

/-- A double precision number, or something undefined. -/
inductive Double where
  /-- A number, possibly infinite. -/
  | number (x : Float)
  /-- No number. -/
  | undefined (negative : Bool)

namespace Double

/-- The result of an operation on numbers. What it leaves undefined is negative. -/
def ofFloat (x : Float) : Double := if x.isNaN then .undefined true else .number x

/-- The double as a machine number, which does not tell the sign of what is undefined. -/
def toFloat : Double → Float
  | .number x => x
  | .undefined _ => 0 / 0

/-- An operation on one number. -/
def map (f : Float → Float) : Double → Double
  | .number x => ofFloat (f x)
  | .undefined negative => .undefined negative

/-- An operation on two numbers. The first operand that is undefined is the result. -/
def map₂ (f : Float → Float → Float) : Double → Double → Double
  | .undefined negative, _ => .undefined negative
  | .number _, .undefined negative => .undefined negative
  | .number x, .number y => ofFloat (f x y)

/-- A comparison of two numbers, which fails for what is undefined. -/
def compares (test : Float → Float → Bool) : Double → Double → Bool
  | .number x, .number y => test x y
  | _, _ => false

/-- The larger of two numbers, or the other operand if one is undefined. -/
def max : Double → Double → Double
  | .undefined _, b => b
  | a, .undefined _ => a
  | .number x, .number y => .number (if x < y then y else x)

/-- The smaller of two numbers, or the other operand if one is undefined. -/
def min : Double → Double → Double
  | .undefined _, b => b
  | a, .undefined _ => a
  | .number x, .number y => .number (if y < x then y else x)

/-- Whether the sign of a number is negative, also that of minus zero. -/
def hasMinus (x : Float) : Bool := x.toBits >>> 63 == 1

/-- Whether `a` ranks at or before `b`: what is undefined and negative first, then the numbers by
size, minus zero before zero, and what is undefined and not negative last. -/
def ranksBefore : Double → Double → Bool
  | .undefined true, _ => true
  | _, .undefined false => true
  | .undefined false, _ => false
  | _, .undefined true => false
  | .number x, .number y => if x == y then hasMinus x || !hasMinus y else x < y

/-- The nearest number of single precision. -/
def toSingle : Double → Double := map fun x => x.toFloat32.toFloat

instance : BEq Double := ⟨compares (· == ·)⟩

instance : LE Double := ⟨fun a b => compares (fun x y => x ≤ y) a b = true⟩

instance : LT Double := ⟨fun a b => compares (fun x y => x < y) a b = true⟩

end Double

instance : Quantity Double where
  zero := .number 0
  add := Double.map₂ (· + ·)
  sub := Double.map₂ (· - ·)
  mul := Double.map₂ (· * ·)
  div := Double.map₂ (· / ·)
  max := Double.max
  min := Double.min
  decidableLE := fun a b => inferInstanceAs (Decidable (Double.compares _ a b = true))
  decidableLT := fun a b => inferInstanceAs (Decidable (Double.compares _ a b = true))
  ofInt := fun i => .number (Float.ofInt i)
  ceil := Double.map Float.ceil
  ranksBefore := Double.ranksBefore

end TripPlanner
