import TripPlanner.Graph

/-!
# Crossings

How long it takes to get from one street onto the next across a vertex. Angles are numbers of 32
bits, and so are their differences.
-/

namespace TripPlanner

/-- The direction of a turn. -/
inductive TurnDirection where
  | straight
  | right
  | left
  deriving DecidableEq, Repr

/-- The written name of a direction. -/
def TurnDirection.name : TurnDirection → String
  | .straight => "Straight"
  | .right => "Right"
  | .left => "Left"

/-- What is left of a number in 32 bits: beyond the range they have, it comes in again from the
other end. -/
def wrapped (n : Int) : Int := n.bmod Int32.size

/-- The clockwise angle from the end of a street to the start of the next one, from 0 up to 360.
Where traffic keeps to the left, what is left of the full circle. -/
def turnAngle {R : Type} (driveOnRight : Bool) (source target : Street R) : Int :=
  let angle := wrapped (target.startAngle - source.endAngle) % 360
  if driveOnRight then angle else 360 - angle

/-- The direction of the turn from one street onto the next. -/
def turnDirection {R : Type} (driveOnRight : Bool) (source target : Street R) : TurnDirection :=
  let angle := turnAngle driveOnRight source target
  if 45 ≤ angle ∧ angle < 135 then .right
  else if 225 ≤ angle ∧ angle < 315 then .left
  else .straight

namespace Crossing

variable {R : Type} [Quantity R]

/-- The car speed above which two roads are taken to be joined without delay. -/
def freeFlowSpeed : R := Quantity.ofInt 25

/-- Seconds at a traffic light by car. -/
def secondsAtLight : TurnDirection → R
  | .right => Quantity.ofInt 15
  | .left => Quantity.ofInt 15
  | .straight => Quantity.ofInt 15

/-- Seconds without a traffic light by car. -/
def secondsWithoutLight : TurnDirection → R
  | .right => Quantity.ofInt 8
  | .left => Quantity.ofInt 8
  | .straight => Quantity.ofInt 5

/-- The delay of a turn by car. -/
def drivingDelay (driveOnRight trafficLight : Bool) (source target : Street R) : R :=
  let direction := turnDirection driveOnRight source target
  if trafficLight then secondsAtLight direction
  else if freeFlowSpeed < source.carSpeed ∧ freeFlowSpeed < target.carSpeed then 0
  else secondsWithoutLight direction

/-- How far the end of the next street deviates from the start of the one before, in degrees; what
is over half a circle is taken from the full one. -/
def deviation (source target : Street R) : Int :=
  let turn := wrapped (wrapped (target.endAngle - source.startAngle)).natAbs
  if turn > 180 then 360 - turn else turn

/-- The delay of a turn on foot: it grows with the deviation and shrinks with the speed. -/
def baseDelay (source target : Street R) (speed : R) : R :=
  Quantity.ofInt (deviation source target) / Quantity.ofInt 20 / speed

/-- The delay of a turn by bicycle: turns off the straight way are made with care. -/
def cyclingDelay (driveOnRight : Bool) (source target : Street R) (speed : R) : R :=
  let base := baseDelay source target speed
  match turnDirection driveOnRight source target with
  | .right => base * Quantity.ofInt 5
  | .left => base * Quantity.ofInt 5 * Quantity.ofInt 3
  | .straight => base

/-- Seconds spent on crossing a vertex from one street onto the next, in the given mode and at the
given speed on the next street. -/
def delay (driveOnRight : Bool) (g : Graph R) (v : VertexIndex) (source target : Street R)
    (mode : Mode) (speed : R) : R :=
  if g.isFreeFlowing v then 0
  else match mode with
    | .car => drivingDelay driveOnRight (g.hasTrafficLight v) source target
    | .bicycle => cyclingDelay driveOnRight source target speed
    | .walk => baseDelay source target speed
    | .transit => baseDelay source target speed

end Crossing

end TripPlanner
