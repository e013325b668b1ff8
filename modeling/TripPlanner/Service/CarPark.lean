import TripPlanner.Decimal.Fixed
import TripPlanner.Geodesy
import TripPlanner.Value

/-!
# Car parks

Records of a car park feed. Two records with the same id describe one car park at different times.
-/

namespace TripPlanner

/-- A car park as its feed describes it. -/
structure CarPark (R : Type) where
  /-- Its id, unique over all sources. -/
  id : String
  /-- Its name. -/
  name : String
  /-- Where it lies. -/
  position : Point R
  /-- Free spaces. -/
  spacesAvailable : Nat
  /-- All spaces. -/
  maxCapacity : Nat
  /-- Whether the number of free spaces is live or a rough estimate. -/
  realTimeData : Bool

/-- Whether a car park of the given size is close to full. A small one, below ten spaces, is with
one space left, a large one, above two hundred, with fewer than twenty, and any other with at most
a tenth. -/
def fewSpacesAvailable (spacesAvailable maxCapacity : Nat) : Bool :=
  if maxCapacity < 10 then spacesAvailable ≤ 1
  else if maxCapacity > 200 then spacesAvailable < 20
  else 10 * spacesAvailable ≤ maxCapacity

namespace CarPark

variable {R : Type}

/-- The capacity of car parks that do not tell it. -/
def unknownCapacity : Nat := Nat.pow 2 32 - 1

/-- The car park with the given size and free spaces. -/
def withCapacity (park : CarPark R) (maxCapacity spacesAvailable : Nat) : CarPark R :=
  { park with maxCapacity := maxCapacity, spacesAvailable := spacesAvailable }

/-- Whether there is no free space. -/
def isFull (park : CarPark R) : Bool := park.spacesAvailable = 0

/-- Whether the car park is close to full. -/
def hasFewSpacesAvailable (park : CarPark R) : Bool :=
  fewSpacesAvailable park.spacesAvailable park.maxCapacity

/-- Whether two records describe the same car park. -/
def same (a b : CarPark R) : Bool := a.id = b.id

/-- A line that names the car park and its place. -/
def describe (park : CarPark Double) : String :=
  "Car park " ++ park.name ++ " at " ++ Fixed.render 6 park.position.y ++ ", "
    ++ Fixed.render 6 park.position.x

/-- Reads the record of a feed. Capacities default to unknown, and data to live. -/
def ofValue? [OfDecimal R] (v : Value) : Option (CarPark R) := do
  let fields ← Fields.of? .json
    ["id", "name", "x", "y", "spaces_available", "max_capacity", "real_time_data"] v
  let id ← fields.required "id" Value.toText?
  let name ← fields.withDefault "name" "" Value.toText?
  let x ← fields.required "x" Value.toQuantity?
  let y ← fields.required "y" Value.toQuantity?
  let spacesAvailable ← fields.withDefault "spaces_available" unknownCapacity (Value.toNat? 32)
  let maxCapacity ← fields.withDefault "max_capacity" unknownCapacity (Value.toNat? 32)
  let realTimeData ← fields.withDefault "real_time_data" true Value.toBool?
  return ⟨id, name, ⟨x, y⟩, spacesAvailable, maxCapacity, realTimeData⟩

/-- The record of a car park, its numbers written as told. -/
def fields (number : R → Value) (park : CarPark R) : List (String × Value) :=
  [("id", .text park.id), ("name", .text park.name), ("x", number park.position.x),
    ("y", number park.position.y), ("spaces_available", .ofNat park.spacesAvailable),
    ("max_capacity", .ofNat park.maxCapacity), ("real_time_data", .bool park.realTimeData)]

end CarPark

end TripPlanner
