import TripPlanner.Error
import TripPlanner.LocalTime
import TripPlanner.Service.NetworkSet

/-!
# Requests

What a traveller asks for: the ends of the trip, the modes, and how costs are weighed.
-/

namespace TripPlanner

/-- What makes a street good to cycle on. -/
inductive Optimize where
  /-- Time. -/
  | quick
  /-- Safety. -/
  | safe
  /-- Time, safety and slope in given shares. -/
  | triangle
  /-- Safety, and greenways all the more. -/
  | greenways
  deriving DecidableEq, Repr

/-- When a state makes another one at the same vertex needless. -/
inductive DominanceRule where
  /-- It costs no more. -/
  | minimumWeight
  /-- It arrives no later. -/
  | earliestArrival
  /-- It has walked no farther. -/
  | leastWalk
  /-- It neither costs more nor arrives later, up to some slack. -/
  | pareto
  deriving DecidableEq, Repr

/-- How the weight that is still to come is estimated. -/
inductive Heuristic where
  /-- Not at all. -/
  | trivial
  /-- By the distance along the ground, at the highest speed and the lowest weight. -/
  | euclidean
  deriving DecidableEq, Repr

namespace Optimize

/-- All choices. -/
def all : List Optimize := [.quick, .safe, .triangle, .greenways]

/-- The written name of a choice. -/
def name : Optimize → String
  | .quick => "QUICK"
  | .safe => "SAFE"
  | .triangle => "TRIANGLE"
  | .greenways => "GREENWAYS"

end Optimize

namespace DominanceRule

/-- All rules. -/
def all : List DominanceRule := [.minimumWeight, .earliestArrival, .leastWalk, .pareto]

/-- The written name of a rule. -/
def name : DominanceRule → String
  | .minimumWeight => "MINIMUM_WEIGHT"
  | .earliestArrival => "EARLIEST_ARRIVAL"
  | .leastWalk => "LEAST_WALK"
  | .pareto => "PARETO"

end DominanceRule

namespace Heuristic

/-- All heuristics. -/
def all : List Heuristic := [.trivial, .euclidean]

/-- The written name of a heuristic. -/
def name : Heuristic → String
  | .trivial => "TRIVIAL"
  | .euclidean => "EUCLIDEAN"

end Heuristic

/-- Shares of time, safety and slope. -/
structure Triangle (R : Type) where
  /-- The share of travel time. -/
  time : R
  /-- The share of safety. -/
  safety : R
  /-- The share of slope. -/
  slope : R
  deriving DecidableEq, BEq

namespace Triangle

variable {R : Type} [Quantity R]

/-- Equal shares. -/
def equal : Triangle R := ⟨Quantity.ratio 1 3, Quantity.ratio 1 3, Quantity.ratio 1 3⟩

/-- How far the sum of shares may be off one. -/
def tolerance : R := Quantity.ratio 1 100000

/-- Whether the shares add up to one, within the tolerance. -/
def isNormalized (t : Triangle R) : Bool :=
  let excess := t.time + t.safety + t.slope - Quantity.one
  0 - tolerance ≤ excess && excess ≤ tolerance

/-- Shares that add up to one: the given ones if they do, else the parts of the positive ones in
their sum, or equal shares if none is positive. -/
def normalized (t : Triangle R) : Triangle R :=
  if t.isNormalized then t
  else
    let time := max t.time 0
    let safety := max t.safety 0
    let slope := max t.slope 0
    let total := time + safety + slope
    if 0 < total then ⟨time / total, safety / total, slope / total⟩ else equal

end Triangle

/-- What a traveller asks for. -/
structure Request (R : Type) where
  /-- Where the trip starts. -/
  origin : Option (Point R)
  /-- Where the trip ends. -/
  destination : Option (Point R)
  /-- The modes that may be used. -/
  modes : ModeSet
  /-- When the trip starts. -/
  departure : Option LocalTime
  /-- Drive to a car park and go on from there without the car. -/
  parkAndRide : Bool
  /-- Cycle to a bicycle park and go on from there without the bicycle. -/
  bikeAndRide : Bool
  /-- Whether a bicycle may be rented. -/
  allowRental : Bool
  /-- The rental networks that may be used, all if the set is empty. -/
  allowedNetworks : NetworkSet
  /-- What makes a street good to cycle on. -/
  optimize : Optimize
  /-- The shares that `Optimize.triangle` weighs by. -/
  triangle : Triangle R
  /-- Metres per second on foot. -/
  walkSpeed : R
  /-- Metres per second by bicycle. -/
  bikeSpeed : R
  /-- The weight of a second on foot. -/
  walkReluctance : R
  /-- Whether traffic keeps to the right. -/
  driveOnRight : Bool
  /-- The number of itineraries after which the search ends. -/
  numItineraries : Nat
  /-- Whether car parks that report no free space are passed by. -/
  useCarParkAvailability : Bool
  /-- When a state makes another one needless. -/
  dominance : DominanceRule
  /-- How the weight that is still to come is estimated. -/
  heuristic : Heuristic
  /-- The number of states after which the search is given up. -/
  maxSearchSteps : Nat
  deriving BEq

namespace Request

variable {R : Type} [Quantity R]

/-- The options that a request starts from. -/
def default : Request R where
  origin := none
  destination := none
  modes := .pedestrian
  departure := none
  parkAndRide := false
  bikeAndRide := false
  allowRental := false
  allowedNetworks := .empty
  optimize := .quick
  triangle := .equal
  walkSpeed := Quantity.ratio 133 100
  bikeSpeed := Quantity.ofInt 5
  walkReluctance := Quantity.ofInt 2
  driveOnRight := true
  numItineraries := 3
  useCarParkAvailability := false
  dominance := .pareto
  heuristic := .euclidean
  maxSearchSteps := 1000000

/-- The request as a park-and-ride trip, which takes driving and walking. -/
def withParkAndRide (request : Request R) : Request R :=
  { request with parkAndRide := true, modes := (request.modes.insert .car).insert .walk }

/-- The request as a trip by nothing but the car. -/
def carOnly (request : Request R) : Request R :=
  { request with parkAndRide := false, modes := .ofList [.car] }

/-- Finds the first thing that is not in order. -/
def validate (request : Request R) : Except (Error R) Unit :=
  if request.origin.isNone || request.destination.isNone then
    .error (.invalidRequest .endMissing)
  else if request.modes.isEmpty then .error (.invalidRequest .noMode)
  else if request.walkSpeed ≤ 0 ∨ request.bikeSpeed ≤ 0 then
    .error (.invalidRequest (.speedNotPositive request.walkSpeed request.bikeSpeed))
  else if request.numItineraries = 0 then .error (.invalidRequest .noItinerary)
  else .ok ()

end Request

end TripPlanner
