import TripPlanner.Request
import TripPlanner.Value

/-!
# Reading requests

Requests and their parts are read from self-describing values. A field of a request that is left
out keeps what the request starts from.
-/

namespace TripPlanner

variable {R : Type} [Quantity R] [OfDecimal R] (format : Format)

/-- Reads a set of modes from a list of their names. -/
def ModeSet.ofValue? (v : Value) : Option ModeSet :=
  (v.toList? fun item => item.toChoice? format Mode.all Mode.name).map .ofList

/-- Reads a set of networks from a list of their names. -/
def NetworkSet.ofValue? (v : Value) : Option NetworkSet :=
  (v.toList? Value.toText?).map .ofList

/-- Reads a location, longitude before latitude. -/
def Point.ofLocation? (v : Value) : Option (Point R) := do
  let fields ← Fields.of? format ["lon", "lat"] v
  return ⟨← fields.required "lon" Value.toQuantity?, ← fields.required "lat" Value.toQuantity?⟩

/-- Reads the shares of a triangle, all of which have to be there. -/
def Triangle.ofValue? (v : Value) : Option (Triangle R) := do
  let fields ← Fields.of? format ["time", "safety", "slope"] v
  return ⟨← fields.required "time" Value.toQuantity?, ← fields.required "safety" Value.toQuantity?,
    ← fields.required "slope" Value.toQuantity?⟩

/-- Reads a date and time. -/
def LocalTime.ofValue? (v : Value) : Option LocalTime := v.toText?.bind LocalTime.ofString?

/-- The names of the fields of a request, in order. -/
def Request.fieldNames : List String :=
  ["from", "to", "modes", "date_time", "park_and_ride", "bike_and_ride", "allow_bike_rental",
    "allowed_bike_rental_networks", "optimize", "triangle", "walk_speed", "bike_speed",
    "walk_reluctance", "drive_on_right", "num_itineraries",
    "use_car_park_availability_information", "dominance", "heuristic", "max_search_steps"]

/-- Reads a request. -/
def Request.ofValue? (v : Value) : Option (Request R) := do
  let fields ← Fields.of? format fieldNames v
  let base : Request R := .default
  let flag (name : String) (default : Bool) := fields.withDefault name default Value.toBool?
  let number (name : String) (default : R) := fields.withDefault name default Value.toQuantity?
  let count (name : String) (default : Nat) := fields.withDefault name default (Value.toNat? 64)
  return {
    origin := ← fields.withDefault "from" none (Value.toOption? (Point.ofLocation? format))
    destination := ← fields.withDefault "to" none (Value.toOption? (Point.ofLocation? format))
    modes := ← fields.withDefault "modes" base.modes (ModeSet.ofValue? format)
    departure := ← fields.withDefault "date_time" none (Value.toOption? LocalTime.ofValue?)
    parkAndRide := ← flag "park_and_ride" base.parkAndRide
    bikeAndRide := ← flag "bike_and_ride" base.bikeAndRide
    allowRental := ← flag "allow_bike_rental" base.allowRental
    allowedNetworks := ← fields.withDefault "allowed_bike_rental_networks" base.allowedNetworks
      NetworkSet.ofValue?
    optimize := ← fields.withDefault "optimize" base.optimize
      (Value.toChoice? format Optimize.all Optimize.name)
    triangle := ← fields.withDefault "triangle" base.triangle
      (Triangle.ofValue? format)
    walkSpeed := ← number "walk_speed" base.walkSpeed
    bikeSpeed := ← number "bike_speed" base.bikeSpeed
    walkReluctance := ← number "walk_reluctance" base.walkReluctance
    driveOnRight := ← flag "drive_on_right" base.driveOnRight
    numItineraries := ← count "num_itineraries" base.numItineraries
    useCarParkAvailability := ← flag "use_car_park_availability_information"
      base.useCarParkAvailability
    dominance := ← fields.withDefault "dominance" base.dominance
      (Value.toChoice? format DominanceRule.all DominanceRule.name)
    heuristic := ← fields.withDefault "heuristic" base.heuristic
      (Value.toChoice? format Heuristic.all Heuristic.name)
    maxSearchSteps := ← count "max_search_steps" base.maxSearchSteps }

end TripPlanner
