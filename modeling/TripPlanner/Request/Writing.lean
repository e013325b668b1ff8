import TripPlanner.Request
import TripPlanner.Value

/-!
# Writing requests

The record of a request, with all fields that it is read from.
-/

namespace TripPlanner

variable {R : Type}

/-- A location, longitude before latitude. -/
def Point.toLocation (number : R → Value) (p : Point R) : Value :=
  .record [("lon", number p.x), ("lat", number p.y)]

/-- The shares of a triangle. -/
def Triangle.toValue (number : R → Value) (t : Triangle R) : Value :=
  .record [("time", number t.time), ("safety", number t.safety), ("slope", number t.slope)]

/-- The names of the modes in a set. -/
def ModeSet.toValue (modes : ModeSet) : Value := .ofList (fun mode => .text mode.name) modes.toList

/-- The names of the networks in a set. -/
def NetworkSet.toValue (networks : NetworkSet) : Value := .ofList Value.text networks.names

/-- The record of a request, its numbers written as told. -/
def Request.fields (number : R → Value) (request : Request R) : List (String × Value) :=
  [("from", .ofOption (Point.toLocation number) request.origin),
    ("to", .ofOption (Point.toLocation number) request.destination),
    ("modes", request.modes.toValue),
    ("date_time", .ofOption (fun t => .text t.toText) request.departure),
    ("park_and_ride", .bool request.parkAndRide),
    ("bike_and_ride", .bool request.bikeAndRide),
    ("allow_bike_rental", .bool request.allowRental),
    ("allowed_bike_rental_networks", request.allowedNetworks.toValue),
    ("optimize", .text request.optimize.name),
    ("triangle", request.triangle.toValue number),
    ("walk_speed", number request.walkSpeed),
    ("bike_speed", number request.bikeSpeed),
    ("walk_reluctance", number request.walkReluctance),
    ("drive_on_right", .bool request.driveOnRight),
    ("num_itineraries", .ofNat request.numItineraries),
    ("use_car_park_availability_information", .bool request.useCarParkAvailability),
    ("dominance", .text request.dominance.name),
    ("heuristic", .text request.heuristic.name),
    ("max_search_steps", .ofNat request.maxSearchSteps)]

end TripPlanner
