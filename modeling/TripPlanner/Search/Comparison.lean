import TripPlanner.Search

/-!
# Park-and-ride compared with driving

A park-and-ride request is searched twice: as it is, and as a trip by car only. Park-and-ride trips
that drive at least half as far as the car-only one give way to the car-only trips.
-/

namespace TripPlanner

/-- Keeps the park-and-ride trips that drive less than half of the first car-only trip. If one was
dropped, the car-only trips follow. -/
def filterOut {R α : Type} [Quantity R] (meters : α → R) (parkAndRide carOnly : List α) : List α :=
  match carOnly with
  | [] => parkAndRide
  | first :: _ =>
    let half := meters first / Quantity.ofInt 2
    let kept := parkAndRide.filter fun trip => meters trip < half
    if kept.length < parkAndRide.length then kept ++ carOnly else parkAndRide

namespace Graph

variable {R : Type} [Quantity R] [Geodesy R]

/-- One of the two searches: not to find a path is to find none. -/
def findPathsOrNone (g : Graph R) (request : Request R) :
    Except (Error R) (List (Itinerary R)) :=
  match g.findPaths request with
  | .error .pathNotFound => .ok []
  | result => result

/-- The itineraries for a request, park-and-ride compared with driving if it asks for that. -/
def findPathsComparing (g : Graph R) (request : Request R) :
    Except (Error R) (List (Itinerary R)) :=
  if !request.parkAndRide then g.findPaths request
  else do
    let parkAndRide ← g.findPathsOrNone request
    let carOnly ← g.findPathsOrNone request.carOnly
    let trips := filterOut Itinerary.streetMeters parkAndRide carOnly
    if trips.isEmpty then .error .pathNotFound else .ok trips

end Graph

end TripPlanner
