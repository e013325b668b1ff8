import TripPlanner.Search.Context

/-!
# Itineraries

The way from the origin to a final state, with what the traveller should be warned of.
-/

namespace TripPlanner

/-- A warning that belongs to an itinerary. -/
inductive Alert where
  /-- The car is left at a car park that is almost full. -/
  | carParkFewSpaces (carPark : String)
  /-- The rented bicycle is left outside a station, and the rental goes on. -/
  | freeFloatingDropOff
  deriving DecidableEq, Repr

/-- The record of a warning. -/
def Alert.toValue : Alert → Value
  | .carParkFewSpaces id =>
    .record [("type", .text "CAR_PARK_FEW_SPACES"), ("car_park_id", .text id)]
  | .freeFloatingDropOff => .record [("type", .text "FREE_FLOATING_DROP_OFF")]

/-- A way from the origin to the destination. -/
structure Itinerary (R : Type) where
  /-- The states on the way. -/
  states : List (State R)
  /-- The edges between them. -/
  edges : List EdgeIndex
  /-- Metres driven by car along streets. -/
  streetMeters : R
  /-- What to warn of. -/
  alerts : List Alert
  /-- When the trip starts. -/
  departure : Option LocalTime

namespace Context

variable {R : Type}

/-- The edge that a state came over. -/
def backEdge? (ctx : Context R) (s : State R) : Option (Edge R) :=
  s.back.bind fun back => ctx.graph.edge? back.index

/-- Metres driven by car along a street to come to a state. -/
def drivenMeters? (ctx : Context R) (s : State R) : Option R :=
  if s.mode = some .car then ((ctx.backEdge? s).bind Edge.street?).map Street.length else none

/-- The warning that belongs to a state: it has just left a car at a car park that is almost
full. -/
def parkingAlert? (ctx : Context R) (s : State R) : Option Alert :=
  match (ctx.backEdge? s).map Edge.kind, (ctx.graph.vertex? s.vertex).map Vertex.kind with
  | some .parkAndRide, some (.parkAndRide id) =>
    let park := ctx.graph.services.carParks.bind fun registry => registry.record? id
    if park.any CarPark.hasFewSpacesAvailable then some (.carParkFewSpaces id) else none
  | _, _ => none

/-- The warning that belongs to the end of a trip: a rented bicycle is left while the rental goes
on. -/
def rentalAlert? (ctx : Context R) (plane : Plane) : Option Alert :=
  match plane.rented, ctx.graph.services.rental with
  | some networks, some service =>
    if service.alertsFreeFloating networks then some .freeFloatingDropOff else none
  | _, _ => none

/-- The itinerary over the given states. -/
def itineraryOver [Quantity R] (ctx : Context R) (states : List (State R)) : Itinerary R where
  states := states
  edges := states.filterMap fun s => s.back.map BackEdge.index
  streetMeters := Quantity.sum (states.filterMap ctx.drivenMeters?)
  alerts := states.filterMap ctx.parkingAlert?
    ++ (states.getLast?.bind fun s => ctx.rentalAlert? s.plane).toList
  departure := ctx.request.departure

/-- The itinerary to a state. -/
def itineraryTo [Quantity R] (ctx : Context R) (store : StateStore R) (id : StateId) :
    Itinerary R :=
  ctx.itineraryOver ((store.chainTo id).filterMap store.get?)

end Context

namespace Itinerary

variable {R : Type}

/-- Something of the last state, zero if there is none. -/
def ofLast [Zero R] (itinerary : Itinerary R) (f : State R → R) : R :=
  (itinerary.states.getLast?.map f).getD 0

/-- Seconds from start to arrival. -/
def duration [Zero R] (itinerary : Itinerary R) : R := itinerary.ofLast State.elapsed

/-- The weight of the trip. -/
def weight [Zero R] (itinerary : Itinerary R) : R := itinerary.ofLast State.weight

/-- Metres walked. -/
def walkDistance [Zero R] (itinerary : Itinerary R) : R := itinerary.ofLast State.walked

/-- The vertices on the way. -/
def vertices (itinerary : Itinerary R) : List VertexIndex := itinerary.states.map State.vertex

/-- Whether the car is left at a car park on the way. -/
def isParkAndRide (itinerary : Itinerary R) : Bool :=
  itinerary.states.getLast?.any fun s => s.plane.carParked

end Itinerary

end TripPlanner
