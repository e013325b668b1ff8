import TripPlanner.Search.Context
import TripPlanner.Search.Crossing

/-!
# Moves

What it takes to follow an edge from a state, and the state that this leads to. A state that cannot
follow the edge has no move.

A move is independent of what the state has cost so far: it depends on the situation of the state,
the edge it came over, and the graph.
-/

namespace TripPlanner

/-- What following an edge adds to a state. -/
structure Move (R : Type) where
  /-- Seconds. -/
  seconds : R
  /-- Weight. -/
  cost : R
  /-- Metres walked. -/
  walked : R
  /-- The mode in which one arrives. -/
  mode : Option Mode
  /-- The situation in which one arrives. -/
  plane : Plane

namespace Move

variable {R : Type} [Quantity R]

/-- The time it takes to leave a car at a car park. -/
def carParkSeconds : R := Quantity.ofInt 60

/-- The weight of leaving a car at a car park. -/
def carParkCost : R := Quantity.ofInt 120

/-- The time it takes to leave one's own bicycle. -/
def bikeParkSeconds : R := Quantity.ofInt 60

/-- The weight of leaving one's own bicycle. -/
def bikeParkCost : R := Quantity.ofInt 120

/-- The time it takes to pick up a rented bicycle. -/
def pickUpSeconds : R := Quantity.ofInt 60

/-- The weight of picking up a rented bicycle. -/
def pickUpCost : R := Quantity.ofInt 120

/-- The time it takes to return a rented bicycle. -/
def dropOffSeconds : R := Quantity.ofInt 30

/-- The weight of returning a rented bicycle. -/
def dropOffCost : R := Quantity.ofInt 30

/-- The weight of boarding, on top of the wait. -/
def boardCost : R := Quantity.ofInt 600

/-- Speed on foot or by bicycle. -/
def ownSpeed (request : Request R) (mode : Mode) : R :=
  if mode = .bicycle then request.bikeSpeed else request.walkSpeed

/-- Going some metres at some speed, along what is not a street. -/
def along (request : Request R) (plane : Plane) (mode : Mode) (length speed : R) : Move R :=
  let time := length / speed
  if mode = .walk then ⟨time, time * request.walkReluctance, length, some mode, plane⟩
  else ⟨time, time, 0, some mode, plane⟩

/-- Staying for some seconds, in another mode and situation afterwards. -/
def staying (seconds cost : R) (mode : Mode) (plane : Plane) : Move R :=
  ⟨seconds, cost, 0, some mode, plane⟩

end Move

/-- The state that a move along an edge leads to from the state numbered `id`. -/
def State.after {R : Type} [Quantity R] (s : State R) (id : StateId) (e : EdgeIndex) (edge : Edge R)
    (move : Move R) : State R where
  vertex := edge.target
  weight := s.weight + move.cost
  elapsed := s.elapsed + move.seconds
  walked := s.walked + move.walked
  parent := some id
  back := some ⟨e, edge.edgeClass⟩
  mode := move.mode
  plane := move.plane

namespace Context

variable {R : Type}

/-- The mode in which a state can go along a street. Cyclists push their bicycle where they may
only walk. -/
def modeOnStreet? (ctx : Context R) (s : State R) (street : Street R) : Option Mode :=
  let mode := s.streetMode ctx.request
  if street.permits.contains mode then some mode
  else if mode = .bicycle && street.permits.walk then some .walk
  else none

/-- Whether a turn restriction forbids a state to go on over an edge. -/
def isTurnForbidden (ctx : Context R) (s : State R) (e : EdgeIndex) (mode : Mode) : Bool :=
  s.backStreet?.any fun source =>
    (ctx.graph.restrictionsAfter source).any fun restriction => restriction.forbids e mode

/-- Whether the car park at a vertex is known to be full. -/
def isCarParkFull (ctx : Context R) (v : VertexIndex) : Bool :=
  match (ctx.graph.vertex? v).map Vertex.kind with
  | some (.parkAndRide id) =>
    (ctx.graph.services.carParks.bind fun registry => registry.record? id).any CarPark.isFull
  | _ => false

/-- The networks of the rental station at a vertex. -/
def stationNetworks? (ctx : Context R) (v : VertexIndex) : Option NetworkSet :=
  match (ctx.graph.vertex? v).map Vertex.kind with
  | some (.rentalStation id) =>
    (ctx.graph.services.rental.bind fun service => service.stations.record? id).map
      Station.networks
  | _ => none

/-- The networks of a station that the request may use. -/
def usableNetworks (ctx : Context R) (networks : NetworkSet) : NetworkSet :=
  if ctx.request.allowedNetworks.isEmpty then networks
  else networks.inter ctx.request.allowedNetworks

variable [Quantity R]

/-- The delay at the start of a street for a state that came over a street too. -/
def turnDelay (ctx : Context R) (s : State R) (street : Street R) (mode : Mode) (speed : R) : R :=
  match s.backStreet?.bind ctx.graph.street? with
  | none => 0
  | some source =>
    Crossing.delay ctx.request.driveOnRight ctx.graph s.vertex source street mode speed

/-- Speed along a street. -/
def streetSpeed (ctx : Context R) (street : Street R) (mode : Mode) : R :=
  if mode = .car then street.carSpeed else Move.ownSpeed ctx.request mode

/-- The weight of some seconds along a street. -/
def streetWeight (ctx : Context R) (street : Street R) (mode : Mode) (time : R) : R :=
  match mode with
  | .walk => time * ctx.request.walkReluctance
  | .bicycle =>
    time * cyclingWeight ctx.request.optimize ctx.request.triangle street.bicycleSafety
  | .car => time
  | .transit => time

/-- The move along a street. -/
def streetMove? (ctx : Context R) (s : State R) (e : EdgeIndex) (street : Street R) :
    Option (Move R) :=
  match ctx.modeOnStreet? s street with
  | none => none
  | some mode =>
    if ctx.isTurnForbidden s e mode then none
    else
      let speed := ctx.streetSpeed street mode
      let time := street.length / speed
      let turn := ctx.turnDelay s street mode speed
      some {
        seconds := time + Quantity.ceil turn
        cost := ctx.streetWeight street mode time + turn
        walked := if mode = .walk then street.length else 0
        mode := some mode
        plane := s.plane }

/-- The move along a link. A car takes it only to or from a car park. -/
def linkMove? (ctx : Context R) (s : State R) (source target : VertexIndex) (length : R) :
    Option (Move R) :=
  let mode := s.streetMode ctx.request
  if mode = .car && !ctx.graph.isParkAndRide source && !ctx.graph.isParkAndRide target then none
  else
    let speed := if mode = .car then defaultCarSpeed else Move.ownSpeed ctx.request mode
    some (.along ctx.request s.plane mode length speed)

/-- Leaving the car at a car park. -/
def parkCar? (ctx : Context R) (s : State R) (v : VertexIndex) : Option (Move R) :=
  if !ctx.request.parkAndRide || s.streetMode ctx.request != .car then none
  else if ctx.request.useCarParkAvailability && ctx.isCarParkFull v then none
  else some (.staying Move.carParkSeconds Move.carParkCost .walk
    { s.plane with carParked := true })

/-- Picking up a bicycle at a rental station. -/
def rentBike? (ctx : Context R) (s : State R) (v : VertexIndex) : Option (Move R) :=
  if !ctx.request.allowRental || s.plane.isRenting || s.streetMode ctx.request != .walk then none
  else
    match ctx.stationNetworks? v with
    | none => none
    | some networks =>
      let usable := ctx.usableNetworks networks
      if usable.isEmpty then none
      else some (.staying Move.pickUpSeconds Move.pickUpCost .bicycle
        { s.plane with rented := some usable })

/-- Returning a bicycle at a rental station of one of its networks. -/
def dropOffBike? (ctx : Context R) (s : State R) (v : VertexIndex) : Option (Move R) :=
  match s.plane.rented, ctx.stationNetworks? v with
  | some renting, some networks =>
    if renting.isDisjoint networks then none
    else some (.staying Move.dropOffSeconds Move.dropOffCost .walk { s.plane with rented := none })
  | _, _ => none

/-- Leaving one's own bicycle at a bicycle park. -/
def parkBike? (ctx : Context R) (s : State R) : Option (Move R) :=
  if !ctx.request.bikeAndRide || s.plane.bikeParked || s.streetMode ctx.request != .bicycle then
    none
  else some (.staying Move.bikeParkSeconds Move.bikeParkCost .walk
    { s.plane with bikeParked := true })

/-- Boarding a transit vehicle. -/
def board? (ctx : Context R) (s : State R) (wait : R) : Option (Move R) :=
  if !ctx.request.modes.transit || s.streetMode ctx.request != .walk then none
  else some (.staying wait (wait + Move.boardCost) .transit { s.plane with everBoarded := true })

/-- The walk between two stops. Two in a row are not made. -/
def transferMove? (ctx : Context R) (s : State R) (length : R) : Option (Move R) :=
  let mode := s.streetMode ctx.request
  if s.arrivedVia .simpleTransfer || mode != .walk then none
  else some (.along ctx.request s.plane mode length ctx.request.walkSpeed)

/-- What following an edge from a state adds to it, if the state can follow it. -/
def move? (ctx : Context R) (s : State R) (e : EdgeIndex) (edge : Edge R) : Option (Move R) :=
  if ctx.graph.isBlocked edge then none
  else match edge.kind with
    | .street street => ctx.streetMove? s e street
    | .link length => ctx.linkMove? s edge.source edge.target length
    | .parkAndRide => ctx.parkCar? s edge.source
    | .rentBike => ctx.rentBike? s edge.source
    | .dropOffBike => ctx.dropOffBike? s edge.source
    | .bikePark => ctx.parkBike? s
    | .board wait => ctx.board? s wait
    | .hop duration _ =>
      if s.plane.everBoarded then some (.staying duration duration .transit s.plane) else none
    | .alight => some (.staying 0 0 .walk s.plane)
    | .transfer length => ctx.transferMove? s length
    | .timedTransfer => some ⟨0, 0, 0, s.mode, s.plane⟩

/-- The state that the state `s` numbered `id` goes on to over an edge. -/
def traverse (ctx : Context R) (id : StateId) (s : State R) (e : EdgeIndex) (edge : Edge R) :
    Option (State R) :=
  (ctx.move? s e edge).map (s.after id e edge)

/-- The edges out of a state with the states that it goes on to. -/
def successors (ctx : Context R) (id : StateId) (s : State R) : List (EdgeIndex × State R) :=
  (ctx.graph.outgoing s.vertex).filterMap fun (e, edge) =>
    (ctx.traverse id s e edge).map (e, ·)

end Context

end TripPlanner
