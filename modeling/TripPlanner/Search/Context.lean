import TripPlanner.Graph
import TripPlanner.Search.State

/-!
# Search contexts

A request together with the graph that it is answered on: the ends of the trip as vertices, when a
state has arrived, and a lower bound of the weight that is still to come.
-/

namespace TripPlanner

/-- The safety factor up to which a street counts as a greenway: 0.1 in single precision. -/
def greenwaySafety {R : Type} [Quantity R] : R := Quantity.ratio 13421773 134217728

/-- The factor by which a greenway is cheaper still. -/
def greenwayBonus {R : Type} [Quantity R] : R := Quantity.ratio 66 100

/-- The weight of a second of cycling on a street with the given safety factor. Slope is not known
and counts like time. -/
def cyclingWeight {R : Type} [Quantity R] (optimize : Optimize) (triangle : Triangle R)
    (safety : R) : R :=
  match optimize with
  | .quick => Quantity.one
  | .safe => safety
  | .greenways => if safety ≤ greenwaySafety then safety * greenwayBonus else safety
  | .triangle => triangle.time + safety * triangle.safety + triangle.slope

/-- A request that is being answered on a graph. -/
structure Context (R : Type) where
  /-- The request, its triangle normalized if it is weighed by. -/
  request : Request R
  /-- The graph. -/
  graph : Graph R
  /-- The vertex that the trip starts from. -/
  origin : VertexIndex
  /-- The vertex that the trip leads to. -/
  target : VertexIndex
  /-- The point where the trip starts. -/
  start : Point R
  /-- The point where the trip ends. -/
  goal : Point R
  /-- The highest speed of the trip, in metres per second. -/
  maxSpeed : R
  /-- The lowest weight of a second of the trip. -/
  minWeightPerSecond : R

namespace Context

variable {R : Type} [Quantity R]

/-- The highest speed that vehicles are taken to have unless the graph shows a higher one. -/
def maxVehicleSpeed : R := Quantity.ofInt 40

/-- The distance of raw coordinates from the ends of the trip within which vehicles may loop. -/
def maxLoopDistance : R := Quantity.ratio 5 1000

/-- The highest speed at which a request can move. -/
def highestSpeed (request : Request R) (g : Graph R) : R :=
  if request.modes.car || request.modes.transit then
    max (max maxVehicleSpeed g.bounds.maxCarSpeed) g.bounds.maxTransitSpeed
  else if request.modes.bicycle || request.allowRental then
    max request.bikeSpeed request.walkSpeed
  else request.walkSpeed

/-- The lowest weight that a request gives to a second. -/
def lowestWeight (request : Request R) (g : Graph R) : R :=
  let onFoot := min request.walkReluctance Quantity.one
  let factor :=
    if request.modes.bicycle || request.allowRental then
      min onFoot (cyclingWeight request.optimize request.triangle g.bounds.minBicycleSafety)
    else onFoot
  max factor 0

/-- The request with a triangle that can be weighed by. -/
def prepare (request : Request R) : Request R :=
  if request.optimize = .triangle then { request with triangle := request.triangle.normalized }
  else request

/-- Places a request on a graph. -/
def of (request : Request R) (g : Graph R) : Except (Error R) (Context R) := do
  request.validate
  let request := prepare request
  match request.origin, request.destination with
  | some start, some goal =>
    match g.nearestStreet? start, g.nearestStreet? goal with
    | none, _ => .error (.vertexNotFound start)
    | _, none => .error (.vertexNotFound goal)
    | some origin, some target =>
      .ok ⟨request, g, origin, target, start, goal, highestSpeed request g,
        lowestWeight request g⟩
  | _, _ => .error (.invalidRequest .endMissing)

/-- Whether vehicles may loop at a vertex: one of the ends of the trip is close, by raw
coordinates. -/
def isCloseToEnds [Geodesy R] (ctx : Context R) (v : VertexIndex) : Bool :=
  (ctx.graph.vertex? v).any fun vertex =>
    Geodesy.planarDistance vertex.position ctx.start < maxLoopDistance ||
      Geodesy.planarDistance vertex.position ctx.goal < maxLoopDistance

omit [Quantity R] in
/-- Whether a rented bicycle, if there is one, may be left where the traveller is. -/
def mayEndRental (ctx : Context R) (plane : Plane) : Bool :=
  match plane.rented with
  | none => true
  | some networks =>
    ctx.graph.services.rental.any fun service => service.allowFreeFloatingDropOff networks

omit [Quantity R] in
/-- Whether a state has arrived: at the destination, the car or bicycle parked if the request asks
for it, and a rented bicycle in a network that lets it be left. -/
def isFinal (ctx : Context R) (s : State R) : Bool :=
  s.vertex = ctx.target
    && (!ctx.request.parkAndRide || s.plane.carParked)
    && (!ctx.request.bikeAndRide || s.plane.bikeParked)
    && ctx.mayEndRental s.plane

/-- An estimate of the weight from a vertex to the destination. -/
def remainingWeight [Geodesy R] (ctx : Context R) (v : VertexIndex) : R :=
  match ctx.request.heuristic with
  | .trivial => 0
  | .euclidean =>
    match ctx.graph.vertex? v, ctx.graph.vertex? ctx.target with
    | some here, some there =>
      Geodesy.groundDistance here.position there.position / ctx.maxSpeed * ctx.minWeightPerSecond
    | _, _ => 0

end Context

end TripPlanner
