import TripPlanner.Mode
import TripPlanner.Quantity
import TripPlanner.Network.Vertex

/-!
# Edges

The ways from one vertex to the next: streets, links to them, transit rides, and loops at the
places where a vehicle is parked or rented.
-/

namespace TripPlanner

/-- The index under which an edge is kept. Indices of removed edges are used again. -/
abbrev EdgeIndex := Nat

/-- The number of an edge in the order of addition, never used again. -/
abbrev EdgeId := Nat

/-- A stretch of street from one intersection to the next. -/
structure Street (R : Type) where
  /-- The way of the map that the stretch belongs to. -/
  way : Int
  /-- Metres. -/
  length : R
  /-- The modes that may use it. -/
  permits : ModeSet
  /-- Metres per second by car. -/
  carSpeed : R
  /-- The factor on the cost of cycling; one is neutral, less is safer. -/
  bicycleSafety : R
  /-- The direction at the start, in degrees clockwise from north. -/
  startAngle : Int
  /-- The direction at the end. -/
  endAngle : Int
  deriving DecidableEq

/-- The car speed of streets without one of their own, about 40 km/h: 11.2 m/s in single
precision. -/
def defaultCarSpeed {R : Type} [Quantity R] : R := Quantity.ratio 11744051 1048576

namespace Street

variable {R : Type} [Quantity R]

/-- A stretch with the usual car speed, neutral safety and no angles. -/
def plain (way : Int) (length : R) (permits : ModeSet) : Street R :=
  ⟨way, length, permits, defaultCarSpeed, Quantity.one, 0, 0⟩

/-- The stretch with the given car speed. -/
def withCarSpeed (street : Street R) (speed : R) : Street R := { street with carSpeed := speed }

/-- The stretch with the given safety factor. -/
def withBicycleSafety (street : Street R) (factor : R) : Street R :=
  { street with bicycleSafety := factor }

/-- The stretch with the given directions at its start and end. -/
def withAngles (street : Street R) (startAngle endAngle : Int) : Street R :=
  { street with startAngle := startAngle, endAngle := endAngle }

end Street

/-- What an edge is. -/
inductive EdgeKind (R : Type) where
  /-- A stretch of street. -/
  | street (street : Street R)
  /-- A connection of a stop, car park or bicycle place to the streets. -/
  | link (length : R)
  /-- A loop at a car park: leave the car. -/
  | parkAndRide
  /-- A loop at a rental station: pick up a bicycle. -/
  | rentBike
  /-- A loop at a rental station: return the bicycle. -/
  | dropOffBike
  /-- A loop at a bicycle park: leave one's own bicycle. -/
  | bikePark
  /-- Getting on a transit vehicle after a wait in seconds. -/
  | board (wait : R)
  /-- A transit ride of some seconds and metres. -/
  | hop (duration length : R)
  /-- Getting off. -/
  | alight
  /-- A walk between two stops that follows from their positions only. -/
  | transfer (length : R)
  /-- A guaranteed change between two stops. -/
  | timedTransfer
  deriving DecidableEq

/-- The classes of edges that tell apart what may follow. -/
inductive EdgeClass where
  | street
  | simpleTransfer
  | timedTransfer
  | board
  | other
  deriving DecidableEq, Repr

namespace EdgeClass

/-- All classes. -/
def all : List EdgeClass := [.street, .simpleTransfer, .timedTransfer, .board, .other]

/-- The written name of a class. -/
def name : EdgeClass → String
  | .street => "Street"
  | .simpleTransfer => "SimpleTransfer"
  | .timedTransfer => "TimedTransfer"
  | .board => "TransitBoard"
  | .other => "Other"

end EdgeClass

namespace EdgeKind

variable {R : Type}

/-- The class of an edge of this kind. -/
def edgeClass : EdgeKind R → EdgeClass
  | .street _ => .street
  | .transfer _ => .simpleTransfer
  | .timedTransfer => .timedTransfer
  | .board _ => .board
  | _ => .other

/-- The stretch of street that an edge of this kind is. -/
def street? : EdgeKind R → Option (Street R)
  | .street s => some s
  | _ => none

/-- Metres covered on the ground. -/
def distance [Zero R] : EdgeKind R → R
  | .street s => s.length
  | .link length => length
  | .hop _ length => length
  | .transfer length => length
  | _ => 0

end EdgeKind

/-- A way from a vertex to a vertex. -/
structure Edge (R : Type) where
  /-- Its number. -/
  id : EdgeId
  /-- Where it starts. -/
  source : VertexIndex
  /-- Where it ends. -/
  target : VertexIndex
  /-- What it is. -/
  kind : EdgeKind R
  deriving DecidableEq

namespace Edge

variable {R : Type}

/-- The class of the edge. -/
def edgeClass (edge : Edge R) : EdgeClass := edge.kind.edgeClass

/-- The stretch of street that the edge is. -/
def street? (edge : Edge R) : Option (Street R) := edge.kind.street?

/-- Metres covered on the ground. -/
def distance [Zero R] (edge : Edge R) : R := edge.kind.distance

/-- The number of the edge in words. -/
def label (edge : Edge R) : String := "edge#" ++ toString edge.id

end Edge

/-- Extremes of the edges ever added. They keep the estimate of the remaining weight a lower
bound. -/
structure EdgeBounds (R : Type) where
  /-- The highest car speed of a street open to cars. -/
  maxCarSpeed : R
  /-- The highest average speed of a transit ride. -/
  maxTransitSpeed : R
  /-- The lowest safety factor of a street open to bicycles, at most one. -/
  minBicycleSafety : R
  deriving DecidableEq

namespace EdgeBounds

variable {R : Type} [Quantity R]

/-- The bounds before any edge. -/
def initial : EdgeBounds R := ⟨defaultCarSpeed, 0, Quantity.one⟩

/-- The bounds with one more edge. -/
def extend (bounds : EdgeBounds R) : EdgeKind R → EdgeBounds R
  | .street s =>
    { bounds with
      maxCarSpeed :=
        if s.permits.car then max bounds.maxCarSpeed s.carSpeed else bounds.maxCarSpeed
      minBicycleSafety :=
        if s.permits.bicycle then min bounds.minBicycleSafety s.bicycleSafety
        else bounds.minBicycleSafety }
  | .hop duration length =>
    if 0 < duration then
      { bounds with maxTransitSpeed := max bounds.maxTransitSpeed (length / duration) }
    else bounds
  | _ => bounds

end EdgeBounds

end TripPlanner
