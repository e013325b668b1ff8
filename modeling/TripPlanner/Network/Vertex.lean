import TripPlanner.Geodesy

/-!
# Vertices

The places of the network: street intersections, transit stops and the places where a vehicle is
parked or rented.
-/

namespace TripPlanner

/-- The index under which a vertex is kept. Indices of removed vertices are used again. -/
abbrev VertexIndex := Nat

/-- What a vertex stands for. -/
inductive VertexKind where
  /-- A node of the street network. -/
  | intersection (trafficLight freeFlowing : Bool)
  /-- A stop that the streets lead to. -/
  | transitStop
  /-- A position on board at a stop. -/
  | transitOnboard
  /-- The car park with the given id. -/
  | parkAndRide (carPark : String)
  /-- The rental station with the given id. -/
  | rentalStation (station : String)
  /-- A place to leave one's own bicycle. -/
  | bikePark
  deriving DecidableEq, Repr

/-- A place of the network. -/
structure Vertex (R : Type) where
  /-- Its name. -/
  label : String
  /-- Where it lies. -/
  position : Point R
  /-- What it stands for. -/
  kind : VertexKind
  deriving DecidableEq

namespace Vertex

variable {R : Type}

/-- A street intersection that is neither signalled nor declared free-flowing. -/
def intersection (label : String) (position : Point R) : Vertex R :=
  ⟨label, position, .intersection false false⟩

/-- The vertex with a traffic light, if it is an intersection. -/
def withTrafficLight (v : Vertex R) : Vertex R :=
  match v.kind with
  | .intersection _ freeFlowing => { v with kind := .intersection true freeFlowing }
  | _ => v

/-- The vertex declared free-flowing, if it is an intersection. -/
def declaredFreeFlowing (v : Vertex R) : Vertex R :=
  match v.kind with
  | .intersection trafficLight _ => { v with kind := .intersection trafficLight true }
  | _ => v

/-- Whether the vertex is an intersection. -/
def isStreet (v : Vertex R) : Bool :=
  match v.kind with
  | .intersection .. => true
  | _ => false

/-- Whether the vertex is an intersection with a traffic light. -/
def hasTrafficLight (v : Vertex R) : Bool :=
  match v.kind with
  | .intersection trafficLight _ => trafficLight
  | _ => false

/-- Whether the vertex is a car park. -/
def isParkAndRide (v : Vertex R) : Bool :=
  match v.kind with
  | .parkAndRide _ => true
  | _ => false

end Vertex

end TripPlanner
