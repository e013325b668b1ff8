import TripPlanner.Arena
import TripPlanner.Error
import TripPlanner.Service
import TripPlanner.Network.StreetIndex
import TripPlanner.Network.TurnRestriction

/-!
# The graph

Vertices and edges of the network with its turn restrictions, street index and services, what can
be asked of them, and how they are changed.

A changed edge list keeps its order: `outgoing` and `incoming` list the newest edge first.
-/

namespace TripPlanner

/-- The multimodal network with its real-time services. -/
structure Graph (R : Type) where
  /-- The vertices. -/
  vertices : Arena (Vertex R)
  /-- The edges. -/
  edges : Arena (Edge R)
  /-- Turn restrictions by the street one arrives by, in the order of addition. -/
  restrictions : Table EdgeIndex (List TurnRestriction)
  /-- The positions of the intersections. -/
  streetIndex : StreetIndex R
  /-- The attached services. -/
  services : Services R
  /-- The number of writer units applied. -/
  version : Nat
  /-- The number of the next edge. -/
  nextEdgeId : EdgeId
  /-- Extremes of the edges ever added. -/
  bounds : EdgeBounds R

namespace Graph

variable {R : Type}

/-- The graph without vertices. -/
def empty [Quantity R] : Graph R := ⟨∅, ∅, ∅, .empty, .empty, 0, 0, .initial⟩

/-! ## Questions -/

/-- The vertex under an index. -/
def vertex? (g : Graph R) (v : VertexIndex) : Option (Vertex R) := g.vertices.get? v

/-- The edge under an index. -/
def edge? (g : Graph R) (e : EdgeIndex) : Option (Edge R) := g.edges.get? e

/-- The number of vertices. -/
def vertexCount (g : Graph R) : Nat := g.vertices.size

/-- The number of edges. -/
def edgeCount (g : Graph R) : Nat := g.edges.size

/-- The edges that start at a vertex, the newest first. -/
def outgoing (g : Graph R) (v : VertexIndex) : List (EdgeIndex × Edge R) :=
  g.edges.filter fun edge => edge.source = v

/-- The edges that end at a vertex, the newest first. -/
def incoming (g : Graph R) (v : VertexIndex) : List (EdgeIndex × Edge R) :=
  g.edges.filter fun edge => edge.target = v

/-- The edges at a vertex: those that start there, then those that end there. -/
def incident (g : Graph R) (v : VertexIndex) : List EdgeIndex :=
  (g.outgoing v ++ g.incoming v).map Prod.fst

/-- The stretch of street under an index. -/
def street? (g : Graph R) (e : EdgeIndex) : Option (Street R) := (g.edge? e).bind Edge.street?

/-- The restrictions on what may follow an edge, in the order of addition. -/
def restrictionsAfter (g : Graph R) (e : EdgeIndex) : List TurnRestriction :=
  (g.restrictions.get? e).getD []

/-- Whether crossing a vertex costs nothing: an intersection that is declared free-flowing, or one
without a traffic light that one edge leads to and one away from, whichever their kinds. -/
def isFreeFlowing (g : Graph R) (v : VertexIndex) : Bool :=
  match (g.vertex? v).map Vertex.kind with
  | some (.intersection trafficLight freeFlowing) =>
    freeFlowing || (!trafficLight && (g.incoming v).length = 1 && (g.outgoing v).length = 1)
  | _ => false

/-- Whether the vertex has a traffic light. -/
def hasTrafficLight (g : Graph R) (v : VertexIndex) : Bool :=
  (g.vertex? v).any Vertex.hasTrafficLight

/-- Whether the vertex is a car park. -/
def isParkAndRide (g : Graph R) (v : VertexIndex) : Bool := (g.vertex? v).any Vertex.isParkAndRide

/-- Whether an edge is closed for roadworks. -/
def isBlocked (g : Graph R) (edge : Edge R) : Bool :=
  g.services.roadworks.any fun works => works.blocks edge

/-- The intersection nearest to a point. -/
def nearestStreet? [Quantity R] (g : Graph R) (p : Point R) : Option VertexIndex :=
  g.streetIndex.nearest? p

/-- The intersections in an area. -/
def streetsWithin [Quantity R] (g : Graph R) (area : Area R) : List VertexIndex :=
  g.streetIndex.within area

/-! ## Changes -/

/-- Adds a vertex. -/
def addVertex [Quantity R] (g : Graph R) (v : Vertex R) : VertexIndex × Graph R :=
  let index := g.vertices.next
  (index,
    { g with
      vertices := g.vertices.insert v
      streetIndex := if v.isStreet then g.streetIndex.insert v.position index else g.streetIndex })

/-- The restrictions that mention none of the given edges. -/
def restrictionsWithout (g : Graph R) (gone : List EdgeIndex) :
    Table EdgeIndex (List TurnRestriction) :=
  g.restrictions.filterMap fun e restrictions =>
    let kept := restrictions.filter fun restriction => restriction.target ∉ gone
    if e ∈ gone || kept.isEmpty then none else some kept

/-- Removes a vertex, its edges, and the turn restrictions that mention one of them. The first
component is the vertex that was there. -/
def removeVertex [Quantity R] (g : Graph R) (v : VertexIndex) : Option (Vertex R) × Graph R :=
  let gone := g.incident v
  let removed := g.vertex? v
  (removed,
    { g with
      vertices := g.vertices.erase v
      edges := g.edges.eraseAll gone
      restrictions := g.restrictionsWithout gone
      streetIndex := match removed with
        | some vertex =>
          if vertex.isStreet then g.streetIndex.erase vertex.position v else g.streetIndex
        | none => g.streetIndex })

/-- Joins two vertices that are known to be there. -/
def connect [Quantity R] (g : Graph R) (source target : VertexIndex) (kind : EdgeKind R) :
    EdgeIndex × Graph R :=
  (g.edges.next,
    { g with
      edges := g.edges.insert ⟨g.nextEdgeId, source, target, kind⟩
      nextEdgeId := g.nextEdgeId + 1
      bounds := g.bounds.extend kind })

/-- Adds an edge between two vertices that have to be there. -/
def addEdge [Quantity R] (g : Graph R) (source target : VertexIndex) (kind : EdgeKind R) :
    Except (Error R) (EdgeIndex × Graph R) :=
  if g.vertices.contains source && g.vertices.contains target then
    .ok (g.connect source target kind)
  else .error .unknownVertex

/-- The straight stretch of street between two vertices, its length and angles taken from their
positions. -/
def straightStreet [Quantity R] [Geodesy R] (g : Graph R) (source target : VertexIndex) (way : Int)
    (permits : ModeSet) : Except (Error R) (Street R) :=
  match g.vertex? source, g.vertex? target with
  | some a, some b =>
    let bearing := Geodesy.bearing a.position b.position
    .ok ((Street.plain way (Geodesy.groundDistance a.position b.position) permits).withAngles
      bearing bearing)
  | _, _ => .error .unknownVertex

/-- Adds a straight stretch of street. -/
def addStreet [Quantity R] [Geodesy R] (g : Graph R) (source target : VertexIndex) (way : Int)
    (permits : ModeSet) : Except (Error R) (EdgeIndex × Graph R) := do
  g.addEdge source target (.street (← g.straightStreet source target way permits))

/-- Adds a turn restriction. Both edges have to be streets, the second one starting where the first
one ends. -/
def addRestriction (g : Graph R) (restriction : TurnRestriction) :
    Except (Error R) (Graph R) :=
  match g.edge? restriction.source, g.edge? restriction.target with
  | none, _ => .error (.invalidData .unknownSource)
  | _, none => .error (.invalidData .unknownTarget)
  | some source, some target =>
    if source.target = target.source ∧ source.street?.isSome ∧ target.street?.isSome then
      .ok { g with
        restrictions := g.restrictions.insert restriction.source
          (g.restrictionsAfter restriction.source ++ [restriction]) }
    else .error (.invalidData
      (.notConsecutiveStreets restriction.source restriction.target))

/-- Changes the services. -/
def modifyServices (g : Graph R) (f : Services R → Services R) : Graph R :=
  { g with services := f g.services }

/-- Counts one more writer unit. -/
def bumpVersion (g : Graph R) : Graph R := { g with version := g.version + 1 }

end Graph

end TripPlanner
