import TripPlanner.Network.Edge

/-!
# Roadworks

Streets that are closed: by the way of the map they belong to, or one by one.
-/

namespace TripPlanner

/-- Closed streets. -/
structure Roadworks where
  /-- Closed ways, each once. -/
  ways : List Int
  /-- Closed edges, each once. -/
  edges : List EdgeId
  deriving DecidableEq, Repr

namespace Roadworks

/-- No closures. -/
def empty : Roadworks := ⟨[], []⟩

/-- Closures of the given ways. -/
def ofWays (ways : List Int) : Roadworks := ⟨ways.foldl (fun seen way => seen.insert way) [], []⟩

/-- Further closures of single edges. -/
def close (works : Roadworks) (edges : List EdgeId) : Roadworks :=
  { works with edges := edges.foldl (fun seen edge => seen.insert edge) works.edges }

/-- Whether an edge is closed. -/
def blocks {R : Type} (works : Roadworks) (edge : Edge R) : Bool :=
  edge.id ∈ works.edges || edge.street?.any fun street => street.way ∈ works.ways

/-- The number of closed ways and edges. -/
def size (works : Roadworks) : Nat := works.ways.length + works.edges.length

/-- Whether nothing is closed. -/
def isEmpty (works : Roadworks) : Bool := works.ways.isEmpty && works.edges.isEmpty

/-- The closed ways in ascending order. -/
def sortedWays (works : Roadworks) : List Int := works.ways.mergeSort fun a b => a ≤ b

end Roadworks

end TripPlanner
