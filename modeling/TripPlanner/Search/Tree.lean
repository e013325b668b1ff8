import TripPlanner.Search.Dominance

/-!
# Shortest path trees

The states of a search that are not dominated, by vertex. A state that is dominated later on is
marked as pruned: it may still wait in a queue.
-/

namespace TripPlanner

/-- The states that count, by vertex. -/
structure Tree where
  /-- When a state makes another one needless. -/
  rule : DominanceRule
  /-- The states at each vertex reached, in the order of addition. -/
  labels : Table VertexIndex (List StateId)
  /-- States that counted once and do not any more. -/
  pruned : List StateId

namespace Tree

/-- The tree without states. -/
def empty (rule : DominanceRule) : Tree := ⟨rule, ∅, []⟩

/-- The states that count at a vertex. -/
def at? (tree : Tree) (v : VertexIndex) : List StateId := (tree.labels.get? v).getD []

/-- Whether a state has been made needless after it was added. -/
def isPruned (tree : Tree) (id : StateId) : Bool := id ∈ tree.pruned

/-- The number of vertices reached. -/
def vertexCount (tree : Tree) : Nat := tree.labels.size

variable {R : Type} [Quantity R] [Geodesy R]

/-- Whether a state that counts at its vertex makes a new one needless. -/
def rejects (tree : Tree) (ctx : Context R) (store : StateStore R) (s : State R) : Bool :=
  (tree.at? s.vertex).any fun id =>
    (store.get? id).any fun other => ctx.dominates tree.rule store other s

/-- The states at its vertex that a new one makes needless. -/
def beaten (tree : Tree) (ctx : Context R) (store : StateStore R) (s : State R) : List StateId :=
  (tree.at? s.vertex).filter fun id =>
    (store.get? id).any fun other => ctx.dominates tree.rule store s other

/-- Adds a state under the next number of the store, unless one that counts makes it needless. The
states that it makes needless are pruned. -/
def add (tree : Tree) (ctx : Context R) (store : StateStore R) (s : State R) :
    Option (StateId × Tree × StateStore R) :=
  if tree.rejects ctx store s then none
  else
    let beaten := tree.beaten ctx store s
    let kept := (tree.at? s.vertex).filter fun id => id ∉ beaten
    some (store.size,
      { tree with
        labels := tree.labels.insert s.vertex (kept ++ [store.size])
        pruned := tree.pruned ++ beaten },
      store.push s)

end Tree

end TripPlanner
