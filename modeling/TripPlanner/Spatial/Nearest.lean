import TripPlanner.Heap
import TripPlanner.Spatial.AreaTree

/-!
# The nearest item

The search for the item of a tree of areas that is nearest to a point. Nodes are looked at in the
order of their distance, so the first item that is reached is a nearest one. Which one that is, if
several are equally near, depends on how the tree has grown.
-/

namespace TripPlanner

namespace AreaTree

variable {R α : Type}

mutual

/-- The number of items and groups in a node, itself included. -/
def Node.count : Node R α → Nat
  | .entry .. => 1
  | .group _ members => countAll members + 1

/-- The number of items and groups in some nodes. -/
def countAll : List (Node R α) → Nat
  | [] => 0
  | node :: rest => node.count + countAll rest

end

/-- A node that is still to be looked at. -/
structure Waiting (R α : Type) where
  /-- The square of its distance. -/
  square : R
  /-- The node. -/
  node : Node R α

/-- A search on its way. -/
structure Scan (R α : Type) where
  /-- A square of a distance within which there is an item, if one is known. -/
  reach : Option R
  /-- The nodes that may hold the nearest item. -/
  waiting : Heap (Waiting R α)

variable [Quantity R]

/-- Whether a node is nearer than another. -/
def Waiting.isNearer (a b : Waiting R α) : Bool := a.square < b.square

namespace Scan

/-- Takes a node into account, unless an item is known to be nearer. -/
def consider (p : Point R) (scan : Scan R α) (node : Node R α) : Scan R α :=
  let square := node.area.squareTo p
  if scan.reach.all fun reach => square ≤ reach then
    let bound := node.area.squareReaching p
    { reach := some (match scan.reach with
        | none => bound
        | some reach => min reach bound)
      waiting := scan.waiting.push Waiting.isNearer ⟨square, node⟩ }
  else scan

/-- Looks at so many nodes in the order of their distance, up to the first item. -/
def run (p : Point R) : Nat → Scan R α → Option α
  | 0, _ => none
  | steps + 1, scan =>
    match scan.waiting.pop? Waiting.isNearer with
    | none => none
    | some (first, waiting) => match first.node with
      | .entry _ item => some item
      | .group _ members => run p steps (members.foldl (consider p) ⟨scan.reach, waiting⟩)

end Scan

/-- The item nearest to a point. -/
def nearest? (tree : AreaTree R α) (p : Point R) : Option α :=
  Scan.run p (countAll tree.members) (tree.members.foldl (Scan.consider p) ⟨none, .empty⟩)

end AreaTree

end TripPlanner
