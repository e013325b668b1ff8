import TripPlanner.Spatial.Area

/-!
# Trees of areas

Items at points, gathered by neighbourhood: up to six points in a group with the area around them,
up to six such groups in a larger one, and so on. All points are equally far below the root.

A new point goes where it makes the areas grow and overlap the least. If its group becomes too
large, the two points farthest from the middle are taken out and put in again from the root; from
then on groups that become too large are cut in two.
-/

namespace TripPlanner

/-- The first of the least items. -/
def firstLeast {β : Type} (less : β → β → Bool) : List β → Option β
  | [] => none
  | b :: rest => some (rest.foldl (fun least c => if less c least then c else least) b)

namespace AreaTree

/-- A part of a tree. -/
inductive Node (R α : Type) where
  /-- An item at its point. -/
  | entry (position : Point R) (item : α)
  /-- A group with the area around its members. -/
  | group (area : Area R) (members : List (Node R α))

/-- The most members of a group. -/
def maxMembers : Nat := 6

/-- The fewest members of a group that has just been cut off. -/
def minMembers : Nat := 3

/-- How many points a group gives up when it first becomes too large. -/
def givenUp : Nat := 2

variable {R α : Type} [Quantity R]

/-- The area of a node. -/
def Node.area : Node R α → Area R
  | .entry p _ => .ofPoint p
  | .group area _ => area

/-- The least area around all nodes. -/
def around : List (Node R α) → Area R
  | [] => .ofPoint ⟨0, 0⟩
  | node :: rest => rest.foldl (fun area node => area.hull node.area) node.area

/-- The group of some members. -/
def gather (members : List (Node R α)) : Node R α := .group (around members) members

/-! ## Orders -/

/-- Whether the first number that differs is smaller in the first list. -/
def lexLess : List R → List R → Bool
  | a :: as, b :: bs => a < b || (!(decide (b < a)) && lexLess as bs)
  | _, _ => false

/-- Puts an item behind all that do not come after it. -/
def place {β : Type} (key : β → R) (b : β) : List β → List β
  | [] => [b]
  | c :: rest => if key b < key c then b :: c :: rest else c :: place key b rest

/-- The items in ascending order of a number, items with the same number in the given order. -/
def sortOn {β : Type} (key : β → R) (items : List β) : List β :=
  items.foldl (fun sorted b => place key b sorted) []

/-! ## The way down -/

/-- How much more an area overlaps with others once it includes a new one. -/
def overlapGrowth (area new : Area R) (others : List (Area R)) : R :=
  let overlap (area : Area R) := others.foldl (fun sum other => sum + (area.meet other).size) 0
  overlap (area.hull new) - overlap area

/-- What it costs to put a new area into the group at a place, the most important part first. How
areas overlap counts only right above the points. -/
def cost (lowest : Bool) (areas : List (Area R)) (new area : Area R) (i : Nat) : List R :=
  let hull := area.hull new
  [if lowest then overlapGrowth area new (areas.eraseIdx i) else 0, hull.size - area.size,
    hull.size]

/-- The place of the group that a new area goes into: the smallest one that includes it, or else
the one with the least cost. -/
def choose (lowest : Bool) (areas : List (Area R)) (new : Area R) : Nat :=
  let including := areas.zipIdx.filter fun (area, _) => area.includes new
  match firstLeast (fun a b => decide (a.1.size < b.1.size)) including with
  | some (_, i) => i
  | none =>
    let costs := areas.zipIdx.map fun (area, i) => (cost lowest areas new area i, i)
    match firstLeast (fun a b => lexLess a.1 b.1) costs with
    | some (_, i) => i
    | none => 0

/-! ## Groups that are too large -/

/-- All ways to cut a list in two parts that are not too small. -/
def cuts (members : List (Node R α)) : List (List (Node R α) × List (Node R α)) :=
  (List.range' minMembers (members.length + 1 - 2 * minMembers)).map members.splitAt

/-- The least sum of the margins of two parts. -/
def leastMargin (members : List (Node R α)) : Option R :=
  firstLeast (fun a b => decide (a < b))
    ((cuts members).map fun (a, b) => (around a).margin + (around b).margin)

/-- The members sorted in the direction in which they can be cut with the smaller margins. -/
def alongAxis (members : List (Node R α)) : List (Node R α) :=
  let byX := sortOn (fun node => node.area.low.x) members
  let byY := sortOn (fun node => node.area.low.y) byX
  match leastMargin byX, leastMargin byY with
  | some x, some y => if y < x then byY else sortOn (fun node => node.area.low.x) byY
  | _, _ => byX

/-- Cuts the members in two parts that overlap the least and are small. -/
def split (members : List (Node R α)) : List (Node R α) × List (Node R α) :=
  let price (parts : List (Node R α) × List (Node R α)) : List R :=
    let a := around parts.1
    let b := around parts.2
    [(a.meet b).size, a.size + b.size]
  (firstLeast (fun a b => lexLess (price a) (price b)) (cuts (alongAxis members))).getD
    (members, [])

/-- The members of a group, and the group that is cut off if there are too many. -/
def cutOff (members : List (Node R α)) : List (Node R α) × Option (Node R α) :=
  if members.length ≤ maxMembers then (members, none)
  else
    let (kept, gone) := split members
    (kept, some (gather gone))

/-- The members of a group, and those that it gives up if there are too many, the farthest from
the middle first. -/
def giveUp (members : List (Node R α)) : List (Node R α) × List (Node R α) :=
  if members.length ≤ maxMembers then (members, [])
  else
    let middle := (around members).center
    let sorted := sortOn (fun node => node.area.center.planarSquare middle) members
    let (kept, gone) := sorted.splitAt (members.length - givenUp)
    (kept, gone.reverse)

/-! ## Changes below a group -/

/-- Adds a point so many levels below a group, where a group gives up points. -/
def addGivingUp : Nat → List (Node R α) → Node R α → List (Node R α) × List (Node R α)
  | 0, members, new => giveUp (members ++ [new])
  | levels + 1, members, new =>
    let i := choose (levels = 0) (members.map Node.area) new.area
    match members[i]? with
    | some (.group _ inner) =>
      let (inner, gone) := addGivingUp levels inner new
      (members.set i (gather inner), gone)
    | _ => (members ++ [new], [])

/-- Adds a point so many levels below a group, where groups are cut in two. -/
def addCuttingOff : Nat → List (Node R α) → Node R α → List (Node R α) × Option (Node R α)
  | 0, members, new => cutOff (members ++ [new])
  | levels + 1, members, new =>
    let i := choose (levels = 0) (members.map Node.area) new.area
    match members[i]? with
    | some (.group _ inner) =>
      let (inner, gone) := addCuttingOff levels inner new
      cutOff (members.set i (gather inner) ++ gone.toList)
    | _ => (members ++ [new], none)

/-- The list without the item at a place, which the last item takes over. -/
def swapOut {β : Type} (items : List β) (i : Nat) : List β :=
  match items.getLast? with
  | none => []
  | some last => (items.set i last).dropLast

/-- Removes an item at a point so many levels below a group: the first entry that is equal to it.
Groups on the way to it go to the end, and away if nothing is left of them. -/
def eraseBelow [DecidableEq α] (p : Point R) (item : α) :
    Nat → List (Node R α) → Option (List (Node R α))
  | 0, members =>
    let isGone (node : Node R α) : Bool := match node with
      | .entry q a => q.equals p && a = item
      | .group .. => false
    (members.findIdx? isGone).map (swapOut members)
  | levels + 1, members => members.zipIdx.findSome? fun (node, i) => match node with
    | .group area inner =>
      if area.contains p then
        (eraseBelow p item levels inner).map fun inner =>
          if inner.isEmpty then swapOut members i else swapOut members i ++ [gather inner]
      else none
    | .entry .. => none

end AreaTree

/-- A tree of areas. -/
structure AreaTree (R α : Type) where
  /-- How many levels there are below the members of the root. -/
  height : Nat
  /-- The members of the root. -/
  members : List (AreaTree.Node R α)

namespace AreaTree

variable {R α : Type}

/-- The tree without items. -/
def empty : AreaTree R α := ⟨0, []⟩

variable [Quantity R]

/-- Adds a point and cuts groups that become too large. A root that is cut gets a new one above. -/
def add (tree : AreaTree R α) (new : Node R α) : AreaTree R α :=
  match addCuttingOff tree.height tree.members new with
  | (members, none) => ⟨tree.height, members⟩
  | (members, some other) => ⟨tree.height + 1, [gather members, other]⟩

/-- Adds an item at a point. -/
def insert (tree : AreaTree R α) (p : Point R) (item : α) : AreaTree R α :=
  let (members, gone) := addGivingUp tree.height tree.members (.entry p item)
  gone.foldl add ⟨tree.height, members⟩

/-- Removes an item at a point, if there is an entry that is equal to it. -/
def erase [DecidableEq α] (tree : AreaTree R α) (p : Point R) (item : α) : AreaTree R α :=
  match eraseBelow p item tree.height tree.members with
  | none => tree
  | some [] => .empty
  | some members => ⟨tree.height, members⟩

end AreaTree

end TripPlanner
