/-!
# Heaps

Items of which the first is always at hand. The order of the items is an argument of each
operation; of items that the order does not tell apart, the one that stands nearer to the root
comes first.
-/

namespace TripPlanner

/-- Items as a binary tree, level by level from the root. No item comes before its parent. -/
structure Heap (α : Type) where
  /-- The levels of the tree. The children of place `i` are at `2 * i + 1` and `2 * i + 2`. -/
  items : Array α

namespace Heap

variable {α : Type}

/-- The heap without items. -/
def empty : Heap α := ⟨#[]⟩

variable (before : α → α → Bool)

/-- Whether the item at one place comes before the item at another. -/
def precedes (items : Array α) (i j : Nat) : Bool :=
  match items[i]?, items[j]? with
  | some a, some b => before a b
  | _, _ => false

/-- Lets the item at a place rise past the parents that it comes before, up so many levels. -/
def rise : Nat → Array α → Nat → Array α
  | levels + 1, items, i + 1 =>
    if precedes before items (i + 1) (i / 2) then
      rise levels (items.swapIfInBounds (i + 1) (i / 2)) (i / 2)
    else items
  | _, items, _ => items

/-- Lets the item at a place sink past the first of its children, down so many levels, and then
rise to where it belongs. -/
def sink : Nat → Array α → Nat → Array α
  | levels + 1, items, i =>
    let left := 2 * i + 1
    if left < items.size then
      let child :=
        if left + 1 < items.size && !precedes before items left (left + 1) then left + 1 else left
      sink levels (items.swapIfInBounds i child) child
    else rise before i items i
  | 0, items, i => rise before i items i

/-- Adds an item. -/
def push (heap : Heap α) (a : α) : Heap α :=
  ⟨rise before heap.items.size (heap.items.push a) heap.items.size⟩

/-- Takes the first item. -/
def pop? (heap : Heap α) : Option (α × Heap α) :=
  match heap.items[0]? with
  | none => none
  | some first =>
    let rest := (heap.items.swapIfInBounds 0 (heap.items.size - 1)).pop
    some (first, ⟨sink before rest.size rest 0⟩)

end Heap

end TripPlanner
