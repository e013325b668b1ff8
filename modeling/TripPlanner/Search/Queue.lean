import TripPlanner.Search.State

/-!
# Queues

States waiting to be expanded, the one of least priority first, and of equal ones the older first.
-/

namespace TripPlanner

/-- A state that waits. -/
structure Waiting (R : Type) where
  /-- Its place in the order. -/
  priority : R
  /-- Its number. -/
  id : StateId

variable {R : Type} [Quantity R]

/-- Whether `a` is served before `b`. -/
def Waiting.isBefore (a b : Waiting R) : Bool :=
  Quantity.ranksBefore a.priority b.priority
    && (!Quantity.ranksBefore b.priority a.priority || a.id ≤ b.id)

/-- States that wait, in the order in which they are served. -/
structure Queue (R : Type) where
  /-- The states. -/
  waiting : List (Waiting R)

namespace Queue

omit [Quantity R] in
/-- The queue in which nothing waits. -/
def empty : Queue R := ⟨[]⟩

/-- Puts an entry before the first one that is not served before it. -/
def insertOrdered (w : Waiting R) : List (Waiting R) → List (Waiting R)
  | [] => [w]
  | first :: rest =>
    if w.isBefore first then w :: first :: rest else first :: insertOrdered w rest

/-- Adds a state. -/
def push (queue : Queue R) (priority : R) (id : StateId) : Queue R :=
  ⟨insertOrdered ⟨priority, id⟩ queue.waiting⟩

omit [Quantity R] in
/-- Takes the first state that is not to be passed over, and the queue behind it. -/
def next? (queue : Queue R) (passOver : StateId → Bool) : Option (StateId × Queue R) :=
  match queue.waiting.dropWhile fun w => passOver w.id with
  | [] => none
  | w :: rest => some (w.id, ⟨rest⟩)

end Queue

end TripPlanner
