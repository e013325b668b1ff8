import TripPlanner.Request

/-!
# Search states

A state is one way to have come to a vertex: what it has cost, over which edge it came, and in which
situation the traveller is. The states of a search are kept in a store and refer to their
predecessors by number.
-/

namespace TripPlanner

/-- The number of a state in its store. -/
abbrev StateId := Nat

/-- The edge that a state came over. -/
structure BackEdge where
  /-- Its index. -/
  index : EdgeIndex
  /-- Its class. -/
  edgeClass : EdgeClass
  deriving DecidableEq, Repr

/-- The situation of a traveller. States on different planes are not compared. -/
structure Plane where
  /-- Whether a transit vehicle was ever boarded. -/
  everBoarded : Bool
  /-- The networks that the rented bicycle can be returned to, if one is rented. -/
  rented : Option NetworkSet
  /-- Whether the car has been left at a car park. -/
  carParked : Bool
  /-- Whether one's own bicycle has been left at a bicycle park. -/
  bikeParked : Bool
  deriving DecidableEq, Repr

/-- The situation at the start of a trip. -/
def Plane.initial : Plane := ⟨false, none, false, false⟩

/-- Whether a bicycle is rented. -/
def Plane.isRenting (plane : Plane) : Bool := plane.rented.isSome

/-- One way to have come to a vertex. -/
structure State (R : Type) where
  /-- Where it is. -/
  vertex : VertexIndex
  /-- What it has cost. -/
  weight : R
  /-- Seconds since the start. -/
  elapsed : R
  /-- Metres walked. -/
  walked : R
  /-- The state it came from. -/
  parent : Option StateId
  /-- The edge it came over. -/
  back : Option BackEdge
  /-- The mode in which it came. -/
  mode : Option Mode
  /-- The situation it is in. -/
  plane : Plane
  deriving DecidableEq

namespace State

variable {R : Type}

/-- The state at the start of a trip. -/
def initial [Zero R] (v : VertexIndex) : State R := ⟨v, 0, 0, 0, none, none, none, .initial⟩

/-- Whether the state came over an edge of the given class. -/
def arrivedVia (s : State R) (edgeClass : EdgeClass) : Bool :=
  s.back.any fun back => back.edgeClass = edgeClass

/-- The street that the state came over. -/
def backStreet? (s : State R) : Option EdgeIndex :=
  s.back.bind fun back => if back.edgeClass = .street then some back.index else none

/-- The mode in which a traveller in the situation goes on along a street. -/
def streetMode (s : State R) (request : Request R) : Mode :=
  if s.plane.isRenting then .bicycle
  else if request.modes.car && !s.plane.carParked then .car
  else if request.modes.bicycle && !request.allowRental && !s.plane.bikeParked then .bicycle
  else .walk

end State

/-- The states of one search. -/
structure StateStore (R : Type) where
  /-- The states by number. -/
  states : Array (State R)

namespace StateStore

variable {R : Type}

/-- The store without states. -/
def empty : StateStore R := ⟨#[]⟩

/-- The number of states, which is the number that the next one gets. -/
def size (store : StateStore R) : Nat := store.states.size

/-- Adds a state. -/
def push (store : StateStore R) (s : State R) : StateStore R := ⟨store.states.push s⟩

/-- The state with a number. -/
def get? (store : StateStore R) (id : StateId) : Option (State R) := store.states[id]?

/-- The state that a state came from. -/
def parent? (store : StateStore R) (s : State R) : Option (State R) := s.parent.bind store.get?

/-- Puts the ancestors of a state, itself included, in front of a path, at most `limit` of them. -/
def prependAncestors (store : StateStore R) : Nat → StateId → List StateId → List StateId
  | 0, _, path => path
  | limit + 1, id, path =>
    match (store.get? id).bind State.parent with
    | none => id :: path
    | some parent => store.prependAncestors limit parent (id :: path)

/-- The numbers of the states from the start up to the given one. No number occurs twice on the
way to a start, so that there are at most as many as states, and one more that is not in the
store. -/
def chainTo (store : StateStore R) (id : StateId) : List StateId :=
  store.prependAncestors (store.size + 1) id []

end StateStore

end TripPlanner
