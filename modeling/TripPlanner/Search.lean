import TripPlanner.Search.Itinerary
import TripPlanner.Search.Move
import TripPlanner.Search.Queue
import TripPlanner.Search.Tree

/-!
# The search

Best-first search for the itineraries of a request. States are expanded in the order of what they
have cost and are estimated to cost still. A state that has arrived is found and not expanded.

The search ends when enough states were found, when no state waits any more, or when it has taken
as many steps as the request grants it.
-/

namespace TripPlanner

/-- What happens during a search. -/
inductive Event (R : Type) where
  /-- A state was taken off the queue. -/
  | visited (s : State R)
  /-- A state was produced by following an edge. -/
  | traversed (e : EdgeIndex) (s : State R)
  /-- A state was not dominated and waits. -/
  | enqueued (s : State R)

namespace Event

variable {R : Type}

/-- Whether a state was taken off the queue. -/
def isVisit : Event R → Bool
  | .visited _ => true
  | _ => false

/-- Whether an edge was followed. -/
def isTraversal : Event R → Bool
  | .traversed .. => true
  | _ => false

/-- Whether a state was left to wait. -/
def isEnqueuing : Event R → Bool
  | .enqueued _ => true
  | _ => false

/-- The work that the events amount to, in words. -/
def tally (events : List (Event R)) : String :=
  toString (events.countP isVisit) ++ " vertices visited, "
    ++ toString (events.countP isTraversal) ++ " edges traversed, "
    ++ toString (events.countP isEnqueuing) ++ " states enqueued"

end Event

/-- A search under way. -/
structure Search (R : Type) where
  /-- All states so far. -/
  store : StateStore R
  /-- Those that count. -/
  tree : Tree
  /-- Those that wait. -/
  queue : Queue R
  /-- Those that have arrived, in the order of their discovery. -/
  found : List StateId
  /-- What has happened, the latest first. -/
  events : List (Event R)

/-- Why a search has ended. -/
inductive SearchEnd where
  /-- Enough states were found. -/
  | enough
  /-- No state waits any more. -/
  | exhausted
  /-- All granted steps were taken. -/
  | outOfSteps
  deriving DecidableEq, Repr

namespace Search

variable {R : Type} [Quantity R] [Geodesy R]

omit [Geodesy R] in
/-- The search before any state. -/
def empty (rule : DominanceRule) : Search R := ⟨.empty, .empty rule, .empty, [], []⟩

omit [Quantity R] [Geodesy R] in
/-- Notes an event. -/
def note (search : Search R) (event : Event R) : Search R :=
  { search with events := event :: search.events }

/-- Lets a state wait for its turn, unless it is dominated. -/
def offer (search : Search R) (ctx : Context R) (s : State R) : Option (Search R) :=
  (search.tree.add ctx search.store s).map fun (id, tree, store) =>
    { search with
      store := store
      tree := tree
      queue := search.queue.push (s.weight + ctx.remainingWeight s.vertex) id }

/-- The search with nothing but the start of the trip. -/
def start (ctx : Context R) : Search R :=
  let before := empty ctx.request.dominance
  (before.offer ctx (.initial ctx.origin)).getD before

/-- Offers a state that was produced and notes if it waits. -/
def relax (ctx : Context R) (search : Search R) (s : State R) : Search R :=
  match search.offer ctx s with
  | none => search
  | some search => search.note (.enqueued s)

/-- Goes on from a state over all edges. The states produced are noted before any of them is
offered. -/
def expand (search : Search R) (ctx : Context R) (id : StateId) (s : State R) : Search R :=
  let produced := ctx.successors id s
  let noted := produced.foldl (fun search (e, next) => search.note (.traversed e next)) search
  produced.foldl (fun search (_, next) => search.relax ctx next) noted

/-- Deals with a state that was taken off the queue. -/
def settle (search : Search R) (ctx : Context R) (id : StateId) : Search R :=
  match search.store.get? id with
  | none => search
  | some s =>
    let search := search.note (.visited s)
    if ctx.isFinal s then { search with found := search.found ++ [id] }
    else search.expand ctx id s

omit [Quantity R] [Geodesy R] in
/-- Takes the next state off the queue. Pruned ones are passed over. -/
def next? (search : Search R) : Option (StateId × Search R) :=
  (search.queue.next? search.tree.isPruned).map fun (id, queue) =>
    (id, { search with queue := queue })

/-- Runs a search for at most the given number of steps. -/
def run (ctx : Context R) (steps : Nat) (search : Search R) : Search R × SearchEnd :=
  if ctx.request.numItineraries ≤ search.found.length then (search, .enough)
  else match search.next? with
    | none => (search, .exhausted)
    | some (id, rest) =>
      match steps with
      | 0 => (search, .outOfSteps)
      | steps + 1 => run ctx steps (rest.settle ctx id)

omit [Geodesy R] in
/-- The itineraries to the states found, in the order of their discovery. -/
def itineraries (search : Search R) (ctx : Context R) : List (Itinerary R) :=
  search.found.map (ctx.itineraryTo search.store)

end Search

namespace Context

variable {R : Type} [Quantity R] [Geodesy R]

/-- The search for a request, and why it has ended. -/
def search (ctx : Context R) : Search R × SearchEnd :=
  Search.run ctx ctx.request.maxSearchSteps (Search.start ctx)

/-- The itineraries for a request. -/
def findPaths (ctx : Context R) : Except (Error R) (List (Itinerary R)) :=
  let search := ctx.search.1
  if search.found.isEmpty then .error .pathNotFound else .ok (search.itineraries ctx)

end Context

/-- The itineraries for a request on a graph. -/
def Graph.findPaths {R : Type} [Quantity R] [Geodesy R] (g : Graph R) (request : Request R) :
    Except (Error R) (List (Itinerary R)) := do
  (← Context.of request g).findPaths

end TripPlanner
