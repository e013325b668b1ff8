/-!
# Sets of rental networks

Names of rental networks, sorted by their characters and without repetitions, so that equal sets
are equal values.
-/

namespace TripPlanner

/-- A set of rental networks. -/
structure NetworkSet where
  /-- The names, in ascending order. -/
  names : List String
  deriving DecidableEq, Repr

namespace NetworkSet

/-- The set without networks. -/
def empty : NetworkSet := ⟨[]⟩

/-- Puts a name at its place in an ascending list, unless it is there. -/
def insertName (name : String) : List String → List String
  | [] => [name]
  | n :: rest =>
    if name < n then name :: n :: rest
    else if name = n then n :: rest
    else n :: insertName name rest

/-- The set with one more network. -/
def insert (networks : NetworkSet) (name : String) : NetworkSet :=
  ⟨insertName name networks.names⟩

/-- The set of the listed networks. -/
def ofList (names : List String) : NetworkSet := names.foldl insert empty

/-- Whether the network is in the set. -/
def contains (networks : NetworkSet) (name : String) : Bool := name ∈ networks.names

/-- Whether there are no networks in the set. -/
def isEmpty (networks : NetworkSet) : Bool := networks.names.isEmpty

/-- The networks in both sets. -/
def inter (a b : NetworkSet) : NetworkSet := ⟨a.names.filter b.contains⟩

/-- Whether no network is in both sets. -/
def isDisjoint (a b : NetworkSet) : Bool := !a.names.any b.contains

theorem mem_insertName {name n : String} {names : List String} :
    n ∈ insertName name names ↔ n = name ∨ n ∈ names := by
  fun_induction insertName name names with
  | case1 => simp
  | case2 => simp
  | case3 => simp
  | case4 m rest _ _ ih => simp [ih, or_left_comm]

theorem mem_names_ofList {names : List String} {n : String} :
    n ∈ (ofList names).names ↔ n ∈ names := by
  suffices ∀ set : NetworkSet, n ∈ (names.foldl insert set).names ↔ n ∈ set.names ∨ n ∈ names by
    simpa [ofList, empty] using this empty
  induction names with
  | nil => simp
  | cons name rest ih =>
    intro set
    rw [List.foldl_cons, ih]
    simp [insert, mem_insertName, or_assoc, or_comm (a := n = name)]

end NetworkSet

end TripPlanner
