import TripPlanner.Value

/-!
# Tables of a TOML text

Tables under construction. A key is given a value once. What may be added to a table hangs on how
it has come about: a header opens it once, and dotted keys add to tables that dotted keys have
made. An inline table is a value like all others, and nothing is added to it.
-/

namespace TripPlanner

namespace Toml

/-- How a table has come about. -/
inductive Origin where
  /-- On the way to a table that a header has opened. -/
  | implied
  /-- By its header. -/
  | opened
  /-- On the way of a dotted key. -/
  | dotted
  deriving DecidableEq

/-- A part of a table under construction. -/
inductive Node where
  /-- A value that is complete. -/
  | value (v : Value)
  /-- A table. -/
  | table (origin : Origin) (entries : List (String × Node))
  /-- An array of tables; headers and keys speak of its last element, which stands first. -/
  | tables (elements : List (List (String × Node)))

/-- The entries of a table. -/
abbrev Entries := List (String × Node)

namespace Entries

/-- Gives a key a node, in place if it has one. -/
def set (name : String) (node : Node) : Entries → Entries
  | [] => [(name, node)]
  | (n, old) :: rest => if n = name then (name, node) :: rest else (n, old) :: set name node rest

/-- Changes the table at the end of a path. Tables on the way are made where there are none. A
dotted key does not go through a table that has a header. -/
def within (dotted : Bool) (change : Origin → Entries → Option Entries) :
    List String → Origin → Entries → Option Entries
  | [], origin, entries => change origin entries
  | name :: path, _, entries =>
    match entries.lookup name with
    | none => do
      let origin := if dotted then .dotted else .implied
      return entries.set name (.table origin (← within dotted change path origin []))
    | some (.table origin inner) =>
      if dotted && origin = .opened then none
      else do return entries.set name (.table origin (← within dotted change path origin inner))
    | some (.tables (last :: before)) => do
      return entries.set name (.tables ((← within dotted change path .opened last) :: before))
    | some (.tables []) => none
    | some (.value _) => none

/-- Gives a key a value, unless it has one. -/
def give (name : String) (v : Value) (entries : Entries) : Option Entries :=
  match entries.lookup name with
  | none => some (entries.set name (.value v))
  | some _ => none

/-- Gives a dotted key a value. Its last part goes into a table that dotted keys have made. -/
def assign (path : List String) (v : Value) (entries : Entries) : Option Entries := do
  let name ← path.getLast?
  match path.dropLast with
  | [] => entries.give name v
  | parents =>
    within true (fun origin inner => if origin = .dotted then inner.give name v else none) parents
      .opened entries

/-- Opens a table. -/
def openTable (path : List String) (entries : Entries) : Option Entries := do
  let name ← path.getLast?
  within false (fun _ inner => match inner.lookup name with
    | none => some (inner.set name (.table .opened []))
    | some (.table .implied entries) => some (inner.set name (.table .opened entries))
    | _ => none) path.dropLast .opened entries

/-- Adds an element to an array of tables. -/
def addElement (path : List String) (entries : Entries) : Option Entries := do
  let name ← path.getLast?
  within false (fun _ inner => match inner.lookup name with
    | none => some (inner.set name (.tables [[]]))
    | some (.tables elements) => some (inner.set name (.tables ([] :: elements)))
    | _ => none) path.dropLast .opened entries

end Entries

mutual

/-- The value of a complete node. -/
def Node.toValue : Node → Value
  | .value v => v
  | .table _ entries => .record (Node.toFields entries)
  | .tables elements => .list (Node.toRecords elements).reverse

/-- The fields of the entries of a table. -/
def Node.toFields : List (String × Node) → List (String × Value)
  | [] => []
  | (name, node) :: rest => (name, node.toValue) :: Node.toFields rest

/-- The records of the elements of an array of tables. -/
def Node.toRecords : List (List (String × Node)) → List Value
  | [] => []
  | element :: rest => .record (Node.toFields element) :: Node.toRecords rest

end

/-- The record of assignments in their order. -/
def record? (assignments : List (List String × Value)) : Option Value :=
  (assignments.foldlM (fun entries (path, v) => Entries.assign path v entries) []).map
    fun entries => .record (Node.toFields entries)

end Toml

end TripPlanner
