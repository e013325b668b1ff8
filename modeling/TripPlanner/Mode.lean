/-!
# Travel modes

Ways of travelling, and sets of them: what a request allows and what a street permits.
-/

namespace TripPlanner

/-- A way of travelling along an edge. -/
inductive Mode where
  | walk
  | bicycle
  | car
  | transit
  deriving DecidableEq, Repr

namespace Mode

/-- All modes, in the order in which sets list them. -/
def all : List Mode := [.walk, .bicycle, .car, .transit]

/-- The written name of a mode. -/
def name : Mode → String
  | .walk => "WALK"
  | .bicycle => "BICYCLE"
  | .car => "CAR"
  | .transit => "TRANSIT"

/-- Whether the mode is the car. -/
def isDriving (mode : Mode) : Bool := mode = .car

/-- Whether the mode is the bicycle. -/
def isCycling (mode : Mode) : Bool := mode = .bicycle

end Mode

/-- A set of modes. -/
structure ModeSet where
  /-- Whether walking is in the set. -/
  walk : Bool
  /-- Whether cycling is in the set. -/
  bicycle : Bool
  /-- Whether driving is in the set. -/
  car : Bool
  /-- Whether riding public transport is in the set. -/
  transit : Bool
  deriving DecidableEq, Repr

namespace ModeSet

/-- The set without modes. -/
def empty : ModeSet := ⟨false, false, false, false⟩

/-- Whether the mode is in the set. -/
def contains (modes : ModeSet) : Mode → Bool
  | .walk => modes.walk
  | .bicycle => modes.bicycle
  | .car => modes.car
  | .transit => modes.transit

/-- The set with one more mode. -/
def insert (modes : ModeSet) : Mode → ModeSet
  | .walk => { modes with walk := true }
  | .bicycle => { modes with bicycle := true }
  | .car => { modes with car := true }
  | .transit => { modes with transit := true }

/-- The set of the listed modes. -/
def ofList (modes : List Mode) : ModeSet := modes.foldl insert empty

/-- The modes of the set, each once. -/
def toList (modes : ModeSet) : List Mode := Mode.all.filter modes.contains

/-- Whether no mode is in the set. -/
def isEmpty (modes : ModeSet) : Bool := modes = empty

/-- What an open street usually permits. -/
def allStreet : ModeSet := ofList [.walk, .bicycle, .car]

/-- Walking alone. -/
def pedestrian : ModeSet := ofList [.walk]

theorem contains_insert (modes : ModeSet) (added mode : Mode) :
    (modes.insert added).contains mode = (mode == added || modes.contains mode) := by
  cases added <;> cases mode <;> rfl

theorem mem_toList {modes : ModeSet} {mode : Mode} :
    mode ∈ modes.toList ↔ modes.contains mode = true := by
  have : mode ∈ Mode.all := by cases mode <;> simp [Mode.all]
  simp [toList, this]

end ModeSet

end TripPlanner
