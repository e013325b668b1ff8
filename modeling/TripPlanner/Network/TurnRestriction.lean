import TripPlanner.Network.Edge

/-!
# Turn restrictions

Rules on which street may follow a street.
-/

namespace TripPlanner

/-- What a turn restriction rules out. -/
inductive RestrictionKind where
  /-- The turn onto the target. -/
  | noTurn
  /-- Every turn but the one onto the target. -/
  | onlyTurn
  deriving DecidableEq, Repr

namespace RestrictionKind

/-- All kinds. -/
def all : List RestrictionKind := [.noTurn, .onlyTurn]

/-- The written name of a kind. -/
def name : RestrictionKind → String
  | .noTurn => "no"
  | .onlyTurn => "only"

end RestrictionKind

/-- A rule for what may follow the street `source`. -/
structure TurnRestriction where
  /-- What it rules out. -/
  kind : RestrictionKind
  /-- The street one arrives by. -/
  source : EdgeIndex
  /-- The street that is forbidden, or the only one allowed. -/
  target : EdgeIndex
  /-- The modes that it binds. -/
  modes : ModeSet
  deriving DecidableEq, Repr

/-- Whether the restriction forbids to go on over `next` in the given mode. -/
def TurnRestriction.forbids (restriction : TurnRestriction) (next : EdgeIndex) (mode : Mode) :
    Bool :=
  restriction.modes.contains mode &&
    match restriction.kind with
    | .noTurn => next = restriction.target
    | .onlyTurn => next != restriction.target

end TripPlanner
