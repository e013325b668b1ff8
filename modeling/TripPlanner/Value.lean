import TripPlanner.Decimal

/-!
# Self-describing values

The values that requests, records and configurations are read from. Reading converts nothing: an
integer is read from an integer only, a text from a text, a choice from its exact name. A record
may also be given as the list of its fields in the order of their declaration.

The formats that values are written in differ in two points, which `Format` tells.
-/

namespace TripPlanner

/-- A value with its own description. -/
inductive Value where
  | null
  | bool (b : Bool)
  | int (i : Int)
  | decimal (d : Decimal)
  | text (s : String)
  | list (items : List Value)
  | record (fields : List (String × Value))
  deriving Inhabited

namespace Value

/-- A natural number as a value. -/
def ofNat (n : Nat) : Value := .int n

/-- What may be missing as a value. -/
def ofOption {α : Type} (present : α → Value) : Option α → Value
  | none => .null
  | some a => present a

/-- A list as a value. -/
def ofList {α : Type} (item : α → Value) (items : List α) : Value := .list (items.map item)

/-- The field of a record. -/
def field? (v : Value) (name : String) : Option Value :=
  match v with
  | .record fields => fields.lookup name
  | _ => none

/-- Reads a truth value. -/
def toBool? : Value → Option Bool
  | .bool b => some b
  | _ => none

/-- Reads a text. -/
def toText? : Value → Option String
  | .text s => some s
  | _ => none

/-- Reads an integer from `low` up to `high`. -/
def toInt? (low high : Int) : Value → Option Int
  | .int i => if low ≤ i ∧ i ≤ high then some i else none
  | _ => none

/-- Reads a natural number below `2 ^ bits`. -/
def toNat? (bits : Nat) (v : Value) : Option Nat :=
  (v.toInt? 0 ((Nat.pow 2 bits : Int) - 1)).map Int.toNat

/-- Reads a number: an integer of 64 bits, signed or not, or a decimal that is not too large. -/
def toQuantity? {R : Type} [OfDecimal R] : Value → Option R
  | .int i =>
    if -(Nat.pow 2 63 : Int) ≤ i ∧ i < Nat.pow 2 64 then some (OfDecimal.ofDecimal (.ofInt i))
    else none
  | .decimal d => if d.overflows then none else some (OfDecimal.ofDecimal d)
  | _ => none

/-- Reads a list, item by item. -/
def toList? {α : Type} (item : Value → Option α) : Value → Option (List α)
  | .list items => items.mapM item
  | _ => none

/-- Reads a value that may be missing. -/
def toOption? {α : Type} (present : Value → Option α) : Value → Option (Option α)
  | .null => some none
  | v => (present v).map some

mutual

/-- Whether no number in a value is too large: integers have up to 128 bits, signed or not, and
decimals are no larger than doubles. -/
def isInReach : Value → Bool
  | .int i => -(Nat.pow 2 127 : Int) ≤ i && i < Nat.pow 2 128
  | .decimal d => !d.overflows
  | .list items => areInReach items
  | .record fields => fieldsInReach fields
  | _ => true

/-- Whether no number in a list is too large. -/
def areInReach : List Value → Bool
  | [] => true
  | item :: rest => item.isInReach && areInReach rest

/-- Whether no number in the fields of a record is too large. -/
def fieldsInReach : List (String × Value) → Bool
  | [] => true
  | (_, v) :: rest => v.isInReach && fieldsInReach rest

end

end Value

/-- The formats that values are written in. -/
inductive Format where
  | json
  | toml
  deriving DecidableEq, Repr

namespace Format

/-- Whether a value stands for no content: null, and where nothing is null an empty list or
record. -/
def isVoid : Format → Value → Bool
  | .json, .null => true
  | .toml, .list [] => true
  | .toml, .record [] => true
  | _, _ => false

/-- Whether a record may be given as a list of `given` items if it has `declared` fields. Where
more items than fields are allowed, the rest is passed over. -/
def admits (format : Format) (given declared : Nat) : Bool :=
  match format with
  | .json => given ≤ declared
  | .toml => true

end Format

/-- Reads one of a few named choices: its name, or a record of nothing but that name without
content. -/
def Value.toChoice? {α : Type} (format : Format) (choices : List α) (name : α → String) :
    Value → Option α
  | .text s => choices.find? fun choice => name choice = s
  | .record [(s, content)] =>
    if format.isVoid content then choices.find? fun choice => name choice = s else none
  | _ => none

/-- The fields of a record that is being read. -/
structure Fields where
  /-- Field names with what is given for them. -/
  given : List (String × Value)

namespace Fields

/-- The fields of a value that is to be a record with the declared fields. Further named fields are
left aside, unless a number in them is too large. -/
def of? (format : Format) (declared : List String) : Value → Option Fields
  | .record fields =>
    if fields.all fun (name, v) => name ∈ declared || v.isInReach then some ⟨fields⟩ else none
  | .list items =>
    if format.admits items.length declared.length then some ⟨declared.zip items⟩ else none
  | _ => none

variable {α : Type}

/-- Reads a field that has to be there. -/
def required (fields : Fields) (name : String) (read : Value → Option α) : Option α :=
  (fields.given.lookup name).bind read

/-- Reads a field that may be left out. -/
def withDefault (fields : Fields) (name : String) (default : α) (read : Value → Option α) :
    Option α :=
  match fields.given.lookup name with
  | none => some default
  | some v => read v

end Fields

end TripPlanner
