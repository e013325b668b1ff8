import TripPlanner.Geodesy
import TripPlanner.Value
import TripPlanner.Text.Blank
import TripPlanner.Service.NetworkSet
import TripPlanner.Service.Registry

/-!
# Bicycle rental

Rental stations, the networks they belong to, and where the bicycles of a network may be left.
-/

namespace TripPlanner

/-- The network of stations that name none. -/
def defaultNetwork : String := "default"

/-- A rental station as its feed describes it. -/
structure Station (R : Type) where
  /-- Its id. -/
  id : String
  /-- Its name. -/
  name : String
  /-- Where it lies. -/
  position : Point R
  /-- Bicycles to rent. -/
  bikesAvailable : Nat
  /-- Places to return one. -/
  spacesAvailable : Nat
  /-- The networks it belongs to. -/
  networks : NetworkSet

namespace Station

variable {R : Type}

/-- Whether two records describe the same station. -/
def same (a b : Station R) : Bool := a.id = b.id

/-- The station in the default network, if it names none. -/
def withSomeNetwork (station : Station R) : Station R :=
  if station.networks.isEmpty then
    { station with networks := station.networks.insert defaultNetwork }
  else station

/-- Reads the record of a feed. Counts default to none, and networks to the empty set. -/
def ofValue? [OfDecimal R] (v : Value) : Option (Station R) := do
  let fields ← Fields.of? .json
    ["id", "name", "x", "y", "bikes_available", "spaces_available", "networks"] v
  let id ← fields.required "id" Value.toText?
  let name ← fields.withDefault "name" "" Value.toText?
  let x ← fields.required "x" Value.toQuantity?
  let y ← fields.required "y" Value.toQuantity?
  let bikesAvailable ← fields.withDefault "bikes_available" 0 (Value.toNat? 32)
  let spacesAvailable ← fields.withDefault "spaces_available" 0 (Value.toNat? 32)
  let networks ← fields.withDefault "networks" [] (Value.toList? Value.toText?)
  return ⟨id, name, ⟨x, y⟩, bikesAvailable, spacesAvailable, .ofList networks⟩

/-- The record of a station, its numbers written as told. -/
def fields (number : R → Value) (station : Station R) : List (String × Value) :=
  [("id", .text station.id), ("name", .text station.name), ("x", number station.position.x),
    ("y", number station.position.y), ("bikes_available", .ofNat station.bikesAvailable),
    ("spaces_available", .ofNat station.spacesAvailable),
    ("networks", .ofList Value.text station.networks.names)]

end Station

/-- Where the bicycles of a network may be left. -/
inductive RentalType where
  /-- At stations only. -/
  | stationBased
  /-- Anywhere. -/
  | freeFloating
  /-- Anywhere, but outside a station the rental goes on and may cost more. -/
  | temporaryDropOff
  deriving DecidableEq, Repr

namespace RentalType

/-- All rental types. -/
def all : List RentalType := [.stationBased, .freeFloating, .temporaryDropOff]

/-- The written name of a rental type. -/
def name : RentalType → String
  | .stationBased => "station-based"
  | .freeFloating => "free-floating"
  | .temporaryDropOff => "station-based-with-temporary-drop-off"

/-- The rental type of networks of which nothing else is known. -/
def default : RentalType := .stationBased

/-- The rental type with the given name, whatever its case and the blank characters around it.
Only the letters A to Z have lower case forms that occur in a name. -/
def ofName? (text : String) : Option RentalType :=
  let cleaned := (Text.trim text.toList).map Char.toLower
  all.find? fun type => type.name.toList = cleaned

/-- Like `ofName?`, but the default for names that are not known. -/
def ofName (text : String) : RentalType := (ofName? text).getD default

/-- Whether a bicycle may be left outside a station. -/
def allowsFreeFloatingDropOff : RentalType → Bool
  | .stationBased => false
  | .freeFloating => true
  | .temporaryDropOff => true

/-- Reads a rental type by its exact name. -/
def ofValue? (v : Value) : Option RentalType := v.toChoice? .json all name

end RentalType

/-- The rental stations and what is known of their networks. -/
structure RentalService (R : Type) where
  /-- The stations. -/
  stations : Registry (Station R)
  /-- Declared rental types by network. -/
  networkTypes : Table String RentalType

namespace RentalService

variable {R : Type}

/-- The service without stations and networks. -/
def empty : RentalService R := ⟨.empty, ∅⟩

/-- The service with a rental type declared for a network. -/
def setNetworkType (service : RentalService R) (network : String) (type : RentalType) :
    RentalService R :=
  { service with networkTypes := service.networkTypes.insert network type }

/-- The rental type of a network, the default if none is declared. -/
def networkType (service : RentalService R) (network : String) : RentalType :=
  (service.networkTypes.get? network).getD .default

/-- Whether one of the networks lets a bicycle be left outside a station. -/
def allowFreeFloatingDropOff (service : RentalService R) (networks : NetworkSet) : Bool :=
  networks.names.any fun network => (service.networkType network).allowsFreeFloatingDropOff

/-- Whether leaving a bicycle outside a station calls for a warning: one of the networks is
declared to let the rental go on. -/
def alertsFreeFloating (service : RentalService R) (networks : NetworkSet) : Bool :=
  networks.names.any fun network =>
    service.networkTypes.get? network = some .temporaryDropOff

end RentalService

end TripPlanner
