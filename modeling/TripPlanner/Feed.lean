import TripPlanner.Graph

/-!
# Feeds

A feed announces a complete list of car parks or rental stations. The graph is brought in line with
it: a new record gets a vertex that is linked to the streets, a known one is updated, and one that
is missing from the list is removed with its vertex. A roadworks feed announces complete closures.
-/

namespace TripPlanner

/-- A kind of record that stands for a place in the network: how it becomes a vertex, and where it
is registered. -/
class Place (R : outParam Type) (ρ : Type) where
  /-- The id of a record. -/
  id : ρ → String
  /-- The name of a record. -/
  name : ρ → String
  /-- Where it lies. -/
  position : ρ → Point R
  /-- The record as it is registered. -/
  complete : ρ → ρ
  /-- What the vertex of an id stands for. -/
  vertexKind : String → VertexKind
  /-- The loops at the vertex, in the order of addition. -/
  loops : List (EdgeKind R)
  /-- The registry, if its service is there. -/
  registry? : Services R → Option (Registry ρ)
  /-- Changes the registry, whose service is created if it is not there. -/
  modifyRegistry : (Registry ρ → Registry ρ) → Services R → Services R
  /-- Drops the service. -/
  dropService : Services R → Services R

instance {R : Type} : Place R (CarPark R) where
  id := CarPark.id
  name := CarPark.name
  position := CarPark.position
  complete := fun park => park
  vertexKind := .parkAndRide
  loops := [.parkAndRide]
  registry? := Services.carParks
  modifyRegistry := fun f services => services.modifyCarParks f
  dropService := fun services => { services with carParks := none }

instance {R : Type} : Place R (Station R) where
  id := Station.id
  name := Station.name
  position := Station.position
  complete := Station.withSomeNetwork
  vertexKind := .rentalStation
  loops := [.rentBike, .dropOffBike]
  registry? := fun services => services.rental.map RentalService.stations
  modifyRegistry := fun f services =>
    services.modifyRental fun service => { service with stations := f service.stations }
  dropService := fun services => { services with rental := none }

/-- Places farther from every street stay unlinked; in metres. -/
def maxLinkDistance {R : Type} [Quantity R] : R := Quantity.ofInt 1000

namespace Graph

variable {R : Type} [Quantity R] [Geodesy R]

/-- Links a vertex with the nearest street in both directions, unless that is too far. -/
def linkToStreets (g : Graph R) (v : VertexIndex) : Graph R :=
  let link : Option (VertexIndex × R) := do
    let here ← g.vertex? v
    let street ← g.nearestStreet? here.position
    let there ← g.vertex? street
    return (street, Geodesy.groundDistance here.position there.position)
  match link with
  | none => g
  | some (street, length) =>
    if maxLinkDistance < length then g
    else ((g.connect v street (.link length)).2.connect street v (.link length)).2

section
variable {ρ : Type} [Place R ρ]

/-- The registry of the records, empty if their service is not there. -/
def registry (g : Graph R) (ρ : Type) [Place R ρ] : Registry ρ :=
  (Place.registry? g.services).getD .empty

/-- Whether the id is registered with a vertex that is there. -/
def isPlaced (g : Graph R) (ρ : Type) [Place R ρ] (id : String) : Bool :=
  ((g.registry ρ).vertex? id).any g.vertices.contains

/-- Adds the vertex of a record with its loops and links, and registers both. -/
def settle (g : Graph R) (record : ρ) : Graph R :=
  let id := Place.id record
  let (v, g) := g.addVertex ⟨Place.name record, Place.position record, Place.vertexKind ρ id⟩
  let g := (Place.loops (ρ := ρ)).foldl (fun g loop => (g.connect v v loop).2) g
  (g.linkToStreets v).modifyServices (Place.modifyRegistry fun registry : Registry ρ =>
    registry.place id record v)

/-- Registers a record. It is settled if it has no vertex that is there. -/
def announce (g : Graph R) (record : ρ) : Graph R :=
  let record := Place.complete record
  if g.isPlaced ρ (Place.id record) then
    g.modifyServices (Place.modifyRegistry fun registry : Registry ρ =>
      registry.put (Place.id record) record)
  else g.settle record

/-- Forgets a registered id and removes its vertex. -/
def withdraw (g : Graph R) (ρ : Type) [Place R ρ] (id : String) : Graph R :=
  let v := (g.registry ρ).vertex? id
  let g := g.modifyServices (Place.modifyRegistry fun registry : Registry ρ => registry.erase id)
  match v with
  | some v => (g.removeVertex v).2
  | none => g

/-- The registered ids that a list of records does not mention. -/
def staleIds (g : Graph R) (records : List ρ) : List String :=
  (g.registry ρ).ids.filter fun id => id ∉ records.map Place.id

/-- Brings the graph in line with a complete list of records. -/
def applyRecords (g : Graph R) (records : List ρ) : Graph R :=
  records.foldl announce ((g.staleIds records).foldl (fun g id => g.withdraw ρ id) g)

/-- Drops the service of the records and removes the vertices registered with it. -/
def dropRecords (g : Graph R) (ρ : Type) [Place R ρ] : Graph R :=
  let vertices := (g.registry ρ).listings.values.filterMap Listing.vertex
  vertices.foldl (fun g v => (g.removeVertex v).2) (g.modifyServices (Place.dropService ρ))

end

/-! ## Roadworks -/

/-- The numbers of the streets at a vertex. -/
def streetIdsAt (g : Graph R) (v : VertexIndex) : List EdgeId :=
  ((g.outgoing v ++ g.incoming v).filter fun entry => entry.2.street?.isSome).map fun entry =>
    entry.2.id

/-- Replaces the roadworks by closures of the given ways and of every street that touches one of
the areas. -/
def applyRoadworks (g : Graph R) (ways : List Int) (areas : List (Area R)) : Graph R :=
  let closed := areas.flatMap fun area => (g.streetsWithin area).flatMap g.streetIdsAt
  g.modifyServices fun services =>
    { services with roadworks := some ((Roadworks.ofWays ways).close closed) }

end Graph

end TripPlanner
