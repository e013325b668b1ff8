import TripPlanner.Proofs.Turns

/-!
# Upkeep

What feeds of places do to the network is made of changes about vertices of their own: those that
are registered with them, and those that get a free index (`Graph.PlaceChange`). None of these
changes adds an intersection or a street (`Graph.OwnChange`). Whole units are opened here once
(`Graph.PlaceChanges.applyRecords`, `Graph.PlaceChanges.dropRecords`).
-/

namespace TripPlanner

namespace Graph

variable {R ρ : Type} [Quantity R] [Place R ρ] {own : VertexIndex → Prop} {g next : Graph R}
  {v : VertexIndex} {id : String}

/-- One change about vertices among some indices. What comes is no intersection and no street, and
closures stay as they are. -/
inductive OwnChange (own : VertexIndex → Prop) : Graph R → Graph R → Prop where
  | addVertex {g : Graph R} {vertex : Vertex R} : own g.vertices.next → vertex.isStreet = false →
      OwnChange own g (g.addVertex vertex).2
  | connect {g : Graph R} {source target : VertexIndex} {kind : EdgeKind R} :
      own source ∨ own target → kind.IsAside → g.vertices.contains source = true →
      g.vertices.contains target = true → OwnChange own g (g.connect source target kind).2
  | removeVertex {g : Graph R} {v : VertexIndex} : own v → OwnChange own g (g.removeVertex v).2
  | modifyServices {g : Graph R} {f : Services R → Services R} :
      (f g.services).roadworks = g.services.roadworks → OwnChange own g (g.modifyServices f)

/-- Any number of such changes. -/
def Upkeep (own : VertexIndex → Prop) : Graph R → Graph R → Prop :=
  Relation.ReflTransGen (OwnChange own)

/-- One change for the places of one kind, about vertices among some indices: the vertex of a place
comes, one of its loops or a link to it comes, a vertex goes with its edges, or the registry changes
or is dropped with its service. -/
inductive PlaceChange (ρ : Type) [Place R ρ] (own : VertexIndex → Prop) :
    Graph R → Graph R → Prop where
  | addVertex {g : Graph R} (name : String) (position : Point R) (id : String) :
      own g.vertices.next →
      PlaceChange ρ own g (g.addVertex ⟨name, position, Place.vertexKind ρ id⟩).2
  | connect {g : Graph R} {source target : VertexIndex} {kind : EdgeKind R} :
      own source ∨ own target → kind ∈ Place.loops (ρ := ρ) ∨ (∃ length, kind = .link length) →
      g.vertices.contains source = true → g.vertices.contains target = true →
      PlaceChange ρ own g (g.connect source target kind).2
  | removeVertex {g : Graph R} {v : VertexIndex} : own v →
      PlaceChange ρ own g (g.removeVertex v).2
  | modifyRegistry {g : Graph R} (f : Registry ρ → Registry ρ) :
      PlaceChange ρ own g (g.modifyServices (Place.modifyRegistry f))
  | dropService {g : Graph R} : PlaceChange ρ own g (g.modifyServices (Place.dropService ρ))

/-- Any number of such changes. -/
def PlaceChanges (ρ : Type) [Place R ρ] (own : VertexIndex → Prop) : Graph R → Graph R → Prop :=
  Relation.ReflTransGen (PlaceChange ρ own)

/-- The indices at the disposal of the places of one kind, those that are registered with them and
those that are free, are among some. -/
def Disposes (ρ : Type) [Place R ρ] (own : VertexIndex → Prop) (g : Graph R) : Prop :=
  ∀ v, g.IsRegistered ρ v ∨ g.vertex? v = none → own v

theorem OwnChange.change (h : OwnChange own g next) : g.Change next := by
  cases h with
  | addVertex => exact .addVertex g _
  | connect _ _ hsource htarget => exact .connect _ hsource htarget
  | removeVertex => exact .removeVertex g _
  | modifyServices h => exact .modifyServices h

theorem OwnChange.version (h : OwnChange own g next) : next.version = g.version := by
  cases h <;> rfl

theorem Upkeep.version (h : Upkeep own g next) : next.version = g.version := by
  induction h with
  | refl => rfl
  | tail _ h ih => exact h.version.trans ih

theorem Upkeep.changes (h : Upkeep own g next) : g.Changes next :=
  Relation.ReflTransGen.mono (fun _ _ => OwnChange.change) _ _ h

theorem PlaceChange.ownChange [AsidePlace R ρ] (h : PlaceChange ρ own g next) :
    OwnChange own g next := by
  cases h with
  | addVertex name position id hown => exact .addVertex hown (AsidePlace.isStreet _ _ _)
  | connect hown hkind hsource htarget =>
    refine .connect hown ?_ hsource htarget
    rcases hkind with hloop | ⟨length, rfl⟩
    · exact AsidePlace.loops _ hloop
    · exact EdgeKind.isAside_link length
  | removeVertex hown => exact .removeVertex hown
  | modifyRegistry f => exact .modifyServices (LawfulPlace.roadworks_modifyRegistry _ _)
  | dropService => exact .modifyServices (AsidePlace.roadworks_dropService _)

theorem PlaceChanges.upkeep [AsidePlace R ρ] (h : PlaceChanges ρ own g next) :
    Upkeep own g next :=
  Relation.ReflTransGen.mono (fun _ _ => PlaceChange.ownChange) _ _ h

omit [Quantity R] in
theorem Disposes.own_next (H : g.Disposes ρ own) : own g.vertices.next :=
  H _ (.inr vertex?_next)

omit [Quantity R] in
theorem Disposes.of_mindsOwn (H : g.Disposes ρ own) (h : MindsOwn ρ g next) :
    next.Disposes ρ own :=
  fun v hv => H v (h.disposes hv)

namespace PlaceChanges

/-! ## What is done with one record -/

theorem foldl_connect (loops : List (EdgeKind R)) (hown : own v)
    (hv : g.vertices.contains v = true) (hloops : ∀ loop ∈ loops, loop ∈ Place.loops (ρ := ρ)) :
    PlaceChanges ρ own g (loops.foldl (fun g loop => (g.connect v v loop).2) g) := by
  induction loops generalizing g with
  | nil => exact .refl
  | cons loop loops ih =>
    refine .head (.connect (.inl hown) (.inl (hloops loop List.mem_cons_self)) hv hv) (ih hv ?_)
    exact fun loop hmem => hloops loop (List.mem_cons_of_mem _ hmem)

theorem withdraw (H : g.Disposes ρ own) (id : String) :
    PlaceChanges ρ own g (g.withdraw ρ id) := by
  unfold Graph.withdraw
  dsimp only
  split
  · exact .tail (.single (.modifyRegistry _)) (.removeVertex (H _ (.inl ⟨id, ‹_›⟩)))
  · exact .single (.modifyRegistry _)

variable [Geodesy R]

theorem linkToStreets (g : Graph R) (hown : own v) :
    PlaceChanges ρ own g (g.linkToStreets v) := by
  unfold Graph.linkToStreets
  dsimp only
  split
  · exact .refl
  · rename_i street length hlink
    split
    · exact .refl
    · simp only [bind, Option.bind_eq_some_iff] at hlink
      obtain ⟨here, hhere, street', -, there, hthere, heq⟩ := hlink
      obtain ⟨rfl, -⟩ := Prod.mk.inj (Option.some.inj heq)
      have hv := Arena.contains_iff.2 ⟨here, hhere⟩
      have hstreet := Arena.contains_iff.2 ⟨there, hthere⟩
      exact .tail (.single (.connect (.inl hown) (.inr ⟨length, rfl⟩) hv hstreet))
        (.connect (.inr hown) (.inr ⟨length, rfl⟩) hstreet hv)

theorem settle (hown : own g.vertices.next) (record : ρ) :
    PlaceChanges ρ own g (g.settle record) := by
  let vertex : Vertex R :=
    ⟨Place.name record, Place.position record, Place.vertexKind ρ (Place.id record)⟩
  have hnew : (g.addVertex vertex).2.vertices.contains g.vertices.next = true :=
    Arena.contains_iff.2 ⟨vertex, vertex?_addVertex.trans (if_pos rfl)⟩
  have hloops := foldl_connect (Place.loops (ρ := ρ)) hown hnew fun _ => id
  exact .tail (.trans (.head (.addVertex _ _ _ hown) hloops) (linkToStreets _ hown))
    (.modifyRegistry _)

theorem announce (hown : own g.vertices.next) (record : ρ) :
    PlaceChanges ρ own g (g.announce record) := by
  unfold Graph.announce
  dsimp only
  split
  · exact .single (.modifyRegistry _)
  · exact settle hown _

/-! ## Whole units -/

theorem applyRecords [LawfulPlace R ρ] (H : g.Disposes ρ own) (records : List ρ) :
    PlaceChanges ρ own g (g.applyRecords records) := by
  let Kept (next : Graph R) : Prop := PlaceChanges ρ own g next ∧ next.Disposes ρ own
  refine (List.foldlRecOn records _ (motive := Kept)
    (List.foldlRecOn (g.staleIds records) _ (motive := Kept) ⟨.refl, H⟩ ?_) ?_).1
  · intro next hnext id _
    exact ⟨hnext.1.trans (withdraw hnext.2 id), hnext.2.of_mindsOwn (.withdraw next id)⟩
  · intro next hnext record _
    exact ⟨hnext.1.trans (announce hnext.2.own_next record),
      hnext.2.of_mindsOwn (.announce next record)⟩

omit [Geodesy R] in
theorem dropRecords (H : g.Disposes ρ own) : PlaceChanges ρ own g (g.dropRecords ρ) := by
  refine List.foldlRecOn _ _ (.single .dropService) ?_
  exact fun next hnext v hv => hnext.tail (.removeVertex (H v (.inl (mem_registered_iff.1 hv))))

end PlaceChanges

theorem Upkeep.applyRecords [Geodesy R] [AsidePlace R ρ] (H : g.Disposes ρ own)
    (records : List ρ) : Upkeep own g (g.applyRecords records) :=
  (PlaceChanges.applyRecords H records).upkeep

/-- Bringing the places of one kind up to date leaves the closures for roadworks as they are. -/
theorem Changes.applyRecords [Geodesy R] [AsidePlace R ρ] (g : Graph R) (records : List ρ) :
    g.Changes (g.applyRecords records) := by
  have hall : g.Disposes ρ fun _ => True := fun _ _ => trivial
  exact (Upkeep.applyRecords hall records).changes

end Graph

namespace Turn

variable {R : Type} [Quantity R] [Geodesy R] {own : VertexIndex → Prop} {g : Graph R}

/-- A turn is made of changes for the places of one kind, or only changes services. -/
theorem placeChanges (turn : Turn R) (hparks : g.Disposes (CarPark R) own)
    (hstations : g.Disposes (Station R) own) :
    Graph.PlaceChanges (CarPark R) own g (turn.unit g) ∨
      Graph.PlaceChanges (Station R) own g (turn.unit g) ∨
        ∃ services, turn.unit g = { g with services := services } := by
  match turn with
  | .setUp ⟨.carPark, _, _, _⟩ | .setUp ⟨.bikeRental, _, _, _⟩ | .setUp ⟨.roadworks, _, _, _⟩ =>
    exact .inr (.inr ⟨_, rfl⟩)
  | .poll _ (.carParks records) => exact .inl (.applyRecords hparks records)
  | .poll _ (.stations records) => exact .inr (.inl (.applyRecords hstations records))
  | .poll _ (.roadworks ..) => exact .inr (.inr ⟨_, rfl⟩)
  | .tearDown ⟨.carPark, _, _, _⟩ => exact .inl (.dropRecords hparks)
  | .tearDown ⟨.bikeRental, _, _, _⟩ => exact .inr (.inl (.dropRecords hstations))
  | .tearDown ⟨.roadworks, _, _, _⟩ => exact .inr (.inr ⟨_, rfl⟩)

/-- A turn is upkeep, or only changes services. -/
theorem upkeep (turn : Turn R) (hparks : g.Disposes (CarPark R) own)
    (hstations : g.Disposes (Station R) own) :
    Graph.Upkeep own g (turn.unit g) ∨
      ∃ services, turn.unit g = { g with services := services } := by
  rcases turn.placeChanges hparks hstations with h | h | h
  · exact .inl h.upkeep
  · exact .inl h.upkeep
  · exact .inr h

end Turn

end TripPlanner
