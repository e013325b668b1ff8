import TripPlanner.Proofs.Removal
import TripPlanner.Proofs.Repetition
import TripPlanner.Proofs.Restoration

/-!
# Seclusion

As long as nobody else builds at the places of feeds (`Graph.Served`), only links lead there, and
only loops are there (`Graph.Secludes`). So what is done for places leaves streets, transit rides,
turn restrictions and the street index alone: some edges of the places go, and others come in front
of those that stay (`Graph.Rearranges`). To bring in data is to leave all others alone, and to do
it twice is the same as once (`Graph.Served.unobtrusive`).
-/

namespace TripPlanner

variable {R ρ σ : Type}

namespace EdgeKind

/-- Whether the edge belongs to a place of feeds: a link to it, or a loop there. -/
def isAccess : EdgeKind R → Bool
  | .link _ | .parkAndRide | .rentBike | .dropOffBike => true
  | _ => false

theorem isAside_of_isAccess [Quantity R] {kind : EdgeKind R} (h : kind.isAccess = true) :
    kind.IsAside := by
  cases kind with
  | link | parkAndRide | rentBike | dropOffBike => exact ⟨rfl, fun _ => rfl⟩
  | _ => cases h

end EdgeKind

/-- A kind of place whose loops are told apart from all that others add. -/
class AccessPlace (R : outParam Type) (ρ : Type) [Quantity R] [Place R ρ] : Prop
    extends AsidePlace R ρ where
  isAccess_of_mem_loops : ∀ loop ∈ Place.loops (ρ := ρ), loop.isAccess = true

instance [Quantity R] : AccessPlace R (CarPark R) where
  isAccess_of_mem_loops loop h := by
    cases List.mem_singleton.1 h
    rfl

instance [Quantity R] : AccessPlace R (Station R) where
  isAccess_of_mem_loops loop h := by
    rcases List.mem_pair.1 h with rfl | rfl <;> rfl

namespace Graph

variable {own : VertexIndex → Prop} {g next last : Graph R} {e : EdgeIndex} {edge : Edge R}
  {v : VertexIndex} {vertex : Vertex R}

/-! ## The order of edges -/

/-- Of the edges that were there, those at vertices of others stay, in the order they were in. What
comes stands in front of them and is an edge of the places. -/
structure Rearranges (own : VertexIndex → Prop) (g next : Graph R)
    (added kept : List (EdgeIndex × Edge R)) : Prop where
  entries : next.edges.entries = added ++ kept
  sublist : kept.Sublist g.edges.entries
  stays : ∀ entry ∈ g.edges.entries, ¬ own entry.2.source → ¬ own entry.2.target → entry ∈ kept
  comes : ∀ entry ∈ added, g.nextEdgeId ≤ entry.2.id ∧ entry.2.kind.isAccess = true ∧
    (own entry.2.source ∨ own entry.2.target)
  nextEdgeId_le : g.nextEdgeId ≤ next.nextEdgeId

theorem Rearranges.of_eq (hedges : next.edges = g.edges) (hid : next.nextEdgeId = g.nextEdgeId) :
    Rearranges own g next [] g.edges.entries where
  entries := congrArg Arena.entries hedges
  sublist := .refl _
  stays _ hmem _ _ := hmem
  comes _ hmem := nomatch hmem
  nextEdgeId_le := Nat.le_of_eq hid.symm

theorem Rearranges.connect [Quantity R] {source target : VertexIndex} {kind : EdgeKind R}
    (hown : own source ∨ own target) (hkind : kind.isAccess = true) :
    Rearranges own g (g.connect source target kind).2
      [(g.edges.next, ⟨g.nextEdgeId, source, target, kind⟩)] g.edges.entries where
  entries := Arena.entries_insert ..
  sublist := .refl _
  stays _ hmem _ _ := hmem
  comes entry hmem := by
    cases List.mem_singleton.1 hmem
    exact ⟨Nat.le_refl _, hkind, hown⟩
  nextEdgeId_le := Nat.le_succ _

theorem Rearranges.removeVertex [Quantity R] (hown : own v) :
    Rearranges own g (g.removeVertex v).2 []
      (g.edges.filter fun edge => edge.source ≠ v ∧ edge.target ≠ v) where
  entries := g.edges_entries_removeVertex v
  sublist := List.filter_sublist
  stays entry hmem hsource htarget := by
    refine List.mem_filter.2 ⟨hmem, decide_eq_true ⟨?_, ?_⟩⟩
    · rintro rfl
      exact hsource hown
    · rintro rfl
      exact htarget hown
  comes _ hmem := nomatch hmem
  nextEdgeId_le := Nat.le_refl _

theorem Rearranges.trans {added kept later left : List (EdgeIndex × Edge R)}
    (H : Rearranges own g next added kept) (H' : Rearranges own next last later left) :
    ∃ added kept, Rearranges own g last added kept := by
  -- Of the edges that have come, some may have gone again.
  obtain ⟨still, kept', rfl, hstill, hkept'⟩ := List.sublist_append_iff.1 (H.entries ▸ H'.sublist)
  refine ⟨later ++ still, kept', ?_, hkept'.trans H.sublist, fun entry hmem hsource htarget => ?_,
    fun entry hmem => ?_, H.nextEdgeId_le.trans H'.nextEdgeId_le⟩
  · rw [H'.entries, List.append_assoc]
  · have hnext : entry ∈ next.edges.entries :=
      H.entries ▸ List.mem_append_right _ (H.stays entry hmem hsource htarget)
    refine (List.mem_append.1 (H'.stays entry hnext hsource htarget)).resolve_left fun hnew => ?_
    exact (H.comes entry (hstill.subset hnew)).2.2.elim hsource htarget
  · rcases List.mem_append.1 hmem with hlater | hmem
    · exact (H'.comes entry hlater).imp_left H.nextEdgeId_le.trans
    · exact H.comes entry (hstill.subset hmem)

theorem Rearranges.edge?_of_edge? {added kept : List (EdgeIndex × Edge R)}
    (H : Rearranges own g next added kept) (he : g.edge? e = some edge)
    (hsource : ¬ own edge.source) (htarget : ¬ own edge.target) : next.edge? e = some edge := by
  have hkept := H.stays _ (Arena.get?_eq_some_iff.1 he) hsource htarget
  exact Arena.get?_eq_some_iff.2 (H.entries ▸ List.mem_append_right _ hkept)

theorem Rearranges.edge?_cases {added kept : List (EdgeIndex × Edge R)}
    (H : Rearranges own g next added kept) (he : next.edge? e = some edge) :
    g.edge? e = some edge ∨ edge.kind.isAccess = true ∧ (own edge.source ∨ own edge.target) := by
  have hmem := Arena.get?_eq_some_iff.1 he
  rw [H.entries] at hmem
  rcases List.mem_append.1 hmem with hadded | hkept
  · exact .inr (H.comes _ hadded).2
  · exact .inl (Arena.get?_eq_some_iff.2 (H.sublist.subset hkept))

/-- What comes is newer than what was there and stands in front of it; what stays of this is in the
order it was in. -/
def KeepsOrder (number : EdgeId) (before after : List (EdgeIndex × Edge R)) : Prop :=
  ∃ added kept, after = added ++ kept ∧ kept.Sublist before ∧ ∀ entry ∈ added, number ≤ entry.2.id

theorem Rearranges.keepsOrder {added kept : List (EdgeIndex × Edge R)}
    (H : Rearranges own g next added kept) (keep : Edge R → Bool) :
    KeepsOrder g.nextEdgeId (g.edges.filter keep) (next.edges.filter keep) := by
  refine ⟨added.filter fun entry => keep entry.2, kept.filter fun entry => keep entry.2, ?_,
    H.sublist.filter _, fun entry hmem => (H.comes entry (List.mem_filter.1 hmem).1).1⟩
  rw [Arena.filter, H.entries, List.filter_append]

/-! ## What leads to places -/

/-- Vertices among some indices are no intersections, and edges there are links and loops. -/
structure Secludes (own : VertexIndex → Prop) (g : Graph R) : Prop where
  regulated : g.Regulated
  isAccess : ∀ {e edge}, g.edge? e = some edge → own edge.source ∨ own edge.target →
    edge.kind.isAccess = true
  isStreet : ∀ {v vertex}, g.vertex? v = some vertex → own v → vertex.isStreet = false

/-- All that is not about edges of places is left as it is. -/
structure Leaves (own : VertexIndex → Prop) (g next : Graph R) : Prop where
  edges : ∃ added kept, Rearranges own g next added kept
  restrictions : next.restrictions = g.restrictions
  streetIndex : next.streetIndex = g.streetIndex
  bounds : next.bounds = g.bounds
  version : next.version = g.version

theorem Leaves.refl : Leaves own g g := ⟨⟨_, _, .of_eq rfl rfl⟩, rfl, rfl, rfl, rfl⟩

theorem Leaves.trans (H : Leaves own g next) (H' : Leaves own next last) : Leaves own g last where
  edges := by
    obtain ⟨added, kept, h⟩ := H.edges
    obtain ⟨later, left, h'⟩ := H'.edges
    exact h.trans h'
  restrictions := H'.restrictions.trans H.restrictions
  streetIndex := H'.streetIndex.trans H.streetIndex
  bounds := H'.bounds.trans H.bounds
  version := H'.version.trans H.version

theorem Secludes.mono {own' : VertexIndex → Prop} (H : Secludes own g) (h : ∀ v, own' v → own v) :
    Secludes own' g where
  regulated := H.regulated
  isAccess he hend := H.isAccess he (hend.imp (h _) (h _))
  isStreet hv hown := H.isStreet hv (h _ hown)

theorem Secludes.of_eq (H : Secludes own g) (hvertices : next.vertices = g.vertices)
    (hedges : next.edges = g.edges) (hrestrictions : next.restrictions = g.restrictions) :
    Secludes own next where
  regulated := H.regulated.of_eq hvertices hedges hrestrictions
  isAccess {e _} he := H.isAccess ((congrArg (Arena.get? · e) hedges).symm.trans he)
  isStreet {v _} hv := H.isStreet ((congrArg (Arena.get? · v) hvertices).symm.trans hv)

section
variable [Quantity R]

theorem Secludes.isOffStreet (H : Secludes own g) (hown : own v) : g.IsOffStreet v := by
  intro e edge he hstreet
  have hnot : ¬ edge.kind.isAccess = true := by
    intro haccess
    rw [Edge.street?, (EdgeKind.isAside_of_isAccess haccess).1] at hstreet
    cases hstreet
  refine ⟨?_, ?_⟩
  · rintro rfl
    exact hnot (H.isAccess he (.inl hown))
  · rintro rfl
    exact hnot (H.isAccess he (.inr hown))

theorem Secludes.addVertex (H : Secludes own g) (hstreet : vertex.isStreet = false) :
    Secludes own (g.addVertex vertex).2 ∧ Leaves own g (g.addVertex vertex).2 := by
  refine ⟨⟨H.regulated.addVertex vertex, H.isAccess, fun hv hown => ?_⟩,
    ⟨_, _, .of_eq rfl rfl⟩, rfl, ?_, rfl, rfl⟩
  · rw [vertex?_addVertex] at hv
    split at hv
    · cases hv
      exact hstreet
    · exact H.isStreet hv hown
  · simp only [Graph.addVertex, hstreet, Bool.false_eq_true, if_false]

theorem Secludes.connect (H : Secludes own g) {source target : VertexIndex} {kind : EdgeKind R}
    (hown : own source ∨ own target) (hkind : kind.isAccess = true)
    (hsource : g.vertices.contains source = true) (htarget : g.vertices.contains target = true) :
    Secludes own (g.connect source target kind).2 ∧
      Leaves own g (g.connect source target kind).2 := by
  refine ⟨⟨H.regulated.connect hsource htarget kind, fun he hend => ?_, H.isStreet⟩,
    ⟨_, _, .connect hown hkind⟩, rfl, rfl, (EdgeKind.isAside_of_isAccess hkind).2 g.bounds, rfl⟩
  rw [edge?_connect] at he
  split at he
  · cases he
    exact hkind
  · exact H.isAccess he hend

theorem Secludes.removeVertex (H : Secludes own g) (hown : own v) :
    Secludes own (g.removeVertex v).2 ∧ Leaves own g (g.removeVertex v).2 := by
  refine ⟨⟨H.regulated.removeVertex v, fun he => H.isAccess (edge?_removeVertex_iff.1 he).1,
    fun hv => ?_⟩, ⟨_, _, .removeVertex hown⟩,
    H.regulated.restrictions_removeVertex (H.isOffStreet hown),
    streetIndex_removeVertex_of_isStreet_eq_false fun hv => H.isStreet hv hown, rfl, rfl⟩
  rw [vertex?_removeVertex, Option.ite_none_left_eq_some] at hv
  exact H.isStreet hv.2

variable [Place R ρ] [AccessPlace R ρ]

theorem Secludes.placeChange (H : Secludes own g) (h : PlaceChange ρ own g next) :
    Secludes own next ∧ Leaves own g next := by
  cases h with
  | addVertex name position id => exact H.addVertex (AsidePlace.isStreet name position id)
  | connect hown hkind hsource htarget =>
    refine H.connect hown ?_ hsource htarget
    rcases hkind with hloop | ⟨length, rfl⟩
    · exact AccessPlace.isAccess_of_mem_loops _ hloop
    · rfl
  | removeVertex hown => exact H.removeVertex hown
  | modifyRegistry | dropService =>
    exact ⟨H.of_eq rfl rfl rfl, ⟨_, _, .of_eq rfl rfl⟩, rfl, rfl, rfl, rfl⟩

theorem Secludes.placeChanges (H : Secludes own g) (h : PlaceChanges ρ own g next) :
    Secludes own next ∧ Leaves own g next := by
  induction h with
  | refl => exact ⟨H, .refl⟩
  | tail _ h ih =>
    obtain ⟨hsecludes, hleaves⟩ := ih
    obtain ⟨hnext, hlast⟩ := hsecludes.placeChange h
    exact ⟨hnext, hleaves.trans hlast⟩

end

/-! ## Graphs that feeds have to themselves -/

/-- The vertex of a car park or a rental station. -/
def IsHeld (g : Graph R) (v : VertexIndex) : Prop :=
  g.IsRegistered (CarPark R) v ∨ g.IsRegistered (Station R) v

instance (g : Graph R) (v : VertexIndex) : Decidable (g.IsHeld v) :=
  inferInstanceAs (Decidable (_ ∨ _))

section
variable [Quantity R] [Geodesy R]

/-- From a graph without services, feeds take turns, and others add vertices, and edges between
vertices that are none of the feeds'. -/
inductive Served : Graph R → Prop where
  | start {g : Graph R} : g.Evolved → g.services = .empty → Served g
  | turn {g : Graph R} (turn : Turn R) : Served g → Served (turn.unit g)
  | addVertex {g : Graph R} (vertex : Vertex R) : Served g → Served (g.addVertex vertex).2
  | addEdge {g next : Graph R} {source target : VertexIndex} {kind : EdgeKind R} {e : EdgeIndex} :
      Served g → ¬ g.IsHeld source → ¬ g.IsHeld target →
      g.addEdge source target kind = .ok (e, next) → Served next
  | bumpVersion {g : Graph R} : Served g → Served g.bumpVersion

end

/-- Each place has its vertex, and the edges there are links and loops. -/
structure Sheltered [Quantity R] (g : Graph R) : Prop where
  evolved : g.Evolved
  placed : g.Placed (CarPark R) ∧ g.Placed (Station R)
  isAccess : ∀ {e edge}, g.edge? e = some edge → g.IsHeld edge.source ∨ g.IsHeld edge.target →
    edge.kind.isAccess = true

theorem resolve_free {p : Prop} (hv : g.vertices.contains v = true) (h : p ∨ g.vertex? v = none) :
    p := by
  obtain ⟨vertex, hv⟩ := contains_iff.1 hv
  exact h.resolve_right fun hfree => nomatch hfree.symm.trans hv

theorem isHeld_congr (h : next.services = g.services) : next.IsHeld v ↔ g.IsHeld v :=
  or_congr (IsRegistered.congr (registry_eq_of_services h))
    (IsRegistered.congr (registry_eq_of_services h))

theorem Placed.isStreet [Quantity R] [Place R ρ] [AsidePlace R ρ] (H : g.Placed ρ)
    (hv : g.vertex? v = some vertex) (hown : g.IsRegistered ρ v) : vertex.isStreet = false := by
  obtain ⟨id, hid⟩ := hown
  obtain ⟨⟨label, position, kind⟩, hvertex, hkind⟩ := H.standsFor hid
  cases hv.symm.trans hvertex
  obtain rfl : kind = Place.vertexKind ρ id := hkind
  exact AsidePlace.isStreet label position id

variable [Quantity R]

theorem Sheltered.secludes (H : g.Sheltered) :
    Secludes (fun v => g.IsHeld v ∨ g.vertex? v = none) g where
  regulated := H.evolved.regulated
  isAccess he hend := by
    obtain ⟨hsource, htarget⟩ := H.evolved.regulated.ends he
    exact H.isAccess he (hend.imp (resolve_free hsource) (resolve_free htarget))
  isStreet hv hown := by
    rcases hown with (hpark | hstation) | hfree
    · exact Placed.isStreet H.placed.1 hv hpark
    · exact Placed.isStreet H.placed.2 hv hstation
    · cases hfree.symm.trans hv

theorem Sheltered.of_kept (H : g.Sheltered) (hevolved : next.Evolved)
    (hservices : next.services = g.services)
    (hkept : ∀ {v vertex}, g.vertex? v = some vertex → next.vertex? v = some vertex)
    (hedges : ∀ {e edge}, next.edge? e = some edge → g.edge? e = some edge ∨
      ¬ g.IsHeld edge.source ∧ ¬ g.IsHeld edge.target) : next.Sheltered where
  evolved := hevolved
  placed := by
    refine ⟨Placed.of_kept H.placed.1 ?_ fun hv _ => hkept hv,
      Placed.of_kept H.placed.2 ?_ fun hv _ => hkept hv⟩ <;> exact registry_eq_of_services hservices
  isAccess he hend := by
    rw [isHeld_congr hservices, isHeld_congr hservices] at hend
    rcases hedges he with hold | ⟨hsource, htarget⟩
    · exact H.isAccess hold hend
    · exact (hend.elim hsource htarget).elim

section
variable [Place R ρ] [Place R σ]

omit [Quantity R] in
theorem LooksAfter.registered_cases (H : LooksAfter ρ σ g next)
    (h : next.IsRegistered ρ v ∨ next.IsRegistered σ v) :
    (g.IsRegistered ρ v ∨ g.IsRegistered σ v) ∨ g.vertex? v = none := by
  rcases h with h | h
  · exact (H.mindsOwn.registers h).imp_left .inl
  · exact .inl (.inr ((IsRegistered.congr H.registry).1 h))

end

variable [Geodesy R]

/-- After a turn each place has its vertex, which it had before or which was free. -/
theorem Sheltered.placed_unit (H : g.Sheltered) (turn : Turn R) :
    ((turn.unit g).Placed (CarPark R) ∧ (turn.unit g).Placed (Station R)) ∧
      ∀ {v}, (turn.unit g).IsHeld v → g.IsHeld v ∨ g.vertex? v = none := by
  rcases turn.unit_cases g with ⟨-, h⟩ | ⟨-, h⟩ | ⟨-, h, -⟩
  · exact ⟨h.placed_both Place.apart_carPark_station H.placed.1 H.placed.2, h.registered_cases⟩
  · refine ⟨(h.placed_both Place.apart_station_carPark H.placed.2 H.placed.1).symm, fun hv => ?_⟩
    exact (h.registered_cases hv.symm).imp_left Or.symm
  · exact ⟨h.placed_both Place.apart_carPark_station H.placed.1 H.placed.2, h.registered_cases⟩

theorem Sheltered.turn (H : g.Sheltered) (turn : Turn R) : (turn.unit g).Sheltered := by
  obtain ⟨hplaced, hheld⟩ := H.placed_unit turn
  have hsecludes : Secludes (fun v => g.IsHeld v ∨ g.vertex? v = none) (turn.unit g) := by
    have hparks : g.Disposes (CarPark R) fun v => g.IsHeld v ∨ g.vertex? v = none :=
      fun _ => Or.imp_left .inl
    have hstations : g.Disposes (Station R) fun v => g.IsHeld v ∨ g.vertex? v = none :=
      fun _ => Or.imp_left .inr
    rcases turn.placeChanges hparks hstations with h | h | ⟨services, h⟩
    · exact (H.secludes.placeChanges h).1
    · exact (H.secludes.placeChanges h).1
    · rw [h]
      exact H.secludes.of_eq rfl rfl rfl
  exact ⟨(mutates_run g (.turn turn)).evolved H.evolved, hplaced,
    fun he hend => hsecludes.isAccess he (hend.imp hheld hheld)⟩

theorem Served.sheltered (H : g.Served) : g.Sheltered := by
  induction H with
  | start hevolved hservices =>
    obtain ⟨hparks, hstations⟩ := registries_of_empty hservices
    refine ⟨hevolved, ⟨placed_of_empty hparks, placed_of_empty hstations⟩, fun _ hend => ?_⟩
    have hnone : ∀ {v}, ¬ Graph.IsHeld _ v := fun hv =>
      hv.elim (not_isRegistered_of_empty hparks) (not_isRegistered_of_empty hstations)
    exact (hend.elim hnone hnone).elim
  | turn turn _ ih => exact ih.turn turn
  | addVertex vertex _ ih =>
    refine ih.of_kept (ih.evolved.change (.addVertex _ vertex)) rfl (fun hv => ?_) .inl
    rw [vertex?_addVertex, if_neg (ne_next_of_vertex? hv), hv]
  | addEdge _ hsource htarget h ih =>
    have hevolved := ih.evolved.change (.addEdge h)
    obtain ⟨-, -, rfl⟩ := eq_of_addEdge h
    refine ih.of_kept hevolved rfl (fun hv => hv) fun he => ?_
    rw [edge?_connect] at he
    split at he
    · cases he
      exact .inr ⟨hsource, htarget⟩
    · exact .inl he
  | bumpVersion _ ih =>
    exact ih.of_kept (ih.evolved.change (.bumpVersion _)) rfl (fun hv => hv) .inl

/-! ## Bringing in data -/

/-- What is done for the places of one kind leaves others alone: all vertices that are not
registered with these places, all edges that do not start or end at one that is, streets and transit
rides at all, turn restrictions and the street index. The edges that stay are listed as before. -/
structure LeavesAlone (ρ : Type) [Place R ρ] (g next : Graph R) : Prop where
  mindsOwn : MindsOwn ρ g next
  kept : ∀ {e edge}, g.edge? e = some edge → ¬ g.IsRegistered ρ edge.source →
    ¬ g.IsRegistered ρ edge.target → next.edge? e = some edge
  comes : ∀ {e edge}, next.edge? e = some edge → g.edge? e ≠ some edge →
    edge.kind.isAccess = true ∧
      (next.IsRegistered ρ edge.source ∨ next.IsRegistered ρ edge.target)
  edge?_iff : ∀ {e edge}, edge.kind.isAccess = false →
    (next.edge? e = some edge ↔ g.edge? e = some edge)
  entries : KeepsOrder g.nextEdgeId g.edges.entries next.edges.entries
  outgoing : ∀ v, KeepsOrder g.nextEdgeId (g.outgoing v) (next.outgoing v)
  incoming : ∀ v, KeepsOrder g.nextEdgeId (g.incoming v) (next.incoming v)
  restrictions : next.restrictions = g.restrictions
  streetIndex : next.streetIndex = g.streetIndex
  bounds : next.bounds = g.bounds
  version : next.version = g.version

/-- Data can be brought in once more without any effect, and leaves all others alone. -/
structure Unobtrusive (g : Graph R) : Prop where
  carParks_again : ∀ parks : List (CarPark R),
    (g.applyRecords parks).applyRecords parks = g.applyRecords parks
  stations_again : ∀ stations : List (Station R),
    (g.applyRecords stations).applyRecords stations = g.applyRecords stations
  roadworks_again : ∀ ways areas,
    (g.applyRoadworks ways areas).applyRoadworks ways areas = g.applyRoadworks ways areas
  carParks : ∀ parks : List (CarPark R), LeavesAlone (CarPark R) g (g.applyRecords parks) ∧
    (g.applyRecords parks).services.roadworks = g.services.roadworks ∧
    (g.applyRecords parks).services.rental = g.services.rental
  stations : ∀ stations : List (Station R),
    LeavesAlone (Station R) g (g.applyRecords stations) ∧
    (g.applyRecords stations).services.roadworks = g.services.roadworks ∧
    (g.applyRecords stations).services.carParks = g.services.carParks ∧
    ((g.applyRecords stations).services.rental.getD .empty).networkTypes =
      (g.services.rental.getD .empty).networkTypes
  roadworks : ∀ ways areas, ∃ works, g.applyRoadworks ways areas =
    { g with services := { g.services with roadworks := works } }

section
variable [Place R ρ]

omit [Quantity R] [Geodesy R] in
/-- Of the vertices that are registered or free, those that are there afterwards are registered. -/
theorem MindsOwn.isRegistered (H : MindsOwn ρ g next) (hv : next.vertices.contains v = true)
    (h : g.IsRegistered ρ v ∨ g.vertex? v = none) : next.IsRegistered ρ v := by
  obtain ⟨vertex, hv⟩ := contains_iff.1 hv
  refine (H.live hv).resolve_right ?_
  rintro ⟨hbefore, hnot⟩
  exact h.elim hnot fun hfree => nomatch hfree.symm.trans hbefore

theorem Secludes.leavesAlone [AccessPlace R ρ] {records : List ρ}
    (H : Secludes (fun v => g.IsRegistered ρ v ∨ g.vertex? v = none) g)
    (hminds : MindsOwn ρ g (g.applyRecords records)) :
    LeavesAlone ρ g (g.applyRecords records) := by
  obtain ⟨hnext, ⟨added, kept, hedges⟩, hrestrictions, hstreetIndex, hbounds, hversion⟩ :=
    H.placeChanges (.applyRecords (fun _ h => h) records)
  have hkept : ∀ {e edge}, g.edge? e = some edge → ¬ g.IsRegistered ρ edge.source →
      ¬ g.IsRegistered ρ edge.target → (g.applyRecords records).edge? e = some edge := by
    intro e edge he hsource htarget
    obtain ⟨hsource', htarget'⟩ := H.regulated.ends he
    exact hedges.edge?_of_edge? he (mt (resolve_free hsource') hsource)
      (mt (resolve_free htarget') htarget)
  have hcomes : ∀ {e edge}, (g.applyRecords records).edge? e = some edge →
      g.edge? e ≠ some edge → edge.kind.isAccess = true ∧
        ((g.applyRecords records).IsRegistered ρ edge.source ∨
          (g.applyRecords records).IsRegistered ρ edge.target) := by
    intro e edge he hnew
    obtain ⟨hsource, htarget⟩ := hnext.regulated.ends he
    exact ((hedges.edge?_cases he).resolve_left hnew).imp_right fun hend =>
      hend.imp (hminds.isRegistered hsource) (hminds.isRegistered htarget)
  refine ⟨hminds, hkept, hcomes, fun {e edge} hother => ⟨fun he => ?_, fun he => ?_⟩,
    ⟨added, kept, hedges.entries, hedges.sublist, fun entry hmem => (hedges.comes entry hmem).1⟩,
    fun _ => hedges.keepsOrder _, fun _ => hedges.keepsOrder _, hrestrictions, hstreetIndex,
    hbounds, hversion⟩
  · refine Classical.byContradiction fun hnew => ?_
    exact Bool.false_ne_true (hother.symm.trans (hcomes he hnew).1)
  · -- What is no link and no loop is not at a place.
    have hapart : ∀ {v}, edge.source = v ∨ edge.target = v → ¬ g.IsRegistered ρ v := by
      rintro v (rfl | rfl) hv
      · exact Bool.false_ne_true (hother.symm.trans (H.isAccess he (.inl (.inl hv))))
      · exact Bool.false_ne_true (hother.symm.trans (H.isAccess he (.inr (.inl hv))))
    exact hkept he (hapart (.inl rfl)) (hapart (.inr rfl))

end

/-- Whatever feeds have brought in and others have added meanwhile: to bring in data, with ids that
may occur several times, leaves all others alone, and to bring it in again changes nothing. -/
theorem Served.unobtrusive (H : g.Served) : g.Unobtrusive where
  carParks_again := applyRecords_applyRecords g
  stations_again := applyRecords_applyRecords g
  roadworks_again := applyRoadworks_applyRoadworks g
  carParks parks := by
    have hlooks := LooksAfter.applyRecords Place.apart_carPark_station g parks
    have hsecludes := H.sheltered.secludes.mono fun _ => Or.imp_left .inl
    refine ⟨hsecludes.leavesAlone hlooks.mindsOwn, ?_, ?_⟩
    · exact services_applyRecords Services.roadworks (fun _ _ => rfl) parks
    · exact services_applyRecords Services.rental (fun _ _ => rfl) parks
  stations stations := by
    have hlooks := LooksAfter.applyRecords Place.apart_station_carPark g stations
    have hsecludes := H.sheltered.secludes.mono fun _ => Or.imp_left .inr
    refine ⟨hsecludes.leavesAlone hlooks.mindsOwn, ?_, ?_, ?_⟩
    · exact services_applyRecords Services.roadworks (fun _ _ => rfl) stations
    · exact services_applyRecords Services.carParks (fun _ _ => rfl) stations
    · exact services_applyRecords (fun services => (services.rental.getD .empty).networkTypes)
        (fun _ _ => rfl) stations
  roadworks _ _ := ⟨_, rfl⟩

end Graph

/-! ## A corner that is built on -/

namespace Town

/-- Two car parks are announced at the corner. -/
def opened : Graph ℚ := (Turn.poll parkFeed (.carParks [park "p" 1, park "q" 2])).unit corner

def southward : EdgeKind ℚ := .street (.plain 3 1000 .allStreet)

/-- A street to a new intersection comes after their links. -/
def widened : Graph ℚ := ((opened.addVertex south).2.connect 0 5 southward).2

/-- One of them is not announced any more, the other one is twice. -/
def announced : List (CarPark ℚ) := [park "q" 5, park "r" 1, park "q" 6]

theorem served_widened : widened.Served := by
  have hopened : opened.Served := .turn _ (.start evolved_corner rfl)
  have hadded : (opened.addVertex south).2.addEdge 0 5 southward =
      .ok ((opened.addVertex south).2.edges.next, widened) := if_pos (by decide +kernel)
  exact .addEdge (.addVertex south hopened) (by decide +kernel) (by decide +kernel) hadded

/-- The new car park gets the vertex index of the one that goes, and the indices of its edges. The
street stays where it was among the edges of its intersection. -/
theorem unobtrusive_widened : (widened.registry (CarPark ℚ)).vertex? "p" = some 3 ∧
    ((widened.applyRecords announced).registry (CarPark ℚ)).vertex? "r" = some 3 ∧
    (widened.outgoing 0).map Prod.fst = [9, 8, 5, 0] ∧
    ((widened.applyRecords announced).outgoing 0).map Prod.fst = [4, 9, 8, 0] ∧
    widened.Unobtrusive :=
  ⟨by decide +kernel, by decide +kernel, by decide +kernel, by decide +kernel,
    served_widened.unobtrusive⟩

end Town

end TripPlanner
