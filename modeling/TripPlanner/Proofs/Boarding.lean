import TripPlanner.Proofs.Future
import TripPlanner.Proofs.Run

/-!
# Boarding

Whoever has boarded is on one plane, `Context.aboard`, as long as a request does not both let a
bicycle be rented and ask for one's own to be parked. So even two states that have just boarded,
which are compared across planes after a guaranteed change, cover each other
(`Context.Grown.covers`).
-/

namespace TripPlanner

namespace Context

section
variable {R : Type} [Quantity R] {ctx : Context R} {s a b : State R} {e : EdgeIndex}
  {edge : Edge R} {move : Move R}

/-- How an edge changes the situation: not at all, or by parking the car, renting or returning a
bicycle, parking one's own, or boarding. -/
inductive Changes (ctx : Context R) (s : State R) (edge : Edge R) : Plane → Prop where
  | stay : edge.edgeClass ≠ .board → Changes ctx s edge s.plane
  | parkCar : edge.edgeClass = .other → s.streetMode ctx.request = .car →
      Changes ctx s edge { s.plane with carParked := true }
  | rent {networks : NetworkSet} : edge.edgeClass = .other → ctx.request.allowRental = true →
      ctx.stationNetworks? edge.source = some networks →
      Changes ctx s edge { s.plane with rented := some (ctx.usableNetworks networks) }
  | dropOff : edge.edgeClass = .other → Changes ctx s edge { s.plane with rented := none }
  | parkBike : edge.edgeClass = .other → ctx.request.bikeAndRide = true →
      s.streetMode ctx.request = .bicycle → Changes ctx s edge { s.plane with bikeParked := true }
  | board : edge.edgeClass = .board → ctx.request.modes.transit = true →
      s.streetMode ctx.request = .walk → Changes ctx s edge { s.plane with everBoarded := true }

theorem changes_of_move? (h : ctx.move? s e edge = some move) : ctx.Changes s edge move.plane := by
  have hclass : edge.edgeClass = edge.kind.edgeClass := rfl
  cases (move?_eq_some_iff.1 h).2 with
  | street hkind | hop hkind | alight hkind | timedTransfer hkind =>
    exact .stay (by simp [hclass, hkind, EdgeKind.edgeClass])
  | link hkind | transfer hkind =>
    rw [Move.along_plane]
    exact .stay (by simp [hclass, hkind, EdgeKind.edgeClass])
  | parkCar hkind _ hcar => exact .parkCar (by rw [hclass, hkind]; rfl) hcar
  | rentBike hkind hrental _ _ hstation =>
    exact .rent (by rw [hclass, hkind]; rfl) hrental hstation
  | dropOffBike hkind => exact .dropOff (by rw [hclass, hkind]; rfl)
  | parkBike hkind hride _ hbicycle => exact .parkBike (by rw [hclass, hkind]; rfl) hride hbicycle
  | board hkind htransit hwalk => exact .board (by rw [hclass, hkind]; rfl) htransit hwalk

/-! ## Planes on the way -/

/-- The request lets a bicycle be rented and asks for one's own to be parked. -/
def MixesBicycles (ctx : Context R) : Prop :=
  ctx.request.allowRental = true ∧ ctx.request.bikeAndRide = true

/-- The plane of whoever has just boarded: every vehicle that a trip with the request starts with
has been left, and no rented bicycle is taken along. -/
def aboard (ctx : Context R) : Plane where
  everBoarded := true
  rented := none
  carParked := ctx.request.modes.car
  bikeParked := ctx.request.modes.bicycle && !ctx.request.allowRental

/-- A plane on which no car was parked, no bicycle rented and nothing boarded that the request does
not allow for. -/
structure Entitled (ctx : Context R) (plane : Plane) : Prop where
  car : plane.carParked = true → ctx.request.modes.car = true
  rent : plane.isRenting = true → ctx.request.allowRental = true
  board : plane.everBoarded = true → ctx.request.modes.transit = true

/-- On the plane no bicycle was parked either that one did not come with. -/
structure Fits (ctx : Context R) (plane : Plane) : Prop extends ctx.Entitled plane where
  bike : plane.bikeParked = true →
    ctx.request.modes.bicycle = true ∧ ctx.request.allowRental = false

omit [Quantity R] in
theorem streetMode_eq_car_iff : s.streetMode ctx.request = .car ↔
    s.plane.isRenting = false ∧ ctx.request.modes.car = true ∧ s.plane.carParked = false := by
  simp only [State.streetMode]
  split_ifs <;> simp_all

omit [Quantity R] in
theorem streetMode_eq_walk_iff : s.streetMode ctx.request = .walk ↔ s.plane.isRenting = false ∧
    (ctx.request.modes.car = true → s.plane.carParked = true) ∧
      (ctx.request.modes.bicycle = true → ctx.request.allowRental = false →
        s.plane.bikeParked = true) := by
  simp only [State.streetMode]
  split_ifs <;> simp_all

omit [Quantity R] in
theorem bicycle_of_streetMode (h : s.streetMode ctx.request = .bicycle) :
    s.plane.isRenting = true ∨
      ctx.request.modes.bicycle = true ∧ ctx.request.allowRental = false := by
  simp only [State.streetMode] at h
  split_ifs at h <;> simp_all

omit [Quantity R] in
theorem Entitled.changes {plane : Plane} (H : ctx.Entitled s.plane)
    (h : ctx.Changes s edge plane) : ctx.Entitled plane := by
  cases h with
  | stay => exact H
  | parkCar _ hcar => exact { H with car := fun _ => (streetMode_eq_car_iff.1 hcar).2.1 }
  | rent _ hrental _ => exact { H with rent := fun _ => hrental }
  | dropOff => exact { H with rent := fun h => by simp [Plane.isRenting] at h }
  | parkBike => exact ⟨H.car, H.rent, H.board⟩
  | board _ htransit _ => exact { H with board := fun _ => htransit }

omit [Quantity R] in
theorem Fits.changes {plane : Plane} (H : ctx.Fits s.plane) (hmix : ¬ ctx.MixesBicycles)
    (h : ctx.Changes s edge plane) : ctx.Fits plane := by
  refine { H.toEntitled.changes h with bike := ?_ }
  cases h with
  | parkBike _ hride hbicycle =>
    -- The bicycle that is parked is not a rented one.
    exact fun _ => (bicycle_of_streetMode hbicycle).resolve_left fun h => hmix ⟨H.rent h, hride⟩
  | _ => exact H.bike

theorem Reachable.entitled (H : ctx.Reachable s) : ctx.Entitled s.plane := by
  induction H with
  | origin => exact ⟨by simp [State.initial, Plane.initial],
      by simp [State.initial, Plane.initial, Plane.isRenting],
      by simp [State.initial, Plane.initial]⟩
  | step _ hstep ih =>
    obtain ⟨id, edge, move, -, -, hmove, rfl⟩ := hstep.cases
    exact ih.changes (changes_of_move? hmove)

theorem Reachable.fits (H : ctx.Reachable s) (hmix : ¬ ctx.MixesBicycles) : ctx.Fits s.plane := by
  induction H with
  | origin => exact { Reachable.origin.entitled with bike := by simp [State.initial, Plane.initial] }
  | step _ hstep ih =>
    obtain ⟨id, edge, move, -, -, hmove, rfl⟩ := hstep.cases
    exact ih.changes hmix (changes_of_move? hmove)

omit [Quantity R] in
theorem Changes.of_board {plane : Plane} (h : ctx.Changes s edge plane)
    (hclass : edge.edgeClass = .board) :
    plane = { s.plane with everBoarded := true } ∧ s.streetMode ctx.request = .walk := by
  cases h with
  | stay h => exact absurd hclass h
  | parkCar h | rent h | dropOff h | parkBike h => simp [hclass] at h
  | board _ _ hwalk => exact ⟨rfl, hwalk⟩

theorem Reachable.of_board (H : ctx.Reachable s) (hboard : s.arrivedVia .board = true) :
    s.plane.everBoarded = true ∧ s.streetMode ctx.request = .walk := by
  cases H with
  | origin => simp [State.initial, State.arrivedVia] at hboard
  | @step a _ _ ha hstep =>
    obtain ⟨id, edge, move, -, -, hmove, rfl⟩ := hstep.cases
    obtain ⟨hplane, hwalk⟩ := (changes_of_move? hmove).of_board (by simpa using hboard)
    rw [State.streetMode, State.after_plane, hplane]
    exact ⟨rfl, hwalk⟩

/-- Only whether a bicycle is parked is left open by a boarding. -/
theorem Reachable.eq_aboard_of_board (H : ctx.Reachable s) (hboard : s.arrivedVia .board = true) :
    s.plane = { ctx.aboard with bikeParked := s.plane.bikeParked } := by
  obtain ⟨hboarded, hwalk⟩ := H.of_board hboard
  obtain ⟨hrenting, hcar, -⟩ := streetMode_eq_walk_iff.1 hwalk
  have hrented : s.plane.rented = none := by simpa [Plane.isRenting] using hrenting
  have hcar' : s.plane.carParked = ctx.request.modes.car :=
    Bool.eq_iff_iff.2 ⟨H.entitled.car, hcar⟩
  simp only [aboard, ← hboarded, ← hrented, ← hcar']

/-- There is one plane to board on. -/
theorem Reachable.plane_of_board (H : ctx.Reachable s) (hmix : ¬ ctx.MixesBicycles)
    (hboard : s.arrivedVia .board = true) : s.plane = ctx.aboard := by
  have hwalk := (H.of_board hboard).2
  have hbike : s.plane.bikeParked = (ctx.request.modes.bicycle && !ctx.request.allowRental) := by
    rw [Bool.eq_iff_iff, Bool.and_eq_true, Bool.not_eq_true']
    exact ⟨(H.fits hmix).bike, fun h => (streetMode_eq_walk_iff.1 hwalk).2.2 h.1 h.2⟩
  rw [H.eq_aboard_of_board hboard, hbike]
  rfl

end

end Context

/-! ## Guaranteed changes -/

/-- A board edge starts where a timed transfer ends. -/
def Graph.BoardsAfterChange {R : Type} (g : Graph R) : Prop :=
  ∃ e change e' board, g.edge? e = some change ∧ g.edge? e' = some board ∧
    change.edgeClass = .timedTransfer ∧ board.edgeClass = .board ∧ change.target = board.source

/-- A board edge to the vertex starts where a timed transfer ends. -/
def Graph.BoardsAfterChangeTo {R : Type} (g : Graph R) (v : VertexIndex) : Prop :=
  ∃ e change e' board, g.edge? e = some change ∧ g.edge? e' = some board ∧
    change.edgeClass = .timedTransfer ∧ board.edgeClass = .board ∧
    change.target = board.source ∧ board.target = v

theorem Graph.BoardsAfterChangeTo.boardsAfterChange {R : Type} {g : Graph R} {v : VertexIndex}
    (H : g.BoardsAfterChangeTo v) : g.BoardsAfterChange := by
  obtain ⟨e, change, e', board, he, he', hclass, hclass', hends, -⟩ := H
  exact ⟨e, change, e', board, he, he', hclass, hclass', hends⟩

/-- No guaranteed changes are on offer. -/
def Graph.IsUntimed {R : Type} (g : Graph R) : Prop :=
  ∀ p ∈ g.edges.entries, p.2.edgeClass ≠ .timedTransfer

instance {R : Type} : DecidablePred (Graph.IsUntimed (R := R)) := fun g =>
  inferInstanceAs (Decidable (∀ p ∈ g.edges.entries, p.2.edgeClass ≠ .timedTransfer))

theorem Graph.IsUntimed.not_boardsAfterChange {R : Type} {g : Graph R} (H : g.IsUntimed) :
    ¬ g.BoardsAfterChange := by
  rintro ⟨e, change, -, -, hchange, -, hclass, -⟩
  exact H _ (mem_entries_iff.2 hchange) hclass

namespace Context

/-- What has to hold of a request, so that no boarding is given up for one on another plane. -/
abbrev Unmixed {R : Type} (ctx : Context R) : Prop :=
  ctx.graph.BoardsAfterChange → ¬ ctx.MixesBicycles

variable {R : Type} [Quantity R] {ctx : Context R} {store : StateStore R} {s a b : State R}
  {i : StateId} {rule : DominanceRule}

/-- The state starts the trip or follows a state of the store. -/
def Born (ctx : Context R) (store : StateStore R) (s : State R) : Prop :=
  s = .initial ctx.origin ∨ ∃ p a e, store.get? p = some a ∧ (e, s) ∈ ctx.successors p a

theorem Grown.born (H : ctx.Grown store) (hs : store.get? i = some s) : ctx.Born store s := by
  rcases Nat.eq_zero_or_pos i with rfl | hi
  · exact .inl (Option.some.inj (hs.symm.trans H.origin))
  · obtain ⟨p, a, e, -, ha, -, hstep⟩ := H.parent hs hi
    exact .inr ⟨p, a, e, ha, hstep⟩

theorem Born.reachable (H : ctx.Born store s) (hgrown : ctx.Grown store) : ctx.Reachable s := by
  rcases H with rfl | ⟨p, a, e, ha, hstep⟩
  · exact .origin
  · exact (hgrown.reachable ha).step (.of_mem_successors hstep)

theorem Born.holdsParent (H : ctx.Born store s) : store.HoldsParent s := by
  rcases H with rfl | ⟨p, a, e, ha, hstep⟩
  · exact fun p hp => nomatch hp
  · rintro _ hp
    cases (parent_of_mem_successors hstep).symm.trans hp
    exact StateStore.lt_size_of_get? ha

theorem Born.edge (H : ctx.Born store s) {edgeClass : EdgeClass}
    (h : s.arrivedVia edgeClass = true) : ∃ p a e edge, store.get? p = some a ∧
      s.parent = some p ∧ ctx.graph.edge? e = some edge ∧ edge.edgeClass = edgeClass ∧
      edge.source = a.vertex ∧ edge.target = s.vertex := by
  rcases H with rfl | ⟨p, a, e, ha, hstep⟩
  · simp [State.initial, State.arrivedVia] at h
  · obtain ⟨edge, hedge, -, hsource, htarget, hback⟩ := edge_of_mem_successors hstep
    have hclass : edge.edgeClass = edgeClass := by simpa [State.arrivedVia, hback] using h
    exact ⟨p, a, e, edge, ha, parent_of_mem_successors hstep, hedge, hclass, hsource, htarget⟩

/-- Only where a board edge starts at the end of a timed transfer does one board after a change. -/
theorem Grown.boardsAfterChangeTo (H : ctx.Grown store) (ha : ctx.Born store a)
    (h : boardedAfterChange store a b = true) : ctx.graph.BoardsAfterChangeTo a.vertex := by
  obtain ⟨hboard, -, parent, hparent, htimed⟩ := boardedAfterChange_iff.1 h
  obtain ⟨p, a', e, edge, ha', hp, hedge, hclass, hsource, hend⟩ := ha.edge hboard
  have : a' = parent := by
    rw [StateStore.parent?, hp, Option.bind_some, ha'] at hparent
    exact Option.some.inj hparent
  subst this
  obtain ⟨_, _, e', edge', -, -, hedge', hclass', -, htarget⟩ := (H.born ha').edge htimed
  exact ⟨e', edge', e, edge, hedge', hedge, hclass', hclass, htarget.trans hsource.symm, hend⟩

theorem Grown.boardsAfterChange (H : ctx.Grown store) (ha : ctx.Born store a)
    (h : boardedAfterChange store a b = true) : ctx.graph.BoardsAfterChange :=
  (H.boardsAfterChangeTo ha h).boardsAfterChange

theorem Reachable.not_timed (H : ctx.Reachable s) (h : ctx.graph.IsUntimed) :
    s.arrivedVia .timedTransfer = false := by
  cases H with
  | origin => rfl
  | step _ hstep =>
    obtain ⟨id, edge, move, hedge, -, -, rfl⟩ := hstep.cases
    rw [State.after_arrivedVia]
    exact decide_eq_false (h _ (Graph.mem_entries_iff.2 hedge))

/-- Where bicycles are not mixed a state dominates others on its plane only. -/
theorem Grown.plane_of_dominates [Geodesy R] (H : ctx.Grown store)
    (hmix : ctx.graph.BoardsAfterChangeTo a.vertex → ¬ ctx.MixesBicycles)
    (ha : ctx.Born store a) (hb : ctx.Born store b) (h : ctx.dominates rule store a b = true) :
    a.plane = b.plane := by
  rcases (dominates_iff.1 h).2 with hboarded | ⟨hplane, -, -⟩
  · have hmix' := hmix (H.boardsAfterChangeTo ha hboarded)
    obtain ⟨haboard, hbboard, -⟩ := boardedAfterChange_iff.1 hboarded
    rw [(ha.reachable H).plane_of_board hmix' haboard,
      (hb.reachable H).plane_of_board hmix' hbboard]
  · exact hplane

/-- A state that makes another one needless covers it. -/
theorem Grown.covers [Geodesy R] (H : ctx.Grown store)
    (hmix : ctx.Unmixed) (ha : ctx.Born store a)
    (hb : ctx.Born store b) (hv : a.vertex = b.vertex)
    (h : ctx.dominates rule store a b = true) : ctx.Covers a b :=
  .of_dominates hv (H.plane_of_dominates (fun hto => hmix hto.boardsAfterChange) ha hb h) h

end Context

end TripPlanner
