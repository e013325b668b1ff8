import TripPlanner.Proofs.Parking

/-!
# Rental

Bicycles are picked up and returned in turns along a trip, and in between one does nothing but cycle
and push the bicycle (`Graph.RentsInTurn`). The plane of a state keeps the networks of the station
that the last pick-up was made at (`Context.Rents`). So what the search asks of these networks
where a bicycle is returned, where a trip ends and where one is warned, is asked of that station.
-/

namespace TripPlanner

/-- Picking up a bicycle at a rental station, or returning it. -/
inductive Rental where
  | pickUp (station : VertexIndex)
  | dropOff (station : VertexIndex)
  deriving DecidableEq

/-- Where the bicycle that is in use afterwards was picked up. -/
def Rental.pickedUpAt? : Rental → Option VertexIndex
  | .pickUp station => some station
  | .dropOff _ => none

namespace Graph

variable {R : Type}

/-- What following the edge picks up or returns. -/
def rental? (g : Graph R) (e : EdgeIndex) : Option Rental :=
  (g.edge? e).bind fun edge =>
    match edge.kind with
    | .rentBike => some (.pickUp edge.source)
    | .dropOffBike => some (.dropOff edge.source)
    | _ => none

/-- All that is picked up and returned along some edges. -/
def rentals (g : Graph R) (edges : List EdgeIndex) : List Rental := edges.filterMap g.rental?

/-- The station of the bicycle that is in use at the end of some edges. -/
def rentedAt? (g : Graph R) (edges : List EdgeIndex) : Option VertexIndex :=
  (g.rentals edges).getLast?.bind Rental.pickedUpAt?

/-- The vertex stands for the rental station that is registered under the id. -/
def HasStation (g : Graph R) (v : VertexIndex) (id : String) (station : Station R) : Prop :=
  (g.vertex? v).map Vertex.kind = some (.rentalStation id) ∧
    (g.services.rental.bind fun service => service.stations.record? id) = some station

/-- The station at the vertex belongs to the network. -/
def Serves (g : Graph R) (v : VertexIndex) (network : String) : Prop :=
  ∃ id station, g.HasStation v id station ∧ network ∈ station.networks.names

/-- The station at the vertex belongs to the network, which the request allows. -/
def Lends (g : Graph R) (request : Request R) (v : VertexIndex) (network : String) : Prop :=
  g.Serves v network ∧
    (request.allowedNetworks.isEmpty = false → network ∈ request.allowedNetworks.names)

/-- One cycles along streets, or pushes the bicycle where cycling is not permitted; and one neither
boards, nor parks a car, nor walks from one stop to another. -/
structure IsRide (g : Graph R) (leg : EdgeIndex × State R) : Prop where
  street : ∀ {street}, g.street? leg.1 = some street → leg.2.mode = some .bicycle ∨
    leg.2.mode = some .walk ∧ street.permits.bicycle = false
  other : ∀ {edge}, g.edge? leg.1 = some edge → edge.edgeClass ≠ .board ∧
    edge.kind ≠ .parkAndRide ∧ edge.edgeClass ≠ .simpleTransfer

/-- Bicycles are picked up and returned in turns, ridden in between, and left where one of the
networks that they were rented from allows for it. -/
structure RentsInTurn (g : Graph R) (request : Request R) (itinerary : Itinerary R) : Prop where
  starts : ∀ {act}, (g.rentals itinerary.edges).head? = some act → act.pickedUpAt?.isSome
  turns : (g.rentals itinerary.edges).IsChain fun act next =>
    act.pickedUpAt?.isSome ≠ next.pickedUpAt?.isSome
  rides : ∀ {before leg after v}, itinerary.legs = before ++ leg :: after →
    g.rentedAt? (before.map Prod.fst) = some v → g.IsRide leg
  returns : ∀ {before leg after w}, itinerary.legs = before ++ leg :: after →
    g.rental? leg.1 = some (.dropOff w) → ∃ v network,
      g.rentedAt? (before.map Prod.fst) = some v ∧ g.Lends request v network ∧ g.Serves w network
  ends : ∀ {v}, g.rentedAt? itinerary.edges = some v → ∃ service network,
    g.services.rental = some service ∧ g.Lends request v network ∧
      (service.networkType network).allowsFreeFloatingDropOff = true
  warning_iff : .freeFloatingDropOff ∈ itinerary.alerts ↔ ∃ service v network,
    g.services.rental = some service ∧ g.rentedAt? itinerary.edges = some v ∧
      g.Lends request v network ∧ service.networkTypes.get? network = some .temporaryDropOff

/-! ## What has been rented -/

variable {g : Graph R} {edges : List EdgeIndex} {e : EdgeIndex} {edge : Edge R}

theorem rental?_eq_none (hedge : g.edge? e = some edge) (hrent : edge.kind ≠ .rentBike)
    (hreturn : edge.kind ≠ .dropOffBike) : g.rental? e = none := by
  rw [rental?, hedge, Option.bind_some]
  cases hkind : edge.kind <;> simp_all

theorem rentals_concat : g.rentals (edges ++ [e]) = g.rentals edges ++ (g.rental? e).toList := by
  rw [rentals, List.filterMap_append]
  rfl

theorem rentedAt?_concat_of_none (h : g.rental? e = none) :
    g.rentedAt? (edges ++ [e]) = g.rentedAt? edges := by
  rw [rentedAt?, rentals_concat, h, Option.toList_none, List.append_nil, rentedAt?]

theorem rentedAt?_concat {act : Rental} (h : g.rental? e = some act) :
    g.rentedAt? (edges ++ [e]) = act.pickedUpAt? := by
  rw [rentedAt?, rentals_concat, h, Option.toList_some, List.getLast?_concat, Option.bind_some]

end Graph

namespace Context

variable {R : Type} {ctx : Context R} {v : VertexIndex} {networks : NetworkSet} {network : String}

theorem stationNetworks?_eq_some_iff : ctx.stationNetworks? v = some networks ↔
    ∃ id station, ctx.graph.HasStation v id station ∧ station.networks = networks := by
  unfold stationNetworks? Graph.HasStation
  split
  · rename_i id hkind
    rw [hkind, Option.map_eq_some_iff]
    constructor
    · rintro ⟨station, hrecord, hnetworks⟩
      exact ⟨id, station, ⟨rfl, hrecord⟩, hnetworks⟩
    · rintro ⟨id', station, ⟨⟨⟩, hrecord⟩, hnetworks⟩
      exact ⟨station, hrecord, hnetworks⟩
  · rename_i hkind
    simp only [reduceCtorEq, false_iff]
    rintro ⟨id, station, ⟨hkind', -⟩, -⟩
    exact hkind id hkind'

theorem mem_usableNetworks_iff : network ∈ (ctx.usableNetworks networks).names ↔
    network ∈ networks.names ∧
      (ctx.request.allowedNetworks.isEmpty = false →
        network ∈ ctx.request.allowedNetworks.names) := by
  unfold usableNetworks
  split
  · rename_i hempty
    simp [hempty]
  · rename_i hsome
    simp [NetworkSet.inter, NetworkSet.contains, hsome]

theorem lends_of_mem_usable (hstation : ctx.stationNetworks? v = some networks)
    (h : network ∈ (ctx.usableNetworks networks).names) :
    ctx.graph.Lends ctx.request v network := by
  obtain ⟨id, station, hhas, rfl⟩ := stationNetworks?_eq_some_iff.1 hstation
  obtain ⟨hmem, hallowed⟩ := mem_usableNetworks_iff.1 h
  exact ⟨⟨id, station, hhas, hmem⟩, hallowed⟩

theorem mem_usable_of_lends (hstation : ctx.stationNetworks? v = some networks)
    (h : ctx.graph.Lends ctx.request v network) :
    network ∈ (ctx.usableNetworks networks).names := by
  obtain ⟨id, station, hhas, rfl⟩ := stationNetworks?_eq_some_iff.1 hstation
  obtain ⟨⟨id', station', ⟨hkind, hrecord⟩, hmem⟩, hallowed⟩ := h
  cases hhas.1.symm.trans hkind
  cases hhas.2.symm.trans hrecord
  exact mem_usableNetworks_iff.2 ⟨hmem, hallowed⟩

/-- The plane holds the networks that may be used of the station at which the bicycle in use was
picked up. -/
inductive Rents (ctx : Context R) : Option VertexIndex → Plane → Prop where
  | afoot {plane : Plane} : plane.rented = none → Rents ctx none plane
  | riding {v : VertexIndex} {networks : NetworkSet} {plane : Plane} :
      ctx.stationNetworks? v = some networks →
      plane.rented = some (ctx.usableNetworks networks) → Rents ctx (some v) plane

theorem Rents.congr {place : Option VertexIndex} {plane plane' : Plane}
    (H : ctx.Rents place plane) (h : plane'.rented = plane.rented) : ctx.Rents place plane' := by
  cases H with
  | afoot hnone => exact .afoot (h.trans hnone)
  | riding hstation hrented => exact .riding hstation (h.trans hrented)

theorem Rents.exists_station {place : Option VertexIndex} {plane : Plane} {renting : NetworkSet}
    (H : ctx.Rents place plane) (h : plane.rented = some renting) : ∃ v networks,
      place = some v ∧ ctx.stationNetworks? v = some networks ∧
        renting = ctx.usableNetworks networks := by
  cases H with
  | afoot hnone =>
    rw [h] at hnone
    cases hnone
  | riding hstation hrented => exact ⟨_, _, rfl, hstation, Option.some.inj (h.symm.trans hrented)⟩

theorem Rents.isRenting_iff {place : Option VertexIndex} {plane : Plane}
    (H : ctx.Rents place plane) : plane.isRenting = true ↔ place.isSome := by
  cases H with
  | afoot hnone => simp [Plane.isRenting, hnone]
  | riding _ hrented => simp [Plane.isRenting, hrented]

variable [Quantity R] {a b s : State R} {id : StateId} {e : EdgeIndex} {edge : Edge R}
  {move : Move R} {edges : List EdgeIndex}

/-! ## One edge -/

/-- What an edge does to a rental: nothing, or it begins or ends one. -/
inductive Handles (ctx : Context R) (a : State R) (e : EdgeIndex) (plane : Plane) : Prop where
  | keep : ctx.graph.rental? e = none → plane.rented = a.plane.rented → Handles ctx a e plane
  | pickUp {v : VertexIndex} {networks : NetworkSet} :
      ctx.graph.rental? e = some (.pickUp v) → a.plane.rented = none →
      ctx.stationNetworks? v = some networks →
      plane.rented = some (ctx.usableNetworks networks) → Handles ctx a e plane
  | dropOff {v : VertexIndex} {renting networks : NetworkSet} :
      ctx.graph.rental? e = some (.dropOff v) → a.plane.rented = some renting →
      ctx.stationNetworks? v = some networks → renting.isDisjoint networks = false →
      plane.rented = none → Handles ctx a e plane

theorem Moves.handles (H : ctx.Moves s e edge move) (hedge : ctx.graph.edge? e = some edge) :
    ctx.Handles s e move.plane := by
  have hnone := Graph.rental?_eq_none hedge
  cases H with
  | rentBike hkind _ hrenting _ hstation _ =>
    have hrental : ctx.graph.rental? e = some (.pickUp edge.source) := by
      simp [Graph.rental?, hedge, hkind]
    exact .pickUp hrental (by simpa [Plane.isRenting] using hrenting) hstation rfl
  | dropOffBike hkind hrented hstation hshared =>
    have hrental : ctx.graph.rental? e = some (.dropOff edge.source) := by
      simp [Graph.rental?, hedge, hkind]
    exact .dropOff hrental hrented hstation hshared rfl
  | street hkind | parkCar hkind | parkBike hkind | board hkind | hop hkind | alight hkind
  | timedTransfer hkind =>
    exact .keep (hnone (by simp [hkind]) (by simp [hkind])) rfl
  | link hkind | transfer hkind =>
    exact .keep (hnone (by simp [hkind]) (by simp [hkind])) (by rw [Move.along_plane])

theorem handles_of_mem_successors (h : (e, b) ∈ ctx.successors id a) :
    ctx.Handles a e b.plane := by
  obtain ⟨edge, hedge, -, ht⟩ := mem_successors_iff.1 h
  obtain ⟨move, hmove, rfl⟩ := traverse_eq_some_iff.1 ht
  exact (move?_eq_some_iff.1 hmove).2.handles hedge

omit [Quantity R] in
theorem Handles.rents {plane : Plane} (h : ctx.Handles a e plane)
    (H : ctx.Rents (ctx.graph.rentedAt? edges) a.plane) :
    ctx.Rents (ctx.graph.rentedAt? (edges ++ [e])) plane := by
  cases h with
  | keep hnone hsame =>
    rw [Graph.rentedAt?_concat_of_none hnone]
    exact H.congr hsame
  | pickUp hact _ hstation hrented =>
    rw [Graph.rentedAt?_concat hact]
    exact .riding hstation hrented
  | dropOff hact _ _ _ hnone =>
    rw [Graph.rentedAt?_concat hact]
    exact .afoot hnone

omit [Quantity R] in
theorem streetMode_of_isRenting (h : s.plane.isRenting = true) :
    s.streetMode ctx.request = .bicycle := by
  rw [State.streetMode, if_pos h]

omit [Quantity R] in
theorem modeOnStreet?_of_bicycle {street : Street R} {mode : Mode}
    (hbicycle : s.streetMode ctx.request = .bicycle)
    (h : ctx.modeOnStreet? s street = some mode) :
    mode = .bicycle ∨ mode = .walk ∧ street.permits.bicycle = false := by
  unfold modeOnStreet? at h
  dsimp only at h
  rw [hbicycle] at h
  split at h
  · exact .inl (Option.some.inj h).symm
  · rename_i hforbidden
    split at h
    · exact .inr ⟨(Option.some.inj h).symm, Bool.eq_false_iff.2 hforbidden⟩
    · cases h

/-- Nobody takes a bicycle along on board, into a car or from one stop to another. -/
theorem Moves.of_bicycle (H : ctx.Moves s e edge move)
    (hbicycle : s.streetMode ctx.request = .bicycle) : edge.edgeClass ≠ .board ∧
      edge.kind ≠ .parkAndRide ∧ edge.edgeClass ≠ .simpleTransfer := by
  have hclass : edge.edgeClass = edge.kind.edgeClass := rfl
  rw [hclass]
  cases H with
  | parkCar _ _ hmode | board _ _ hmode | transfer _ _ hmode =>
    rw [hbicycle] at hmode
    cases hmode
  | street hkind | link hkind | rentBike hkind | dropOffBike hkind | parkBike hkind | hop hkind
  | alight hkind | timedTransfer hkind =>
    simp [hkind, EdgeKind.edgeClass]

theorem isRide_of_mem_successors (hrenting : a.plane.isRenting = true)
    (h : (e, b) ∈ ctx.successors id a) : ctx.graph.IsRide (e, b) := by
  have hbicycle : a.streetMode ctx.request = .bicycle := streetMode_of_isRenting hrenting
  constructor
  · intro street hstreet
    obtain ⟨mode, hmode, hon, -⟩ := street_of_mem_successors h hstreet
    rcases modeOnStreet?_of_bicycle hbicycle hon with rfl | ⟨rfl, hforbidden⟩
    · exact .inl hmode
    · exact .inr ⟨hmode, hforbidden⟩
  · intro edge hedge
    obtain ⟨-, move, hmove, -⟩ := move_of_mem_successors h hedge
    exact (move?_eq_some_iff.1 hmove).2.of_bicycle hbicycle

/-! ## A whole trip -/

variable {store : StateStore R} {states : List (State R)} {itinerary : Itinerary R}

theorem Trail.rents (H : ctx.Trail store states edges s) :
    ctx.Rents (ctx.graph.rentedAt? edges) s.plane := by
  induction H with
  | start => exact .afoot rfl
  | snoc _ _ _ hstep ih => exact (handles_of_mem_successors hstep).rents ih

theorem Trail.rentals_head (H : ctx.Trail store states edges s) {act : Rental}
    (h : (ctx.graph.rentals edges).head? = some act) : act.pickedUpAt?.isSome := by
  induction H with
  | start => cases h
  | @snoc states edges p a e b H _ _ hstep ih =>
    rw [Graph.rentals_concat] at h
    cases hfirst : ctx.graph.rentals edges with
    | cons first rest =>
      rw [hfirst] at h ih
      exact ih h
    | nil =>
      -- Nothing is in use yet that could be returned.
      have hafoot : ctx.graph.rentedAt? edges = none := by rw [Graph.rentedAt?, hfirst]; rfl
      rw [hfirst, List.nil_append] at h
      cases handles_of_mem_successors hstep with
      | keep hnone => simp [hnone] at h
      | pickUp hact =>
        rw [hact] at h
        cases h
        rfl
      | dropOff _ hrented =>
        obtain ⟨v, _, hplace, -⟩ := H.rents.exists_station hrented
        rw [hafoot] at hplace
        cases hplace

theorem Trail.rentals_isChain (H : ctx.Trail store states edges s) :
    (ctx.graph.rentals edges).IsChain fun act next =>
      act.pickedUpAt?.isSome ≠ next.pickedUpAt?.isSome := by
  induction H with
  | start => exact .nil
  | @snoc states edges p a e b H _ _ hstep ih =>
    rw [Graph.rentals_concat]
    refine List.isChain_append.2 ⟨ih, ?_, ?_⟩
    · cases ctx.graph.rental? e with
      | none => exact .nil
      | some act => exact .singleton act
    · -- Whether the last act was a pick-up is whether a bicycle is in use now.
      intro act hlast next hnext
      have hact : act.pickedUpAt? = ctx.graph.rentedAt? edges := by
        rw [Graph.rentedAt?, Option.mem_def.1 hlast, Option.bind_some]
      have hrents := H.rents.isRenting_iff
      rw [hact, ← Bool.eq_iff_iff.2 hrents]
      cases handles_of_mem_successors hstep with
      | keep hnone => simp [hnone] at hnext
      | pickUp hrental hnone =>
        rw [hrental] at hnext
        cases hnext
        simp [Rental.pickedUpAt?, Plane.isRenting, hnone]
      | dropOff hrental hrented =>
        rw [hrental] at hnext
        cases hnext
        simp [Rental.pickedUpAt?, Plane.isRenting, hrented]

theorem Trail.returns {before after : List (EdgeIndex × State R)} {leg : EdgeIndex × State R}
    {w : VertexIndex} (H : ctx.Trail store states edges s)
    (hlegs : edges.zip states.tail = before ++ leg :: after)
    (hreturn : ctx.graph.rental? leg.1 = some (.dropOff w)) : ∃ v network,
      ctx.graph.rentedAt? (before.map Prod.fst) = some v ∧
        ctx.graph.Lends ctx.request v network ∧ ctx.graph.Serves w network := by
  obtain ⟨id, a, states', htrail, hstep⟩ := H.split hlegs
  cases handles_of_mem_successors hstep with
  | keep hnone | pickUp hnone =>
    rw [hreturn] at hnone
    cases hnone
  | dropOff hact hrenting hstation hshared =>
    cases hreturn.symm.trans hact
    obtain ⟨v, networks, hplace, hpickUp, rfl⟩ := htrail.rents.exists_station hrenting
    simp only [NetworkSet.isDisjoint, Bool.not_eq_false', List.any_eq_true] at hshared
    obtain ⟨network, hmem, hserves⟩ := hshared
    obtain ⟨id, station, hhas, rfl⟩ := stationNetworks?_eq_some_iff.1 hstation
    exact ⟨v, network, hplace, lends_of_mem_usable hpickUp hmem, id, station, hhas,
      by simpa [NetworkSet.contains] using hserves⟩

omit [Quantity R] in
theorem exists_of_mayEndRental {plane : Plane} (H : ctx.Rents (some v) plane)
    (h : ctx.mayEndRental plane = true) : ∃ service network,
      ctx.graph.services.rental = some service ∧ ctx.graph.Lends ctx.request v network ∧
        (service.networkType network).allowsFreeFloatingDropOff = true := by
  cases H with
  | riding hstation hrented =>
    rw [mayEndRental, hrented] at h
    obtain ⟨service, hservice, hallow⟩ := (Option.any_eq_true _ _).1 h
    obtain ⟨network, hmem, htype⟩ := List.any_eq_true.1 hallow
    exact ⟨service, network, hservice, lends_of_mem_usable hstation hmem, htype⟩

omit [Quantity R] in
theorem rentalAlert?_eq_some_iff {place : Option VertexIndex} {plane : Plane} {alert : Alert}
    (H : ctx.Rents place plane) : ctx.rentalAlert? plane = some alert ↔
      alert = .freeFloatingDropOff ∧ ∃ service v network,
        ctx.graph.services.rental = some service ∧ place = some v ∧
          ctx.graph.Lends ctx.request v network ∧
            service.networkTypes.get? network = some .temporaryDropOff := by
  cases H with
  | afoot hnone => simp [rentalAlert?, hnone]
  | @riding v networks plane hstation hrented =>
    cases hservice : ctx.graph.services.rental with
    | none => simp [rentalAlert?, hrented, hservice]
    | some service =>
      have halerts : service.alertsFreeFloating (ctx.usableNetworks networks) = true ↔
          ∃ network, ctx.graph.Lends ctx.request v network ∧
            service.networkTypes.get? network = some .temporaryDropOff := by
        rw [RentalService.alertsFreeFloating, List.any_eq_true]
        refine exists_congr fun network => ?_
        rw [decide_eq_true_iff]
        exact and_congr_left fun _ =>
          ⟨lends_of_mem_usable hstation, mem_usable_of_lends hstation⟩
      simp [rentalAlert?, hrented, hservice, halerts, eq_comm (a := alert), and_comm]

omit [Quantity R] in
theorem isParking_of_parkingAlert? {alert : Alert} (h : ctx.parkingAlert? s = some alert) :
    alert.isParking = true := by
  unfold parkingAlert? at h
  split at h
  · simp only [Option.ite_none_right_eq_some, Option.some.injEq] at h
    rw [← h.2]
    rfl
  · cases h

theorem Trail.freeFloatingDropOff_mem_iff
    (H : ctx.Trail store itinerary.states itinerary.edges s)
    (hover : itinerary = ctx.itineraryOver itinerary.states) :
    .freeFloatingDropOff ∈ itinerary.alerts ↔ ∃ service v network,
      ctx.graph.services.rental = some service ∧
        ctx.graph.rentedAt? itinerary.edges = some v ∧ ctx.graph.Lends ctx.request v network ∧
          service.networkTypes.get? network = some .temporaryDropOff := by
  have hwarnings : .freeFloatingDropOff ∉ ctx.warnings itinerary := by
    intro hmem
    obtain ⟨leg, -, halert⟩ := List.mem_filterMap.1 hmem
    cases isParking_of_parkingAlert? halert
  rw [H.alerts_eq hover, List.mem_append, or_iff_right hwarnings, Option.mem_toList,
    rentalAlert?_eq_some_iff H.rents]
  exact and_iff_right rfl

theorem Trail.rentsInTurn (H : ctx.Trail store itinerary.states itinerary.edges s)
    (hover : itinerary = ctx.itineraryOver itinerary.states) (hfinal : ctx.isFinal s = true) :
    ctx.graph.RentsInTurn ctx.request itinerary where
  starts := H.rentals_head
  turns := H.rentals_isChain
  rides := by
    intro before leg after v hlegs hplace
    obtain ⟨id, a, states', htrail, hstep⟩ := H.split hlegs
    have hrenting : a.plane.isRenting = true := by
      rw [htrail.rents.isRenting_iff, hplace]
      rfl
    exact isRide_of_mem_successors hrenting hstep
  returns := H.returns
  ends := by
    intro v hplace
    have hrents := H.rents
    rw [hplace] at hrents
    rw [isFinal, Bool.and_eq_true] at hfinal
    exact exists_of_mayEndRental hrents hfinal.2
  warning_iff := H.freeFloatingDropOff_mem_iff hover

end Context

/-- On every path bicycles are rented as the networks and the request allow. -/
theorem Graph.rentsInTurn_of_findPaths {R : Type} [Quantity R] [Geodesy R] {g : Graph R}
    {request : Request R} {paths : List (Itinerary R)} (h : g.findPaths request = .ok paths) :
    ∀ itinerary ∈ paths, g.RentsInTurn request itinerary := by
  intro itinerary hmem
  obtain ⟨ctx, hctx, hpaths⟩ := exists_context_of_findPaths h
  obtain ⟨triangle, hrequest⟩ := Context.request_of hctx
  obtain rfl := Context.graph_of hctx
  obtain ⟨hover, s, htrail, hfinal⟩ := Context.trail_of_findPaths hpaths hmem
  have hrents := htrail.rentsInTurn hover hfinal
  rw [hrequest] at hrents
  exact ⟨hrents.starts, hrents.turns, hrents.rides, hrents.returns, hrents.ends,
    hrents.warning_iff⟩

/-! ## Along the shore -/

namespace Shore

/-- Two rental stations on a way of which the last part is for pedestrians. Bicycles of the coast
may be left elsewhere for a while. -/
def town : Graph ℚ :=
  let roads : Graph ℚ := .build
    [.intersection "home" ⟨0, 0⟩, .intersection "beach" ⟨1, 0⟩, .intersection "work" ⟨2, 0⟩,
      ⟨"pier", ⟨0, 0⟩, .rentalStation "pier"⟩, ⟨"dune", ⟨1, 0⟩, .rentalStation "dune"⟩]
    [(0, 3, .link 10), (3, 3, .rentBike), (3, 0, .link 10),
      (0, 1, .street (.plain 1 3000 .allStreet)), (1, 4, .link 10), (4, 4, .dropOffBike),
      (4, 1, .link 10), (1, 2, .street (.plain 2 100 .pedestrian))]
  let pier : Station ℚ := ⟨"pier", "pier", ⟨0, 0⟩, 5, 5, ⟨["coast", "river"]⟩⟩
  let dune : Station ℚ := ⟨"dune", "dune", ⟨1, 0⟩, 0, 5, ⟨["coast", "inland"]⟩⟩
  { roads with
    services.rental := some ⟨(Registry.empty.put "pier" pier).put "dune" dune,
      .ofList [("coast", .temporaryDropOff)]⟩ }

/-- From home to work with a bicycle of the coast. -/
def request : Request ℚ :=
  { Corners.onFoot 0 2 with allowRental := true, allowedNetworks := ⟨["coast"]⟩ }

/-- One pushes the bicycle to work and leaves it there, or returns it on the way. -/
theorem rentsInTurn_town : ∃ paths, town.findPaths request = .ok paths ∧
    (paths.map fun path => (path.edges, path.alerts)) =
      [([0, 1, 2, 3, 7], [.freeFloatingDropOff]), ([0, 1, 2, 3, 4, 5, 6, 7], [])] ∧
    ∀ itinerary ∈ paths, town.RentsInTurn request itinerary := by
  have hanswer : ((town.findPaths request).toOption.map fun paths =>
      paths.map fun path => (path.edges, path.alerts)) =
      some [([0, 1, 2, 3, 7], [.freeFloatingDropOff]), ([0, 1, 2, 3, 4, 5, 6, 7], [])] := by
    decide +kernel
  obtain ⟨paths, h, hpaths⟩ := exists_ok_of_toOption hanswer
  exact ⟨paths, h, hpaths, Graph.rentsInTurn_of_findPaths h⟩

end Shore

end TripPlanner
