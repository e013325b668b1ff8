import TripPlanner.Proofs.Driving
import TripPlanner.Proofs.Closures

/-!
# Distances

Two accounts of the way. The metres walked are added up while states come about; the metres driven
are read off the edges of the finished itinerary. Both are sums over legs: what a move adds to the
first one is what its edge covers on the ground if one arrives on foot, and nothing otherwise
(`Context.Moves.walked_eq`). So no leg is counted in both, and what neither of them has of the
streets is cycled (`Graph.AccountsFor`). A street is counted in both if one drives along it to a car
park and comes back that way on foot (`Driveway.counts_street_twice`).
-/

namespace TripPlanner

/-! ## One edge -/

theorem State.streetMode_ne_transit {R : Type} (s : State R) (request : Request R) :
    s.streetMode request ≠ .transit := by
  unfold State.streetMode
  split_ifs <;> exact nofun

namespace Context

variable {R : Type} [Quantity R] {ctx : Context R} {s a b : State R} {id : StateId} {e : EdgeIndex}
  {edge : Edge R} {move : Move R}

theorem along_walked (request : Request R) (plane : Plane) (mode : Mode) (length speed : R) :
    (Move.along request plane mode length speed).walked = if mode = .walk then length else 0 := by
  unfold Move.along
  dsimp only
  split <;> rfl

/-- Only who arrives on foot has walked, and that as far as the edge goes. -/
theorem Moves.walked_eq (H : ctx.Moves s e edge move) :
    move.walked = if move.mode = some .walk then edge.distance else 0 := by
  cases H with
  | street hkind =>
    simp only [alongStreet, Edge.distance, hkind, EdgeKind.distance, Option.some.injEq]
  | link hkind | transfer hkind =>
    simp only [along_walked, Move.along_mode, Edge.distance, hkind, EdgeKind.distance,
      Option.some.injEq]
  | parkCar hkind | dropOffBike hkind | parkBike hkind | alight hkind | timedTransfer hkind =>
    simp only [Move.staying, Edge.distance, hkind, EdgeKind.distance, ite_self]
  | rentBike hkind | board hkind | hop hkind => rfl

/-- Along a street one goes on foot, by bicycle or by car. -/
theorem mode_of_street (h : (e, b) ∈ ctx.successors id a)
    (hstreet : (ctx.graph.street? e).isSome) :
    b.mode = some .walk ∨ b.mode = some .bicycle ∨ b.mode = some .car := by
  obtain ⟨street, hstreet⟩ := Option.isSome_iff_exists.1 hstreet
  obtain ⟨mode, hmode, hon, -⟩ := street_of_mem_successors h hstreet
  rw [hmode]
  cases mode with
  | walk => exact .inl rfl
  | bicycle => exact .inr (.inl rfl)
  | car => exact .inr (.inr rfl)
  | transit =>
    have htransit := modeOnStreet?_eq_streetMode hon (by decide)
    exact absurd htransit (a.streetMode_ne_transit ctx.request)

/-- Whoever drives along a street has the car with them. -/
theorem carParked_of_driven (h : (e, b) ∈ ctx.successors id a)
    (hstreet : (ctx.graph.street? e).isSome) (hcar : b.mode = some .car) :
    ctx.request.modes.car = true ∧ b.plane.carParked = false := by
  obtain ⟨edge, hedge, street, hkind⟩ : ∃ edge, ctx.graph.edge? e = some edge ∧
      ∃ street, edge.kind = .street street := by
    obtain ⟨street, hstreet⟩ := Option.isSome_iff_exists.1 hstreet
    obtain ⟨edge, hedge, hkind⟩ := Graph.street?_eq_some_iff.1 hstreet
    exact ⟨edge, hedge, street, hkind⟩
  obtain ⟨-, move, hmove, rfl⟩ := move_of_mem_successors h hedge
  obtain ⟨mode, hmode, -, rfl⟩ := (move?_eq_some_iff.1 hmove).2.of_street hkind
  obtain rfl : mode = .car := Option.some.inj hcar
  obtain ⟨-, hallowed, hwith⟩ := streetMode_eq_car_iff.1 (modeOnStreet?_eq_streetMode hmode nofun)
  exact ⟨hallowed, hwith⟩

/-- Whoever could drive and walks along a street has parked the car. -/
theorem carParked_of_walked (ha : ctx.Reachable a) (h : (e, b) ∈ ctx.successors id a)
    (hallowed : ctx.request.modes.car = true) (hstreet : (ctx.graph.street? e).isSome)
    (hwalk : b.mode = some .walk) : b.plane.carParked = true := by
  rcases ha.initial_or_parked hallowed with hinitial | ⟨-, hparked⟩
  · have hcar := mode_of_car (streetMode_of_initial hallowed hinitial) h hstreet
    rw [hwalk] at hcar
    cases hcar
  · obtain ⟨edge, hedge, -⟩ := edge_of_mem_successors h
    obtain ⟨-, move, hmove, rfl⟩ := move_of_mem_successors h hedge
    exact (changes_of_move? hmove).parked hparked

end Context

/-! ## Whole itineraries -/

/-- The legs at whose end one arrives in the given mode. -/
def Itinerary.legsBy {R : Type} (itinerary : Itinerary R) (mode : Mode) :
    List (EdgeIndex × State R) :=
  itinerary.legs.filter fun leg => leg.2.mode = some mode

namespace Graph

variable {R : Type} [Quantity R]

/-- Metres that a leg covers on the ground. -/
def groundMeters? (g : Graph R) (leg : EdgeIndex × State R) : Option R :=
  (g.edge? leg.1).map Edge.distance

/-- Metres of the street that a leg goes along. -/
def streetMeters? (g : Graph R) (leg : EdgeIndex × State R) : Option R :=
  (g.street? leg.1).map Street.length

/-- The metres of an itinerary are those of its legs: what was walked covers every leg at whose end
one arrives on foot, what was driven every street at whose end one arrives by car. No leg is counted
in both. An edge that is gone over twice makes two legs, each with an account of its own, so that a
street may be in both: first it was driven along, and then, with the car parked, walked. -/
structure AccountsFor (g : Graph R) (itinerary : Itinerary R) : Prop where
  /-- No leg goes without an account because its edge is gone. -/
  edges : ∀ leg ∈ itinerary.legs, (g.edge? leg.1).isSome
  /-- What was added up on the way. -/
  walked : itinerary.walkDistance =
    Quantity.sum ((itinerary.legsBy .walk).filterMap g.groundMeters?)
  /-- What is read off in the end. -/
  driven : itinerary.streetMeters =
    Quantity.sum ((itinerary.legsBy .car).filterMap g.streetMeters?)
  apart : (itinerary.legsBy .walk).Disjoint (itinerary.legsBy .car)
  /-- A street that is counted in both has been gone along twice. -/
  twice : ∀ {e s s'}, (g.street? e).isSome → (e, s) ∈ itinerary.legsBy .car →
    (e, s') ∈ itinerary.legsBy .walk → s.plane.carParked = false ∧ s'.plane.carParked = true ∧
      [(e, s), (e, s')].Sublist itinerary.legs
  /-- Each street is walked, cycled or driven along. -/
  streets : Quantity.sum (itinerary.legs.filterMap g.streetMeters?) =
    Quantity.sum ((itinerary.legsBy .walk).filterMap g.streetMeters?)
      + Quantity.sum ((itinerary.legsBy .bicycle).filterMap g.streetMeters?)
      + itinerary.streetMeters

end Graph

theorem Itinerary.disjoint_legsBy {R : Type} (itinerary : Itinerary R) {mode mode' : Mode}
    (h : mode ≠ mode') : (itinerary.legsBy mode).Disjoint (itinerary.legsBy mode') := by
  intro leg hleg hleg'
  have hmode := of_decide_eq_true (List.mem_filter.1 hleg).2
  have hmode' := of_decide_eq_true (List.mem_filter.1 hleg').2
  exact h (Option.some.inj (hmode.symm.trans hmode'))

namespace Context

section
variable {R : Type} [Quantity R] {ctx : Context R} {store : StateStore R} {s : State R}
  {itinerary : Itinerary R}

theorem Trail.streetMeters_eq_legsBy (H : ctx.Trail store itinerary.states itinerary.edges s)
    (hover : itinerary = ctx.itineraryOver itinerary.states) : itinerary.streetMeters =
      Quantity.sum ((itinerary.legsBy .car).filterMap ctx.graph.streetMeters?) := by
  have hlegs : itinerary.legs.filterMap (fun leg => ctx.drivenMeters? leg.2) =
      (itinerary.legsBy .car).filterMap ctx.graph.streetMeters? := by
    rw [Itinerary.legsBy, List.filterMap_filter]
    apply List.filterMap_congr
    intro leg hleg
    obtain ⟨id, a, -, hstep⟩ := H.exists_of_mem_legs hleg
    simp only [drivenMeters?_eq_ite hstep, Graph.streetMeters?, decide_eq_true_eq]
  rw [H.streetMeters_eq hover, hlegs]

/-- A car that is parked stays so for the rest of the trip. -/
theorem Trail.pairwise_carParked {states : List (State R)} {edges : List EdgeIndex}
    (H : ctx.Trail store states edges s) : (edges.zip states.tail).Pairwise fun leg later =>
      leg.2.plane.carParked = true → later.2.plane.carParked = true := by
  let P (legs : List (EdgeIndex × State R)) (s : State R) : Prop :=
    (∀ leg ∈ legs, leg.2.plane.carParked = true → s.plane.carParked = true) ∧
      legs.Pairwise fun leg later =>
        leg.2.plane.carParked = true → later.2.plane.carParked = true
  have hP : P (edges.zip states.tail) s := by
    apply H.legs_induct
    · exact ⟨fun leg hleg => absurd hleg List.not_mem_nil, .nil⟩
    · intro legs _ a e b _ hstep ih
      obtain ⟨hlast, hpairs⟩ := ih
      have hstays : a.plane.carParked = true → b.plane.carParked = true := by
        intro hparked
        obtain ⟨edge, hedge, -⟩ := edge_of_mem_successors hstep
        obtain ⟨-, move, hmove, rfl⟩ := move_of_mem_successors hstep hedge
        exact (changes_of_move? hmove).parked hparked
      have hnext : ∀ leg ∈ legs, leg.2.plane.carParked = true → b.plane.carParked = true :=
        fun leg hleg h => hstays (hlast leg hleg h)
      refine ⟨fun leg hleg => ?_, List.pairwise_append.2 ⟨hpairs, List.pairwise_singleton _ _, ?_⟩⟩
      · rcases List.mem_append.1 hleg with hleg | hleg
        · exact hnext leg hleg
        · rw [List.mem_singleton.1 hleg]
          exact id
      · intro leg hleg later hlater
        rw [List.mem_singleton.1 hlater]
        exact hnext leg hleg
  exact hP.2

theorem Trail.twice (H : ctx.Trail store itinerary.states itinerary.edges s) {e : EdgeIndex}
    {driven walked : State R} (hstreet : (ctx.graph.street? e).isSome)
    (hdriven : (e, driven) ∈ itinerary.legsBy .car)
    (hwalked : (e, walked) ∈ itinerary.legsBy .walk) :
    driven.plane.carParked = false ∧ walked.plane.carParked = true ∧
      [(e, driven), (e, walked)].Sublist itinerary.legs := by
  obtain ⟨hleg, hcar⟩ := List.mem_filter.1 hdriven
  obtain ⟨hleg', hwalk⟩ := List.mem_filter.1 hwalked
  obtain ⟨id, a, -, hstep⟩ := H.exists_of_mem_legs hleg
  obtain ⟨id', a', ha', hstep'⟩ := H.exists_of_mem_legs hleg'
  obtain ⟨hallowed, hwith⟩ := carParked_of_driven hstep hstreet (of_decide_eq_true hcar)
  have hparked := carParked_of_walked ha' hstep' hallowed hstreet (of_decide_eq_true hwalk)
  refine ⟨hwith, hparked, ?_⟩
  obtain ⟨front, rest, hlegs⟩ := List.append_of_mem hleg
  have hpairs : itinerary.legs.Pairwise _ := H.pairwise_carParked
  rw [hlegs] at hleg' hpairs ⊢
  rcases List.mem_append.1 hleg' with hfront | hrest
  · -- The car is not taken again after it has been parked.
    have hafter := (List.pairwise_append.1 hpairs).2.2 _ hfront _ List.mem_cons_self hparked
    rw [hwith] at hafter
    cases hafter
  · rcases List.mem_cons.1 hrest with hsame | hrest
    · rw [(Prod.mk.inj hsame).2, hwith] at hparked
      cases hparked
    · have hpair : [(e, driven), (e, walked)].Sublist ((e, driven) :: rest) :=
        .cons_cons _ (List.singleton_sublist.2 hrest)
      exact hpair.trans (List.sublist_append_right _ _)

end

section
variable {R : Type} [Field R] [LinearOrder R] [IsStrictOrderedRing R] [FloorRing R]
  {ctx : Context R} {store : StateStore R} {s a : State R} {id : StateId}
  {itinerary : Itinerary R}

/-- What was walked has been added up leg by leg. -/
theorem Trail.walked_eq {states : List (State R)} {edges : List EdgeIndex}
    (H : ctx.Trail store states edges s) :
    s.walked = Quantity.sum (((edges.zip states.tail).filter fun leg =>
      leg.2.mode = some .walk).filterMap ctx.graph.groundMeters?) := by
  let P (legs : List (EdgeIndex × State R)) (s : State R) : Prop :=
    s.walked = Quantity.sum ((legs.filter fun leg => leg.2.mode = some .walk).filterMap
      ctx.graph.groundMeters?)
  have hP : P (edges.zip states.tail) s := by
    apply H.legs_induct
    · rfl
    · intro legs id a e b _ hstep ih
      obtain ⟨edge, hedge, -⟩ := edge_of_mem_successors hstep
      obtain ⟨-, move, hmove, rfl⟩ := move_of_mem_successors hstep hedge
      have hwalked := (move?_eq_some_iff.1 hmove).2.walked_eq
      simp only [P, Quantity.sum_eq_sum, List.filter_append, List.filterMap_append,
        List.sum_append] at ih ⊢
      rw [← ih, State.after, hwalked]
      by_cases hmode : move.mode = some .walk
      · simp [hmode, Graph.groundMeters?, hedge]
      · simp [hmode]
  exact hP

theorem Trail.walkDistance_eq (H : ctx.Trail store itinerary.states itinerary.edges s) :
    itinerary.walkDistance =
      Quantity.sum ((itinerary.legsBy .walk).filterMap ctx.graph.groundMeters?) := by
  rw [Itinerary.walkDistance, Itinerary.ofLast, H.getLast?, Option.map_some, Option.getD_some]
  exact H.walked_eq

/-- The street that a leg goes along is counted in one of three modes. -/
theorem streetMeters?_eq_add {leg : EdgeIndex × State R} (h : leg ∈ ctx.successors id a) :
    let metersBy (mode : Mode) : R :=
      (if leg.2.mode = some mode then ctx.graph.streetMeters? leg else none).getD 0
    (ctx.graph.streetMeters? leg).getD 0 =
      metersBy .walk + metersBy .bicycle + metersBy .car := by
  cases hstreet : ctx.graph.street? leg.1 with
  | none => simp [Graph.streetMeters?, hstreet]
  | some street =>
    rcases mode_of_street h (Option.isSome_of_eq_some hstreet) with hmode | hmode | hmode <;>
      simp [hmode]

/-- What is gone along streets is walked, cycled or driven. -/
theorem sum_streetMeters? {legs : List (EdgeIndex × State R)}
    (h : ∀ leg ∈ legs, ∃ id a, leg ∈ ctx.successors id a) :
    let sumBy (mode : Mode) : R := Quantity.sum
      ((legs.filter fun leg => leg.2.mode = some mode).filterMap ctx.graph.streetMeters?)
    Quantity.sum (legs.filterMap ctx.graph.streetMeters?) =
      sumBy .walk + sumBy .bicycle + sumBy .car := by
  simp only [List.filterMap_filter, decide_eq_true_eq, Quantity.sum_filterMap, ← List.sum_map_add]
  refine congrArg List.sum (List.map_congr_left fun leg hleg => ?_)
  obtain ⟨id, a, hstep⟩ := h leg hleg
  exact streetMeters?_eq_add hstep

theorem Trail.accountsFor (H : ctx.Trail store itinerary.states itinerary.edges s)
    (hover : itinerary = ctx.itineraryOver itinerary.states) : ctx.graph.AccountsFor itinerary where
  edges leg hleg := by
    obtain ⟨id, a, -, hstep⟩ := H.exists_of_mem_legs hleg
    obtain ⟨edge, hedge, -⟩ := edge_of_mem_successors hstep
    rw [hedge]
    rfl
  walked := H.walkDistance_eq
  driven := H.streetMeters_eq_legsBy hover
  apart := itinerary.disjoint_legsBy (by decide)
  twice := H.twice
  streets := by
    rw [H.streetMeters_eq_legsBy hover]
    apply sum_streetMeters?
    intro leg hleg
    obtain ⟨id, a, -, hstep⟩ := H.exists_of_mem_legs hleg
    exact ⟨id, a, hstep⟩

end

end Context

/-- On every path that a search returns, by itself or compared with driving, what was added up on
the way and what is read off in the end are the sums over the legs that they belong to. -/
theorem Graph.accountsFor_of_gives {R : Type} [Field R] [LinearOrder R] [IsStrictOrderedRing R]
    [FloorRing R] [Geodesy R] {g : Graph R} {paths : List (Itinerary R)} (H : g.Gives paths) :
    ∀ itinerary ∈ paths, g.AccountsFor itinerary := by
  intro itinerary hmem
  obtain ⟨ctx, paths, rfl, h, hmem⟩ := H.exists_findPaths hmem
  obtain ⟨hover, s, htrail, -⟩ := Context.trail_of_findPaths h hmem
  exact htrail.accountsFor hover

/-! ## Down a valley -/

namespace Valley

/-- A road to a car park, a walk between two stops, and a footpath. -/
def graph : Graph ℚ :=
  .build
    [.intersection "farm" ⟨0, 0⟩, .intersection "gate" ⟨1, 0⟩, ⟨"park", ⟨1, 0⟩, .parkAndRide "p"⟩,
      ⟨"upper", ⟨1, 0⟩, .transitStop⟩, ⟨"lower", ⟨2, 0⟩, .transitStop⟩,
      .intersection "bridge" ⟨2, 0⟩, .intersection "mill" ⟨3, 0⟩]
    [(0, 1, .street (.plain 1 1000 .allStreet)), (1, 2, .link 10), (2, 2, .parkAndRide),
      (2, 1, .link 10), (1, 3, .link 20), (3, 4, .transfer 50), (4, 5, .link 30),
      (5, 6, .street (.plain 2 200 .pedestrian))]

/-- From the farm to the mill with the car left on the way. -/
def request : Request ℚ := (Corners.onFoot 0 3).withParkAndRide

/-- The link to the car park is driven along and no street, the one that leads back is walked. -/
theorem accountsFor_graph : ∃ paths, graph.Gives paths ∧
    paths.map (fun itinerary => (itinerary.walkDistance, itinerary.streetMeters)) =
      [(10 + 20 + 50 + 30 + 200, 1000)] ∧ ∀ itinerary ∈ paths, graph.AccountsFor itinerary := by
  have hanswer : (graph.findPathsComparing request).toOption.map (List.map fun itinerary =>
      (itinerary.walkDistance, itinerary.streetMeters)) =
        some [(10 + 20 + 50 + 30 + 200, 1000)] := by decide +kernel
  obtain ⟨paths, h, hmeters⟩ := exists_ok_of_toOption hanswer
  have hgives : graph.Gives paths := .inr ⟨request, h⟩
  exact ⟨paths, hgives, hmeters, Graph.accountsFor_of_gives hgives⟩

end Valley

/-! ## Out by car, back on foot -/

namespace Driveway

/-- A road from home to a fork. From the car park there one only gets back home, and work is at the
end of a footpath. -/
def graph : Graph ℚ :=
  .build
    [.intersection "home" ⟨0, 0⟩, .intersection "fork" ⟨1, 0⟩, ⟨"park", ⟨1, 0⟩, .parkAndRide "p"⟩,
      .intersection "work" ⟨2, 0⟩]
    [(0, 1, .street (.plain 1 100 .allStreet)), (1, 2, .link 10), (2, 2, .parkAndRide),
      (2, 0, .link 10), (1, 3, .street (.plain 2 200 .pedestrian))]

/-- From home to work with the car left on the way. -/
def request : Request ℚ := (Corners.onFoot 0 2).withParkAndRide

/-- The road is driven along, and then walked along. -/
theorem counts_street_twice : ∃ paths, graph.Gives paths ∧ ∃ itinerary ∈ paths,
    itinerary.edges = [0, 1, 2, 3, 0, 4] ∧ (graph.street? 0).isSome ∧
    (∃ s, (0, s) ∈ itinerary.legsBy .car) ∧ (∃ s, (0, s) ∈ itinerary.legsBy .walk) ∧
    itinerary.walkDistance = 10 + 100 + 200 ∧ itinerary.streetMeters = 100 := by
  have hanswer : (graph.findPathsComparing request).toOption.map (List.map fun itinerary =>
      (itinerary.edges, (itinerary.legsBy .car).map Prod.fst,
        (itinerary.legsBy .walk).map Prod.fst, itinerary.walkDistance, itinerary.streetMeters)) =
      some [([0, 1, 2, 3, 0, 4], [0, 1], [2, 3, 0, 4], 10 + 100 + 200, 100)] := by decide +kernel
  obtain ⟨paths, h, hpaths⟩ := exists_ok_of_toOption hanswer
  obtain ⟨itinerary, rfl, hitinerary⟩ := List.map_eq_singleton_iff.1 hpaths
  simp only [Prod.mk.injEq] at hitinerary
  obtain ⟨hedges, hcar, hwalk, hwalked, hdriven⟩ := hitinerary
  have hleg : ∀ {mode}, 0 ∈ (itinerary.legsBy mode).map Prod.fst →
      ∃ s, (0, s) ∈ itinerary.legsBy mode := by
    intro mode hmem
    obtain ⟨⟨e, s⟩, hleg, rfl⟩ := List.mem_map.1 hmem
    exact ⟨s, hleg⟩
  have hstreet : (graph.street? 0).isSome := by decide
  exact ⟨_, .inr ⟨request, h⟩, itinerary, List.mem_singleton_self _, hedges, hstreet,
    hleg (by rw [hcar]; decide), hleg (by rw [hwalk]; decide), hwalked, hdriven⟩

end Driveway

end TripPlanner
