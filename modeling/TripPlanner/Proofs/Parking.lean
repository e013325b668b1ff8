import TripPlanner.Proofs.Driving

/-!
# Parking

A park-and-ride trip is driven up to one car park and not from there on (`Graph.ParksOnce`), and one
is warned of that car park if few of its spaces are free. The invariant along a trip is that either
nothing has happened yet and all was driven, or that the car is parked and was parked once.
-/

namespace TripPlanner

/-- Whether the warning is about a car park. -/
def Alert.isParking : Alert → Bool
  | .carParkFewSpaces _ => true
  | .freeFloatingDropOff => false

namespace Graph

variable {R : Type}

/-- The vertex at which following the edge leaves the car. -/
def parkingPlace? (g : Graph R) (e : EdgeIndex) : Option VertexIndex :=
  (g.edge? e).bind fun edge =>
    match edge.kind with
    | .parkAndRide => some edge.source
    | _ => none

/-- The vertex stands for the car park that is registered under the id. -/
def HasCarPark (g : Graph R) (v : VertexIndex) (id : String) (park : CarPark R) : Prop :=
  (g.vertex? v).map Vertex.kind = some (.parkAndRide id) ∧
    (g.services.carParks.bind fun registry => registry.record? id) = some park

/-- Whoever leaves a car stays where it is. -/
def ParksInPlace (g : Graph R) : Prop :=
  ∀ e edge, g.edge? e = some edge → edge.kind = .parkAndRide → edge.source = edge.target

/-- A street is driven along, and the car is not left. -/
structure IsDriven (g : Graph R) (leg : EdgeIndex × State R) : Prop where
  byCar : (g.street? leg.1).isSome → leg.2.mode = some .car
  notParked : g.parkingPlace? leg.1 = none

/-- Nothing is driven along, and no car is left. -/
structure IsCarless (g : Graph R) (leg : EdgeIndex × State R) : Prop where
  notByCar : leg.2.mode ≠ some .car
  notParked : g.parkingPlace? leg.1 = none

/-- The car is left once. One drives up to there, and not from there on. -/
inductive ParksOnce (g : Graph R) : List (EdgeIndex × State R) → Prop where
  | intro {before after : List (EdgeIndex × State R)} {e : EdgeIndex} {s : State R}
      {v : VertexIndex} : (∀ leg ∈ before, g.IsDriven leg) → g.parkingPlace? e = some v →
      (∀ leg ∈ after, g.IsCarless leg) → ParksOnce g (before ++ (e, s) :: after)

theorem parkingPlace?_eq_some_iff {g : Graph R} {e : EdgeIndex} {v : VertexIndex} :
    g.parkingPlace? e = some v ↔
      ∃ edge, g.edge? e = some edge ∧ edge.kind = .parkAndRide ∧ edge.source = v := by
  simp only [parkingPlace?, Option.bind_eq_some_iff]
  refine exists_congr fun edge => and_congr_right fun _ => ?_
  cases edge.kind <;> simp

theorem parkingPlace?_eq_none {g : Graph R} {e : EdgeIndex} {edge : Edge R}
    (hedge : g.edge? e = some edge) (hkind : edge.kind ≠ .parkAndRide) :
    g.parkingPlace? e = none := by
  rw [Option.eq_none_iff_forall_ne_some]
  intro v hv
  obtain ⟨edge', hedge', hkind', -⟩ := parkingPlace?_eq_some_iff.1 hv
  cases hedge.symm.trans hedge'
  exact hkind hkind'

theorem ParksOnce.snoc {g : Graph R} {legs : List (EdgeIndex × State R)}
    {leg : EdgeIndex × State R} (H : g.ParksOnce legs) (hleg : g.IsCarless leg) :
    g.ParksOnce (legs ++ [leg]) := by
  obtain ⟨hbefore, hparked, hafter⟩ := H
  rw [List.append_assoc, List.cons_append]
  exact .intro hbefore hparked
    (List.forall_mem_append.2 ⟨hafter, List.forall_mem_singleton.2 hleg⟩)

end Graph

namespace Context

variable {R : Type} [Quantity R] {ctx : Context R} {a b s : State R} {id : StateId}
  {e : EdgeIndex} {edge : Edge R} {move : Move R} {v : VertexIndex}
  {legs : List (EdgeIndex × State R)}

/-! ## One edge -/

/-- Without a car one does not come to drive. -/
theorem Moves.mode_ne_car (H : ctx.Moves s e edge move) (hcar : s.streetMode ctx.request ≠ .car)
    (hmode : s.mode ≠ some .car) : move.mode ≠ some .car := by
  cases H with
  | street _ hon _ =>
    rintro ⟨⟩
    exact hcar (modeOnStreet?_eq_streetMode hon (by decide))
  | link => simpa using hcar
  | transfer => simp
  | timedTransfer => exact hmode
  | parkCar | rentBike | dropOffBike | parkBike | board | hop | alight => simp [Move.staying]

omit [Quantity R] in
theorem spacesAvailable_pos {name : String} {park : CarPark R}
    (h : ctx.graph.HasCarPark v name park) (hfree : ctx.isCarParkFull v = false) :
    0 < park.spacesAvailable := by
  rw [isCarParkFull, h.1] at hfree
  simp only [h.2, Option.any_some, CarPark.isFull, decide_eq_false_iff_not] at hfree
  omega

theorem parking_of_mem_successors (h : (e, b) ∈ ctx.successors id a)
    (hparked : ctx.graph.parkingPlace? e = some v) : ctx.request.parkAndRide = true ∧
      (ctx.request.useCarParkAvailability = true → ctx.isCarParkFull v = false) := by
  obtain ⟨edge, hedge, hkind, rfl⟩ := Graph.parkingPlace?_eq_some_iff.1 hparked
  obtain ⟨-, move, hmove, -⟩ := move_of_mem_successors h hedge
  obtain ⟨hride, -, hfree, -⟩ := (move?_eq_some_iff.1 hmove).2.of_parkAndRide hkind
  exact ⟨hride, hfree⟩

/-- What one is warned of on arrival is the car park at which the car has just been left. -/
theorem parkingAlert?_eq_some_iff {alert : Alert} (hloops : ctx.graph.ParksInPlace)
    (h : (e, b) ∈ ctx.successors id a) : ctx.parkingAlert? b = some alert ↔
      ∃ v name park, ctx.graph.parkingPlace? e = some v ∧ ctx.graph.HasCarPark v name park ∧
        park.hasFewSpacesAvailable = true ∧ alert = .carParkFewSpaces name := by
  obtain ⟨edge, hedge, -, -, htarget, hback⟩ := edge_of_mem_successors h
  have hbackEdge : ctx.backEdge? b = some edge := by
    rw [backEdge?, hback, Option.bind_some, hedge]
  unfold parkingAlert?
  rw [hbackEdge, Option.map_some]
  constructor
  · intro halert
    split at halert
    · rename_i name hkind hvertex
      have hkind := Option.some.inj hkind
      simp only [Option.ite_none_right_eq_some, Option.some.injEq] at halert
      obtain ⟨hfew, rfl⟩ := halert
      obtain ⟨park, hpark, hfew⟩ := (Option.any_eq_true _ _).1 hfew
      refine ⟨edge.source, name, park, ?_, ⟨?_, hpark⟩, hfew, rfl⟩
      · exact Graph.parkingPlace?_eq_some_iff.2 ⟨edge, hedge, hkind, rfl⟩
      · rw [hloops e edge hedge hkind, htarget, hvertex]
    · cases halert
  · rintro ⟨v, name, park, hparked, ⟨hvertex, hpark⟩, hfew, rfl⟩
    obtain ⟨edge', hedge', hkind, rfl⟩ := Graph.parkingPlace?_eq_some_iff.1 hparked
    cases hedge.symm.trans hedge'
    rw [hloops e edge hedge hkind, htarget] at hvertex
    simp only [hkind, hvertex, hpark, Option.any_some, hfew, if_true]

/-! ## A whole trip -/

/-- Before the car is parked all is as at the start and everything was driven; afterwards one does
not drive, and the car was left once. -/
def KeepsToParking (ctx : Context R) (legs : List (EdgeIndex × State R)) (s : State R) : Prop :=
  s.plane = .initial ∧ (∀ leg ∈ legs, ctx.graph.IsDriven leg) ∨
    s.plane.carParked = true ∧ s.mode ≠ some .car ∧ ctx.graph.ParksOnce legs

theorem KeepsToParking.snoc (H : ctx.KeepsToParking legs a)
    (hcar : ctx.request.modes.car = true) (h : (e, b) ∈ ctx.successors id a) :
    ctx.KeepsToParking (legs ++ [(e, b)]) b := by
  obtain ⟨edge, hedge, -, ht⟩ := mem_successors_iff.1 h
  obtain ⟨move, hmove, rfl⟩ := traverse_eq_some_iff.1 ht
  have hmoves := (move?_eq_some_iff.1 hmove).2
  rcases H with ⟨hinitial, hdriven⟩ | ⟨hparked, hmode, honce⟩
  · have hdriving := streetMode_of_initial hcar hinitial
    by_cases hkind : edge.kind = .parkAndRide
    · -- The car is left here, and all that comes before was driven.
      obtain ⟨-, -, -, hmode, hplane⟩ := hmoves.of_parkAndRide hkind
      have hplace := Graph.parkingPlace?_eq_some_iff.2 ⟨edge, hedge, hkind, rfl⟩
      right
      refine ⟨by rw [State.after_plane, hplane], by simp [hmode], ?_⟩
      exact .intro hdriven hplace fun _ hleg => absurd hleg List.not_mem_nil
    · left
      constructor
      · rw [State.after_plane, hmoves.plane_of_car hdriving hkind, hinitial]
      · refine List.forall_mem_append.2 ⟨hdriven, List.forall_mem_singleton.2 ?_⟩
        exact ⟨mode_of_car hdriving h, Graph.parkingPlace?_eq_none hedge hkind⟩
  · -- There is no car left to park or to drive in.
    have hcarless : a.streetMode ctx.request ≠ .car := by
      intro hdriving
      have hnot := (streetMode_eq_car_iff.1 hdriving).2.2
      rw [hparked] at hnot
      cases hnot
    have hkind : edge.kind ≠ .parkAndRide := fun hkind =>
      hcarless (hmoves.of_parkAndRide hkind).2.1
    have hmode' := hmoves.mode_ne_car hcarless hmode
    right
    refine ⟨(changes_of_move? hmove).parked hparked, hmode', honce.snoc ?_⟩
    exact ⟨hmode', Graph.parkingPlace?_eq_none hedge hkind⟩

theorem Trail.keepsToParking {store : StateStore R} {states : List (State R)}
    {edges : List EdgeIndex} (H : ctx.Trail store states edges s)
    (hcar : ctx.request.modes.car = true) : ctx.KeepsToParking (edges.zip states.tail) s := by
  apply H.legs_induct
  · exact .inl ⟨rfl, fun _ hleg => absurd hleg List.not_mem_nil⟩
  · intro legs id a e b _ hstep ih
    exact ih.snoc hcar hstep

end Context

/-- Where a trip leaves a car, and what it warns of. -/
structure Graph.ParksAsAsked {R : Type} (g : Graph R) (request : Request R)
    (itinerary : Itinerary R) : Prop where
  once : request.parkAndRide = true → g.ParksOnce itinerary.legs
  never : request.parkAndRide = false → ∀ e ∈ itinerary.edges, g.parkingPlace? e = none
  spaces : request.useCarParkAvailability = true → ∀ e ∈ itinerary.edges, ∀ v id park,
    g.parkingPlace? e = some v → g.HasCarPark v id park → 0 < park.spacesAvailable
  warning : itinerary.alerts.countP Alert.isParking ≤ 1
  warning_iff : ∀ id, .carParkFewSpaces id ∈ itinerary.alerts ↔ ∃ e ∈ itinerary.edges, ∃ v park,
    g.parkingPlace? e = some v ∧ g.HasCarPark v id park ∧ park.hasFewSpacesAvailable = true

namespace Context

variable {R : Type} [Quantity R] {ctx : Context R} {store : StateStore R} {s : State R}
  {itinerary : Itinerary R} {alert : Alert}

/-- The legs of an itinerary that warn of a car park. -/
def warnings (ctx : Context R) (itinerary : Itinerary R) : List Alert :=
  itinerary.legs.filterMap fun leg => ctx.parkingAlert? leg.2

omit [Quantity R] in
theorem not_isParking_of_rentalAlert? {plane : Plane} (h : ctx.rentalAlert? plane = some alert) :
    alert.isParking = false := by
  unfold rentalAlert? at h
  split at h
  · simp only [Option.ite_none_right_eq_some, Option.some.injEq] at h
    rw [← h.2]
    rfl
  · cases h

theorem Trail.alerts_eq (H : ctx.Trail store itinerary.states itinerary.edges s)
    (hover : itinerary = ctx.itineraryOver itinerary.states) :
    itinerary.alerts = ctx.warnings itinerary ++ (ctx.rentalAlert? s.plane).toList := by
  conv_lhs => rw [hover]
  simp only [itineraryOver, H.getLast?, Option.bind_some]
  rw [H.filterMap_states rfl]
  rfl

theorem Trail.mem_warnings_iff (H : ctx.Trail store itinerary.states itinerary.edges s)
    (hloops : ctx.graph.ParksInPlace) : alert ∈ ctx.warnings itinerary ↔
      ∃ e ∈ itinerary.edges, ∃ v name park, ctx.graph.parkingPlace? e = some v ∧
        ctx.graph.HasCarPark v name park ∧ park.hasFewSpacesAvailable = true ∧
          alert = .carParkFewSpaces name := by
  rw [warnings, List.mem_filterMap, ← H.map_fst_legs]
  constructor
  · rintro ⟨leg, hleg, halert⟩
    obtain ⟨id, a, -, hstep⟩ := H.exists_of_mem_legs hleg
    exact ⟨leg.1, List.mem_map_of_mem hleg, (parkingAlert?_eq_some_iff hloops hstep).1 halert⟩
  · rintro ⟨e, he, hwarned⟩
    obtain ⟨leg, hleg, rfl⟩ := List.mem_map.1 he
    obtain ⟨id, a, -, hstep⟩ := H.exists_of_mem_legs hleg
    exact ⟨leg, hleg, (parkingAlert?_eq_some_iff hloops hstep).2 hwarned⟩

theorem Trail.parkingAlert?_eq_none {leg : EdgeIndex × State R}
    (H : ctx.Trail store itinerary.states itinerary.edges s) (hloops : ctx.graph.ParksInPlace)
    (hleg : leg ∈ itinerary.legs) (hnone : ctx.graph.parkingPlace? leg.1 = none) :
    ctx.parkingAlert? leg.2 = none := by
  obtain ⟨id, a, -, hstep⟩ := H.exists_of_mem_legs hleg
  rw [Option.eq_none_iff_forall_ne_some]
  intro alert halert
  obtain ⟨v, name, park, hparked, -⟩ := (parkingAlert?_eq_some_iff hloops hstep).1 halert
  rw [hnone] at hparked
  cases hparked

theorem Trail.warnings_eq_nil (H : ctx.Trail store itinerary.states itinerary.edges s)
    (hloops : ctx.graph.ParksInPlace)
    (hnone : ∀ leg ∈ itinerary.legs, ctx.graph.parkingPlace? leg.1 = none) :
    ctx.warnings itinerary = [] := by
  apply List.filterMap_eq_nil_iff.2
  intro leg hleg
  exact H.parkingAlert?_eq_none hloops hleg (hnone leg hleg)

/-- Only where the car is left one is warned. -/
theorem Trail.warnings_length_le (H : ctx.Trail store itinerary.states itinerary.edges s)
    (hloops : ctx.graph.ParksInPlace) (honce : ctx.graph.ParksOnce itinerary.legs) :
    (ctx.warnings itinerary).length ≤ 1 := by
  unfold warnings
  have hnone : ∀ leg ∈ itinerary.legs, ctx.graph.parkingPlace? leg.1 = none →
      ctx.parkingAlert? leg.2 = none := fun _ => H.parkingAlert?_eq_none hloops
  generalize itinerary.legs = legs at honce hnone ⊢
  cases honce with
  | @intro before after e b v hbefore _ hafter =>
    have hbefore' : before.filterMap (fun leg => ctx.parkingAlert? leg.2) = [] := by
      apply List.filterMap_eq_nil_iff.2
      intro leg hleg
      exact hnone leg (List.mem_append_left _ hleg) (hbefore leg hleg).notParked
    have hafter' : after.filterMap (fun leg => ctx.parkingAlert? leg.2) = [] := by
      apply List.filterMap_eq_nil_iff.2
      intro leg hleg
      exact hnone leg (List.mem_append_right _ (List.mem_cons_of_mem _ hleg))
        (hafter leg hleg).notParked
    rw [List.filterMap_append, hbefore', List.nil_append, List.filterMap_cons, hafter']
    split <;> simp

theorem Trail.parksOnce (H : ctx.Trail store itinerary.states itinerary.edges s)
    (hfinal : ctx.isFinal s = true) (hride : ctx.request.parkAndRide = true) :
    ctx.graph.ParksOnce itinerary.legs := by
  have hparked := carParked_of_isFinal hride hfinal
  have hs : ctx.Reachable s := H.reachable_of_mem (List.mem_of_getLast? H.getLast?)
  rcases H.keepsToParking (hs.entitled.car hparked) with ⟨hinitial, -⟩ | ⟨-, -, honce⟩
  · rw [hinitial] at hparked
    cases hparked
  · exact honce

theorem Trail.not_parked {e : EdgeIndex}
    (H : ctx.Trail store itinerary.states itinerary.edges s)
    (hride : ctx.request.parkAndRide = false) (he : e ∈ itinerary.edges) :
    ctx.graph.parkingPlace? e = none := by
  obtain ⟨id, a, b, -, hstep⟩ := H.exists_of_mem_edges he
  rw [Option.eq_none_iff_forall_ne_some]
  intro v hparked
  have hasked := (parking_of_mem_successors hstep hparked).1
  rw [hride] at hasked
  cases hasked

theorem Trail.countP_alerts_le (H : ctx.Trail store itinerary.states itinerary.edges s)
    (hover : itinerary = ctx.itineraryOver itinerary.states) (hfinal : ctx.isFinal s = true)
    (hloops : ctx.graph.ParksInPlace) : itinerary.alerts.countP Alert.isParking ≤ 1 := by
  have hrental : (ctx.rentalAlert? s.plane).toList.countP Alert.isParking = 0 := by
    apply List.countP_eq_zero.2
    intro alert halert
    rw [not_isParking_of_rentalAlert? (Option.mem_toList.1 halert)]
    exact Bool.false_ne_true
  have hwarnings : (ctx.warnings itinerary).length ≤ 1 := by
    cases hride : ctx.request.parkAndRide with
    | true => exact H.warnings_length_le hloops (H.parksOnce hfinal hride)
    | false =>
      have hnone : ∀ leg ∈ itinerary.legs, ctx.graph.parkingPlace? leg.1 = none := by
        intro leg hleg
        apply H.not_parked hride
        rw [← H.map_fst_legs]
        exact List.mem_map_of_mem hleg
      rw [H.warnings_eq_nil hloops hnone]
      exact Nat.zero_le 1
  rw [H.alerts_eq hover, List.countP_append, hrental]
  exact Nat.le_trans List.countP_le_length hwarnings

theorem Trail.parksAsAsked (H : ctx.Trail store itinerary.states itinerary.edges s)
    (hover : itinerary = ctx.itineraryOver itinerary.states) (hfinal : ctx.isFinal s = true)
    (hloops : ctx.graph.ParksInPlace) : ctx.graph.ParksAsAsked ctx.request itinerary where
  once := H.parksOnce hfinal
  never hride e := H.not_parked hride
  spaces := by
    intro huse e he v name park hparked hpark
    obtain ⟨id, a, b, -, hstep⟩ := H.exists_of_mem_edges he
    exact spacesAvailable_pos hpark ((parking_of_mem_successors hstep hparked).2 huse)
  warning := H.countP_alerts_le hover hfinal hloops
  warning_iff := by
    intro name
    rw [H.alerts_eq hover, List.mem_append, H.mem_warnings_iff hloops]
    constructor
    · rintro (⟨e, he, v, _, park, hparked, hpark, hfew, ⟨⟩⟩ | hrental)
      · exact ⟨e, he, v, park, hparked, hpark, hfew⟩
      · cases not_isParking_of_rentalAlert? (Option.mem_toList.1 hrental)
    · rintro ⟨e, he, v, park, hparked, hpark, hfew⟩
      exact .inl ⟨e, he, v, name, park, hparked, hpark, hfew, rfl⟩

end Context

/-- On every path a car is left as the request asks for: once and after nothing but driving, or
not at all. -/
theorem Graph.parksAsAsked_of_findPaths {R : Type} [Quantity R] [Geodesy R] {g : Graph R}
    {request : Request R} {paths : List (Itinerary R)} (hloops : g.ParksInPlace)
    (h : g.findPaths request = .ok paths) :
    ∀ itinerary ∈ paths, g.ParksAsAsked request itinerary := by
  intro itinerary hmem
  obtain ⟨ctx, hctx, hpaths⟩ := exists_context_of_findPaths h
  obtain ⟨triangle, hrequest⟩ := Context.request_of hctx
  obtain rfl := Context.graph_of hctx
  obtain ⟨hover, s, htrail, hfinal⟩ := Context.trail_of_findPaths hpaths hmem
  have hparks := htrail.parksAsAsked hover hfinal hloops
  rw [hrequest] at hparks
  exact ⟨hparks.once, hparks.never, hparks.spaces, hparks.warning, hparks.warning_iff⟩

/-! ## A car park on the way to work -/

namespace Outskirts

/-- A car park beside the way to work, with one free space left of a hundred. -/
def town : Graph ℚ :=
  let roads : Graph ℚ := .build
    [.intersection "home" ⟨0, 0⟩, .intersection "gate" ⟨1, 0⟩, .intersection "work" ⟨2, 0⟩,
      ⟨"park", ⟨1, 0⟩, .parkAndRide "park"⟩]
    [(0, 1, .street (.plain 1 1000 .allStreet)), (1, 3, .link 10), (3, 3, .parkAndRide),
      (3, 1, .link 10), (1, 2, .street (.plain 2 1000 .allStreet))]
  { roads with
    services.carParks := some (Registry.empty.put "park" ⟨"park", "park", ⟨1, 0⟩, 1, 100, true⟩) }

/-- From home to work by way of a car park that is not full. -/
def request : Request ℚ :=
  { (Corners.onFoot 0 2).withParkAndRide with useCarParkAvailability := true }

theorem parksAsAsked_town : town.ParksInPlace ∧ ∃ paths, town.findPaths request = .ok paths ∧
    paths.map Itinerary.alerts = [[.carParkFewSpaces "park"]] ∧
      ∀ itinerary ∈ paths, town.ParksAsAsked request itinerary := by
  have hloops : town.ParksInPlace := by
    intro e edge hedge
    have hall : ∀ p ∈ town.edges.entries, p.2.kind = .parkAndRide → p.2.source = p.2.target := by
      decide
    exact hall (e, edge) (Graph.mem_entries_iff.2 hedge)
  have hanswer : (town.findPaths request).toOption.map (List.map Itinerary.alerts) =
      some [[.carParkFewSpaces "park"]] := by decide +kernel
  obtain ⟨paths, h, halerts⟩ := exists_ok_of_toOption hanswer
  exact ⟨hloops, paths, h, halerts, Graph.parksAsAsked_of_findPaths hloops h⟩

end Outskirts

end TripPlanner
