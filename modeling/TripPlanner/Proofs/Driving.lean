import TripPlanner.Proofs.Alternatives
import TripPlanner.Proofs.Legs
import TripPlanner.Proofs.Termination

/-!
# Driving

Whoever sits in a car drives along streets, walks nowhere, and rents, boards and parks nothing else:
as long as the car is not parked nothing has happened (`Context.Reachable.initial_or_parked`). A
request for nothing but the car is answered by drives all the way, `Graph.IsDrive`, and finds one
wherever there is a way to drive, unless a bicycle is to be parked on it.
-/

namespace TripPlanner

namespace Context

variable {R : Type} [Quantity R] {ctx : Context R} {s : State R} {e : EdgeIndex} {edge : Edge R}
  {move : Move R}

omit [Quantity R] in
theorem modeOnStreet?_eq_car {street : Street R} {mode : Mode}
    (hcar : s.streetMode ctx.request = .car) (h : ctx.modeOnStreet? s street = some mode) :
    mode = .car := by
  unfold modeOnStreet? at h
  dsimp only at h
  rw [hcar] at h
  split at h
  · exact (Option.some.inj h).symm
  · simp at h

theorem Moves.of_parkAndRide (H : ctx.Moves s e edge move) (hkind : edge.kind = .parkAndRide) :
    ctx.request.parkAndRide = true ∧ s.streetMode ctx.request = .car ∧
      (ctx.request.useCarParkAvailability = true → ctx.isCarParkFull edge.source = false) ∧
        move.mode = some .walk ∧ move.plane = { s.plane with carParked := true } := by
  cases H with
  | parkCar _ hride hcar hfree => exact ⟨hride, hcar, hfree, rfl, rfl⟩
  | _ => simp_all

/-- Whoever sits in a car rents, boards and parks nothing else. -/
theorem Moves.plane_of_car (H : ctx.Moves s e edge move) (hcar : s.streetMode ctx.request = .car)
    (hkind : edge.kind ≠ .parkAndRide) : move.plane = s.plane := by
  cases H with
  | street | hop | alight | timedTransfer => rfl
  | link => exact Move.along_plane ..
  | parkCar hpark => exact absurd hpark hkind
  | dropOffBike _ hrented =>
    have hrenting := (streetMode_eq_car_iff.1 hcar).1
    simp [Plane.isRenting, hrented] at hrenting
  | rentBike _ _ _ hmode | parkBike _ _ _ hmode | board _ _ hmode | transfer _ _ hmode =>
    rw [hcar] at hmode
    cases hmode

theorem Moves.walked_of_car (H : ctx.Moves s e edge move)
    (hcar : s.streetMode ctx.request = .car) : move.walked = 0 := by
  cases H with
  | street _ hmode _ =>
    cases modeOnStreet?_eq_car hcar hmode
    rfl
  | link => rw [hcar]; rfl
  | parkCar | rentBike | dropOffBike | parkBike | board | hop | alight | timedTransfer => rfl
  | transfer _ _ hwalk =>
    rw [hcar] at hwalk
    cases hwalk

omit [Quantity R] in
theorem Changes.parked {plane : Plane} (H : ctx.Changes s edge plane)
    (h : s.plane.carParked = true) : plane.carParked = true := by
  cases H with
  | stay | rent | dropOff | parkBike | board => exact h
  | parkCar => rfl

omit [Quantity R] in
theorem streetMode_of_initial (hcar : ctx.request.modes.car = true) (h : s.plane = .initial) :
    s.streetMode ctx.request = .car := by
  rw [streetMode_eq_car_iff, h]
  exact ⟨rfl, hcar, rfl⟩

theorem mode_of_car {a b : State R} {id : StateId} (hcar : a.streetMode ctx.request = .car)
    (h : (e, b) ∈ ctx.successors id a) (hstreet : (ctx.graph.street? e).isSome) :
    b.mode = some .car := by
  obtain ⟨street, hstreet⟩ := Option.isSome_iff_exists.1 hstreet
  obtain ⟨mode, hmode, hon, -⟩ := street_of_mem_successors h hstreet
  rw [hmode, modeOnStreet?_eq_car hcar hon]

/-- As long as the car is not parked nothing else has happened either. -/
theorem Reachable.initial_or_parked (H : ctx.Reachable s) (hcar : ctx.request.modes.car = true) :
    s.plane = .initial ∨ ctx.request.parkAndRide = true ∧ s.plane.carParked = true := by
  induction H with
  | origin => exact .inl rfl
  | step _ hstep ih =>
    obtain ⟨id, edge, move, -, -, hmove, rfl⟩ := hstep.cases
    rw [State.after_plane]
    rcases ih with hinitial | ⟨hride, hparked⟩
    · have hmoves := (move?_eq_some_iff.1 hmove).2
      by_cases hkind : edge.kind = .parkAndRide
      · obtain ⟨hride, -, -, -, hplane⟩ := hmoves.of_parkAndRide hkind
        exact .inr ⟨hride, by rw [hplane]⟩
      · have hdriving := streetMode_of_initial hcar hinitial
        exact .inl ((hmoves.plane_of_car hdriving hkind).trans hinitial)
    · exact .inr ⟨hride, (changes_of_move? hmove).parked hparked⟩

omit [Quantity R] in
theorem carParked_of_isFinal (hride : ctx.request.parkAndRide = true)
    (h : ctx.isFinal s = true) : s.plane.carParked = true := by
  simp only [isFinal, hride, Bool.and_eq_true] at h
  simpa using h.1.1.2

/-! ## By car all the way -/

/-- The car can be taken, and there is no leaving it on the way. -/
structure StaysInCar (ctx : Context R) : Prop where
  car : ctx.request.modes.car = true
  ride : ctx.request.parkAndRide = false

theorem StaysInCar.plane (H : ctx.StaysInCar) (hs : ctx.Reachable s) : s.plane = .initial := by
  rcases hs.initial_or_parked H.car with hinitial | ⟨hride, -⟩
  · exact hinitial
  · rw [H.ride] at hride
    cases hride

theorem StaysInCar.streetMode (H : ctx.StaysInCar) (hs : ctx.Reachable s) :
    s.streetMode ctx.request = .car :=
  streetMode_of_initial H.car (H.plane hs)

theorem StaysInCar.walked (H : ctx.StaysInCar) (hzero : (0 : R) + 0 = 0) (hs : ctx.Reachable s) :
    s.walked = 0 := by
  induction hs with
  | origin => rfl
  | step ha hstep ih =>
    obtain ⟨id, edge, move, -, -, hmove, rfl⟩ := hstep.cases
    have hmoves := (move?_eq_some_iff.1 hmove).2
    have hwalked := hmoves.walked_of_car (H.streetMode ha)
    simp only [State.after]
    rw [ih, hwalked, hzero]

theorem drivenMeters?_of_mem_successors {a b : State R} {id : StateId}
    (h : (e, b) ∈ ctx.successors id a)
    (hmode : (ctx.graph.street? e).isSome → b.mode = some .car) :
    ctx.drivenMeters? b = (ctx.graph.street? e).map Street.length := by
  rw [drivenMeters?_eq_ite h]
  split
  · rfl
  · rename_i hother
    cases hsome : ctx.graph.street? e with
    | none => rfl
    | some street =>
      refine absurd (hmode ?_) hother
      rw [hsome]
      rfl

end Context

/-- A trip by car all the way. -/
structure Graph.IsDrive {R : Type} [Quantity R] (g : Graph R) (itinerary : Itinerary R) :
    Prop where
  plane : ∀ s ∈ itinerary.states, s.plane = .initial
  walked : itinerary.walkDistance = 0
  byCar : ∀ leg ∈ itinerary.legs, (g.street? leg.1).isSome → leg.2.mode = some .car
  meters : itinerary.streetMeters =
    Quantity.sum (itinerary.edges.filterMap fun e => (g.street? e).map Street.length)

namespace Context

variable {R : Type} [Quantity R] [Geodesy R] {ctx : Context R} {request : Request R} {g : Graph R}
  {paths : List (Itinerary R)} {itinerary : Itinerary R}

omit [Geodesy R] in
theorem staysInCar_of (h : Context.of request.carOnly g = .ok ctx) : ctx.StaysInCar := by
  obtain ⟨triangle, hrequest⟩ := request_of h
  constructor <;> rw [hrequest] <;> rfl

theorem StaysInCar.isDrive (H : ctx.StaysInCar) (hzero : (0 : R) + 0 = 0)
    (h : ctx.findPaths = .ok paths) (hmem : itinerary ∈ paths) : ctx.graph.IsDrive itinerary := by
  obtain ⟨hover, s, htrail, -⟩ := trail_of_findPaths h hmem
  have hcar : ∀ leg ∈ itinerary.legs, (ctx.graph.street? leg.1).isSome →
      leg.2.mode = some .car := by
    intro leg hleg
    obtain ⟨id, a, ha, hstep⟩ := htrail.exists_of_mem_legs hleg
    exact mode_of_car (H.streetMode ha) hstep
  refine ⟨fun s hs => H.plane (htrail.reachable_of_mem hs), ?_, hcar, ?_⟩
  · have hs : ctx.Reachable s := htrail.reachable_of_mem (List.mem_of_getLast? htrail.getLast?)
    rw [Itinerary.walkDistance, Itinerary.ofLast, htrail.getLast?, Option.map_some,
      Option.getD_some, H.walked hzero hs]
  · have hlegs : itinerary.legs.filterMap (fun leg => ctx.drivenMeters? leg.2) =
        itinerary.legs.filterMap fun leg => (ctx.graph.street? leg.1).map Street.length := by
      apply List.filterMap_congr
      intro leg hleg
      obtain ⟨id, a, -, hstep⟩ := htrail.exists_of_mem_legs hleg
      exact drivenMeters?_of_mem_successors hstep (hcar leg hleg)
    rw [htrail.streetMeters_eq hover, hlegs]
    conv_rhs => rw [← htrail.map_fst_legs, List.filterMap_map]
    rfl

omit [Geodesy R] in
/-- In a car one has arrived at the destination, unless a bicycle was to be parked. -/
theorem StaysInCar.isFinal_iff {s : State R} (H : ctx.StaysInCar) (hs : ctx.Reachable s) :
    ctx.isFinal s = true ↔ ctx.request.bikeAndRide = false ∧ s.vertex = ctx.target := by
  simp only [isFinal, mayEndRental, H.plane hs, H.ride, Plane.initial, Bool.not_false,
    Bool.or_false, Bool.and_true, Bool.and_eq_true, decide_eq_true_eq,
    Bool.not_eq_true']
  exact and_comm

theorem StaysInCar.found_ne_nil_iff (H : ctx.StaysInCar) (hcount : ctx.request.numItineraries ≠ 0)
    (hsteps : ctx.search.2 ≠ .outOfSteps) :
    ctx.search.1.found ≠ [] ↔ ctx.request.bikeAndRide = false ∧
      ∃ es s, ctx.Chain (.initial ctx.origin) es s ∧ s.vertex = ctx.target := by
  constructor
  · intro hfound
    obtain ⟨id, hid⟩ := List.exists_mem_of_ne_nil _ hfound
    have hconsistent := ctx.search_reached.consistent
    obtain ⟨s, hs, hfinal⟩ := hconsistent.found id hid
    have hreachable := hconsistent.grown.reachable hs
    obtain ⟨hbike, hv⟩ := (H.isFinal_iff hreachable).1 hfinal
    obtain ⟨es, hchain⟩ := hreachable.exists_chain
    exact ⟨hbike, es, s, hchain, hv⟩
  · rintro ⟨hbike, es, s, hchain, hv⟩
    have hmix : ctx.Unmixed := by
      rintro - ⟨-, hride⟩
      rw [hbike] at hride
      cases hride
    have hfinal := (H.isFinal_iff (hchain.reachable .origin)).2 ⟨hbike, hv⟩
    exact found_ne_nil_of_run hcount hmix hsteps hchain hfinal

end Context

/-- A request for nothing but the car is answered exactly if there is a way to drive to the
destination and no bicycle has to be parked on the way. -/
theorem Graph.findPaths_carOnly_iff {R : Type} [Quantity R] [Geodesy R] {g : Graph R}
    {request : Request R} {ctx : Context R} (hctx : Context.of request.carOnly g = .ok ctx)
    (hsteps : ctx.search.2 ≠ .outOfSteps) :
    (∃ paths, g.findPaths request.carOnly = .ok paths ∧ paths ≠ []) ↔
      request.bikeAndRide = false ∧
        ∃ es s, ctx.Chain (.initial ctx.origin) es s ∧ s.vertex = ctx.target := by
  obtain ⟨triangle, hrequest⟩ := Context.request_of hctx
  have hcount : ctx.request.numItineraries ≠ 0 := by
    rw [hrequest]
    exact (Request.validate_eq_ok_iff.1 (Context.of_eq_ok_iff.1 hctx).1).2.2.2.2.2
  have hbike : ctx.request.bikeAndRide = request.bikeAndRide := by
    rw [hrequest]
    rfl
  rw [← hbike, ← (Context.staysInCar_of hctx).found_ne_nil_iff hcount hsteps,
    ← exists_findPaths_iff hctx]
  constructor
  · rintro ⟨paths, hpaths, -⟩
    exact ⟨paths, hpaths⟩
  · rintro ⟨paths, hpaths⟩
    exact ⟨paths, hpaths, ne_nil_of_findPaths hpaths⟩

namespace Commute

/-- The drive to work is found. -/
theorem findPaths_carOnly_street :
    (trip request.carOnly street).search.2 ≠ .outOfSteps ∧
      ∃ paths, street.findPaths request.carOnly = .ok paths ∧ paths ≠ [] := by
  obtain ⟨-, hctx⟩ := of_request (g := street) (by decide +kernel) (by decide +kernel)
  have hsteps : (trip request.carOnly street).search.2 ≠ .outOfSteps := by decide
  obtain ⟨s, hchain, hv⟩ := Context.exists_chain_of_walk? (by decide :
    (((trip request.carOnly street).walk? (.initial 0) [0]).any fun s => s.vertex = 1) = true)
  refine ⟨hsteps, (Graph.findPaths_carOnly_iff hctx hsteps).2 ⟨rfl, [0], s, hchain, ?_⟩⟩
  exact of_decide_eq_true hv

/-- From home to work with the car left on the way, and a bicycle as well. -/
def withBicycle : Request ℚ := { request with bikeAndRide := true }

/-- Where a bicycle is to be parked as well the drive to work is taken and not counted. -/
theorem not_findPaths_carOnly_street : withBicycle.parkAndRide = true ∧
    Context.of withBicycle.carOnly street = .ok (trip withBicycle.carOnly street) ∧
    (trip withBicycle.carOnly street).search.2 ≠ .outOfSteps ∧
    (∃ es s, (trip withBicycle.carOnly street).Chain (.initial 0) es s ∧ s.vertex = 1) ∧
    ¬ ∃ paths, street.findPaths withBicycle.carOnly = .ok paths ∧ paths ≠ [] := by
  have hvalid : withBicycle.carOnly.validate = .ok () := by
    rw [Request.validate_eq_ok_iff]
    decide +kernel
  have hctx : Context.of withBicycle.carOnly street = .ok (trip withBicycle.carOnly street) :=
    Context.of_placed hvalid rfl rfl (by decide +kernel) (by decide +kernel) (by decide)
  obtain ⟨s, hchain, hv⟩ := Context.exists_chain_of_walk? (by decide :
    (((trip withBicycle.carOnly street).walk? (.initial 0) [0]).any fun s => s.vertex = 1) = true)
  have hfound : (trip withBicycle.carOnly street).search.1.found = [] := by decide
  refine ⟨rfl, hctx, by decide, ⟨[0], s, hchain, of_decide_eq_true hv⟩, ?_⟩
  rintro ⟨paths, hpaths, -⟩
  exact (Graph.exists_findPaths_iff hctx).1 ⟨paths, hpaths⟩ hfound

end Commute

end TripPlanner
