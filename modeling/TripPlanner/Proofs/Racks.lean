import TripPlanner.Proofs.Rental

/-!
# Bicycle parks

Where bicycles may be rented nobody comes with one of their own. So what is left at a bicycle park
is one's own bicycle if the request does not let one be rented (`Graph.RacksOwn`), and then one does
not cycle from there on (`Graph.StaysAfoot`). Otherwise it is always a rented one, which is still
rented and ridden on after it was left.
-/

namespace TripPlanner

namespace Graph

variable {R : Type}

/-- Following the edge leaves a bicycle at a bicycle park. -/
def IsRack (g : Graph R) (e : EdgeIndex) : Prop := (g.edge? e).map Edge.kind = some .bikePark

instance [DecidableEq R] (g : Graph R) (e : EdgeIndex) : Decidable (g.IsRack e) :=
  inferInstanceAs (Decidable ((g.edge? e).map Edge.kind = some .bikePark))

/-- No bicycle is left at a bicycle park while one is rented. -/
def RacksOwn (g : Graph R) (itinerary : Itinerary R) : Prop :=
  ∀ {before leg after}, itinerary.legs = before ++ leg :: after → g.IsRack leg.1 →
    g.rentedAt? (before.map Prod.fst) = none

/-- One cycles along no street after a bicycle was left, unless one is rented in between. -/
def StaysAfoot (g : Graph R) (itinerary : Itinerary R) : Prop :=
  ∀ {before rack between leg after},
    itinerary.legs = before ++ rack :: (between ++ leg :: after) → g.IsRack rack.1 →
    (g.street? leg.1).isSome → leg.2.mode = some .bicycle →
    ∃ e ∈ between.map Prod.fst, ∃ v, g.rental? e = some (.pickUp v)

/-- Which bicycle is left at a bicycle park, and which one is ridden afterwards. -/
structure LeavesBicycle (g : Graph R) (request : Request R) (itinerary : Itinerary R) : Prop where
  whose : ∀ {before leg after}, itinerary.legs = before ++ leg :: after → g.IsRack leg.1 →
    ((g.rentedAt? (before.map Prod.fst)).isSome ↔ request.allowRental = true)
  cycled : ∀ {before rack between leg after},
    itinerary.legs = before ++ rack :: (between ++ leg :: after) → g.IsRack rack.1 →
    (g.street? leg.1).isSome → leg.2.mode = some .bicycle →
    (g.rentedAt? ((before ++ rack :: between).map Prod.fst)).isSome

end Graph

namespace Context

variable {R : Type} [Quantity R] {ctx : Context R} {a b s : State R} {id : StateId}
  {e : EdgeIndex} {edge : Edge R} {move : Move R}

/-! ## One edge -/

theorem Moves.of_bikePark (H : ctx.Moves s e edge move) (hkind : edge.kind = .bikePark) :
    s.streetMode ctx.request = .bicycle ∧ move.plane = { s.plane with bikeParked := true } := by
  cases H with
  | parkBike _ _ _ hbicycle => exact ⟨hbicycle, rfl⟩
  | _ => simp_all

omit [Quantity R] in
theorem Changes.bikeParked {plane : Plane} (H : ctx.Changes s edge plane)
    (h : s.plane.bikeParked = true) : plane.bikeParked = true := by
  cases H with
  | stay | parkCar | rent | dropOff | board => exact h
  | parkBike => rfl

omit [Quantity R] in
/-- One's own bicycle cannot be ridden once it was left. -/
theorem isRenting_of_bikeParked (hbicycle : s.streetMode ctx.request = .bicycle)
    (hparked : s.plane.bikeParked = true) : s.plane.isRenting = true := by
  simp only [State.streetMode] at hbicycle
  split_ifs at hbicycle <;> simp_all

/-- Whoever cycles has rented the bicycle exactly if that is allowed. -/
theorem Reachable.isRenting_eq (H : ctx.Reachable s)
    (hbicycle : s.streetMode ctx.request = .bicycle) :
    s.plane.isRenting = ctx.request.allowRental := by
  cases hrenting : s.plane.isRenting with
  | true => exact (H.entitled.rent hrenting).symm
  | false =>
    rcases bicycle_of_streetMode hbicycle with h | ⟨-, hrental⟩
    · rw [hrenting] at h
      cases h
    · exact hrental.symm

theorem Follows.of_isRack (h : ctx.Follows a e b) (hrack : ctx.graph.IsRack e) :
    a.streetMode ctx.request = .bicycle ∧ b.plane.bikeParked = true := by
  obtain ⟨id, edge, hedge, -, ht⟩ := h
  obtain ⟨move, hmove, rfl⟩ := traverse_eq_some_iff.1 ht
  have hkind : edge.kind = .bikePark := by simpa [Graph.IsRack, hedge] using hrack
  obtain ⟨hbicycle, hplane⟩ := (move?_eq_some_iff.1 hmove).2.of_bikePark hkind
  refine ⟨hbicycle, ?_⟩
  rw [State.after_plane, hplane]

/-- Whoever leaves a bicycle at a bicycle park has rented it exactly if that is allowed. -/
theorem Reachable.isRenting_at_rack (H : ctx.Reachable a) (h : ctx.Follows a e b)
    (hrack : ctx.graph.IsRack e) : a.plane.isRenting = ctx.request.allowRental :=
  H.isRenting_eq (h.of_isRack hrack).1

/-! ## A whole trip -/

variable {store : StateStore R} {states : List (State R)} {edges : List EdgeIndex}
  {itinerary : Itinerary R}

theorem Trail.bikeParked (H : ctx.Trail store states edges s) (he : e ∈ edges)
    (hrack : ctx.graph.IsRack e) : s.plane.bikeParked = true := by
  induction H with
  | start => exact absurd he List.not_mem_nil
  | snoc _ _ _ hstep ih =>
    rcases List.mem_append.1 he with he | he
    · obtain ⟨edge, hedge, -, ht⟩ := mem_successors_iff.1 hstep
      obtain ⟨move, hmove, rfl⟩ := traverse_eq_some_iff.1 ht
      exact (changes_of_move? hmove).bikeParked (ih he)
    · cases List.mem_singleton.1 he
      exact (Follows.of_isRack (.of_mem_successors hstep) hrack).2

theorem Trail.leavesBicycle (H : ctx.Trail store itinerary.states itinerary.edges s) :
    ctx.graph.LeavesBicycle ctx.request itinerary where
  whose := by
    intro before leg after hlegs hrack
    obtain ⟨id, a, states', htrail, hstep⟩ := H.split hlegs
    rw [← htrail.rents.isRenting_iff,
      htrail.reachable.isRenting_at_rack (.of_mem_successors hstep) hrack]
  cycled := by
    intro before rack between leg after hlegs hrack hstreet hmode
    rw [← List.cons_append, ← List.append_assoc] at hlegs
    obtain ⟨id, a, states', htrail, hstep⟩ := H.split hlegs
    have hparked : a.plane.bikeParked = true := by
      apply htrail.bikeParked _ hrack
      exact List.mem_map_of_mem (List.mem_append_right _ List.mem_cons_self)
    have hbicycle : a.streetMode ctx.request = .bicycle := by
      obtain ⟨street, hstreet⟩ := Option.isSome_iff_exists.1 hstreet
      obtain ⟨mode, hmode', hon, -⟩ := street_of_mem_successors hstep hstreet
      cases hmode.symm.trans hmode'
      exact modeOnStreet?_eq_streetMode hon (by decide)
    exact htrail.rents.isRenting_iff.1 (isRenting_of_bikeParked hbicycle hparked)

theorem Trail.rentedAt?_eq_none (H : ctx.Trail store states edges s)
    (hrental : ctx.request.allowRental = false) : ctx.graph.rentedAt? edges = none := by
  have hafoot : s.plane.isRenting = false := by
    apply Bool.eq_false_iff.2
    intro hrenting
    rw [H.reachable.entitled.rent hrenting] at hrental
    cases hrental
  rw [← Option.not_isSome_iff_eq_none, ← H.rents.isRenting_iff, hafoot]
  exact Bool.false_ne_true

theorem Trail.staysAfoot (H : ctx.Trail store itinerary.states itinerary.edges s)
    (hrental : ctx.request.allowRental = false) : ctx.graph.StaysAfoot itinerary := by
  intro before rack between leg after hlegs hrack hstreet hmode
  have hrented := H.leavesBicycle.cycled hlegs hrack hstreet hmode
  rw [← List.cons_append, ← List.append_assoc] at hlegs
  obtain ⟨id, a, states', htrail, -⟩ := H.split hlegs
  rw [htrail.rentedAt?_eq_none hrental] at hrented
  cases hrented

theorem Trail.racksOwn (H : ctx.Trail store itinerary.states itinerary.edges s)
    (hrental : ctx.request.allowRental = false) : ctx.graph.RacksOwn itinerary := by
  intro before leg after hlegs _
  obtain ⟨id, a, states', htrail, -⟩ := H.split hlegs
  exact htrail.rentedAt?_eq_none hrental

end Context

/-- Where no bicycle may be rented, it is one's own that is left at a bicycle park, and one does not
cycle on. Where one may be rented, it is the rented one, and one is still riding it. -/
theorem Graph.isRenting_at_rack_and_leavesBicycle {R : Type} [Quantity R] [Geodesy R]
    {g : Graph R} {request : Request R} {ctx : Context R} (hctx : Context.of request g = .ok ctx) :
    (∀ {a e b}, ctx.Reachable a → ctx.Follows a e b → g.IsRack e →
      a.plane.isRenting = request.allowRental) ∧
    ∀ {paths}, g.findPaths request = .ok paths → ∀ itinerary ∈ paths,
      g.LeavesBicycle request itinerary ∧
        (request.allowRental = false → g.RacksOwn itinerary ∧ g.StaysAfoot itinerary) := by
  obtain ⟨triangle, hrequest⟩ := Context.request_of hctx
  have hsame : ctx.request.allowRental = request.allowRental := by rw [hrequest]
  obtain rfl := Context.graph_of hctx
  constructor
  · intro a e b ha h hrack
    rw [ha.isRenting_at_rack h hrack, hsame]
  · intro paths h itinerary hmem
    rw [Graph.findPaths_of hctx] at h
    obtain ⟨-, s, htrail, -⟩ := Context.trail_of_findPaths h hmem
    have hleaves := htrail.leavesBicycle
    rw [hrequest] at hleaves
    refine ⟨⟨hleaves.whose, hleaves.cycled⟩, ?_⟩
    intro hrental
    rw [← hsame] at hrental
    exact ⟨htrail.racksOwn hrental, htrail.staysAfoot hrental⟩

/-! ## At the harbour -/

namespace Harbour

/-- A rental station and a bicycle park beside home, and a street to work. -/
def town : Graph ℚ :=
  let roads : Graph ℚ := .build
    [.intersection "home" ⟨0, 0⟩, .intersection "work" ⟨1, 0⟩,
      ⟨"hire", ⟨0, 0⟩, .rentalStation "hire"⟩, ⟨"rack", ⟨0, 0⟩, .bikePark⟩]
    [(0, 2, .link 10), (2, 2, .rentBike), (2, 0, .link 10), (0, 3, .link 10), (3, 3, .bikePark),
      (3, 0, .link 10), (0, 1, .street (.plain 1 1000 .allStreet))]
  { roads with
    services.rental := some ⟨Registry.empty.put "hire" ⟨"hire", "hire", ⟨0, 0⟩, 5, 5, ⟨["city"]⟩⟩,
      .ofList [("city", .freeFloating)]⟩ }

/-- From home to work by way of a bicycle park. -/
def request : Request ℚ :=
  { Corners.onFoot 0 1 with modes := .ofList [.walk, .bicycle], bikeAndRide := true }

/-- Bicycles may be rented for that. -/
def withRental : Request ℚ := { request with allowRental := true }

/-- One leaves the own bicycle at home and walks. -/
theorem leavesBicycle_town : ∃ ctx paths, Context.of request town = .ok ctx ∧
    town.findPaths request = .ok paths ∧ paths.map Itinerary.edges = [[3, 4, 5, 6]] ∧
    (∀ {a e b}, ctx.Reachable a → ctx.Follows a e b → town.IsRack e →
      a.plane.isRenting = request.allowRental) ∧
    ∀ itinerary ∈ paths, town.LeavesBicycle request itinerary ∧
      (request.allowRental = false → town.RacksOwn itinerary ∧ town.StaysAfoot itinerary) := by
  have hanswer : (town.findPaths request).toOption.map (List.map Itinerary.edges) =
      some [[3, 4, 5, 6]] := by decide +kernel
  obtain ⟨paths, h, hedges⟩ := exists_ok_of_toOption hanswer
  obtain ⟨ctx, hctx, -⟩ := Graph.exists_context_of_findPaths h
  obtain ⟨hrack, hleaves⟩ := Graph.isRenting_at_rack_and_leavesBicycle hctx
  exact ⟨ctx, paths, hctx, h, hedges, hrack, hleaves h⟩

/-- A rented bicycle is left at the bicycle park and ridden to work. -/
theorem not_racksOwn_town : ∃ paths, town.findPaths withRental = .ok paths ∧
    ∃ itinerary ∈ paths, ¬ town.RacksOwn itinerary ∧ ¬ town.StaysAfoot itinerary := by
  let visit (leg : EdgeIndex × State ℚ) : EdgeIndex × Option Mode := (leg.1, leg.2.mode)
  have hanswer : (town.findPaths withRental).toOption.map
      (List.map fun path => path.legs.map visit) =
      some [[(0, some .walk), (1, some .bicycle), (2, some .bicycle), (3, some .bicycle),
        (4, some .walk), (5, some .bicycle), (6, some .bicycle)]] := by decide +kernel
  obtain ⟨paths, h, hpaths⟩ := exists_ok_of_toOption hanswer
  obtain ⟨itinerary, rest, rfl, hvisits, -⟩ := List.map_eq_cons_iff.1 hpaths
  -- Four legs to the bicycle park, one at it, one back to the street, and one along the street.
  have hparts : itinerary.legs.map visit =
      [(0, some .walk), (1, some .bicycle), (2, some .bicycle), (3, some .bicycle)] ++
        (4, some .walk) :: ([(5, some .bicycle)] ++ [(6, some .bicycle)]) := hvisits
  obtain ⟨before, behind, hlegs, hbefore, hbehind⟩ := List.map_eq_append_iff.1 hparts
  obtain ⟨rack, behind, rfl, hrack, hbehind⟩ := List.map_eq_cons_iff.1 hbehind
  obtain ⟨between, behind, rfl, hbetween, hbehind⟩ := List.map_eq_append_iff.1 hbehind
  obtain ⟨leg, after, rfl, hleg, -⟩ := List.map_eq_cons_iff.1 hbehind
  obtain ⟨hrack, -⟩ := Prod.mk.inj hrack
  obtain ⟨hleg, hmode⟩ := Prod.mk.inj hleg
  have hfst (legs : List (EdgeIndex × State ℚ)) :
      legs.map Prod.fst = (legs.map visit).map Prod.fst := by
    rw [List.map_map]
    rfl
  have hpark : town.IsRack rack.1 := by
    rw [hrack]
    decide
  refine ⟨_, h, itinerary, List.mem_cons_self, ?_, ?_⟩
  · intro hown
    have hnone := hown hlegs hpark
    rw [hfst, hbefore] at hnone
    revert hnone
    decide
  · intro hafoot
    have hstreet : (town.street? leg.1).isSome := by
      rw [hleg]
      decide
    obtain ⟨e, he, v, hpickUp⟩ := hafoot hlegs hpark hstreet hmode
    rw [hfst, hbetween] at he
    cases List.mem_singleton.1 he
    have hnone : town.rental? 5 = none := by decide
    rw [hnone] at hpickUp
    cases hpickUp

end Harbour

end TripPlanner
