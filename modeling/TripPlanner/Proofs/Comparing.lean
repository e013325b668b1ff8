import TripPlanner.Proofs.Driving
import TripPlanner.Quantity.Double

/-!
# Park-and-ride compared with driving

What a comparing search answers with: park-and-ride trips, in their order, that drive less than half
of the first drive, and after them the drives, if a park-and-ride trip was dropped for them.
-/

namespace TripPlanner

/-- Of some park-and-ride trips and drives those that are left when the two are compared. -/
structure Compares {R α : Type} [Quantity R] (meters : α → R) (ride car rides drives : List α) :
    Prop where
  order : rides.Sublist ride
  shorter : ∀ first, car.head? = some first →
    ∀ trip ∈ rides, meters trip < meters first / Quantity.ofInt 2
  dropped : ∀ trip ∈ ride, trip ∉ rides →
    ∃ first, car.head? = some first ∧ ¬ meters trip < meters first / Quantity.ofInt 2
  replaced : rides ≠ ride → drives = car ∧ car ≠ []
  whole : rides = ride → drives = []

section
variable {R α : Type} [Quantity R] {meters : α → R} {ride car : List α} {first : α}

theorem compares_nil (meters : α → R) (ride : List α) : Compares meters ride [] ride [] where
  order := .refl ride
  shorter _ h := nomatch h
  dropped _ h hnot := absurd h hnot
  replaced h := absurd rfl h
  whole _ := rfl

/-- Where nothing is dropped, nothing is put in its place. -/
theorem compares_filter {rides : List α}
    (hrides : rides = ride.filter fun trip => meters trip < meters first / Quantity.ofInt 2) :
    Compares meters ride (first :: car) rides
      (if rides.length < ride.length then first :: car else []) := by
  have horder : rides.Sublist ride := by
    rw [hrides]
    exact List.filter_sublist
  refine ⟨horder, ?_, ?_, ?_, ?_⟩
  · rintro _ ⟨⟩ trip htrip
    rw [hrides] at htrip
    exact of_decide_eq_true (List.mem_filter.1 htrip).2
  · intro trip htrip hnot
    refine ⟨first, rfl, fun hshort => hnot ?_⟩
    rw [hrides]
    exact List.mem_filter.2 ⟨htrip, decide_eq_true hshort⟩
  · intro hne
    have hlength : rides.length < ride.length := by
      apply Nat.lt_of_le_of_ne horder.length_le
      intro heq
      exact hne (horder.eq_of_length heq)
    rw [if_pos hlength]
    exact ⟨rfl, List.cons_ne_nil _ _⟩
  · rintro rfl
    exact if_neg (Nat.lt_irrefl _)

theorem exists_compares (meters : α → R) (ride car : List α) :
    ∃ rides drives, filterOut meters ride car = rides ++ drives ∧
      Compares meters ride car rides drives := by
  cases car with
  | nil => exact ⟨ride, [], (List.append_nil ride).symm, compares_nil meters ride⟩
  | cons first car =>
    refine ⟨_, _, ?_, compares_filter rfl⟩
    rw [filterOut]
    split
    · rfl
    · rename_i hlength
      rw [List.append_nil]
      have hle := Nat.not_lt.1 hlength
      exact (List.filter_sublist.eq_of_length_le hle).symm

end

theorem Context.isParkAndRide_of_findPaths {R : Type} [Quantity R] [Geodesy R] {ctx : Context R}
    {paths : List (Itinerary R)} {itinerary : Itinerary R}
    (hride : ctx.request.parkAndRide = true) (h : ctx.findPaths = .ok paths)
    (hmem : itinerary ∈ paths) : itinerary.isParkAndRide = true := by
  obtain ⟨-, s, htrail, hfinal⟩ := trail_of_findPaths h hmem
  rw [Itinerary.isParkAndRide, htrail.getLast?, Option.any_some]
  exact carParked_of_isFinal hride hfinal

/-- Both searches are told by what is answered. Park-and-ride trips end with the car parked, and
the car is never left on a drive. -/
theorem Graph.compares_of_findPathsComparing {R : Type} [Quantity R] [Geodesy R] {g : Graph R}
    {request : Request R} {trips : List (Itinerary R)} (hzero : (0 : R) + 0 = 0)
    (hride : request.parkAndRide = true) (h : g.findPathsComparing request = .ok trips) :
    ∃ ride car rides drives, g.findPathsOrNone request = .ok ride ∧
      g.findPathsOrNone request.carOnly = .ok car ∧ trips = rides ++ drives ∧
      Compares Itinerary.streetMeters ride car rides drives ∧
      (∀ trip ∈ ride, trip.isParkAndRide = true) ∧ ∀ trip ∈ car, g.IsDrive trip := by
  obtain ⟨ride, car, hrides, hcar, rfl⟩ := exists_lanes_of_comparing hride h
  obtain ⟨rides, drives, htrips, hcompares⟩ := exists_compares Itinerary.streetMeters ride car
  refine ⟨ride, car, rides, drives, hrides, hcar, htrips, hcompares, ?_, ?_⟩
  · intro trip htrip
    obtain ⟨ctx, hctx, hpaths⟩ := exists_context_of_findPaths (findPaths_of_mem hrides htrip)
    obtain ⟨triangle, hrequest⟩ := Context.request_of hctx
    have hparks : ctx.request.parkAndRide = true := by rw [hrequest, hride]
    exact Context.isParkAndRide_of_findPaths hparks hpaths htrip
  · intro trip htrip
    obtain ⟨ctx, hctx, hpaths⟩ := exists_context_of_findPaths (findPaths_of_mem hcar htrip)
    obtain rfl := Context.graph_of hctx
    exact (Context.staysInCar_of hctx).isDrive hzero hpaths htrip

-- What is asked of zero holds of double precision numbers.
example : (0 : Double) + 0 = 0 := rfl

/-! ## Two car parks on the way to work -/

namespace Suburb

/-- A street to work with a car park at either end. -/
def town : Graph ℚ :=
  .build
    [.intersection "home" ⟨0, 0⟩, .intersection "work" ⟨1, 0⟩,
      ⟨"suburb", ⟨0, 0⟩, .parkAndRide "suburb"⟩, ⟨"centre", ⟨1, 0⟩, .parkAndRide "centre"⟩]
    [(0, 1, .street (.plain 1 1000 .allStreet)), (0, 2, .link 10), (2, 2, .parkAndRide),
      (2, 0, .link 10), (1, 3, .link 10), (3, 3, .parkAndRide), (3, 1, .link 10)]

/-- The trip to work of someone who likes to walk. -/
def request : Request ℚ := { Commute.request with walkReluctance := 1 / 10 }

/-- Of the car parks the one at home is used, and the drive takes the place of the other one. -/
theorem compares_town : ∃ trips, town.findPathsComparing request = .ok trips ∧
    trips.map Itinerary.streetMeters = [0, 1000] ∧ ∃ ride car rides drives,
      trips = rides ++ drives ∧ Compares Itinerary.streetMeters ride car rides drives ∧
      (∀ trip ∈ ride, trip.isParkAndRide = true) ∧ ∀ trip ∈ car, town.IsDrive trip := by
  have hanswer : (town.findPathsComparing request).toOption.map (List.map Itinerary.streetMeters) =
      some [0, 1000] := by decide +kernel
  obtain ⟨trips, h, hmeters⟩ := exists_ok_of_toOption hanswer
  obtain ⟨ride, car, rides, drives, -, -, hlanes⟩ :=
    Graph.compares_of_findPathsComparing (zero_add 0) rfl h
  exact ⟨trips, h, hmeters, ride, car, rides, drives, hlanes⟩

end Suburb

end TripPlanner
