import TripPlanner.Proofs.Soundness
import TripPlanner.Search.Comparison

/-!
# Alternatives

Park-and-ride compared with driving. What is kept is taken from the park-and-ride trips: where there
are none of these, none is dropped, and the car-only trips do not take the place of any
(`filterOut_eq_nil_iff`). So it is the park-and-ride search alone that decides whether anything is
found, and a drive that is found goes unseen where no car park is within reach.
-/

namespace TripPlanner

section
variable {R α : Type} [Quantity R] {meters : α → R} {ride car : List α}

theorem filterOut_nil : filterOut meters [] car = [] := by cases car <;> rfl

/-- Only what was dropped is replaced. -/
theorem filterOut_eq_nil_iff : filterOut meters ride car = [] ↔ ride = [] := by
  constructor
  · intro h
    cases car with
    | nil => exact h
    | cons first car =>
      simp only [filterOut] at h
      split at h
      · exact absurd (List.append_eq_nil_iff.1 h).2 (List.cons_ne_nil _ _)
      · exact h
  · rintro rfl
    exact filterOut_nil

theorem mem_of_mem_filterOut {a : α} (h : a ∈ filterOut meters ride car) : a ∈ ride ∨ a ∈ car := by
  unfold filterOut at h
  split at h
  · exact .inl h
  · dsimp only at h
    split at h
    · exact (List.mem_append.1 h).imp (fun h => (List.mem_filter.1 h).1) id
    · exact .inl h

end

namespace Graph

variable {R : Type} [Quantity R] [Geodesy R] {g : Graph R} {request : Request R}
  {ctx : Context R} {path : Itinerary R} {paths ride car : List (Itinerary R)}

theorem exists_findPaths_iff (h : Context.of request g = .ok ctx) :
    (∃ paths, g.findPaths request = .ok paths) ↔ ctx.search.1.found ≠ [] := by
  rw [findPaths_of h]
  constructor
  · rintro ⟨paths, hpaths⟩
    exact (Context.findPaths_eq_ok_iff.1 hpaths).1
  · exact fun hfound => ⟨_, Context.findPaths_eq_ok_iff.2 ⟨hfound, rfl⟩⟩

theorem ne_nil_of_findPaths (h : g.findPaths request = .ok paths) : paths ≠ [] := by
  obtain ⟨ctx, -, h⟩ := exists_context_of_findPaths h
  obtain ⟨hfound, rfl⟩ := Context.findPaths_eq_ok_iff.1 h
  exact fun hnil => hfound (List.map_eq_nil_iff.1 hnil)

/-- A search that fails for no other reason finds something or ends up with nothing. -/
theorem findPathsOrNone_cases
    (h : ∀ cause, g.findPaths request = .error cause → cause = .pathNotFound) :
    (∃ paths, g.findPaths request = .ok paths ∧ g.findPathsOrNone request = .ok paths) ∨
      g.findPaths request = .error .pathNotFound ∧ g.findPathsOrNone request = .ok [] := by
  unfold findPathsOrNone
  cases hfind : g.findPaths request with
  | ok paths => exact .inl ⟨paths, rfl, rfl⟩
  | error cause =>
    cases h cause hfind
    exact .inr ⟨rfl, rfl⟩

theorem findPathsComparing_of_lanes (hride : request.parkAndRide = true)
    (h : g.findPathsOrNone request = .ok ride)
    (h' : g.findPathsOrNone request.carOnly = .ok car) :
    g.findPathsComparing request = if ride = [] then .error .pathNotFound
      else .ok (filterOut Itinerary.streetMeters ride car) := by
  simp only [findPathsComparing, hride, h, h', bind, Except.bind, Bool.not_true,
    Bool.false_eq_true, if_false, List.isEmpty_iff, filterOut_eq_nil_iff]

theorem findPaths_of_mem (h : g.findPathsOrNone request = .ok paths) (hpath : path ∈ paths) :
    g.findPaths request = .ok paths := by
  unfold findPathsOrNone at h
  split at h
  · cases h
    cases hpath
  · exact h

/-- What is answered is left of what the two searches find. -/
theorem exists_lanes_of_comparing (hride : request.parkAndRide = true)
    (h : g.findPathsComparing request = .ok paths) : ∃ ride car,
      g.findPathsOrNone request = .ok ride ∧ g.findPathsOrNone request.carOnly = .ok car ∧
        paths = filterOut Itinerary.streetMeters ride car := by
  cases hrides : g.findPathsOrNone request with
  | error cause => simp [findPathsComparing, hride, hrides, bind, Except.bind] at h
  | ok ride =>
    cases hcar : g.findPathsOrNone request.carOnly with
    | error cause => simp [findPathsComparing, hride, hrides, hcar, bind, Except.bind] at h
    | ok car =>
      rw [findPathsComparing_of_lanes hride hrides hcar] at h
      split at h
      · cases h
      · cases h
        exact ⟨ride, car, rfl, rfl, rfl⟩

/-- Comparing adds nothing to what the two searches find. -/
theorem exists_findPaths_of_comparing (h : g.findPathsComparing request = .ok paths)
    (hpath : path ∈ paths) :
    ∃ request paths, g.findPaths request = .ok paths ∧ path ∈ paths := by
  cases hride : request.parkAndRide with
  | false =>
    simp only [findPathsComparing, hride, Bool.not_false, if_true] at h
    exact ⟨request, paths, h, hpath⟩
  | true =>
    obtain ⟨ride, car, hrides, hcar, rfl⟩ := exists_lanes_of_comparing hride h
    rcases mem_of_mem_filterOut hpath with hmem | hmem
    · exact ⟨_, _, findPaths_of_mem hrides hmem, hmem⟩
    · exact ⟨_, _, findPaths_of_mem hcar hmem, hmem⟩

/-- Where neither search fails for another reason, something is found exactly if the park-and-ride
search finds something, whatever the car-only one has found. -/
theorem findPathsComparing_ok_iff (hride : request.parkAndRide = true)
    (h : ∀ cause, g.findPaths request = .error cause → cause = .pathNotFound)
    (h' : ∀ cause, g.findPaths request.carOnly = .error cause → cause = .pathNotFound) :
    ((∃ trips, g.findPathsComparing request = .ok trips ∧ trips ≠ []) ↔
        ∃ paths, g.findPaths request = .ok paths) ∧
      (g.findPathsComparing request = .error .pathNotFound ↔
        g.findPaths request = .error .pathNotFound) := by
  obtain ⟨car, hcar⟩ : ∃ car, g.findPathsOrNone request.carOnly = .ok car := by
    rcases findPathsOrNone_cases h' with ⟨car, -, hcar⟩ | ⟨-, hcar⟩ <;> exact ⟨_, hcar⟩
  rcases findPathsOrNone_cases h with ⟨ride, hfind, hride'⟩ | ⟨hfind, hride'⟩
  · have hne := ne_nil_of_findPaths hfind
    rw [findPathsComparing_of_lanes hride hride' hcar, if_neg hne, hfind]
    refine ⟨iff_of_true ⟨_, rfl, ?_⟩ ⟨ride, rfl⟩, iff_of_false nofun nofun⟩
    exact fun hnil => hne (filterOut_eq_nil_iff.1 hnil)
  · rw [findPathsComparing_of_lanes hride hride' hcar, if_pos rfl, hfind]
    exact ⟨iff_of_false (by rintro ⟨_, ⟨⟩, -⟩) nofun, iff_of_true rfl rfl⟩

end Graph

/-! ## A street to work -/

namespace Commute

/-- A street from home to work. -/
def street : Graph ℚ :=
  .build [.intersection "home" ⟨0, 0⟩, .intersection "work" ⟨1, 0⟩]
    [(0, 1, .street (.plain 1 1000 .allStreet))]

/-- A car park between home and work. -/
def park : Graph ℚ :=
  .build
    [.intersection "home" ⟨0, 0⟩, .intersection "work" ⟨1, 0⟩, ⟨"park", ⟨1, 0⟩, .parkAndRide "p"⟩]
    [(0, 2, .link 500), (2, 2, .parkAndRide), (2, 1, .link 500)]

/-- From home to work with the car left on the way. -/
def request : Request ℚ := (Corners.onFoot 0 1).withParkAndRide

/-- A request for a trip to work placed on a network. -/
def trip (request : Request ℚ) (g : Graph ℚ) : Context ℚ :=
  .placed request g 0 1 ⟨0, 0⟩ ⟨1, 0⟩

theorem of_request {g : Graph ℚ} (hstart : g.nearestStreet? ⟨0, 0⟩ = some 0)
    (hgoal : g.nearestStreet? ⟨1, 0⟩ = some 1) :
    Context.of request g = .ok (trip request g) ∧
      Context.of request.carOnly g = .ok (trip request.carOnly g) := by
  have hvalid : request.validate = .ok () ∧ request.carOnly.validate = .ok () := by
    rw [Request.validate_eq_ok_iff, Request.validate_eq_ok_iff]
    decide +kernel
  exact ⟨Context.of_eq_ok_iff.2 ⟨hvalid.1, _, _, rfl, rfl, _, _, hstart, hgoal, rfl⟩,
    Context.of_eq_ok_iff.2 ⟨hvalid.2, _, _, rfl, rfl, _, _, hstart, hgoal, rfl⟩⟩

/-- With a car park on the way something is found. -/
theorem findPathsComparing_park :
    (∃ trips, park.findPathsComparing request = .ok trips ∧ trips ≠ []) ∧
      park.findPathsComparing request ≠ .error .pathNotFound := by
  obtain ⟨hride, hcar⟩ := of_request (g := park) (by decide +kernel) (by decide +kernel)
  obtain ⟨rides, hrides⟩ := (Graph.exists_findPaths_iff hride).2 (by decide +kernel)
  obtain ⟨drives, hdrives⟩ := (Graph.exists_findPaths_iff hcar).2 (by decide)
  have hride' : ∀ cause, park.findPaths request = .error cause → cause = .pathNotFound :=
    fun _ h => nomatch hrides.symm.trans h
  have hcar' : ∀ cause, park.findPaths request.carOnly = .error cause → cause = .pathNotFound :=
    fun _ h => nomatch hdrives.symm.trans h
  obtain ⟨hok, hnone⟩ := Graph.findPathsComparing_ok_iff rfl hride' hcar'
  exact ⟨hok.2 ⟨rides, hrides⟩, fun h => nomatch hrides.symm.trans (hnone.1 h)⟩

/-- Without one the drive to work is found, and is not answered. -/
theorem findPathsComparing_street :
    (∃ paths, street.findPaths request.carOnly = .ok paths ∧ paths ≠ []) ∧
      street.findPaths request = .error .pathNotFound ∧
        street.findPathsComparing request = .error .pathNotFound := by
  obtain ⟨hride, hcar⟩ := of_request (g := street) (by decide +kernel) (by decide +kernel)
  have hrides : street.findPaths request = .error .pathNotFound := by
    rw [Graph.findPaths_of hride]
    exact Context.findPaths_eq_pathNotFound_iff.2 (by decide)
  obtain ⟨drives, hdrives⟩ := (Graph.exists_findPaths_iff hcar).2 (by decide)
  refine ⟨⟨drives, hdrives, Graph.ne_nil_of_findPaths hdrives⟩, hrides, ?_⟩
  have hnone : street.findPathsOrNone request = .ok [] := by rw [Graph.findPathsOrNone, hrides]
  have hdrive : street.findPathsOrNone request.carOnly = .ok drives := by
    rw [Graph.findPathsOrNone, hdrives]
  rw [Graph.findPathsComparing_of_lanes rfl hnone hdrive, if_pos rfl]

end Commute

end TripPlanner
