import TripPlanner.Proofs.Guidance
import TripPlanner.Proofs.Lineage

/-!
# Limits

Two numbers of a request limit its search and decide nothing else: how many itineraries it looks
for, and how many steps it may take. A search with larger ones goes on from where the other one has
ended (`Search.exists_run_asking`). Since nothing that was stored and found is touched again, its
itineraries are the same ones, and then those that were found later (`Graph.findPaths_append`).
-/

namespace TripPlanner

namespace Search

variable {R : Type} [Quantity R] [Geodesy R] {ctx : Context R} {search next : Search R}
  {n m count : Nat}

/-! ## Two runs -/

/-- A step that is taken for some itineraries is taken for more of them, and in the same way. -/
theorem advance?_asking (hcount : ctx.request.numItineraries ≤ count)
    (h : search.advance? ctx = some next) : search.advance? (ctx.asking count) = some next := by
  obtain ⟨hshort, id, rest, hnext, rfl⟩ := advance?_eq_some_iff.1 h
  exact advance?_eq_some_iff.2 ⟨Nat.lt_of_lt_of_le hshort hcount, id, rest, hnext, rfl⟩

theorem exists_run_asking (hcount : ctx.request.numItineraries ≤ count) (hle : n ≤ m) :
    ∃ left, run (ctx.asking count) m search = run (ctx.asking count) left (run ctx n search).1 := by
  induction n generalizing search m with
  | zero => exact ⟨m, by rw [run_zero_fst]⟩
  | succ n ih =>
    cases h : search.advance? ctx with
    | none => exact ⟨m, by rw [run_of_advance?_eq_none h]⟩
    | some next =>
      obtain ⟨m, rfl⟩ := Nat.exists_eq_add_of_le' hle
      rw [run_of_advance?_eq_some h, ← Nat.add_assoc,
        run_of_advance?_eq_some (advance?_asking hcount h)]
      exact ih (Nat.le_add_left n m)

omit [Quantity R] [Geodesy R] in
theorem GoesOnTo.refl (search : Search R) : search.GoesOnTo search :=
  ⟨id, List.prefix_refl _⟩

/-- A run touches nothing again that was stored or found. -/
theorem goesOnTo_run : search.GoesOnTo (run ctx n search).1 := by
  induction n generalizing search with
  | zero =>
    rw [run_zero_fst]
    exact .refl search
  | succ n ih =>
    cases h : search.advance? ctx with
    | none =>
      rw [run_of_advance?_eq_none h]
      exact .refl search
    | some next =>
      rw [run_of_advance?_eq_some h]
      obtain ⟨-, id, rest, hnext, rfl⟩ := advance?_eq_some_iff.1 h
      exact (goesOnTo_settle hnext).trans ih

omit [Geodesy R] in
theorem GoesOnTo.itineraries (H : search.GoesOnTo next) (hsearch : search.Consistent ctx)
    (hnext : ctx.Grown next.store) : search.itineraries ctx <+: next.itineraries ctx := by
  have hsame : search.found.map (ctx.itineraryTo search.store) =
      search.found.map (ctx.itineraryTo next.store) := by
    apply List.map_congr_left
    intro id hid
    obtain ⟨s, hs, -⟩ := hsearch.found id hid
    have hlineage : next.store.lineage id = search.store.lineage id :=
      hsearch.grown.lineage_eq hnext H.stored hs
    exact congrArg ctx.itineraryOver hlineage.symm
  rw [Search.itineraries, hsame]
  exact H.found.map _

end Search

namespace Context

variable {R : Type} [Quantity R] {request : Request R} {g : Graph R} {ctx : Context R}
  {count steps : Nat}

theorem of_asking (h : Context.of request g = .ok ctx) (hcount : count ≠ 0) :
    Context.of { request with numItineraries := count } g = .ok (ctx.asking count) := by
  obtain ⟨hvalid, start, goal, hstart, hgoal, origin, target, horigin, htarget, rfl⟩ :=
    of_eq_ok_iff.1 h
  obtain ⟨hfrom, hto, hmodes, hwalk, hbike, -⟩ := Request.validate_eq_ok_iff.1 hvalid
  have hvalid' : ({ request with numItineraries := count } : Request R).validate = .ok () :=
    Request.validate_eq_ok_iff.2 ⟨hfrom, hto, hmodes, hwalk, hbike, hcount⟩
  refine of_eq_ok_iff.2
    ⟨hvalid', start, goal, hstart, hgoal, origin, target, horigin, htarget, ?_⟩
  unfold placed prepare asking
  dsimp only
  split <;> rfl

variable [Geodesy R]

theorem goesOnTo_search (hcount : ctx.request.numItineraries ≤ count)
    (hsteps : ctx.request.maxSearchSteps ≤ steps) :
    ctx.search.1.GoesOnTo ((ctx.asking count).granting steps).search.1 := by
  have hlonger : ∃ left, ((ctx.asking count).granting steps).search =
      Search.run (ctx.asking count) left ctx.search.1 := by
    rw [search, run_granting]
    exact Search.exists_run_asking hcount hsteps
  obtain ⟨left, hleft⟩ := hlonger
  rw [hleft]
  exact Search.goesOnTo_run

end Context

/-- Larger limits leave the itineraries that are found as they are, and may add others. -/
theorem Graph.findPaths_append {R : Type} [Quantity R] [Geodesy R] {g : Graph R}
    {request : Request R} {count steps : Nat} {paths : List (Itinerary R)}
    (hcount : request.numItineraries ≤ count) (hsteps : request.maxSearchSteps ≤ steps)
    (h : g.findPaths request = .ok paths) :
    ∃ more, g.findPaths { request with numItineraries := count, maxSearchSteps := steps } =
      .ok (paths ++ more) := by
  obtain ⟨ctx, hctx, hpaths⟩ := exists_context_of_findPaths h
  obtain ⟨hfound, rfl⟩ := Context.findPaths_eq_ok_iff.1 hpaths
  obtain ⟨hvalid, -⟩ := Context.of_eq_ok_iff.1 hctx
  obtain ⟨-, -, -, -, -, hnonzero⟩ := Request.validate_eq_ok_iff.1 hvalid
  have hlimits : ctx.request.numItineraries ≤ count ∧ ctx.request.maxSearchSteps ≤ steps := by
    obtain ⟨triangle, hrequest⟩ := Context.request_of hctx
    rw [hrequest]
    exact ⟨hcount, hsteps⟩
  have hgoes := ctx.goesOnTo_search hlimits.1 hlimits.2
  have hasking : Context.of { request with numItineraries := count } g = .ok (ctx.asking count) :=
    Context.of_asking hctx (by omega)
  let larger : Context R := (ctx.asking count).granting steps
  have hgrown : larger.Grown larger.search.1.store := larger.search_reached.consistent.grown
  obtain ⟨more, hmore⟩ :=
    hgoes.itineraries ctx.search_reached.consistent ⟨hgrown.origin, hgrown.parent⟩
  refine ⟨more, ?_⟩
  rw [findPaths_of (Context.of_granting hasking), Context.findPaths_eq_ok_iff]
  exact ⟨fun hnone => hfound (hgoes.found_eq_nil hnone), hmore.symm⟩

/-! ## Three ways -/

namespace Ways

/-- Three streets to work, and one back. A restriction on the shortest one lets the next one count
as well, which makes the longest one needless. -/
def town : Graph ℚ :=
  { Graph.build [.intersection "home" ⟨0, 0⟩, .intersection "work" ⟨1, 0⟩]
      [(0, 1, .street (.plain 1 1000 .allStreet)), (0, 1, .street (.plain 2 1500 .allStreet)),
        (0, 1, .street (.plain 3 2000 .allStreet)), (1, 0, .street (.plain 4 1000 .allStreet))] with
    restrictions := .ofList [(0, [⟨.noTurn, 0, 3, .ofList [.car]⟩])] }

/-- The shortest way to work. -/
def request : Request ℚ := { Corners.onFoot 0 1 with numItineraries := 1, maxSearchSteps := 2 }

/-- The next way is found when two of them are looked for. -/
theorem findPaths_town : ∃ paths more, town.findPaths request = .ok paths ∧
    town.findPaths { request with numItineraries := 2, maxSearchSteps := 10 } =
      .ok (paths ++ more) ∧
    paths.map Itinerary.edges = [[0]] ∧ more.map Itinerary.edges = [[1]] := by
  have hanswer : (town.findPaths request).toOption.map (List.map Itinerary.edges) =
      some [[0]] := by decide +kernel
  obtain ⟨paths, h, hedges⟩ := exists_ok_of_toOption hanswer
  obtain ⟨more, hmore⟩ := Graph.findPaths_append (by decide : request.numItineraries ≤ 2)
    (by decide : request.maxSearchSteps ≤ 10) h
  refine ⟨paths, more, h, hmore, hedges, ?_⟩
  have hlonger : (town.findPaths { request with
      numItineraries := 2, maxSearchSteps := 10 }).toOption.map (List.map Itinerary.edges) =
      some [[0], [1]] := by decide +kernel
  rw [hmore] at hlonger
  simpa [Except.toOption, hedges] using hlonger

end Ways

end TripPlanner
