import TripPlanner.Proofs.Moments

/-!
# Coverage

Whatever a search rejects or prunes is covered by a state that counts, and a state that counts
waits, was found, or has all that follows it covered. So a search that has nothing left to expand
and found nothing has looked at every way to go on, and none arrives.
-/

namespace TripPlanner

section
variable {R : Type} [Quantity R] [Geodesy R] {ctx : Context R} {search : Search R} {s t : State R}

theorem Context.justifies_covers (hmix : ctx.Unmixed) : ctx.Justifies ctx.Covers where
  refl _ := .refl _
  trans _ _ := .trans
  of_dominates hgrown := hgrown.covers hmix

namespace Search

/-- Nothing waits that counts, and nothing was found. -/
structure Exhausted (ctx : Context R) (search : Search R) : Prop where
  reached : search.Reached ctx
  empty : search.next? = none
  notFound : search.found = []

theorem Exhausted.closed (H : search.Exhausted ctx) (hmix : ctx.Unmixed) {v : VertexIndex}
    {i : StateId} (hi : i ∈ search.tree.at? v) (hs : search.store.get? i = some s) :
    search.Closed ctx ctx.Covers i s := by
  rcases H.reached.settled (Context.justifies_covers hmix) hi hs with h | h | h
  · have hcounts := H.reached.consistent.kept.counts hi
    rw [next?_eq_none_iff.1 H.empty i h] at hcounts
    cases hcounts
  · rw [H.notFound] at h
    exact absurd h List.not_mem_nil
  · exact h

/-- One edge further everything is covered as well. -/
theorem Exhausted.covers_step (H : search.Exhausted ctx) (hmix : ctx.Unmixed) {e : EdgeIndex}
    (hs : search.HeldBy ctx.Covers s) (h : ctx.Follows s e t) : search.HeldBy ctx.Covers t := by
  obtain ⟨i, hi, a, ha, hcovers⟩ := hs
  obtain ⟨a₁, hstep, hv₁, hback₁, hplane₁⟩ := hcovers.follows h
  obtain ⟨a₂, hmem, hv₂, hback₂, hplane₂⟩ := hstep.mem_successors i
  have hcovers' : ctx.Covers a₂ t :=
    .of_back (hv₂.trans hv₁) (hback₂.trans hback₁) (hplane₂.trans hplane₁)
  obtain ⟨j, hj, b, hb, hb₂⟩ := (H.closed hmix hi ha).2 _ hmem
  exact ⟨j, hcovers'.vertex ▸ hj, b, hb, hb₂.trans hcovers'⟩

theorem Exhausted.covers_chain (H : search.Exhausted ctx) (hmix : ctx.Unmixed)
    {es : List EdgeIndex} (hs : search.HeldBy ctx.Covers s) (h : ctx.Chain s es t) :
    search.HeldBy ctx.Covers t := by
  induction h with
  | nil => exact hs
  | cons hstep _ ih => exact ih (H.covers_step hmix hs hstep)

/-- No way leads to the destination. -/
theorem Exhausted.not_isFinal (H : search.Exhausted ctx) (hmix : ctx.Unmixed)
    {es : List EdgeIndex} (h : ctx.Chain (.initial ctx.origin) es s) : ctx.isFinal s = false := by
  have horigin := H.reached.heldBy_origin (Context.justifies_covers hmix)
  obtain ⟨i, hi, a, ha, hcovers⟩ := H.covers_chain hmix horigin h
  rw [← hcovers.isFinal]
  exact (H.closed hmix hi ha).1

end Search

end

/-- Unless a request mixes rented and parked bicycles, pruning never hides the last way to the
destination: a search that ran out of states without a path has none to find. -/
theorem Graph.not_isFinal_of_exhausted {R : Type} [Quantity R] [Geodesy R] {g : Graph R}
    {request : Request R} {ctx : Context R} (hctx : Context.of request g = .ok ctx)
    (hmix : ¬ (request.allowRental = true ∧ request.bikeAndRide = true))
    (hend : ctx.search.2 = .exhausted) (h : ctx.findPaths = .error .pathNotFound)
    {es : List EdgeIndex} {s : State R} (hchain : ctx.Chain (.initial ctx.origin) es s) :
    ctx.isFinal s = false := by
  have hexhausted : ctx.search.1.Exhausted ctx :=
    ⟨ctx.search_reached, Context.next?_of_exhausted hend, Context.findPaths_eq_pathNotFound_iff.1 h⟩
  refine hexhausted.not_isFinal (fun _ => ?_) hchain
  obtain ⟨triangle, hrequest⟩ := Context.request_of hctx
  rwa [Context.MixesBicycles, hrequest]

/-- No way leads back along the corners. -/
theorem Graph.not_isFinal_corners : Corners.back.search.2 = .exhausted ∧
    ∀ es s, Corners.back.Chain (.initial Corners.back.origin) es s →
      Corners.back.isFinal s = false := by
  have hend : Corners.back.search.2 = .exhausted := by decide
  have hfound : Corners.back.search.1.found = [] := by decide
  have h := Context.findPaths_eq_pathNotFound_iff.2 hfound
  exact ⟨hend, fun _ _ hchain =>
    Graph.not_isFinal_of_exhausted Corners.of_back (by decide) hend h hchain⟩

end TripPlanner
