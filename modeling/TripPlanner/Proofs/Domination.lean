import TripPlanner.Proofs.Moments
import TripPlanner.Proofs.Rank

/-!
# Domination

Where there are no guaranteed changes and one kind of cost decides, dominance is reflexive and
transitive among the states that a search can reach (`Context.Outdoes`). So all that was ever
offered to the tree is dominated by a state that counts, at every moment of a run.

It is not transitive among arbitrary states: whether a vehicle may loop is read off the mode of one
side. States on one plane that came over the same street came in the same mode
(`Context.isSpecial_congr`).
-/

namespace TripPlanner

variable {R : Type} [Field R] [LinearOrder R] [IsStrictOrderedRing R] [FloorRing R] [Geodesy R]
  {ctx : Context R} {store : StateStore R} {a b c s : State R} {rule : DominanceRule}

omit [Geodesy R] in
theorem DominanceRule.noWorse_trans (hrule : rule ≠ .pareto) (h : rule.noWorse a b = true)
    (h' : rule.noWorse b c = true) : rule.noWorse a c = true := by
  rw [noWorse_iff] at h h' ⊢
  cases rule with
  | minimumWeight | earliestArrival | leastWalk => exact le_trans h h'
  | pareto => exact absurd rfl hrule

namespace Context

/-- `a` makes `b` needless in any store, no guaranteed change in the past of either. -/
structure Outdoes (ctx : Context R) (a b : State R) : Prop where
  vertex : a.vertex = b.vertex
  side : onSameSide a b = true
  plane : a.plane = b.plane
  future : ctx.futureDiffers a b = false
  cost : ctx.request.dominance.noWorse a b = true

theorem Outdoes.refl (h : s.arrivedVia .timedTransfer = false) : ctx.Outdoes s s where
  vertex := rfl
  side := onSameSide_iff.2 ⟨rfl, rfl, h, h⟩
  plane := rfl
  future := Bool.eq_false_iff.2 fun h => (futureDiffers_iff.1 h).1 rfl
  cost := DominanceRule.noWorse_of_le le_rfl

theorem Outdoes.dominates (H : ctx.Outdoes a b) :
    ctx.dominates ctx.request.dominance store a b = true :=
  dominates_iff.2 ⟨H.side, .inr ⟨H.plane, H.future, H.cost⟩⟩

theorem Outdoes.of_dominates_at (hgrown : ctx.Grown store) (ha : ctx.Born store a)
    (hchange : ¬ ctx.graph.BoardsAfterChangeTo a.vertex) (hv : a.vertex = b.vertex)
    (h : ctx.dominates ctx.request.dominance store a b = true) : ctx.Outdoes a b := by
  obtain ⟨hside, hboarded | ⟨hplane, hfuture, hcost⟩⟩ := dominates_iff.1 h
  · exact absurd (hgrown.boardsAfterChangeTo ha hboarded) hchange
  · exact ⟨hv, hside, hplane, hfuture, hcost⟩

theorem Outdoes.of_dominates (hgrown : ctx.Grown store) (ha : ctx.Born store a)
    (hchange : ¬ ctx.graph.BoardsAfterChange) (hv : a.vertex = b.vertex)
    (h : ctx.dominates ctx.request.dominance store a b = true) : ctx.Outdoes a b :=
  .of_dominates_at hgrown ha (fun hto => hchange hto.boardsAfterChange) hv h

/-- If the first state is special, all three came over the same street, and are special. -/
theorem futureDiffers_trans (ha : ctx.Reachable a) (hb : ctx.Reachable b)
    (hv : a.vertex = b.vertex) (hplane : a.plane = b.plane) (hab : ctx.futureDiffers a b = false)
    (hbc : ctx.futureDiffers b c = false) : ctx.futureDiffers a c = false := by
  refine Bool.eq_false_iff.2 fun hac => ?_
  obtain ⟨hne, hspecial⟩ := futureDiffers_iff.1 hac
  have hback : a.back = b.back := by
    by_contra hne'
    rw [futureDiffers_iff.2 ⟨hne', hspecial⟩] at hab
    cases hab
  have hspecial' : ctx.isSpecial b = true := by
    rw [← isSpecial_congr ha hb hv hplane hback, hspecial]
  rw [futureDiffers_iff.2 ⟨hback ▸ hne, hspecial'⟩] at hbc
  cases hbc

theorem Outdoes.trans (hrule : ctx.request.dominance ≠ .pareto) (ha : ctx.Reachable a)
    (hb : ctx.Reachable b) (H : ctx.Outdoes a b) (H' : ctx.Outdoes b c) : ctx.Outdoes a c where
  vertex := H.vertex.trans H'.vertex
  side := by
    obtain ⟨haboard, htransfer, htimed, -⟩ := onSameSide_iff.1 H.side
    obtain ⟨haboard', htransfer', -, htimed'⟩ := onSameSide_iff.1 H'.side
    exact onSameSide_iff.2
      ⟨haboard.trans haboard', htransfer.trans htransfer', htimed, htimed'⟩
  plane := H.plane.trans H'.plane
  future := futureDiffers_trans ha hb H.vertex H.plane H.future H'.future
  cost := DominanceRule.noWorse_trans hrule H.cost H'.cost

theorem justifies_outdoes (hplain : ctx.graph.IsUntimed)
    (hrule : ctx.request.dominance ≠ .pareto) : ctx.Justifies ctx.Outdoes where
  refl hs := .refl (hs.not_timed hplain)
  trans ha hb := .trans hrule ha hb
  of_dominates hgrown ha _ := .of_dominates hgrown ha hplain.not_boardsAfterChange

end Context

/-- All that was ever offered to the tree is dominated by a state that counts, at every moment of a
run. -/
theorem Search.Moment.exists_dominates {search : Search R} {offered : List (State R)}
    {pending : List (EdgeIndex × State R)} (H : Moment ctx offered pending search)
    (hplain : ctx.graph.IsUntimed) (hrule : ctx.request.dominance ≠ .pareto) (hs : s ∈ offered) :
    ∃ i ∈ search.tree.at? s.vertex, ∃ a, search.store.get? i = some a ∧
      ctx.dominates search.tree.rule search.store a s = true := by
  obtain ⟨i, hi, a, ha, houtdoes⟩ := H.heldBy (Context.justifies_outdoes hplain hrule) s hs
  rw [H.consistent.kept.goesBy]
  exact ⟨i, hi, a, ha, houtdoes.dominates⟩

/-- The street to the corner is offered after the link, which makes it needless. -/
theorem Search.Moment.exists_dominates_street :
    let trip : Context ℚ := { Corners.there with
      request := { Corners.onFoot 0 2 with dominance := .minimumWeight, walkSpeed := 2 } }
    let byLink : State ℚ := ⟨1, 900, 450, 900, some 0, some ⟨2, .other⟩, some .walk, .initial⟩
    let byStreet : State ℚ := ⟨1, 1000, 500, 1000, some 0, some ⟨0, .street⟩, some .walk, .initial⟩
    ∃ search, Moment trip [.initial 0, byLink, byStreet] [] search ∧ search.tree.at? 1 = [1] ∧
      ∃ i ∈ search.tree.at? byStreet.vertex, ∃ a, search.store.get? i = some a ∧
        trip.dominates search.tree.rule search.store a byStreet = true := by
  intro trip byLink byStreet
  have hnext : (Search.start trip).next? =
      some (0, { Search.start trip with queue := .empty }) := rfl
  have hstored : (Search.start trip).store.get? 0 = some (.initial 0) := rfl
  have hnotFinal : trip.isFinal (.initial 0) = false := by decide
  have hsuccessors : trip.successors 0 (.initial 0) = [(2, byLink), (0, byStreet)] := by
    decide +kernel
  have hmoment := Moment.start.expand (by decide) hnext hstored hnotFinal
  rw [hsuccessors] at hmoment
  have hmoment := hmoment.offer.offer
  have hlast : byStreet ∈ [.initial 0, byLink, byStreet] := by decide
  exact ⟨_, hmoment, by decide,
    Moment.exists_dominates hmoment (by decide) (by decide) hlast⟩

end TripPlanner
