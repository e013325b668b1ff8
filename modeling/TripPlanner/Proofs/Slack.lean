import TripPlanner.Proofs.Moments
import TripPlanner.Proofs.Rank

/-!
# Slack

Under `DominanceRule.pareto` a state may be given up for one that is dearer by the slack, and that
one for another. Over a whole run this adds up to no more than four times the slack
(`Search.Moment.exists_le_add_slack`).

What carries this is a bound on time and weight together (`Context.ceiling`): twice the slack is
laid on states whose back street keeps them from being compared. A state that replaces another one
without being dominated by it is either cheaper, or rids the label of that surcharge; so the ceiling
never rises.
-/

namespace TripPlanner

variable {R : Type} [Field R] [LinearOrder R] [IsStrictOrderedRing R] [FloorRing R] [Geodesy R]
  {ctx : Context R} {store : StateStore R} {a b s : State R}

namespace Context

/-- Time and weight of a state together, twice the slack on top if it is special. -/
def ceiling (ctx : Context R) (s : State R) : R :=
  s.elapsed + s.weight + if ctx.isSpecial s then 2 * paretoSlack else 0

theorem le_ceiling : s.elapsed + s.weight ≤ ctx.ceiling s := by
  have hslack : (0 : R) ≤ paretoSlack := paretoSlack_nonneg
  unfold ceiling
  split <;> linarith

theorem ceiling_le : ctx.ceiling s ≤ s.elapsed + s.weight + 2 * paretoSlack := by
  have hslack : (0 : R) ≤ paretoSlack := paretoSlack_nonneg
  unfold ceiling
  split <;> linarith

omit [Geodesy R] in
/-- One domination costs no more than twice the slack. -/
theorem sum_le_of_noWorse (h : DominanceRule.pareto.noWorse a b = true) :
    a.elapsed + a.weight ≤ b.elapsed + b.weight + 2 * paretoSlack := by
  obtain ⟨htime, hweight⟩ := DominanceRule.noWorse_iff.1 h
  linarith

theorem ceiling_le_of_dominates (ha : ctx.Reachable a) (hb : ctx.Reachable b)
    (hv : a.vertex = b.vertex) (hplane : a.plane = b.plane) (hside : onSameSide a b = true)
    (hfuture : ctx.futureDiffers a b = false) (hcost : DominanceRule.pareto.noWorse a b = true)
    (hback : ctx.dominates .pareto store b a = false) : ctx.ceiling a ≤ ctx.ceiling b := by
  have hspecial : ctx.isSpecial a = true → ctx.isSpecial b = true := by
    intro h
    have heq : a.back = b.back := by
      by_contra hne
      rw [futureDiffers_iff.2 ⟨hne, h⟩] at hfuture
      cases hfuture
    rw [← isSpecial_congr ha hb hv hplane heq, h]
  cases hdiffers : ctx.futureDiffers b a with
  | true =>
    -- The surcharge on `b` makes up for what `a` may be dearer.
    obtain ⟨hne, hb'⟩ := futureDiffers_iff.1 hdiffers
    have ha' : ctx.isSpecial a = false := by
      refine Bool.eq_false_iff.2 fun h => ?_
      rw [futureDiffers_iff.2 ⟨hne.symm, h⟩] at hfuture
      cases hfuture
    have hsum := sum_le_of_noWorse hcost
    simp only [ceiling, ha', hb', if_true, Bool.false_eq_true, if_false, add_zero]
    exact hsum
  | false =>
    have hworse : DominanceRule.pareto.noWorse b a = false := by
      refine Bool.eq_false_iff.2 fun h => ?_
      rw [dominates_iff.2 ⟨onSameSide_comm.1 hside, .inr ⟨hplane.symm, hdiffers, h⟩⟩] at hback
      cases hback
    have hprice : a.elapsed + a.weight < b.elapsed + b.weight :=
      DominanceRule.price_lt (fun _ => hcost) hworse
    cases ha' : ctx.isSpecial a with
    | true =>
      simp only [ceiling, ha', hspecial ha', if_true]
      linarith
    | false =>
      simp only [ceiling, ha', Bool.false_eq_true, if_false, add_zero]
      exact hprice.le.trans le_ceiling

/-- The ceiling does not rise when a state is pruned, unless a boarding is preferred to it. -/
theorem ceiling_le_of_prunes {st : Nat → State R} {i k : Nat}
    (hrule : ctx.request.dominance = .pareto) (hmix : ctx.Unmixed) (h : ctx.Prunes st k i)
    (hk : ¬ ctx.Preempts st k i) : ctx.ceiling (st k) ≤ ctx.ceiling (st i) := by
  obtain ⟨store, ha, hb, hv, hplane, hside, hfuture, hcost, hback⟩ := compares_of_prunes hmix h hk
  rw [hrule] at hcost hback
  exact ceiling_le_of_dominates ha hb hv hplane hside hfuture (hcost rfl) hback

/-- On the plane of `b`, and under a ceiling that is four times the slack above the costs of `b`. -/
def WithinSlack (ctx : Context R) (a b : State R) : Prop :=
  a.plane = b.plane ∧ ctx.ceiling a ≤ b.elapsed + b.weight + 4 * paretoSlack

theorem upholds_withinSlack (hplain : ctx.graph.IsUntimed)
    (hrule : ctx.request.dominance = .pareto) : ctx.Upholds ctx.WithinSlack where
  refl {s} _ := by
    have hslack : (0 : R) ≤ paretoSlack := paretoSlack_nonneg
    have hceiling := ctx.ceiling_le (s := s)
    exact ⟨rfl, by linarith⟩
  of_dominates {store a b} hgrown ha hb hv hdom := by
    rw [hrule] at hdom
    obtain ⟨hside, hboarded | ⟨hplane, hfuture, hcost⟩⟩ := dominates_iff.1 hdom
    · exact absurd (hgrown.boardsAfterChange ha hboarded) hplain.not_boardsAfterChange
    · have hsum := sum_le_of_noWorse hcost
      have hceiling := ctx.ceiling_le (s := a)
      exact ⟨hplane, by linarith⟩
  replace {store a b s} hgrown ha hb hv hdom hback h := by
    rw [hrule] at hdom hback
    obtain ⟨hside, hboarded | ⟨hplane, hfuture, hcost⟩⟩ := dominates_iff.1 hdom
    · exact absurd (hgrown.boardsAfterChange ha hboarded) hplain.not_boardsAfterChange
    · have hceiling := ceiling_le_of_dominates (ha.reachable hgrown) (hb.reachable hgrown) hv
        hplane hside hfuture hcost hback
      exact ⟨hplane.trans h.1, hceiling.trans h.2⟩

end Context

/-- Whatever was offered to the tree, and however often it was replaced since: a state of the same
situation counts that is dearer by no more than four times the slack. -/
theorem Search.Moment.exists_le_add_slack {search : Search R} {offered : List (State R)}
    {pending : List (EdgeIndex × State R)} (H : Moment ctx offered pending search)
    (hplain : ctx.graph.IsUntimed) (hrule : ctx.request.dominance = .pareto) (hs : s ∈ offered) :
    ∃ i ∈ search.tree.at? s.vertex, ∃ t, search.store.get? i = some t ∧ t.vertex = s.vertex ∧
      t.plane = s.plane ∧ t.elapsed + t.weight ≤ s.elapsed + s.weight + 4 * paretoSlack := by
  obtain ⟨i, hi, t, ht, hplane, hceiling⟩ := H.upheld (ctx.upholds_withinSlack hplain hrule) s hs
  exact ⟨i, hi, t, ht, H.consistent.kept.vertex_eq hi ht, hplane,
    Context.le_ceiling.trans hceiling⟩

/-- The street to the corner is given up for a link that is dearer by a hair. -/
theorem Search.Moment.exists_le_add_slack_street :
    let g : Graph ℚ := .build [.intersection "home" ⟨0, 0⟩, .intersection "corner" ⟨1, 0⟩]
      [(0, 1, .street (.plain 1 1000 .allStreet)), (0, 1, .link (1000 + 1 / 20000))]
    let trip : Context ℚ := { Corners.there with
      request := { Corners.onFoot 0 1 with walkSpeed := 1 }, graph := g, target := 1 }
    let byLink : State ℚ := ⟨1, 2000 + 1 / 10000, 1000 + 1 / 20000, 1000 + 1 / 20000, some 0,
      some ⟨1, .other⟩, some .walk, .initial⟩
    let byStreet : State ℚ := ⟨1, 2000, 1000, 1000, some 0, some ⟨0, .street⟩, some .walk, .initial⟩
    ∃ search, Moment trip [.initial 0, byLink, byStreet] [] search ∧ search.tree.at? 1 = [1] ∧
      ∃ i ∈ search.tree.at? byStreet.vertex, ∃ t, search.store.get? i = some t ∧
        t.vertex = byStreet.vertex ∧ t.plane = byStreet.plane ∧
        t.elapsed + t.weight ≤ byStreet.elapsed + byStreet.weight + 4 * paretoSlack := by
  intro g trip byLink byStreet
  have hnext : (Search.start trip).next? =
      some (0, { Search.start trip with queue := .empty }) := rfl
  have hstored : (Search.start trip).store.get? 0 = some (.initial 0) := rfl
  have hnotFinal : trip.isFinal (.initial 0) = false := by decide
  have hsuccessors : trip.successors 0 (.initial 0) = [(1, byLink), (0, byStreet)] := by
    decide +kernel
  have hmoment := Moment.start.expand (by decide) hnext hstored hnotFinal
  rw [hsuccessors] at hmoment
  have hmoment := hmoment.offer.offer
  have hlast : byStreet ∈ [.initial 0, byLink, byStreet] := by decide +kernel
  exact ⟨_, hmoment, by decide +kernel,
    Moment.exists_le_add_slack hmoment (by decide) (by decide) hlast⟩

end TripPlanner
