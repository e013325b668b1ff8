import Mathlib.Data.Prod.Lex
import TripPlanner.Proofs.Endless
import TripPlanner.Proofs.Situations

/-!
# Ranks

Whatever prunes a state ranks below it (`Context.rank_lt_of_prunes`): first come the states whose
back street does not keep them from being compared, then those of lower price. The slack of the
comparison by weight and time cannot turn this around, for the sum of both falls. Only a boarding
after a guaranteed change, which `DominanceRule.pareto` prefers to others at any price, is no case
of this.
-/

namespace TripPlanner

section
variable {R : Type} [Quantity R] [Geodesy R] {ctx : Context R} {a b s : State R} {e : EdgeIndex}

/-- Whether the street that a state came over may make for another future than that of states that
came otherwise. -/
def Context.isSpecial (ctx : Context R) (s : State R) : Bool :=
  s.backStreet?.any fun e =>
    !(ctx.graph.restrictionsAfter e).isEmpty || (s.mode != some .walk && ctx.isCloseToEnds s.vertex)

theorem Context.futureDiffers_iff :
    ctx.futureDiffers a b = true ↔ a.back ≠ b.back ∧ ctx.isSpecial a = true := by
  unfold futureDiffers isSpecial State.backStreet?
  cases a.back with
  | none => simp
  | some back =>
    obtain ⟨e, c⟩ := back
    by_cases hc : c = .street <;> simp [hc]

omit [Geodesy R] in
/-- The street and the plane decide the mode. -/
theorem Context.Reachable.mode_of_street (H : ctx.Reachable s) (hs : s.backStreet? = some e) :
    ∃ street, ctx.graph.street? e = some street ∧ s.mode = ctx.modeOnStreet? s street := by
  obtain ⟨a, id, edge, street, move, -, hedge, hkind, hmove, rfl⟩ := H.of_backStreet? hs
  obtain ⟨mode, hmode, -, rfl⟩ := (move?_eq_some_iff.1 hmove).2.of_street hkind
  exact ⟨street, Graph.street?_eq_some_iff.2 ⟨edge, hedge, hkind⟩, hmode.symm⟩

/-- States on one plane that came over the same edge are special together. -/
theorem Context.isSpecial_congr (ha : ctx.Reachable a) (hb : ctx.Reachable b)
    (hv : a.vertex = b.vertex) (hplane : a.plane = b.plane) (hback : a.back = b.back) :
    ctx.isSpecial a = ctx.isSpecial b := by
  have hstreet : a.backStreet? = b.backStreet? := by simp [State.backStreet?, hback]
  unfold isSpecial
  rw [hstreet]
  cases hs : b.backStreet? with
  | none => rfl
  | some e =>
    obtain ⟨street, hstreet', hmode⟩ := ha.mode_of_street (hstreet.trans hs)
    obtain ⟨street', hstreet'', hmode'⟩ := hb.mode_of_street hs
    cases hstreet'.symm.trans hstreet''
    have : a.mode = b.mode := by
      rw [hmode, hmode', modeOnStreet?, modeOnStreet?, State.streetMode, State.streetMode, hplane]
    rw [Option.any_some, Option.any_some, this, hv]

theorem Context.futureDiffers_of_board (h : a.arrivedVia .board = true) :
    ctx.futureDiffers a b = false := by
  refine Bool.eq_false_iff.2 fun hdiffers => ?_
  have hspecial := (futureDiffers_iff.1 hdiffers).2
  rw [isSpecial, State.backStreet?_eq_none_of_arrivedVia h (by decide)] at hspecial
  cases hspecial

omit [Quantity R] [Geodesy R] in
theorem StateStore.PartOf.parent_of_boardedAfterChange {store : StateStore R} {st : Nat → State R}
    (hpart : store.PartOf st) (h : boardedAfterChange store a b = true) :
    ∃ p, a.parent = some p ∧ (st p).arrivedVia .timedTransfer = true := by
  obtain ⟨-, -, parent, hparent, htimed⟩ := Context.boardedAfterChange_iff.1 h
  obtain ⟨p, hp, hget⟩ := Option.bind_eq_some_iff.1 hparent
  exact ⟨p, hp, hpart hget ▸ htimed⟩

end

/-! ## Prices -/

section
variable {R : Type} [Field R] [LinearOrder R] [IsStrictOrderedRing R] [FloorRing R]
  {rule : DominanceRule} {a b : State R}

/-- What a rule makes of the costs, as one number. -/
def DominanceRule.price (rule : DominanceRule) (costs : R × R × R) : R :=
  match rule with
  | .minimumWeight => costs.2.1
  | .earliestArrival => costs.1
  | .leastWalk => costs.2.2
  | .pareto => costs.1 + costs.2.1

theorem DominanceRule.price_mono : Monotone (rule.price : R × R × R → R) := by
  rintro ⟨e, w, d⟩ ⟨e', w', d'⟩ ⟨he, hw, hd⟩
  cases rule with
  | minimumWeight => exact hw
  | earliestArrival => exact he
  | leastWalk => exact hd
  | pareto => exact add_le_add he hw

theorem paretoSlack_nonneg : (0 : R) ≤ paretoSlack :=
  Quantity.ratio_nonneg (by decide) (by decide)

theorem DominanceRule.noWorse_iff : rule.noWorse a b = true ↔ match rule with
    | .minimumWeight => a.weight ≤ b.weight
    | .earliestArrival => a.elapsed ≤ b.elapsed
    | .leastWalk => a.walked ≤ b.walked
    | .pareto => a.elapsed ≤ b.elapsed + paretoSlack ∧ a.weight ≤ b.weight + paretoSlack := by
  cases rule with
  | pareto => exact (Bool.and_eq_true_iff).trans (and_congr decide_eq_true_iff decide_eq_true_iff)
  | _ => exact decide_eq_true_iff

theorem DominanceRule.noWorse_of_le (h : a.costs ≤ b.costs) : rule.noWorse a b = true := by
  obtain ⟨he, hw, hd⟩ := h
  rw [noWorse_iff]
  cases rule with
  | minimumWeight => exact hw
  | earliestArrival => exact he
  | leastWalk => exact hd
  | pareto => exact ⟨le_add_of_le_of_nonneg he paretoSlack_nonneg,
      le_add_of_le_of_nonneg hw paretoSlack_nonneg⟩

/-- Costs that are as good and not the other way round have the lower price. -/
theorem DominanceRule.price_lt (hrule : rule = .pareto → rule.noWorse a b = true)
    (h : rule.noWorse b a = false) : rule.price a.costs < rule.price b.costs := by
  have h' : ¬ rule.noWorse b a = true := by simp [h]
  rw [noWorse_iff] at h'
  cases rule with
  | minimumWeight => exact lt_of_not_ge h'
  | earliestArrival => exact lt_of_not_ge h'
  | leastWalk => exact lt_of_not_ge h'
  | pareto =>
    have hab := noWorse_iff.1 (hrule rfl)
    change a.elapsed ≤ b.elapsed + paretoSlack ∧ a.weight ≤ b.weight + paretoSlack at hab
    change ¬ (b.elapsed ≤ a.elapsed + paretoSlack ∧ b.weight ≤ a.weight + paretoSlack) at h'
    change a.elapsed + a.weight < b.elapsed + b.weight
    rcases not_and_or.1 h' with h' | h'
    · linarith [hab.2, lt_of_not_ge h']
    · linarith [hab.1, lt_of_not_ge h']

end

/-! ## Ranks -/

section
variable {R : Type} [Field R] [LinearOrder R] [IsStrictOrderedRing R] [FloorRing R] [Geodesy R]
  {ctx : Context R} {store : StateStore R} {st : Nat → State R} {a b : State R} {i k : Nat}

/-- Special states come after all others, and cheap ones before dear ones. -/
def Context.rank (ctx : Context R) (s : State R) : Bool ×ₗ R :=
  toLex (ctx.isSpecial s, ctx.request.dominance.price s.costs)

/-- Of two states on one plane that can be compared, one that is not dominated back ranks below. -/
theorem Context.rank_lt (ha : ctx.Reachable a) (hb : ctx.Reachable b) (hv : a.vertex = b.vertex)
    (hplane : a.plane = b.plane) (hside : onSameSide a b = true)
    (hfuture : ctx.futureDiffers a b = false)
    (hcost : ctx.request.dominance = .pareto → ctx.request.dominance.noWorse a b = true)
    (hback : ctx.dominates ctx.request.dominance store b a = false) : ctx.rank a < ctx.rank b := by
  have hspecial : ctx.isSpecial a = true → a.back = b.back := by
    intro h
    by_contra hne
    rw [futureDiffers_iff.2 ⟨hne, h⟩] at hfuture
    cases hfuture
  rw [rank, rank, Prod.Lex.toLex_lt_toLex]
  cases hdiffers : ctx.futureDiffers b a with
  | true =>
    -- The pruned state is special, and the other one is not.
    obtain ⟨hne, hb'⟩ := futureDiffers_iff.1 hdiffers
    have ha' : ctx.isSpecial a = false :=
      Bool.eq_false_iff.2 fun h => hne (hspecial h).symm
    rw [ha', hb']
    exact .inl Bool.false_lt_true
  | false =>
    have hworse : ctx.request.dominance.noWorse b a = false := by
      refine Bool.eq_false_iff.2 fun h => ?_
      rw [dominates_iff.2 ⟨onSameSide_comm.1 hside, .inr ⟨hplane.symm, hdiffers, h⟩⟩] at hback
      cases hback
    have hprice := DominanceRule.price_lt hcost hworse
    cases ha' : ctx.isSpecial a with
    | true =>
      have hb' := isSpecial_congr ha hb hv hplane (hspecial ha')
      exact .inr ⟨by rw [← ha', hb'], hprice⟩
    | false =>
      cases ctx.isSpecial b with
      | true => exact .inl Bool.false_lt_true
      | false => exact .inr ⟨rfl, hprice⟩

/-- A boarding after a guaranteed change, under the rule that prefers it at any price. -/
def Context.Preferred (ctx : Context R) (st : Nat → State R) (k : Nat) : Prop :=
  ctx.request.dominance = .pareto ∧ (st k).arrivedVia .board = true ∧
    ∃ p, (st k).parent = some p ∧ (st p).arrivedVia .timedTransfer = true

/-- A boarding that is preferred to one that is not. -/
def Context.Preempts (ctx : Context R) (st : Nat → State R) (k i : Nat) : Prop :=
  ctx.Preferred st k ∧ (st i).arrivedVia .board = true ∧ ¬ ctx.Preferred st i

/-- What prunes a state is compared with it by cost, unless it is a preferred boarding and the
state one that is not. -/
theorem Context.compares_of_prunes (hmix : ctx.Unmixed) (h : ctx.Prunes st k i)
    (hk : ¬ ctx.Preempts st k i) : ∃ store, ctx.Reachable (st k) ∧ ctx.Reachable (st i) ∧
      (st k).vertex = (st i).vertex ∧ (st k).plane = (st i).plane ∧
      onSameSide (st k) (st i) = true ∧ ctx.futureDiffers (st k) (st i) = false ∧
      (ctx.request.dominance = .pareto →
        ctx.request.dominance.noWorse (st k) (st i) = true) ∧
      ctx.dominates ctx.request.dominance store (st i) (st k) = false := by
  obtain ⟨store, hgrown, hpart, -, a, b, ha, hb, hv, hdom, hback⟩ := h
  cases hpart ha
  cases hpart hb
  have hplane := hgrown.plane_of_dominates (fun hto => hmix hto.boardsAfterChange)
    (hgrown.born ha) (hgrown.born hb) hdom
  obtain ⟨hside, hboarded | ⟨-, hfuture, hcost⟩⟩ := dominates_iff.1 hdom
  · obtain ⟨hboard, hboard', -⟩ := boardedAfterChange_iff.1 hboarded
    refine ⟨store, hgrown.reachable ha, hgrown.reachable hb, hv, hplane, hside,
      futureDiffers_of_board hboard, fun hpareto => ?_, hback⟩
    -- The other one is preferred as well, and would have kept this one out.
    obtain ⟨p, hp, htimed⟩ := hpart.parent_of_boardedAfterChange hboarded
    have hpreferred : ctx.Preferred st i := by
      by_contra hplain
      exact hk ⟨⟨hpareto, hboard, p, hp, htimed⟩, hboard', hplain⟩
    obtain ⟨-, -, q, hq, htimed'⟩ := hpreferred
    have hboarded' : boardedAfterChange store (st i) (st k) = true := by
      obtain ⟨c, hc⟩ := StateStore.get?_isSome_of_lt ((hgrown.born hb).holdsParent q hq)
      refine boardedAfterChange_iff.2 ⟨hboard', hboard, c, ?_, hpart hc ▸ htimed'⟩
      rw [StateStore.parent?, hq, Option.bind_some, hc]
    rw [dominates_iff.2 ⟨onSameSide_comm.1 hside, .inl hboarded'⟩] at hback
    cases hback
  · exact ⟨store, hgrown.reachable ha, hgrown.reachable hb, hv, hplane, hside, hfuture,
      fun _ => hcost, hback⟩

/-- What prunes a state ranks below it. -/
theorem Context.rank_lt_of_prunes (hmix : ctx.Unmixed) (h : ctx.Prunes st k i)
    (hk : ¬ ctx.Preempts st k i) : ctx.rank (st k) < ctx.rank (st i) := by
  obtain ⟨store, ha, hb, hv, hplane, hside, hfuture, hcost, hback⟩ := compares_of_prunes hmix h hk
  exact rank_lt ha hb hv hplane hside hfuture hcost hback

/-- What is no worse than a state is pruned by that only if it is special and the other one is
not. -/
theorem Context.special_of_prunes (hmix : ctx.Unmixed) (h : ctx.Prunes st k i)
    (hcost : ctx.request.dominance.noWorse (st i) (st k) = true) :
    ctx.isSpecial (st i) = true ∧ ctx.isSpecial (st k) = false := by
  obtain ⟨store, hgrown, hpart, -, a, b, ha, hb, hv, hdom, hback⟩ := h
  cases hpart ha
  cases hpart hb
  have hplane := hgrown.plane_of_dominates (fun hto => hmix hto.boardsAfterChange)
    (hgrown.born ha) (hgrown.born hb) hdom
  have hdiffers : ctx.futureDiffers (st i) (st k) = true := by
    by_contra hsame
    have hside := onSameSide_comm.1 (dominates_iff.1 hdom).1
    rw [dominates_iff.2 ⟨hside, .inr ⟨hplane.symm, Bool.not_eq_true _ ▸ hsame, hcost⟩⟩] at hback
    cases hback
  obtain ⟨-, hboarded | ⟨-, hfuture, -⟩⟩ := dominates_iff.1 hdom
  · rw [futureDiffers_of_board (boardedAfterChange_iff.1 hboarded).2.1] at hdiffers
    cases hdiffers
  · obtain ⟨hne, hspecial⟩ := futureDiffers_iff.1 hdiffers
    refine ⟨hspecial, Bool.eq_false_iff.2 fun hspecial' => ?_⟩
    rw [futureDiffers_iff.2 ⟨hne.symm, hspecial'⟩] at hfuture
    cases hfuture

/-- What prunes a state comes later and to the same vertex, and not by a timed transfer. -/
theorem Context.later_of_prunes (h : ctx.Prunes st k i) :
    i < k ∧ (st k).vertex = (st i).vertex ∧ (st k).arrivedVia .timedTransfer = false := by
  obtain ⟨store, -, hpart, hlt, a, b, ha, hb, hv, hdom, -⟩ := h
  cases hpart ha
  cases hpart hb
  exact ⟨hlt, hv, (onSameSide_iff.1 (dominates_iff.1 hdom).1).2.2.1⟩

end

end TripPlanner
