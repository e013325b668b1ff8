import TripPlanner.Proofs.Answers
import TripPlanner.Proofs.Serving

/-!
# Succession

A search by weight serves and offers nothing that is cheaper than what it has found
(`Search.Moment.cheapest`). So what was found is made needless by states of the same weight only,
which its back street kept it from being compared with (`Context.Shields`), and these keep out all
that it would have kept out (`Search.Moment.keepsOut_of_weight`).
-/

namespace TripPlanner

variable {R : Type} [Field R] [LinearOrder R] [IsStrictOrderedRing R] [FloorRing R] [Geodesy R]
  {ctx : Context R} {store : StateStore R} {search rest : Search R} {offered : List (State R)}
  {pending : List (EdgeIndex × State R)} {a b c s t : State R} {i : StateId}

namespace Search

/-- What was found weighs no more than what waits and counts, and than what is still to be
offered. -/
structure Cheapest (search : Search R) (pending : List (EdgeIndex × State R)) (a : State R) :
    Prop where
  waiting : ∀ w ∈ search.queue.waiting, search.tree.isPruned w.id = false → a.weight ≤ w.priority
  pending : ∀ p ∈ pending, a.weight ≤ p.2.weight

theorem Cheapest.le_of_next? (H : search.Cheapest pending a) (hserved : search.Served ctx)
    (htrivial : ctx.request.heuristic = .trivial) (h : search.next? = some (i, rest))
    (hs : search.store.get? i = some s) : a.weight ≤ s.weight := by
  obtain ⟨dropped, w, behind, hwaiting, -, hcounts, rfl, -⟩ := next?_eq_some_iff.1 h
  have hmem : w ∈ search.queue.waiting := by simp [hwaiting]
  obtain ⟨t, ht, hpriority⟩ := hserved.priced w hmem
  cases hs.symm.trans ht
  rw [Context.remainingWeight_of_trivial htrivial, add_zero] at hpriority
  exact (H.waiting w hmem hcounts).trans_eq hpriority

omit [Geodesy R] in
theorem Cheapest.of_next? (H : search.Cheapest pending a) (h : search.next? = some (i, rest))
    {next : List (EdgeIndex × State R)} (hnext : ∀ p ∈ next, a.weight ≤ p.2.weight) :
    rest.Cheapest next a where
  waiting w hw := by
    obtain ⟨dropped, _, behind, hwaiting, -, -, rfl, rfl⟩ := next?_eq_some_iff.1 h
    refine H.waiting w ?_
    rw [hwaiting]
    exact List.mem_append_right _ (List.mem_cons_of_mem _ hw)
  pending := hnext

theorem Cheapest.accept {e : EdgeIndex} (H : search.Cheapest ((e, s) :: pending) a)
    (htrivial : ctx.request.heuristic = .trivial) :
    (search.accept ctx s).Cheapest pending a where
  waiting w hw hcounts := by
    rcases Queue.mem_insertOrdered.1 hw with rfl | hw
    · dsimp only
      rw [Context.remainingWeight_of_trivial htrivial, add_zero]
      exact H.pending _ List.mem_cons_self
    · exact H.waiting w hw (Tree.accept_counts.1 hcounts).1
  pending p hp := H.pending p (List.mem_cons_of_mem _ hp)

/-- Nothing cheaper than what was found is served or offered any more. -/
theorem Moment.cheapest (H : Moment ctx offered pending search)
    (htrivial : ctx.request.heuristic = .trivial) (hcosts : ctx.NeverLowers) :
    ∀ i ∈ search.found, ∀ a, search.store.get? i = some a → search.Cheapest pending a := by
  induction H with
  | start =>
    intro i hi
    rw [start_found] at hi
    exact absurd hi List.not_mem_nil
  | @arrive offered search rest id s H _ hnext hs hf ih =>
    intro i hi a ha
    have hserved : search.Served ctx := H.reached.served
    obtain ⟨hstore, -, hfound⟩ := next?_rest hnext
    rw [settle_of_isFinal hs hf] at hi ha ⊢
    rw [note, hfound] at hi
    rw [note, hstore] at ha
    have hnone : ∀ p ∈ ([] : List (EdgeIndex × State R)), a.weight ≤ p.2.weight :=
      fun p hp => absurd hp List.not_mem_nil
    have hcheap : search.Cheapest [] a := by
      rcases List.mem_append.1 hi with hi | hi
      · exact ih i hi a ha
      · -- What is served is served before all that waits and counts.
        cases List.mem_singleton.1 hi
        refine ⟨fun w hw hcounts => ?_, hnone⟩
        have hle := hserved.priority_le hnext ha hw hcounts
        rwa [Context.remainingWeight_of_trivial htrivial, add_zero] at hle
    have hrest := hcheap.of_next? hnext hnone
    exact ⟨hrest.waiting, hnone⟩
  | @expand offered search rest id s H _ hnext hs _ ih =>
    intro i hi a ha
    have hserved : search.Served ctx := H.reached.served
    obtain ⟨events, heq⟩ := noteAll_eq (rest.note (.visited s)) (ctx.successors id s)
    obtain ⟨hstore, -, hfound⟩ := next?_rest hnext
    rw [heq] at hi ha ⊢
    rw [note, hfound] at hi
    rw [note, hstore] at ha
    rw [hstore] at hs
    have hcheap := ih i hi a ha
    have hle := hcheap.le_of_next? hserved htrivial hnext hs
    have hreachable := H.consistent.grown.reachable hs
    have hrest : rest.Cheapest (ctx.successors id s) a := hcheap.of_next? hnext fun p hp =>
      hle.trans (hcosts hreachable (Context.Follows.of_mem_successors hp)).2.1
    exact ⟨hrest.waiting, hrest.pending⟩
  | @offer offered search e s pending H ih =>
    intro i hi a ha
    rw [relax_eq] at hi ha ⊢
    split at hi
    · rw [if_pos ‹_›] at ha ⊢
      have hcheap := ih i hi a ha
      exact ⟨hcheap.waiting, fun p hp => hcheap.pending p (List.mem_cons_of_mem _ hp)⟩
    · rw [if_neg ‹_›] at ha ⊢
      have ha := StateStore.get?_of_push (H.consistent.lt_size_of_mem_found hi) ha
      have hcheap := (ih i hi a ha).accept htrivial
      exact ⟨hcheap.waiting, hcheap.pending⟩

/-- What is found later weighs no less. -/
theorem Moment.pairwise_weight_le (H : Moment ctx offered pending search)
    (htrivial : ctx.request.heuristic = .trivial) (hcosts : ctx.NeverLowers) :
    search.found.Pairwise fun i j => ∀ a b, search.store.get? i = some a →
      search.store.get? j = some b → a.weight ≤ b.weight := by
  refine H.induct_kept (P := fun _ store found => found.Pairwise fun i j => ∀ a b,
    store.get? i = some a → store.get? j = some b → a.weight ≤ b.weight) List.Pairwise.nil ?_ ?_
  · intro offered search rest id s H hnext hs _ ih
    have hserved : search.Served ctx := H.reached.served
    refine List.pairwise_append.2 ⟨ih, List.pairwise_singleton _ _, fun i hi j hj a b ha hb => ?_⟩
    cases List.mem_singleton.1 hj
    exact (H.cheapest htrivial hcosts i hi a ha).le_of_next? hserved htrivial hnext hb
  · intro offered e s pending search H _ ih
    have hcons := H.consistent
    refine ih.imp_of_mem fun {i j} hi hj h a b ha hb => h a b ?_ ?_
    · exact StateStore.get?_of_push (hcons.lt_size_of_mem_found hi) ha
    · exact StateStore.get?_of_push (hcons.lt_size_of_mem_found hj) hb

end Search

namespace Context

/-- `c` counts in place of `a` at no other weight: only the street that `a` came over kept it from
being compared with `c`. -/
structure Shields (ctx : Context R) (c a : State R) : Prop where
  vertex : c.vertex = a.vertex
  side : onSameSide c a = true
  plane : c.plane = a.plane
  weight : c.weight = a.weight
  special : ctx.isSpecial a = true
  plain : ctx.isSpecial c = false

theorem not_isSpecial_of_board (h : s.arrivedVia .board = true) : ctx.isSpecial s = false := by
  rw [isSpecial, State.backStreet?_eq_none_of_arrivedVia h (by decide)]
  rfl

theorem not_futureDiffers_of_plain (h : ctx.isSpecial a = false) :
    ctx.futureDiffers a b = false := by
  refine Bool.eq_false_iff.2 fun hdiffers => ?_
  rw [(futureDiffers_iff.1 hdiffers).2] at h
  cases h

omit [Geodesy R] in
theorem noWorse_iff_weight_le (hrule : ctx.request.dominance = .minimumWeight) :
    ctx.request.dominance.noWorse a b = true ↔ a.weight ≤ b.weight := by
  rw [hrule, DominanceRule.noWorse_iff]

/-- What dominates a state of no more weight, and is not dominated back, shields it. -/
theorem Shields.of_dominates (hgrown : ctx.Grown store)
    (hrule : ctx.request.dominance = .minimumWeight)
    (hmix : ctx.graph.BoardsAfterChangeTo t.vertex → ¬ ctx.MixesBicycles)
    (ht : ctx.Born store t) (ha : ctx.Born store a) (hv : t.vertex = a.vertex)
    (hweight : a.weight ≤ t.weight)
    (hdom : ctx.dominates ctx.request.dominance store t a = true)
    (hback : ctx.dominates ctx.request.dominance store a t = false) : ctx.Shields t a := by
  have hplane := hgrown.plane_of_dominates hmix ht ha hdom
  obtain ⟨hside, hwhy⟩ := dominates_iff.1 hdom
  have hdiffers : ctx.futureDiffers a t = true := by
    by_contra h
    rw [dominates_iff.2 ⟨onSameSide_comm.1 hside, .inr ⟨hplane.symm, Bool.not_eq_true _ ▸ h,
      (noWorse_iff_weight_le hrule).2 hweight⟩⟩] at hback
    cases hback
  obtain ⟨hne, hspecial⟩ := futureDiffers_iff.1 hdiffers
  rcases hwhy with hboarded | ⟨-, hfuture, hcost⟩
  · rw [not_isSpecial_of_board (boardedAfterChange_iff.1 hboarded).2.1] at hspecial
    cases hspecial
  · refine ⟨hv, hside, hplane, ((noWorse_iff_weight_le hrule).1 hcost).antisymm hweight, hspecial,
      Bool.eq_false_iff.2 fun h => ?_⟩
    rw [futureDiffers_iff.2 ⟨hne.symm, h⟩] at hfuture
    cases hfuture

/-- What shields a state dominates whatever that dominates and that weighs no less. -/
theorem Shields.dominates (H : ctx.Shields c a) (hrule : ctx.request.dominance = .minimumWeight)
    (hdom : ctx.dominates ctx.request.dominance store a s = true) :
    ctx.dominates ctx.request.dominance store c s = true := by
  obtain ⟨hside, hboarded | ⟨hplane, -, hcost⟩⟩ := dominates_iff.1 hdom
  · have hspecial := H.special
    rw [not_isSpecial_of_board (boardedAfterChange_iff.1 hboarded).1] at hspecial
    cases hspecial
  · refine dominates_iff.2 ⟨?_, .inr ⟨H.plane.trans hplane, not_futureDiffers_of_plain H.plain, ?_⟩⟩
    · obtain ⟨haboard, htransfer, htimed, -⟩ := onSameSide_iff.1 H.side
      obtain ⟨haboard', htransfer', -, htimed'⟩ := onSameSide_iff.1 hside
      exact onSameSide_iff.2
        ⟨haboard.trans haboard', htransfer.trans htransfer', htimed, htimed'⟩
    · rw [noWorse_iff_weight_le hrule, H.weight]
      exact (noWorse_iff_weight_le hrule).1 hcost

end Context

namespace Search

/-- What was found counts, or something that shields it does. -/
theorem Moment.shielded (H : Moment ctx offered pending search)
    (hrule : ctx.request.dominance = .minimumWeight)
    (htrivial : ctx.request.heuristic = .trivial) (hcosts : ctx.NeverLowers)
    (hmix : ctx.graph.BoardsAfterChangeTo ctx.target → ¬ ctx.MixesBicycles) :
    ∀ i ∈ search.found, ∀ a, search.store.get? i = some a → search.tree.isPruned i = false ∨
      ∃ k ∈ search.tree.at? a.vertex, ∃ c, search.store.get? k = some c ∧ ctx.Shields c a := by
  refine H.induct_kept (P := fun tree store found => ∀ i ∈ found, ∀ a, store.get? i = some a →
    tree.isPruned i = false ∨ ∃ k ∈ tree.at? a.vertex, ∃ c, store.get? k = some c ∧
      ctx.Shields c a) (fun _ hi => absurd hi List.not_mem_nil) ?_ ?_
  · intro offered search rest id s H hnext _ _ ih i hi a ha
    rcases List.mem_append.1 hi with hi | hi
    · exact ih i hi a ha
    · cases List.mem_singleton.1 hi
      exact .inl (isPruned_of_next? hnext)
  · intro offered e t pending search H hkept ih i hi a ha
    have hcons := H.consistent
    have hgrown := hcons.grown
    have ha := StateStore.get?_of_push (hcons.lt_size_of_mem_found hi) ha
    obtain ⟨a', ha', hfinal⟩ := hcons.found i hi
    cases ha.symm.trans ha'
    have hend := Context.vertex_of_isFinal hfinal
    have ht := H.born_of_mem_pending List.mem_cons_self
    have hle := (H.cheapest htrivial hcosts i hi a ha).pending _ List.mem_cons_self
    -- A label at the destination that weighs as much and is beaten by `t` is shielded by it.
    have hbeaten : ∀ {k c}, search.store.get? k = some c → c.vertex = a.vertex →
        c.weight = a.weight → k ∈ search.tree.beaten ctx search.store t → ctx.Shields t c := by
      intro k c hc hv hweight hk
      obtain ⟨hlabel, c', hc', hdom⟩ := Tree.mem_beaten.1 hk
      cases hc.symm.trans hc'
      have hcv := hcons.kept.vertex_eq hlabel hc
      have hback := Tree.not_dominates_of_not_rejects hkept hlabel hc
      rw [hcons.kept.goesBy] at hdom hback
      have hmix' : ctx.graph.BoardsAfterChangeTo t.vertex → ¬ ctx.MixesBicycles := by
        rwa [← hcv, hv, hend]
      exact .of_dominates hgrown hrule hmix' ht (hgrown.born hc) hcv.symm (hweight.trans_le hle)
        hdom hback
    rcases ih i hi a ha with hcounts | ⟨k, hk, c, hc, hshields⟩
    · by_cases hi' : i ∈ search.tree.beaten ctx search.store t
      · have hshields := hbeaten ha rfl rfl hi'
        exact .inr ⟨search.store.size, Tree.mem_accept_at?.2 (.inr ⟨hshields.vertex.symm, rfl⟩), t,
          StateStore.get?_push_size, hshields⟩
      · exact .inl (Tree.accept_counts.2 ⟨hcounts, hi'⟩)
    · have hstays : k ∉ search.tree.beaten ctx search.store t := by
        intro hk'
        have hspecial := (hbeaten hc hshields.vertex hshields.weight hk').special
        rw [hshields.plain] at hspecial
        cases hspecial
      exact .inr ⟨k, Tree.mem_accept_at?.2 (.inl ⟨hk, fun _ => hstays⟩), c,
        StateStore.get?_push_of_get? hc, hshields⟩

theorem Moment.keepsOut_of_weight {e : EdgeIndex}
    (H : Moment ctx offered ((e, s) :: pending) search)
    (hrule : ctx.request.dominance = .minimumWeight)
    (htrivial : ctx.request.heuristic = .trivial) (hcosts : ctx.NeverLowers)
    (hmix : ctx.graph.BoardsAfterChangeTo ctx.target → ¬ ctx.MixesBicycles) :
    search.KeepsOut ctx s := by
  intro i hi a ha hv hdom
  have hcons := H.consistent
  rw [Tree.rejects_iff, hcons.kept.goesBy]
  rcases H.shielded hrule htrivial hcosts hmix i hi a ha with hcounts | ⟨k, hk, c, hc, hshields⟩
  · exact ⟨i, hv ▸ H.tree_offered.labelled.listed ha hcounts, a, ha, hdom⟩
  · exact ⟨k, hv ▸ hk, c, hc, hshields.dominates hrule hdom⟩

end Search

/-- A later end that dominates an earlier one shields it. -/
theorem Context.shields_of_endInTurn {paths : List (Itinerary R)} (h : ctx.findPaths = .ok paths)
    (hturn : EndInTurn paths a b) (hrule : ctx.request.dominance = .minimumWeight)
    (htrivial : ctx.request.heuristic = .trivial) (hcosts : ctx.NeverLowers)
    (hmix : ctx.graph.BoardsAfterChangeTo ctx.target → ¬ ctx.MixesBicycles)
    (hback : ctx.dominates ctx.request.dominance ctx.search.1.store a b = false)
    (hdom : ctx.dominates ctx.request.dominance ctx.search.1.store b a = true) :
    ctx.Shields b a := by
  obtain ⟨offered, hmoment⟩ := ctx.search_reached.moment
  have hcons := hmoment.consistent
  have hgrown := hcons.grown
  obtain ⟨i, hi, j, ha, hb, hv, hle⟩ :=
    of_endInTurn h hturn (hmoment.pairwise_weight_le htrivial hcosts)
  obtain ⟨a', ha', hfinal⟩ := hcons.found i hi
  cases ha.symm.trans ha'
  have hmix' : ctx.graph.BoardsAfterChangeTo b.vertex → ¬ ctx.MixesBicycles := by
    rwa [← hv, vertex_of_isFinal hfinal]
  exact .of_dominates hgrown hrule hmix' (hgrown.born hb) (hgrown.born ha) hv.symm
    (hle a b ha hb) hdom hback

/-- How the ends of the itineraries of one answer compare. If one of two dominates the other, the
earlier one was made needless after it was found. Over exact arithmetic no earlier end dominates a
later one if one kind of cost decides and no boarding after a guaranteed change ends the trip. A
search by weight without an estimate needs that only of requests that mix bicycles; a later end
then dominates an earlier one at the same weight only, where it shields it. -/
theorem Context.ends_of_findPaths :
    (∀ {R : Type} [Quantity R] [Geodesy R] {ctx : Context R} {paths : List (Itinerary R)}
      {a b : State R}, ctx.findPaths = .ok paths → EndInTurn paths a b →
      ctx.dominates ctx.request.dominance ctx.search.1.store a b = true ∨
        ctx.dominates ctx.request.dominance ctx.search.1.store b a = true →
      ¬ ctx.search.1.Counts a) ∧
    ∀ {R : Type} [Field R] [LinearOrder R] [IsStrictOrderedRing R] [FloorRing R] [Geodesy R]
      {ctx : Context R} {paths : List (Itinerary R)} {a b : State R},
      ctx.findPaths = .ok paths → EndInTurn paths a b →
      (ctx.request.dominance ≠ .pareto → ¬ ctx.graph.BoardsAfterChangeTo ctx.target →
        ctx.dominates ctx.request.dominance ctx.search.1.store a b = false) ∧
      (ctx.request.dominance = .minimumWeight → ctx.request.heuristic = .trivial →
        ctx.NeverLowers →
        (ctx.graph.BoardsAfterChangeTo ctx.target → ¬ ctx.MixesBicycles) →
        ctx.dominates ctx.request.dominance ctx.search.1.store a b = false ∧
          (ctx.dominates ctx.request.dominance ctx.search.1.store b a = true →
            ctx.Shields b a)) := by
  refine ⟨fun h hturn => not_counts_of_dominates h hturn, fun h hturn => ⟨?_, ?_⟩⟩
  · intro hrule hchange
    exact not_dominates_of_keepsOut h hturn fun H => H.keepsOut_of_outdoes hchange hrule
  · intro hrule htrivial hcosts hmix
    have hback := not_dominates_of_keepsOut h hturn fun H =>
      H.keepsOut_of_weight hrule htrivial hcosts hmix
    exact ⟨hback, shields_of_endInTurn h hturn hrule htrivial hcosts hmix hback⟩

/-! ## A street with a turn restriction -/

namespace Fork

/-- A street to work, and a street and a link that are as long. No car may turn round at work. -/
def graph : Graph ℚ :=
  { Graph.build
      [.intersection "home" ⟨0, 0⟩, .intersection "corner" ⟨1, 0⟩, .intersection "work" ⟨2, 0⟩]
      [(0, 1, .street (.plain 1 100 .allStreet)), (1, 2, .link 0),
        (0, 2, .street (.plain 2 100 .allStreet)), (2, 0, .street (.plain 2 100 .allStreet))] with
    restrictions := .ofList [(2, [⟨.noTurn, 2, 3, .ofList [.car]⟩])] }

/-- A walk to work. -/
def request (rule : DominanceRule) : Request ℚ :=
  { Bypass.request with walkSpeed := 1, walkReluctance := 1, dominance := rule }

/-- The walk placed on the network. -/
def walk (rule : DominanceRule) : Context ℚ := .placed (request rule) graph 0 2 ⟨0, 0⟩ ⟨2, 0⟩

/-- Come over the street. -/
def byStreet : State ℚ :=
  ⟨2, 100, 100, 100, some 0, some ⟨2, .street⟩, some .walk, .initial⟩

/-- Come over the link. -/
def byLink : State ℚ := ⟨2, 100, 100, 100, some 2, some ⟨1, .other⟩, some .walk, .initial⟩

theorem of_request (rule : DominanceRule) : Context.of (request rule) graph = .ok (walk rule) := by
  have hplain : (request rule).optimize ≠ .triangle := Optimize.noConfusion
  refine Context.of_placed ?_ rfl rfl (by decide +kernel) (by decide +kernel) hplain
  cases rule <;> decide

theorem shields_byStreet : ∃ paths, (walk .minimumWeight).findPaths = .ok paths ∧
    EndInTurn paths byStreet byLink ∧ ¬ (walk .minimumWeight).search.1.Counts byStreet ∧
      (walk .minimumWeight).dominates .minimumWeight (walk .minimumWeight).search.1.store byStreet
        byLink = false ∧ (walk .minimumWeight).Shields byLink byStreet := by
  have hfound : (walk .minimumWeight).search.1.found = [1, 3] := by decide +kernel
  have hpaths := Context.findPaths_eq_ok_iff.2 ⟨hfound ▸ List.cons_ne_nil 1 [3], rfl⟩
  have hturn : EndInTurn _ byStreet byLink := (Context.endInTurn_iff hpaths).2
    ⟨1, 3, hfound ▸ .refl _, by decide +kernel, by decide +kernel⟩
  have hdom : (walk .minimumWeight).dominates .minimumWeight (walk .minimumWeight).search.1.store
      byLink byStreet = true := by decide
  have hcosts : (walk .minimumWeight).NeverLowers :=
    (Context.isMeasured_of (of_request _) (by decide +kernel) (by decide +kernel)).neverLowers
  have huntimed : graph.IsUntimed := by decide
  have hchange : ¬ graph.BoardsAfterChangeTo 2 := fun h =>
    huntimed.not_boardsAfterChange h.boardsAfterChange
  have hends := Context.ends_of_findPaths.2 hpaths hturn
  exact ⟨_, hpaths, hturn, Context.ends_of_findPaths.1 hpaths hturn (.inr hdom),
    hends.1 (by decide) hchange, (hends.2 rfl rfl hcosts fun h => absurd h hchange).2 hdom⟩

end Fork

end TripPlanner
