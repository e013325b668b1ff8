import TripPlanner.Proofs.Guidance
import TripPlanner.Proofs.Lineage

/-!
# Answers

How the ends of the itineraries of one answer compare. A state is found when it is served, and
stays found when another one makes it needless later on. As long as that has not happened, neither
it nor what is found after it dominates the other (`Search.Moment.pairwise_apart`).

Whether an earlier end dominates a later one is decided when the later one is offered: something
has to keep it out (`Search.Moment.pairwise_not_dominates`). If one kind of cost decides, that is
whatever holds the earlier end by then (`Search.Moment.keepsOut_of_outdoes`).
-/

namespace TripPlanner

section
variable {R : Type} [Quantity R] [Geodesy R]

/-- A stored state makes another one at its vertex needless. -/
def StateStore.Dominates (store : StateStore R) (ctx : Context R) (i j : StateId) : Prop :=
  ∃ a b, store.get? i = some a ∧ store.get? j = some b ∧ a.vertex = b.vertex ∧
    ctx.dominates ctx.request.dominance store a b = true

variable {ctx : Context R} {store : StateStore R} {tree : Tree} {a b s t : State R}
  {i j id : StateId}

theorem StateStore.Dominates.of_push (H : (store.push t).Dominates ctx i j)
    (hgrown : ctx.Grown store) (hi : i < store.size) (hj : j < store.size) :
    store.Dominates ctx i j := by
  obtain ⟨a, b, ha, hb, hv, hdom⟩ := H
  have ha := get?_of_push hi ha
  rw [Context.dominates_push (hgrown.born ha).holdsParent] at hdom
  exact ⟨a, b, ha, get?_of_push hj hb, hv, hdom⟩

theorem Tree.Labelled.not_dominates (H : Labelled ctx ctx.request.dominance tree store)
    (hi : tree.isPruned i = false) (hj : tree.isPruned j = false) (hij : i ≠ j) :
    ¬ store.Dominates ctx i j := by
  rintro ⟨a, b, ha, hb, hv, hdom⟩
  rw [H.antichain (H.listed ha hi) (hv ▸ H.listed hb hj) hij ha hb] at hdom
  cases hdom

namespace Search

variable {search rest : Search R} {offered : List (State R)} {pending : List (EdgeIndex × State R)}

/-! ## What is found -/

/-- What is found does not wait any more, and is found once. -/
theorem Moment.found_nodup (H : Moment ctx offered pending search) :
    (search.found ++ search.queue.ids).Nodup := by
  induction H with
  | start => simp [start_found, start_ids]
  | arrive _ _ hnext hs hf ih =>
    rw [settle_of_isFinal hs hf]
    obtain ⟨dropped, w, behind, hwaiting, -, -, rfl, rfl⟩ := next?_eq_some_iff.1 hnext
    refine ih.sublist ?_
    simp only [Queue.ids, note, hwaiting, List.map_append, List.map_cons, List.append_assoc,
      List.singleton_append]
    exact (List.Sublist.refl _).append (List.sublist_append_right _ _)
  | @expand _ _ rest id s _ _ hnext _ _ ih =>
    obtain ⟨events, heq⟩ := noteAll_eq (rest.note (.visited s)) (ctx.successors id s)
    rw [heq]
    obtain ⟨dropped, w, behind, hwaiting, -, -, rfl, rfl⟩ := next?_eq_some_iff.1 hnext
    refine ih.sublist ?_
    simp only [Queue.ids, note, hwaiting, List.map_append, List.map_cons]
    refine (List.Sublist.refl _).append ?_
    exact (List.sublist_cons_self _ _).trans (List.sublist_append_right _ _)
  | @offer _ search _ s _ H ih =>
    rw [relax_eq]
    split
    · exact ih
    · have hids : (search.found ++ (search.accept ctx s).queue.ids).Perm
          (search.store.size :: (search.found ++ search.queue.ids)) :=
        (Queue.ids_push_perm.append_left _).trans List.perm_middle
      refine hids.nodup_iff.2 (List.nodup_cons.2 ⟨fun hmem => ?_, ih⟩)
      rcases List.mem_append.1 hmem with hfound | hwaits
      · obtain ⟨a, ha, -⟩ := H.consistent.found _ hfound
        exact Nat.lt_irrefl _ (StateStore.lt_size_of_get? ha)
      · exact Nat.lt_irrefl _ (H.consistent.queued.stored _ hwaits)

theorem Moment.not_mem_found_of_next? (H : Moment ctx offered pending search)
    (h : search.next? = some (id, rest)) : id ∉ search.found := by
  have hmem := (H.consistent.queued.next? h).2.1
  exact fun hfound => (List.nodup_append.1 H.found_nodup).2.2 id hfound id hmem rfl

omit [Quantity R] [Geodesy R] in
theorem isPruned_of_next? (h : search.next? = some (id, rest)) :
    search.tree.isPruned id = false := by
  obtain ⟨_, w, _, -, -, hcounts, rfl, -⟩ := next?_eq_some_iff.1 h
  exact hcounts

omit [Geodesy R] in
theorem Consistent.lt_size_of_mem_found (H : search.Consistent ctx) (hi : i ∈ search.found) :
    i < search.store.size := by
  obtain ⟨a, ha, -⟩ := H.found i hi
  exact StateStore.lt_size_of_get? ha

/-- As long as what was found first counts, neither of two that were found dominates the other. -/
theorem Moment.pairwise_apart (H : Moment ctx offered pending search) :
    search.found.Pairwise fun i j => search.tree.isPruned i = false →
      ¬ search.store.Dominates ctx i j ∧ ¬ search.store.Dominates ctx j i := by
  refine H.induct_kept (P := fun tree store found => found.Pairwise fun i j =>
    tree.isPruned i = false → ¬ store.Dominates ctx i j ∧ ¬ store.Dominates ctx j i)
    List.Pairwise.nil ?_ ?_
  · intro offered search rest id s H hnext _ _ ih
    refine List.pairwise_append.2 ⟨ih, List.pairwise_singleton _ _, fun i hi j hj hcounts => ?_⟩
    cases List.mem_singleton.1 hj
    have hij : i ≠ id := fun h => H.not_mem_found_of_next? hnext (h ▸ hi)
    have hlabelled := H.tree_offered.labelled
    have hid := isPruned_of_next? hnext
    exact ⟨hlabelled.not_dominates hcounts hid hij, hlabelled.not_dominates hid hcounts hij.symm⟩
  · intro offered e s pending search H _ ih
    have hcons := H.consistent
    refine ih.imp_of_mem fun {i j} hi hj h hcounts => ?_
    have hi := hcons.lt_size_of_mem_found hi
    have hj := hcons.lt_size_of_mem_found hj
    have hold := (Tree.accept_counts.1 hcounts).1
    exact ⟨fun hdom => (h hold).1 (hdom.of_push hcons.grown hi hj),
      fun hdom => (h hold).2 (hdom.of_push hcons.grown hj hi)⟩

/-- Whatever was found keeps a state out that it dominates. -/
def KeepsOut (search : Search R) (ctx : Context R) (s : State R) : Prop :=
  ∀ i ∈ search.found, ∀ a, search.store.get? i = some a → a.vertex = s.vertex →
    ctx.dominates ctx.request.dominance search.store a s = true →
    search.tree.rejects ctx search.store s = true

/-- If whatever is found keeps out what it dominates, no other state that counts is dominated by
something found. -/
theorem Moment.not_dominates_of_mem_found (H : Moment ctx offered pending search)
    (hkeeps : ∀ {offered e s pending search}, Moment ctx offered ((e, s) :: pending) search →
      search.KeepsOut ctx s) : ∀ i ∈ search.found, ∀ j, i ≠ j → search.tree.isPruned j = false →
      ¬ search.store.Dominates ctx i j := by
  refine H.induct_kept (P := fun tree store found => ∀ i ∈ found, ∀ j, i ≠ j →
    tree.isPruned j = false → ¬ store.Dominates ctx i j) (fun _ hi => absurd hi List.not_mem_nil)
    ?_ ?_
  · intro offered search rest id s H hnext _ _ ih i hi j hij hj
    rcases List.mem_append.1 hi with hi | hi
    · exact ih i hi j hij hj
    · cases List.mem_singleton.1 hi
      exact H.tree_offered.labelled.not_dominates (isPruned_of_next? hnext) hj hij
  · intro offered e s pending search H hkept ih i hi j hij hj hdom
    have hcons := H.consistent
    have hi' := hcons.lt_size_of_mem_found hi
    obtain ⟨a, b, ha, hb, hv, hdominates⟩ := hdom
    rcases StateStore.get?_push_cases hb with hold | ⟨rfl, rfl⟩
    · refine ih i hi j hij (Tree.accept_counts.1 hj).1 ?_
      exact StateStore.Dominates.of_push ⟨a, b, ha, hb, hv, hdominates⟩ hcons.grown hi'
        (StateStore.lt_size_of_get? hold)
    · have ha := StateStore.get?_of_push hi' ha
      rw [Context.dominates_push (hcons.grown.born ha).holdsParent] at hdominates
      rw [hkeeps H i hi a ha hv hdominates] at hkept
      cases hkept

theorem Moment.pairwise_not_dominates (H : Moment ctx offered pending search)
    (hkeeps : ∀ {offered e s pending search}, Moment ctx offered ((e, s) :: pending) search →
      search.KeepsOut ctx s) :
    search.found.Pairwise fun i j => ¬ search.store.Dominates ctx i j := by
  refine H.induct_kept (P := fun _ store found => found.Pairwise fun i j =>
    ¬ store.Dominates ctx i j) List.Pairwise.nil ?_ ?_
  · intro offered search rest id s H hnext _ _ ih
    refine List.pairwise_append.2 ⟨ih, List.pairwise_singleton _ _, fun i hi j hj => ?_⟩
    cases List.mem_singleton.1 hj
    have hij : i ≠ id := fun h => H.not_mem_found_of_next? hnext (h ▸ hi)
    exact H.not_dominates_of_mem_found hkeeps i hi id hij (isPruned_of_next? hnext)
  · intro offered e s pending search H _ ih
    have hcons := H.consistent
    refine ih.imp_of_mem fun {i j} hi hj h hdom => ?_
    exact h (hdom.of_push hcons.grown (hcons.lt_size_of_mem_found hi)
      (hcons.lt_size_of_mem_found hj))

end Search

/-! ## Ends of itineraries -/

/-- `a` ends one of the itineraries, and `b` a later one. -/
def EndInTurn {R : Type} (paths : List (Itinerary R)) (a b : State R) : Prop :=
  ∃ p q, [p, q].Sublist paths ∧ p.states.getLast? = some a ∧ q.states.getLast? = some b

namespace Context

variable {paths : List (Itinerary R)}

omit [Quantity R] [Geodesy R] in
theorem vertex_of_isFinal (h : ctx.isFinal s = true) : s.vertex = ctx.target := by
  simp only [isFinal, Bool.and_eq_true, decide_eq_true_eq] at h
  exact h.1.1.1

theorem endInTurn_iff (h : ctx.findPaths = .ok paths) : EndInTurn paths a b ↔
    ∃ i j, [i, j].Sublist ctx.search.1.found ∧ ctx.search.1.store.get? i = some a ∧
      ctx.search.1.store.get? j = some b := by
  obtain ⟨-, rfl⟩ := findPaths_eq_ok_iff.1 h
  have hcons := ctx.search_reached.consistent
  have hlast : ∀ {i s}, i ∈ ctx.search.1.found →
      ((ctx.itineraryTo ctx.search.1.store i).states.getLast? = some s ↔
        ctx.search.1.store.get? i = some s) := by
    intro i s hi
    obtain ⟨t, ht, -⟩ := hcons.found i hi
    rw [(hcons.grown.trail_itineraryTo ht).getLast?, ht]
  constructor
  · rintro ⟨p, q, hsub, ha, hb⟩
    obtain ⟨ids, hids, hmap⟩ := List.sublist_map_iff.1 hsub
    obtain ⟨i, rest, rfl, rfl, hrest⟩ := List.map_eq_cons_iff.1 hmap.symm
    obtain ⟨j, rest', rfl, rfl, hnil⟩ := List.map_eq_cons_iff.1 hrest
    cases List.map_eq_nil_iff.1 hnil
    have hi : i ∈ ctx.search.1.found := hids.subset (by simp)
    have hj : j ∈ ctx.search.1.found := hids.subset (by simp)
    exact ⟨i, j, hids, (hlast hi).1 ha, (hlast hj).1 hb⟩
  · rintro ⟨i, j, hids, ha, hb⟩
    exact ⟨_, _, hids.map _, (hlast (hids.subset (by simp))).2 ha,
      (hlast (hids.subset (by simp))).2 hb⟩

/-- A relation that holds of any two states found holds of the ends of itineraries. -/
theorem of_endInTurn {P : StateId → StateId → Prop} (h : ctx.findPaths = .ok paths)
    (hturn : EndInTurn paths a b) (hpairs : ctx.search.1.found.Pairwise P) :
    ∃ i ∈ ctx.search.1.found, ∃ j, ctx.search.1.store.get? i = some a ∧
      ctx.search.1.store.get? j = some b ∧ a.vertex = b.vertex ∧ P i j := by
  obtain ⟨i, j, hids, ha, hb⟩ := (endInTurn_iff h).1 hturn
  have hcons := ctx.search_reached.consistent
  have hend : ∀ {k s}, k ∈ ctx.search.1.found → ctx.search.1.store.get? k = some s →
      s.vertex = ctx.target := by
    intro k s hk hs
    obtain ⟨t, ht, hfinal⟩ := hcons.found k hk
    cases hs.symm.trans ht
    exact vertex_of_isFinal hfinal
  have hi : i ∈ ctx.search.1.found := hids.subset (by simp)
  have hj : j ∈ ctx.search.1.found := hids.subset (by simp)
  exact ⟨i, hi, j, ha, hb, (hend hi ha).trans (hend hj hb).symm,
    List.pairwise_iff_forall_sublist.1 hpairs hids⟩

/-- Of two ends of which one dominates the other, the earlier one does not count any more. -/
theorem not_counts_of_dominates (h : ctx.findPaths = .ok paths) (hturn : EndInTurn paths a b)
    (hdom : ctx.dominates ctx.request.dominance ctx.search.1.store a b = true ∨
      ctx.dominates ctx.request.dominance ctx.search.1.store b a = true) :
    ¬ ctx.search.1.Counts a := by
  rintro ⟨k, hk, hka⟩
  obtain ⟨offered, hmoment⟩ := ctx.search_reached.moment
  obtain ⟨i, -, j, ha, hb, hv, hapart⟩ := of_endInTurn h hturn hmoment.pairwise_apart
  cases hmoment.eq_of_key hka ha rfl
  obtain ⟨hab, hba⟩ := hapart (hmoment.consistent.kept.counts hk)
  rcases hdom with hdom | hdom
  · exact hab ⟨a, b, ha, hb, hv, hdom⟩
  · exact hba ⟨b, a, hb, ha, hv.symm, hdom⟩

theorem not_dominates_of_keepsOut (h : ctx.findPaths = .ok paths) (hturn : EndInTurn paths a b)
    (hkeeps : ∀ {offered e s pending search}, Search.Moment ctx offered ((e, s) :: pending) search →
      search.KeepsOut ctx s) :
    ctx.dominates ctx.request.dominance ctx.search.1.store a b = false := by
  obtain ⟨offered, hmoment⟩ := ctx.search_reached.moment
  obtain ⟨i, -, j, ha, hb, hv, hapart⟩ :=
    of_endInTurn h hturn (hmoment.pairwise_not_dominates hkeeps)
  exact Bool.eq_false_iff.2 fun hdom => hapart ⟨a, b, ha, hb, hv, hdom⟩

end Context

end

variable {R : Type} [Field R] [LinearOrder R] [IsStrictOrderedRing R] [FloorRing R] [Geodesy R]
  {ctx : Context R} {store : StateStore R} {search rest : Search R} {offered : List (State R)}
  {pending : List (EdgeIndex × State R)} {a b c s t : State R} {i : StateId}

/-! ## One kind of cost -/

namespace Context

/-- `a` is `b` or outdoes it, if `b` is at the given vertex. -/
def OutdoesAt (ctx : Context R) (v : VertexIndex) (a b : State R) : Prop :=
  b.vertex = v → a = b ∨ ctx.Outdoes a b

theorem justifies_outdoesAt {v : VertexIndex} (hchange : ¬ ctx.graph.BoardsAfterChangeTo v)
    (hrule : ctx.request.dominance ≠ .pareto) : ctx.Justifies (ctx.OutdoesAt v) where
  refl _ _ := .inl rfl
  trans {a b c} ha hb hab hbc hv := by
    rcases hbc hv with rfl | hbc
    · exact hab hv
    · rcases hab (hbc.vertex.trans hv) with rfl | hab
      · exact .inr hbc
      · exact .inr (hab.trans hrule ha hb hbc)
  of_dominates hgrown ha _ hv h hb := by
    subst hb
    exact .inr (.of_dominates_at hgrown ha (hv.symm ▸ hchange) hv h)

end Context

namespace Search

/-- What holds the end of an itinerary keeps out what that dominates. -/
theorem Moment.keepsOut_of_outdoes {e : EdgeIndex}
    (H : Moment ctx offered ((e, s) :: pending) search)
    (hchange : ¬ ctx.graph.BoardsAfterChangeTo ctx.target)
    (hrule : ctx.request.dominance ≠ .pareto) : search.KeepsOut ctx s := by
  intro i hi a ha hv hdom
  have hcons := H.consistent
  have hgrown := hcons.grown
  obtain ⟨a', ha', hfinal⟩ := hcons.found i hi
  cases ha.symm.trans ha'
  have hend := Context.vertex_of_isFinal hfinal
  obtain ⟨k, hk, x, hx, hholds⟩ :=
    H.heldBy (Context.justifies_outdoesAt hchange hrule) a (H.mem_offered ha)
  have has : ctx.Outdoes a s :=
    .of_dominates_at hgrown (hgrown.born ha) (hend.symm ▸ hchange) hv hdom
  have hxs : ctx.Outdoes x s := by
    rcases hholds hend with rfl | hxa
    · exact has
    · exact hxa.trans hrule (hgrown.reachable hx) (hgrown.reachable ha) has
  rw [Tree.rejects_iff, hcons.kept.goesBy]
  exact ⟨k, hv ▸ hk, x, hx, hxs.dominates⟩

end Search

end TripPlanner
