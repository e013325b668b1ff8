import TripPlanner.Proofs.Growth

/-!
# Runs

A run is a sequence of steps (`Search.advance?`) that ends where no step is left. What every search
on the way keeps up is `Search.Consistent`: each state but the first follows an earlier one that is
not final, a state that waits has gone nowhere yet, and the tree holds states that are not pruned.
-/

namespace TripPlanner

section
variable {R : Type} [Quantity R]

/-- The first state is the start of the trip, and every other one follows an earlier one that has
not arrived. -/
structure Context.Grown (ctx : Context R) (store : StateStore R) : Prop where
  origin : store.get? 0 = some (.initial ctx.origin)
  parent : ∀ {i s}, store.get? i = some s → 0 < i → ∃ p a e, p < i ∧ store.get? p = some a ∧
    ctx.isFinal a = false ∧ (e, s) ∈ ctx.successors p a

variable {ctx : Context R} {store : StateStore R} {a s : State R} {i p : StateId} {e : EdgeIndex}

theorem Context.Grown.push (H : ctx.Grown store) (ha : store.get? p = some a)
    (hf : ctx.isFinal a = false) (hs : (e, s) ∈ ctx.successors p a) :
    ctx.Grown (store.push s) where
  origin := StateStore.get?_push_of_get? H.origin
  parent hget hi := by
    rcases StateStore.get?_push_cases hget with hold | ⟨rfl, rfl⟩
    · obtain ⟨p', a', e', hlt, hp', hf', hs'⟩ := H.parent hold hi
      exact ⟨p', a', e', hlt, StateStore.get?_push_of_get? hp', hf', hs'⟩
    · exact ⟨p, a, e, StateStore.lt_size_of_get? ha, StateStore.get?_push_of_get? ha, hf, hs⟩

theorem Context.Grown.reachable (H : ctx.Grown store) (hs : store.get? i = some s) :
    ctx.Reachable s := by
  induction i using Nat.strong_induction_on generalizing s with
  | _ i ih =>
    rcases Nat.eq_zero_or_pos i with rfl | hi
    · cases H.origin.symm.trans hs
      exact .origin
    · obtain ⟨p, a, e, hlt, ha, -, hstep⟩ := H.parent hs hi
      exact (ih p hlt ha).step (.of_mem_successors hstep)

end

namespace Search

variable {R : Type} [Quantity R] [Geodesy R] {ctx : Context R} {search rest next : Search R}
  {s : State R} {i id : StateId} {e : EdgeIndex} {n : Nat}

/-! ## What waits -/

omit [Quantity R] [Geodesy R] in
/-- What waits is in the store, waits once, and nothing has followed it yet. -/
structure Queued (search : Search R) : Prop where
  stored : ∀ i ∈ search.queue.ids, i < search.store.size
  nodup : search.queue.ids.Nodup
  fresh : ∀ {i s p}, search.store.get? i = some s → s.parent = some p →
    p < search.store.size ∧ p ∉ search.queue.ids

theorem Queued.accept (H : search.Queued) (hid : id < search.store.size)
    (hpopped : id ∉ search.queue.ids) (hs : s.parent = some id) : (search.accept ctx s).Queued where
  stored i hi := by
    rcases Queue.mem_ids_push.1 hi with rfl | hi
    · simp [Search.accept]
    · simpa [Search.accept] using Nat.lt_succ_of_lt (H.stored i hi)
  nodup := by
    refine Queue.ids_push_perm.nodup_iff.2 (List.nodup_cons.2 ⟨fun hmem => ?_, H.nodup⟩)
    exact Nat.lt_irrefl _ (H.stored _ hmem)
  fresh {i s' p} hget hp := by
    have hold : p < search.store.size ∧ p ∉ search.queue.ids := by
      rcases StateStore.get?_push_cases hget with hget | ⟨rfl, rfl⟩
      · exact H.fresh hget hp
      · cases hs.symm.trans hp
        exact ⟨hid, hpopped⟩
    refine ⟨by simpa [Search.accept] using Nat.lt_succ_of_lt hold.1, fun hmem => ?_⟩
    rcases Queue.mem_ids_push.1 hmem with rfl | hmem
    · exact Nat.lt_irrefl _ hold.1
    · exact hold.2 hmem

omit [Quantity R] [Geodesy R] in
/-- The state taken off the queue does not wait any more. -/
theorem Queued.next? (H : search.Queued) (h : search.next? = some (id, rest)) :
    rest.Queued ∧ id ∈ search.queue.ids ∧ id ∉ rest.queue.ids := by
  obtain ⟨dropped, w, behind, hwaiting, -, -, rfl, rfl⟩ := next?_eq_some_iff.1 h
  have hids : search.queue.ids = dropped.map Waiting.id ++ w.id :: behind.map Waiting.id := by
    simp [Queue.ids, hwaiting]
  have hsub : ∀ i ∈ behind.map Waiting.id, i ∈ search.queue.ids := by
    intro i hi
    rw [hids]
    exact List.mem_append_right _ (List.mem_cons_of_mem _ hi)
  have hnodup := H.nodup
  rw [hids, List.nodup_append, List.nodup_cons] at hnodup
  refine ⟨⟨fun i hi => H.stored i (hsub i hi), hnodup.2.1.2, fun hget hp => ?_⟩, ?_,
    hnodup.2.1.1⟩
  · exact ⟨(H.fresh hget hp).1, fun hmem => (H.fresh hget hp).2 (hsub _ hmem)⟩
  · rw [hids]
    exact List.mem_append_right _ List.mem_cons_self

/-! ## Consistent searches -/

/-- What every search under way keeps up. -/
structure Consistent (ctx : Context R) (search : Search R) : Prop where
  grown : ctx.Grown search.store
  queued : search.Queued
  kept : search.tree.Kept ctx.request.dominance search.store
  found : ∀ i ∈ search.found, ∃ s, search.store.get? i = some s ∧ ctx.isFinal s = true

theorem Consistent.start : (start ctx).Consistent ctx where
  grown := by
    refine ⟨get?_start_iff.2 ⟨rfl, rfl⟩, fun h hi => ?_⟩
    exact absurd (get?_start_iff.1 h).1 (Nat.ne_of_gt hi)
  queued := by
    refine ⟨fun i hi => ?_, by simp [start_ids], fun h hp => ?_⟩
    · rw [start_ids, List.mem_singleton] at hi
      simp [hi, start_store]
    · rw [(get?_start_iff.1 h).2] at hp
      cases hp
  kept := by
    rw [start_eq]
    exact Tree.Kept.empty.accept
  found i hi := by
    rw [start_found] at hi
    exact absurd hi List.not_mem_nil

omit [Geodesy R] in
theorem Consistent.of_eq (H : search.Consistent ctx) (hstore : next.store = search.store)
    (htree : next.tree = search.tree) (hqueue : next.queue = search.queue)
    (hfound : ∀ i ∈ next.found, ∃ s, search.store.get? i = some s ∧ ctx.isFinal s = true) :
    next.Consistent ctx where
  grown := hstore ▸ H.grown
  queued := ⟨fun i hi => hstore ▸ H.queued.stored i (hqueue ▸ hi), hqueue ▸ H.queued.nodup,
    fun hget hp => hstore ▸ hqueue ▸ H.queued.fresh (hstore ▸ hget) hp⟩
  kept := hstore ▸ htree ▸ H.kept
  found i hi := hstore ▸ hfound i hi

omit [Geodesy R] in
theorem Consistent.note {event : Event R} (H : search.Consistent ctx) :
    (search.note event).Consistent ctx :=
  H.of_eq rfl rfl rfl H.found

theorem Consistent.accept (H : search.Consistent ctx) (hs : search.store.get? id = some s)
    (hf : ctx.isFinal s = false) (hpopped : id ∉ search.queue.ids) {t : State R}
    (ht : (e, t) ∈ ctx.successors id s) : (search.accept ctx t).Consistent ctx where
  grown := H.grown.push hs hf ht
  queued := H.queued.accept (StateStore.lt_size_of_get? hs) hpopped
    (Context.parent_of_mem_successors ht)
  kept := H.kept.accept
  found i hi := by
    obtain ⟨t, ht, hft⟩ := H.found i hi
    exact ⟨t, StateStore.get?_push_of_get? ht, hft⟩

omit [Geodesy R] in
/-- A state taken off the queue leaves the search consistent. -/
theorem Consistent.next? (H : search.Consistent ctx) (h : search.next? = some (id, rest)) :
    rest.Consistent ctx ∧ id ∉ rest.queue.ids ∧ ∃ s, rest.store.get? id = some s := by
  obtain ⟨hqueued, hmem, hnot⟩ := H.queued.next? h
  obtain ⟨_, _, _, _, _, _, _, rfl⟩ := next?_eq_some_iff.1 h
  exact ⟨⟨H.grown, hqueued, H.kept, H.found⟩, hnot,
    StateStore.get?_isSome_of_lt (H.queued.stored id hmem)⟩

omit [Geodesy R] in
/-- A consistent search in which a state was taken off the queue and is gone on from. -/
structure Expanding (ctx : Context R) (id : StateId) (s : State R) (search : Search R) : Prop where
  consistent : search.Consistent ctx
  stored : search.store.get? id = some s
  notFinal : ctx.isFinal s = false
  popped : id ∉ search.queue.ids

omit [Geodesy R] in
theorem Expanding.note {event : Event R} (H : Expanding ctx id s search) :
    Expanding ctx id s (search.note event) :=
  ⟨H.consistent.note, H.stored, H.notFinal, H.popped⟩

theorem Expanding.accept {t : State R} (H : Expanding ctx id s search)
    (ht : (e, t) ∈ ctx.successors id s) : Expanding ctx id s (search.accept ctx t) where
  consistent := H.consistent.accept H.stored H.notFinal H.popped ht
  stored := StateStore.get?_push_of_get? H.stored
  notFinal := H.notFinal
  popped hmem := by
    rcases Queue.mem_ids_push.1 hmem with rfl | hmem
    · exact Nat.lt_irrefl _ (StateStore.lt_size_of_get? H.stored)
    · exact H.popped hmem

theorem Expanding.expand (H : Expanding ctx id s search) :
    Expanding ctx id s (search.expand ctx id s) :=
  expand_keeps (fun _ _ h => h.note) (fun _ _ _ ht _ h => h.accept ht) H

theorem Consistent.settle (H : search.Consistent ctx) (hs : search.store.get? id = some s)
    (hpopped : id ∉ search.queue.ids) : (search.settle ctx id).Consistent ctx := by
  rw [settle_eq hs]
  split
  · rename_i hf
    refine H.of_eq rfl rfl rfl fun i hi => ?_
    rcases List.mem_append.1 hi with hi | hi
    · exact H.found i hi
    · cases List.mem_singleton.1 hi
      exact ⟨s, hs, hf⟩
  · rename_i hf
    have hstart : Expanding ctx id s (search.note (.visited s)) :=
      ⟨H.note, hs, Bool.not_eq_true _ ▸ hf, hpopped⟩
    exact hstart.expand.consistent

theorem expand_found : (search.expand ctx id s).found = search.found :=
  expand_keeps (P := fun next => next.found = search.found) (fun _ _ h => h) (fun _ _ _ _ _ h => h)
    rfl

theorem settle_found_length_le :
    (search.settle ctx id).found.length ≤ search.found.length + 1 := by
  cases hs : search.store.get? id with
  | none => simp [settle, hs]
  | some s =>
    rw [settle_eq hs]
    split
    · simp
    · simp [expand_found, note]

/-! ## Steps of a run -/

/-- One step of a run, if one is left to take. -/
def advance? (ctx : Context R) (search : Search R) : Option (Search R) :=
  if ctx.request.numItineraries ≤ search.found.length then none
  else search.next?.map fun (id, rest) => rest.settle ctx id

theorem advance?_eq_some_iff : search.advance? ctx = some next ↔
    search.found.length < ctx.request.numItineraries ∧
      ∃ id rest, search.next? = some (id, rest) ∧ next = rest.settle ctx id := by
  unfold advance?
  split
  · rename_i henough
    simp [Nat.not_lt.2 henough]
  · rename_i hshort
    simp only [Option.map_eq_some_iff, Prod.exists, Nat.not_le.1 hshort, true_and]
    exact exists₂_congr fun _ _ => and_congr_right fun _ => eq_comm

theorem advance?_eq_none_iff : search.advance? ctx = none ↔
    ctx.request.numItineraries ≤ search.found.length ∨ search.next? = none := by
  unfold advance?
  split
  · rename_i henough
    simp [henough]
  · rename_i hshort
    simp [hshort]

/-- Searches on the way of a run. -/
inductive Reached (ctx : Context R) : Search R → Prop where
  | start : Reached ctx (Search.start ctx)
  | advance {search next : Search R} :
      Reached ctx search → search.advance? ctx = some next → Reached ctx next

theorem Reached.consistent (H : search.Reached ctx) : search.Consistent ctx := by
  induction H with
  | start => exact .start
  | advance _ h ih =>
    obtain ⟨-, id, rest, hnext, rfl⟩ := advance?_eq_some_iff.1 h
    obtain ⟨hrest, hpopped, s, hs⟩ := ih.next? hnext
    exact hrest.settle hs hpopped

/-- What the start has, and what settling a state that was taken off the queue keeps up. -/
theorem Reached.induct {P : Search R → Prop} (H : search.Reached ctx)
    (hstart : P (Search.start ctx))
    (hsettle : ∀ {search rest id s}, search.Reached ctx → P search →
      search.next? = some (id, rest) → rest.Consistent ctx → rest.store.get? id = some s →
      id ∉ rest.queue.ids → P (rest.settle ctx id)) : P search := by
  induction H with
  | start => exact hstart
  | advance hreached h ih =>
    obtain ⟨-, id, rest, hnext, rfl⟩ := advance?_eq_some_iff.1 h
    obtain ⟨hrest, hpopped, s, hs⟩ := hreached.consistent.next? hnext
    exact hsettle hreached ih hnext hrest hs hpopped

theorem Reached.found_length_le (H : search.Reached ctx) :
    search.found.length ≤ ctx.request.numItineraries := by
  induction H with
  | start => simp [start_found]
  | advance _ h _ =>
    obtain ⟨hshort, id, rest, hnext, rfl⟩ := advance?_eq_some_iff.1 h
    rw [← (next?_rest hnext).2.2] at hshort
    exact settle_found_length_le.trans hshort

theorem run_of_advance?_eq_some (h : search.advance? ctx = some next) :
    run ctx (n + 1) search = run ctx n next := by
  obtain ⟨hshort, id, rest, hnext, rfl⟩ := advance?_eq_some_iff.1 h
  rw [run, if_neg (Nat.not_le.2 hshort), hnext]

/-- Where no step is left the run ends, however many steps are granted. -/
theorem run_of_advance?_eq_none (h : search.advance? ctx = none) : run ctx n search = (search,
    if ctx.request.numItineraries ≤ search.found.length then .enough else .exhausted) := by
  unfold run
  split
  · rfl
  · rename_i hshort
    rw [(advance?_eq_none_iff.1 h).resolve_left hshort]

private theorem run_ended (H : search.Reached ctx) (h : search.advance? ctx = none) :
    ∃ last reason, run ctx n search = (last, reason) ∧ last.Reached ctx ∧
      (reason = .enough → ctx.request.numItineraries ≤ last.found.length) ∧
      (reason = .exhausted → last.next? = none) := by
  refine ⟨_, _, run_of_advance?_eq_none h, H, fun henough => ?_, fun hexhausted => ?_⟩
  · split at henough
    · assumption
    · cases henough
  · split at hexhausted
    · cases hexhausted
    · exact (advance?_eq_none_iff.1 h).resolve_left ‹_›

theorem run_zero_of_advance?_eq_some (h : search.advance? ctx = some next) :
    run ctx 0 search = (search, .outOfSteps) := by
  obtain ⟨hshort, id, rest, hnext, rfl⟩ := advance?_eq_some_iff.1 h
  rw [run, if_neg (Nat.not_le.2 hshort), hnext]

/-- A run leads to a search on its way, and why it ends there is true of that search. -/
theorem run_cases (H : search.Reached ctx) : ∃ last reason,
    run ctx n search = (last, reason) ∧ last.Reached ctx ∧
      (reason = .enough → ctx.request.numItineraries ≤ last.found.length) ∧
      (reason = .exhausted → last.next? = none) := by
  induction n generalizing search with
  | zero =>
    cases h : search.advance? ctx with
    | none => exact run_ended H h
    | some next => exact ⟨_, _, run_zero_of_advance?_eq_some h, H, by simp, by simp⟩
  | succ n ih =>
    cases h : search.advance? ctx with
    | none => exact run_ended H h
    | some next =>
      rw [run_of_advance?_eq_some h]
      exact ih (H.advance h)

theorem reached_run : (run ctx n (start ctx)).1.Reached ctx := by
  have hstart : (start ctx).Reached ctx := .start
  obtain ⟨last, reason, hrun, hlast, -⟩ := run_cases (n := n) hstart
  rw [hrun]
  exact hlast

/-- A run that is exhausted leaves nothing waiting but what has been pruned. -/
theorem next?_run_of_exhausted (h : (run ctx n (start ctx)).2 = .exhausted) :
    (run ctx n (start ctx)).1.next? = none := by
  have hstart : (start ctx).Reached ctx := .start
  obtain ⟨last, reason, hrun, -, -, hexhausted⟩ := run_cases (n := n) hstart
  rw [hrun] at h ⊢
  exact hexhausted h

end Search

namespace Context

variable {R : Type} [Quantity R] [Geodesy R] {ctx : Context R} {paths : List (Itinerary R)}

theorem search_reached (ctx : Context R) : ctx.search.1.Reached ctx := Search.reached_run

theorem next?_of_exhausted (h : ctx.search.2 = .exhausted) : ctx.search.1.next? = none :=
  Search.next?_run_of_exhausted h

theorem findPaths_eq_ok_iff : ctx.findPaths = .ok paths ↔
    ctx.search.1.found ≠ [] ∧ ctx.search.1.itineraries ctx = paths := by
  simp only [findPaths]
  split <;> simp_all

theorem findPaths_eq_pathNotFound_iff :
    ctx.findPaths = .error .pathNotFound ↔ ctx.search.1.found = [] := by
  simp only [findPaths]
  split <;> simp_all

end Context

end TripPlanner
