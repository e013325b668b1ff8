import TripPlanner.Proofs.Limits

/-!
# Best first

What a run takes off the queue (`Search.popped`), be it to serve it or to pass it over, it takes in
the order of the priorities, if no edge lowers them: whatever comes to wait later follows a state
that was served, and is no less than that. Without an estimate the priorities are the weights, so
that itineraries are found in the order of their weights (`Graph.goesBestFirst_of_trivial`).
-/

namespace TripPlanner

/-- The state that was served, if that is what has happened. -/
def Event.visited? {R : Type} : Event R → Option (State R)
  | .visited s => some s
  | _ => none

namespace Search

section
variable {R : Type} [Quantity R] [Geodesy R] {ctx : Context R} {search next rest : Search R}
  {id : StateId} {n : Nat} {s : State R}

/-! ## What is served -/

omit [Quantity R] [Geodesy R] in
/-- The states that were served, one after the other. -/
def visited (search : Search R) : List (State R) := search.events.reverse.filterMap Event.visited?

omit [Quantity R] [Geodesy R] in
theorem visited_note {event : Event R} :
    (search.note event).visited = search.visited ++ event.visited?.toList := by
  simp only [visited, note, List.reverse_cons, List.filterMap_append]
  cases event <;> rfl

omit [Quantity R] [Geodesy R] in
theorem visited_noteAll {produced : List (EdgeIndex × State R)} :
    (search.noteAll produced).visited = search.visited := by
  induction produced generalizing search with
  | nil => rfl
  | cons p produced ih =>
    have hnote : (search.note (.traversed p.1 p.2)).visited = search.visited := by
      rw [visited_note]
      exact List.append_nil _
    exact ih.trans hnote

theorem visited_relaxAll {produced : List (EdgeIndex × State R)} :
    (search.relaxAll ctx produced).visited = search.visited := by
  induction produced generalizing search with
  | nil => rfl
  | cons p produced ih =>
    have hrelax : (search.relax ctx p.2).visited = search.visited := by
      rw [relax_eq]
      split
      · rfl
      · rw [visited_note]
        exact List.append_nil _
    exact ih.trans hrelax

theorem visited_settle (hs : search.store.get? id = some s) :
    (search.settle ctx id).visited = search.visited ++ [s] := by
  have hnote : (search.note (.visited s)).visited = search.visited ++ [s] := visited_note
  rw [settle_eq hs]
  split
  · exact hnote
  · rw [expand_eq, visited_relaxAll, visited_noteAll, hnote]

/-! ## What is taken off the queue -/

omit [Quantity R] [Geodesy R] in
/-- What is taken off the queue in search of the next state: those that are passed over, and the
first one that is not. -/
def takenOff (search : Search R) : List (Waiting R) :=
  (search.queue.waiting.takeWhile fun w => search.tree.isPruned w.id) ++
    (search.queue.waiting.dropWhile fun w => search.tree.isPruned w.id).take 1

/-- What a run takes off the queue, one after the other. A state that the granted steps do not
suffice to serve is taken off as well. -/
def popped (ctx : Context R) (steps : Nat) (search : Search R) : List (Waiting R) :=
  if ctx.request.numItineraries ≤ search.found.length then []
  else search.takenOff ++
    match steps with
    | 0 => []
    | steps + 1 =>
      match search.advance? ctx with
      | none => []
      | some next => popped ctx steps next

omit [Quantity R] [Geodesy R] in
theorem takenOff_prefix_waiting : search.takenOff <+: search.queue.waiting := by
  let passOver (w : Waiting R) : Bool := search.tree.isPruned w.id
  have hsplit : search.queue.waiting.takeWhile passOver ++ search.queue.waiting.dropWhile passOver =
      search.queue.waiting := List.takeWhile_append_dropWhile
  conv_rhs => rw [← hsplit]
  exact (List.prefix_append_right_inj _).2 (List.take_prefix 1 _)

omit [Quantity R] [Geodesy R] in
theorem takenOff_of_next? (h : search.next? = some (id, rest)) : ∃ dropped w,
    search.takenOff = dropped ++ [w] ∧ w.id = id ∧
      search.queue.waiting = dropped ++ w :: rest.queue.waiting := by
  obtain ⟨dropped, w, behind, hwaiting, hdropped, hw, hid, rfl⟩ := next?_eq_some_iff.1 h
  refine ⟨dropped, w, ?_, hid, hwaiting⟩
  rw [takenOff, hwaiting, List.takeWhile_append_of_pos hdropped,
    List.dropWhile_append_of_pos hdropped]
  simp [hw]

theorem popped_of_advance? (h : search.advance? ctx = some next) :
    popped ctx (n + 1) search = search.takenOff ++ popped ctx n next := by
  obtain ⟨hshort, -⟩ := advance?_eq_some_iff.1 h
  rw [popped, if_neg (Nat.not_le.2 hshort), h]

theorem popped_prefix_takenOff (h : n = 0 ∨ search.advance? ctx = none) :
    popped ctx n search <+: search.takenOff := by
  unfold popped
  split
  · exact List.nil_prefix
  · rcases h with rfl | h
    · rw [List.append_nil]
    · cases n <;> simp [h]

/-- What is true of a search that takes no step, whatever it takes off the queue, and goes over
from a search to the one before it, is true of every run and of what it takes off. -/
theorem Reached.popped_induct {P : Search R → List (Waiting R) → Search R → Prop}
    (H : search.Reached ctx)
    (hend : ∀ {search taken}, search.Reached ctx → taken <+: search.takenOff →
      P search taken search)
    (hstep : ∀ {search rest last id s taken}, search.Reached ctx →
      search.next? = some (id, rest) → search.store.get? id = some s → search.GoesOnTo last →
      P (rest.settle ctx id) taken last → P search (search.takenOff ++ taken) last) :
    P search (popped ctx n search) (run ctx n search).1 := by
  induction n generalizing search with
  | zero =>
    rw [run_zero_fst]
    exact hend H (popped_prefix_takenOff (.inl rfl))
  | succ n ih =>
    cases h : search.advance? ctx with
    | none =>
      rw [run_of_advance?_eq_none h]
      exact hend H (popped_prefix_takenOff (.inr h))
    | some next =>
      have hnext := ih (H.advance h)
      have hgoes : search.GoesOnTo (run ctx (n + 1) search).1 := goesOnTo_run
      rw [run_of_advance?_eq_some h] at hgoes ⊢
      rw [popped_of_advance? h]
      obtain ⟨-, id, rest, htaken, rfl⟩ := advance?_eq_some_iff.1 h
      obtain ⟨-, -, s, hs⟩ := H.consistent.next? htaken
      rw [(next?_rest htaken).1] at hs
      exact hstep H htaken hs hgoes hnext

theorem settle_found (hs : search.store.get? id = some s) :
    (search.settle ctx id).found = search.found ++ if ctx.isFinal s then [id] else [] := by
  rw [settle_eq hs]
  split
  · rfl
  · rw [expand_found, List.append_nil]
    rfl

/-- A run finds states that it takes off the queue, in the same order. -/
theorem Reached.found_sublist (H : search.Reached ctx) : ∃ more,
    (run ctx n search).1.found = search.found ++ more ∧
      more.Sublist ((popped ctx n search).map Waiting.id) := by
  apply H.popped_induct (P := fun search taken last => ∃ more,
    last.found = search.found ++ more ∧ more.Sublist (taken.map Waiting.id))
  · intro search taken _ _
    exact ⟨[], (List.append_nil _).symm, List.nil_sublist _⟩
  · intro search rest last id s taken _ hnext hs _ ih
    obtain ⟨more, hmore, hsub⟩ := ih
    obtain ⟨hstore, -, hfound⟩ := next?_rest hnext
    obtain ⟨dropped, w, htaken, rfl, -⟩ := takenOff_of_next? hnext
    rw [settle_found (hstore ▸ hs), hfound, List.append_assoc] at hmore
    refine ⟨_, hmore, ?_⟩
    rw [htaken, List.map_append, List.map_append, List.append_assoc]
    apply List.Sublist.trans _ (List.sublist_append_right _ _)
    apply List.Sublist.append _ hsub
    split
    · exact List.Sublist.refl _
    · exact List.nil_sublist _

/-- A run serves states that it takes off the queue, in the same order. -/
theorem Reached.visited_sublist (H : search.Reached ctx) : ∃ more,
    (run ctx n search).1.visited = search.visited ++ more ∧
      more.Sublist ((popped ctx n search).filterMap fun w =>
        (run ctx n search).1.store.get? w.id) := by
  apply H.popped_induct (P := fun search taken last => ∃ more,
    last.visited = search.visited ++ more ∧
      more.Sublist (taken.filterMap fun w => last.store.get? w.id))
  · intro search taken _ _
    exact ⟨[], (List.append_nil _).symm, List.nil_sublist _⟩
  · intro search rest last id s taken _ hnext hs hgoes ih
    obtain ⟨more, hmore, hsub⟩ := ih
    have hsame : rest.store = search.store ∧ rest.visited = search.visited := by
      obtain ⟨_, _, _, _, _, _, _, rfl⟩ := next?_eq_some_iff.1 hnext
      exact ⟨rfl, rfl⟩
    obtain ⟨dropped, w, htaken, rfl, -⟩ := takenOff_of_next? hnext
    rw [visited_settle (hsame.1 ▸ hs), hsame.2, List.append_assoc] at hmore
    refine ⟨_, hmore, ?_⟩
    rw [htaken, List.append_assoc, List.filterMap_append]
    apply List.Sublist.trans _ (List.sublist_append_right _ _)
    simp only [List.singleton_append, List.filterMap_cons, hgoes.stored hs]
    exact hsub.cons_cons s

end

end Search

/-! ## The order -/

section
variable {R : Type} [Field R] [LinearOrder R] [IsStrictOrderedRing R] [FloorRing R] [Geodesy R]
  {ctx : Context R}

namespace Context

theorem EstimatesConsistently.neverLowersPriority (H : ctx.EstimatesConsistently) :
    ctx.NeverLowersPriority := by
  intro a e b ha h
  have hstep := H.step ha h
  linarith

end Context

namespace Search

variable {search rest : Search R} {s : State R} {id : StateId} {n : Nat} {bound : R}
  {w : Waiting R} {dropped taken : List (Waiting R)}

/-- What is taken off the queue from now on is taken off in order, and is no less than what
waits. -/
structure InOrder (search : Search R) (taken : List (Waiting R)) : Prop where
  sorted : Queue.Sorted taken
  bounded : ∀ {bound}, search.WaitsFrom bound → ∀ w ∈ taken, bound ≤ w.priority

theorem Reached.inOrder (H : search.Reached ctx) (h : taken <+: search.takenOff) :
    search.InOrder taken where
  sorted := H.served.sorted.sublist (h.trans takenOff_prefix_waiting).sublist
  bounded hbound w hw := hbound w ((h.trans takenOff_prefix_waiting).subset hw)

theorem InOrder.append (H : (rest.settle ctx id).InOrder taken) (hreached : search.Reached ctx)
    (hprices : ctx.NeverLowersPriority) (hnext : search.next? = some (id, rest)) :
    search.InOrder (search.takenOff ++ taken) := by
  obtain ⟨dropped, w, htaken, rfl, hwaiting⟩ := takenOff_of_next? hnext
  have hnow : search.InOrder search.takenOff := hreached.inOrder (List.prefix_refl _)
  constructor
  · have hsorted := hreached.served.sorted
    rw [hwaiting] at hsorted
    obtain ⟨-, hbehind, hdropped⟩ := List.pairwise_append.1 hsorted
    have hfrom : ∀ x ∈ w :: rest.queue.waiting, w.priority ≤ x.priority :=
      List.forall_mem_cons.2 ⟨le_rfl, (List.pairwise_cons.1 hbehind).1⟩
    have hlater := H.bounded (hreached.waitsFrom_settle hprices hnext hwaiting hfrom)
    refine List.pairwise_append.2 ⟨hnow.sorted, H.sorted, ?_⟩
    -- What is passed over is no more than the state that is served, and what comes later no less.
    intro x hx y hy
    have hxw : x.priority ≤ w.priority := by
      rw [htaken] at hx
      rcases List.mem_append.1 hx with hx | hx
      · exact hdropped x hx w List.mem_cons_self
      · exact le_of_eq (congrArg Waiting.priority (List.mem_singleton.1 hx))
    exact hxw.trans (hlater y hy)
  · intro bound hbound x hx
    rcases List.mem_append.1 hx with hx | hx
    · exact hnow.bounded hbound x hx
    · apply H.bounded (hreached.waitsFrom_settle hprices hnext hwaiting _) x hx
      intro y hy
      apply hbound
      rw [hwaiting]
      exact List.mem_append_right _ hy

theorem Reached.popped_inOrder (H : search.Reached ctx) (hprices : ctx.NeverLowersPriority) :
    search.InOrder (popped ctx n search) := by
  apply H.popped_induct (P := fun search taken _ => search.InOrder taken)
  · intro search taken hreached htaken
    exact hreached.inOrder htaken
  · intro search rest last id s taken hreached hnext _ _ ih
    exact ih.append hreached hprices hnext

theorem Reached.popped_priced (H : search.Reached ctx) : ∀ w ∈ popped ctx n search, ∃ s,
    (run ctx n search).1.store.get? w.id = some s ∧
      w.priority = s.weight + ctx.remainingWeight s.vertex := by
  apply H.popped_induct (P := fun _ taken last => ∀ w ∈ taken, ∃ s,
    last.store.get? w.id = some s ∧ w.priority = s.weight + ctx.remainingWeight s.vertex)
  · intro search taken hreached htaken w hw
    exact hreached.served.priced w ((htaken.trans takenOff_prefix_waiting).subset hw)
  · intro search rest last id s taken hreached _ _ hgoes ih w hw
    rcases List.mem_append.1 hw with hw | hw
    · obtain ⟨a, ha, hpriority⟩ := hreached.served.priced w (takenOff_prefix_waiting.subset hw)
      exact ⟨a, hgoes.stored ha, hpriority⟩
    · exact ih w hw

end Search

/-- Guided by a consistent estimate, a search takes states off the queue in the order of what was
spent together with the estimate. -/
theorem Context.EstimatesConsistently.popped_sorted (H : ctx.EstimatesConsistently) (n : Nat) :
    Queue.Sorted (Search.popped ctx n (Search.start ctx)) := by
  have hstart : (Search.start ctx).Reached ctx := .start
  exact (hstart.popped_inOrder H.neverLowersPriority).sorted

/-! ## Without an estimate -/

namespace Context

/-- The states that the search for a request takes off the queue, one after the other. -/
def popped (ctx : Context R) : List StateId :=
  (Search.popped ctx ctx.request.maxSearchSteps (Search.start ctx)).map Waiting.id

/-- The search takes states off the queue in the order of their weights, and in that order it serves
them and finds itineraries. -/
structure GoesBestFirst (ctx : Context R) : Prop where
  stored : ∀ id ∈ ctx.popped, (ctx.search.1.store.get? id).isSome
  popped : (ctx.popped.filterMap ctx.search.1.store.get?).Pairwise fun a b => a.weight ≤ b.weight
  visited : ctx.search.1.visited.Pairwise fun a b => a.weight ≤ b.weight
  found : ∀ {paths}, ctx.findPaths = .ok paths → paths.Pairwise fun p q => p.weight ≤ q.weight

theorem exists_of_mem_popped (htrivial : ctx.request.heuristic = .trivial) {w : Waiting R}
    (hw : w ∈ Search.popped ctx ctx.request.maxSearchSteps (Search.start ctx)) :
    ∃ s, ctx.search.1.store.get? w.id = some s ∧ w.priority = s.weight := by
  have hstart : (Search.start ctx).Reached ctx := .start
  obtain ⟨s, hs, hpriority⟩ := hstart.popped_priced w hw
  rw [remainingWeight_of_trivial htrivial, add_zero] at hpriority
  exact ⟨s, hs, hpriority⟩

theorem NeverLowersPriority.popped_pairwise (H : ctx.NeverLowersPriority)
    (htrivial : ctx.request.heuristic = .trivial) :
    ctx.popped.Pairwise fun i j => ∀ a, ctx.search.1.store.get? i = some a →
      ∀ b, ctx.search.1.store.get? j = some b → a.weight ≤ b.weight := by
  have hstart : (Search.start ctx).Reached ctx := .start
  apply List.pairwise_map.2
  apply (hstart.popped_inOrder H).sorted.imp_of_mem
  intro w x hw hx hle a ha b hb
  obtain ⟨s, hs, hws⟩ := exists_of_mem_popped htrivial hw
  obtain ⟨t, ht, hxt⟩ := exists_of_mem_popped htrivial hx
  cases hs.symm.trans ha
  cases ht.symm.trans hb
  rwa [← hws, ← hxt]

theorem found_sublist_popped (ctx : Context R) : ctx.search.1.found.Sublist ctx.popped := by
  have hstart : (Search.start ctx).Reached ctx := .start
  obtain ⟨more, hmore, hsub⟩ := hstart.found_sublist (n := ctx.request.maxSearchSteps)
  rw [Search.start_found, List.nil_append] at hmore
  exact hmore ▸ hsub

theorem visited_sublist_popped (ctx : Context R) :
    ctx.search.1.visited.Sublist (ctx.popped.filterMap ctx.search.1.store.get?) := by
  have hstart : (Search.start ctx).Reached ctx := .start
  obtain ⟨more, hmore, hsub⟩ := hstart.visited_sublist (n := ctx.request.maxSearchSteps)
  have hnone : (Search.start ctx).visited = [] := by
    rw [Search.start_eq]
    rfl
  rw [hnone, List.nil_append] at hmore
  rw [popped, List.filterMap_map]
  exact hmore ▸ hsub

theorem NeverLowersPriority.goesBestFirst (H : ctx.NeverLowersPriority)
    (htrivial : ctx.request.heuristic = .trivial) : ctx.GoesBestFirst where
  stored id hid := by
    obtain ⟨w, hw, rfl⟩ := List.mem_map.1 hid
    obtain ⟨s, hs, -⟩ := exists_of_mem_popped htrivial hw
    rw [hs]
    rfl
  popped := List.pairwise_filterMap.2 (H.popped_pairwise htrivial)
  visited := by
    apply List.Pairwise.sublist ctx.visited_sublist_popped
    exact List.pairwise_filterMap.2 (H.popped_pairwise htrivial)
  found := by
    intro paths h
    obtain ⟨-, rfl⟩ := findPaths_eq_ok_iff.1 h
    have hconsistent := ctx.search_reached.consistent
    apply List.pairwise_map.2
    apply ((H.popped_pairwise htrivial).sublist ctx.found_sublist_popped).imp_of_mem
    intro i j hi hj hle
    obtain ⟨a, ha, -⟩ := hconsistent.found i hi
    obtain ⟨b, hb, -⟩ := hconsistent.found j hj
    rw [hconsistent.grown.itineraryTo_weight ha, hconsistent.grown.itineraryTo_weight hb]
    exact hle a ha b hb

end Context

/-- Without an estimate, and where no edge lowers the weight, a search goes best first, whatever
the rule of dominance. -/
theorem Graph.goesBestFirst_of_trivial {g : Graph R} {request : Request R}
    (hctx : Context.of request g = .ok ctx) (htrivial : request.heuristic = .trivial)
    (hweights : ∀ {a e b}, ctx.Reachable a → ctx.Follows a e b → a.weight ≤ b.weight) :
    ctx.GoesBestFirst := by
  obtain ⟨triangle, hrequest⟩ := Context.request_of hctx
  have hplaced : ctx.request.heuristic = .trivial := by rw [hrequest, htrivial]
  have hprices : ctx.NeverLowersPriority :=
    Context.neverLowersPriority_of_trivial hplaced hweights
  exact hprices.goesBestFirst hplaced

end

/-! ## Served and passed over -/

namespace Ways

/-- All ways to work, without an estimate. -/
def wholeRequest : Request ℚ :=
  { request with numItineraries := 3, maxSearchSteps := 10, heuristic := .trivial }

/-- The longest way is passed over after the others were found. -/
theorem goesBestFirst_town : ∃ ctx paths, Context.of wholeRequest town = .ok ctx ∧
    ctx.findPaths = .ok paths ∧ paths.map Itinerary.edges = [[0], [1]] ∧
      ctx.popped = [0, 3, 2, 1] ∧ ctx.GoesBestFirst := by
  let ctx : Context ℚ := .placed wholeRequest town 0 1 ⟨0, 0⟩ ⟨1, 0⟩
  have hctx : Context.of wholeRequest town = .ok ctx :=
    Context.of_placed (by decide +kernel) rfl rfl (by decide +kernel) (by decide +kernel)
      (by decide)
  have hmeasured : ctx.IsMeasured :=
    Context.isMeasured_of hctx (by decide +kernel) (by decide +kernel)
  have hanswer : ctx.findPaths.toOption.map (List.map Itinerary.edges) = some [[0], [1]] := by
    decide +kernel
  obtain ⟨paths, h, hedges⟩ := exists_ok_of_toOption hanswer
  refine ⟨ctx, paths, hctx, h, hedges, by decide +kernel, ?_⟩
  apply Graph.goesBestFirst_of_trivial hctx rfl
  intro a e b ha hstep
  exact (hmeasured.neverLowers ha hstep).2.1

end Ways

end TripPlanner
