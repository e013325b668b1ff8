import TripPlanner.Proofs.Future
import TripPlanner.Proofs.Run

/-!
# Soundness

The itineraries of a search are trips (`Context.IsTrip`): they start at the origin, every edge is
followed from the state before it, and they end at the first final state. The way back along the
parents is a `Trail`, whatever the tree has pruned in the meantime.
-/

namespace TripPlanner

namespace Context

section
variable {R : Type} [Quantity R]

/-- The states and edges on the way to a state of the store. -/
inductive Trail (ctx : Context R) (store : StateStore R) :
    List (State R) → List EdgeIndex → State R → Prop where
  | start : Trail ctx store [.initial ctx.origin] [] (.initial ctx.origin)
  | snoc {states edges p a e b} : Trail ctx store states edges a → store.get? p = some a →
      ctx.isFinal a = false → (e, b) ∈ ctx.successors p a →
      Trail ctx store (states ++ [b]) (edges ++ [e]) b

/-- One edge of a trip: it is in the graph, and the state after it is what following it makes of the
stored state before it. A street permits the mode in which one goes along it. -/
structure IsLeg (ctx : Context R) (store : StateStore R) (a : State R) (e : EdgeIndex)
    (b : State R) : Prop where
  follows : ∃ id edge, store.get? id = some a ∧ ctx.graph.edge? e = some edge ∧
    edge.source = a.vertex ∧ edge.target = b.vertex ∧ ctx.traverse id a e edge = some b
  isOpen : ∀ {edge}, ctx.graph.edge? e = some edge → ctx.graph.isBlocked edge = false
  permits : ∀ {street}, ctx.graph.street? e = some street →
    ∃ mode, b.mode = some mode ∧ street.permits.contains mode = true

/-- A way from the origin that keeps to the rules and arrives. -/
structure IsTrip (ctx : Context R) (store : StateStore R) (itinerary : Itinerary R) : Prop where
  start : itinerary.states[0]? = some (.initial ctx.origin)
  length : itinerary.edges.length + 1 = itinerary.states.length
  leg : ∀ {i e a b}, itinerary.edges[i]? = some e → itinerary.states[i]? = some a →
    itinerary.states[i + 1]? = some b → ctx.IsLeg store a e b
  turn : ∀ {i e e' b mode}, itinerary.edges[i]? = some e → itinerary.edges[i + 1]? = some e' →
    (ctx.graph.street? e).isSome → (ctx.graph.street? e').isSome →
    itinerary.states[i + 2]? = some b → b.mode = some mode →
      ∀ restriction ∈ ctx.graph.restrictionsAfter e, restriction.forbids e' mode = false
  arrived : ∃ s, itinerary.states[itinerary.edges.length]? = some s ∧ ctx.isFinal s = true
  onTheWay : ∀ {i s}, i < itinerary.edges.length → itinerary.states[i]? = some s →
    ctx.isFinal s = false

end

variable {R : Type} [Quantity R] {ctx : Context R} {store : StateStore R} {a b s : State R}
  {states : List (State R)} {edges : List EdgeIndex} {e : EdgeIndex} {p id : StateId}
  {limit i : Nat}

/-! ## One edge -/

/-- Going along a street takes a mode that one can go along it in and that no restriction
forbids. -/
theorem street_of_mem_successors {street : Street R} (h : (e, b) ∈ ctx.successors p a)
    (hstreet : ctx.graph.street? e = some street) : ∃ mode, b.mode = some mode ∧
      ctx.modeOnStreet? a street = some mode ∧ ctx.isTurnForbidden a e mode = false := by
  obtain ⟨edge, hedge, hkind⟩ := Graph.street?_eq_some_iff.1 hstreet
  obtain ⟨-, move, hmove, rfl⟩ := move_of_mem_successors h hedge
  obtain ⟨mode, hmode, hturn, rfl⟩ := (move?_eq_some_iff.1 hmove).2.of_street hkind
  exact ⟨mode, rfl, hmode, hturn⟩

theorem IsLeg.of_mem_successors (ha : store.get? p = some a) (h : (e, b) ∈ ctx.successors p a) :
    ctx.IsLeg store a e b where
  follows := by
    obtain ⟨edge, hedge, hsource, ht⟩ := mem_successors_iff.1 h
    obtain ⟨move, -, rfl⟩ := traverse_eq_some_iff.1 ht
    exact ⟨p, edge, ha, hedge, hsource, rfl, ht⟩
  isOpen hedge := by
    obtain ⟨edge, hedge', hopen, -⟩ := edge_of_mem_successors h
    cases hedge.symm.trans hedge'
    exact hopen
  permits hstreet := by
    obtain ⟨mode, hmode, hon, -⟩ := street_of_mem_successors h hstreet
    exact ⟨mode, hmode, modeOnStreet?_permits hon⟩

theorem back_of_mem_successors (h : (e, b) ∈ ctx.successors p a) :
    b.back.map BackEdge.index = some e := by
  obtain ⟨edge, -, -, -, -, hback⟩ := edge_of_mem_successors h
  rw [hback]
  rfl

theorem backStreet?_of_mem_successors (h : (e, b) ∈ ctx.successors p a)
    (hstreet : (ctx.graph.street? e).isSome) : b.backStreet? = some e := by
  obtain ⟨street, hstreet⟩ := Option.isSome_iff_exists.1 hstreet
  obtain ⟨edge', hedge', hkind⟩ := Graph.street?_eq_some_iff.1 hstreet
  obtain ⟨edge, hedge, -, -, -, hback⟩ := edge_of_mem_successors h
  cases hedge.symm.trans hedge'
  simp [State.backStreet?_eq_some_iff, hback, Edge.edgeClass, EdgeKind.edgeClass, hkind]

/-! ## The way to a state -/

theorem Trail.length (H : ctx.Trail store states edges s) : edges.length + 1 = states.length := by
  induction H with
  | start => rfl
  | snoc _ _ _ _ ih => simp [ih]

theorem Trail.last (H : ctx.Trail store states edges s) : states[edges.length]? = some s := by
  cases H with
  | start => rfl
  | snoc H _ _ _ => simp [H.length]

theorem Trail.getLast? (H : ctx.Trail store states edges s) : states.getLast? = some s := by
  have hlength : states.length - 1 = edges.length := by rw [← H.length, Nat.add_sub_cancel]
  rw [List.getLast?_eq_getElem?, hlength, H.last]

theorem Trail.start_eq (H : ctx.Trail store states edges s) :
    states[0]? = some (.initial ctx.origin) := by
  induction H with
  | start => rfl
  | snoc H _ _ _ ih => rw [List.getElem?_append_left (H.length ▸ Nat.succ_pos _), ih]

theorem Trail.edges_eq (H : ctx.Trail store states edges s) :
    states.filterMap (fun s => s.back.map BackEdge.index) = edges := by
  induction H with
  | start => rfl
  | snoc _ _ _ hstep ih => simp [List.filterMap_append, ih, back_of_mem_successors hstep]

/-- Each edge of a trail was followed from a stored state that has not arrived. -/
theorem Trail.step (H : ctx.Trail store states edges s) (he : edges[i]? = some e)
    (ha : states[i]? = some a) (hb : states[i + 1]? = some b) :
    ∃ p, store.get? p = some a ∧ ctx.isFinal a = false ∧ (e, b) ∈ ctx.successors p a := by
  induction H with
  | start => simp at he
  | @snoc states edges p a' e' b' H hp hf hstep ih =>
    have hlength := H.length
    rcases Nat.lt_trichotomy i edges.length with hi | rfl | hi
    · rw [List.getElem?_append_left hi] at he
      rw [List.getElem?_append_left (by omega)] at ha hb
      exact ih he ha hb
    · -- The last edge leads from the end of the trail before it.
      rw [List.getElem?_append_left (by omega), H.last] at ha
      rw [hlength, List.getElem?_concat_length] at hb
      rw [List.getElem?_concat_length] at he
      cases ha
      cases hb
      cases he
      exact ⟨p, hp, hf, hstep⟩
    · rw [List.getElem?_eq_none (by simp; omega)] at he
      cases he

/-- A state that another one is noted to have come from is stored before it. -/
theorem Grown.of_parent (H : ctx.Grown store) (hs : store.get? id = some s)
    (hp : s.parent = some p) : p < id ∧ ∃ a e, store.get? p = some a ∧ ctx.isFinal a = false ∧
      (e, s) ∈ ctx.successors p a := by
  have hid : 0 < id := by
    refine Nat.pos_of_ne_zero fun hzero => ?_
    subst hzero
    cases H.origin.symm.trans hs
    cases hp
  obtain ⟨p', a, e, hlt, ha, hf, hstep⟩ := H.parent hs hid
  cases (parent_of_mem_successors hstep).symm.trans hp
  exact ⟨hlt, a, e, ha, hf, hstep⟩

/-- Numbers only fall on the way back, so that no limit above the number cuts it short. -/
theorem Grown.prependAncestors_eq (H : ctx.Grown store) (hs : store.get? id = some s)
    (hlimit : id < limit) (path : List StateId) :
    store.prependAncestors limit id path = store.chainTo id ++ path := by
  induction id using Nat.strong_induction_on generalizing s limit path with
  | _ id ih =>
    obtain ⟨limit, rfl⟩ := Nat.exists_eq_succ_of_ne_zero (Nat.ne_zero_of_lt hlimit)
    cases hp : s.parent with
    | none => simp [StateStore.chainTo, StateStore.prependAncestors, hs, hp]
    | some p =>
      obtain ⟨hlt, a, e, ha, -, -⟩ := H.of_parent hs hp
      have hsize := StateStore.lt_size_of_get? ha
      have hlimit' : p < limit := Nat.lt_of_lt_of_le hlt (Nat.le_of_lt_succ hlimit)
      simp [StateStore.chainTo, StateStore.prependAncestors, hs, hp, ih p hlt ha hlimit',
        ih p hlt ha hsize]

theorem Grown.chainTo_of_parent (H : ctx.Grown store) (hs : store.get? id = some s)
    (hp : s.parent = some p) : store.chainTo id = store.chainTo p ++ [id] := by
  obtain ⟨-, a, e, ha, -, -⟩ := H.of_parent hs hp
  rw [StateStore.chainTo, StateStore.prependAncestors, hs, Option.bind_some, hp]
  exact H.prependAncestors_eq ha (StateStore.lt_size_of_get? ha) [id]

theorem Grown.chainTo_zero (H : ctx.Grown store) : store.chainTo 0 = [0] := by
  simp [StateStore.chainTo, StateStore.prependAncestors, H.origin, State.initial]

/-- The states on the way back from a state, put in order, are a trail to it. -/
theorem Grown.trail (H : ctx.Grown store) (hs : store.get? id = some s) :
    ∃ edges, ctx.Trail store ((store.chainTo id).filterMap store.get?) edges s := by
  induction id using Nat.strong_induction_on generalizing s with
  | _ id ih =>
    rcases Nat.eq_zero_or_pos id with rfl | hid
    · cases H.origin.symm.trans hs
      rw [H.chainTo_zero]
      exact ⟨[], by simpa [H.origin] using Trail.start⟩
    · obtain ⟨p, a, e, hlt, ha, hf, hstep⟩ := H.parent hs hid
      obtain ⟨edges, htrail⟩ := ih p hlt ha
      rw [H.chainTo_of_parent hs (parent_of_mem_successors hstep)]
      exact ⟨edges ++ [e], by simpa [List.filterMap_append, hs] using htrail.snoc ha hf hstep⟩

/-! ## Itineraries -/

theorem Grown.trail_itineraryTo (H : ctx.Grown store) (hs : store.get? id = some s) :
    ctx.Trail store (ctx.itineraryTo store id).states (ctx.itineraryTo store id).edges s := by
  obtain ⟨edges, htrail⟩ := H.trail hs
  have hedges : (ctx.itineraryTo store id).edges = edges := htrail.edges_eq
  rw [hedges]
  exact htrail

theorem Trail.isTrip {itinerary : Itinerary R}
    (H : ctx.Trail store itinerary.states itinerary.edges s) (hs : ctx.isFinal s = true) :
    ctx.IsTrip store itinerary := by
  refine ⟨H.start_eq, H.length, ?_, ?_, ⟨s, H.last, hs⟩, ?_⟩
  · intro i e a b he ha hb
    obtain ⟨p, hp, -, hstep⟩ := H.step he ha hb
    exact .of_mem_successors hp hstep
  · intro i e e' b mode he he' hstreet hstreet' hb hmode restriction hmem
    obtain ⟨hi, -⟩ := List.getElem?_eq_some_iff.1 he'
    have hlength := H.length
    obtain ⟨a, ha⟩ : ∃ a, itinerary.states[i]? = some a := ⟨_, List.getElem?_eq_getElem (by omega)⟩
    obtain ⟨m, hm⟩ : ∃ m, itinerary.states[i + 1]? = some m :=
      ⟨_, List.getElem?_eq_getElem (by omega)⟩
    obtain ⟨p, -, -, hstep⟩ := H.step he ha hm
    obtain ⟨p', -, -, hstep'⟩ := H.step he' hm hb
    obtain ⟨street', hstreet'⟩ := Option.isSome_iff_exists.1 hstreet'
    obtain ⟨mode', hmode', -, hturn⟩ := street_of_mem_successors hstep' hstreet'
    cases hmode.symm.trans hmode'
    rw [isTurnForbidden, backStreet?_of_mem_successors hstep hstreet, Option.any_some] at hturn
    exact Bool.eq_false_iff.2 (List.any_eq_false.1 hturn restriction hmem)
  · intro i s' hi hs'
    have hlength := H.length
    obtain ⟨e, he⟩ : ∃ e, itinerary.edges[i]? = some e := ⟨_, List.getElem?_eq_getElem hi⟩
    obtain ⟨b, hb⟩ : ∃ b, itinerary.states[i + 1]? = some b :=
      ⟨_, List.getElem?_eq_getElem (by omega)⟩
    obtain ⟨p, -, hf, -⟩ := H.step he hs' hb
    exact hf

end Context

namespace Search

variable {R : Type} [Quantity R] [Geodesy R] {ctx : Context R} {search : Search R}

omit [Geodesy R] in
theorem Consistent.isTrip (H : search.Consistent ctx) {itinerary : Itinerary R}
    (h : itinerary ∈ search.itineraries ctx) : ctx.IsTrip search.store itinerary := by
  obtain ⟨id, hid, rfl⟩ := List.mem_map.1 h
  obtain ⟨s, hs, hf⟩ := H.found id hid
  exact (H.grown.trail_itineraryTo hs).isTrip hf

end Search

/-- A request that is answered is answered by trips, at least one and no more than it asks for. -/
theorem Graph.isTrip_of_findPaths {R : Type} [Quantity R] [Geodesy R] {g : Graph R}
    {request : Request R} {ctx : Context R} {paths : List (Itinerary R)}
    (hctx : Context.of request g = .ok ctx) (h : ctx.findPaths = .ok paths) :
    1 ≤ paths.length ∧ paths.length ≤ request.numItineraries ∧
      ∀ itinerary ∈ paths, ctx.IsTrip ctx.search.1.store itinerary := by
  obtain ⟨hfound, rfl⟩ := Context.findPaths_eq_ok_iff.1 h
  have hreached := ctx.search_reached
  have hlength : (ctx.search.1.itineraries ctx).length = ctx.search.1.found.length :=
    List.length_map _
  refine ⟨?_, ?_, fun _ => hreached.consistent.isTrip⟩
  · rw [hlength]
    exact List.length_pos_iff.2 hfound
  · obtain ⟨triangle, hrequest⟩ := Context.request_of hctx
    simpa [hlength, hrequest] using hreached.found_length_le

/-- The walk over the corners is found. -/
theorem Graph.isTrip_corners : ∃ paths, Corners.there.findPaths = .ok paths ∧ 1 ≤ paths.length ∧
    paths.length ≤ (Corners.onFoot 0 2).numItineraries ∧
      ∀ itinerary ∈ paths, Corners.there.IsTrip Corners.there.search.1.store itinerary := by
  have hfound : Corners.there.search.1.found ≠ [] := by decide +kernel
  have h := Context.findPaths_eq_ok_iff.2 ⟨hfound, rfl⟩
  exact ⟨_, h, Graph.isTrip_of_findPaths Corners.of_there h⟩

end TripPlanner
