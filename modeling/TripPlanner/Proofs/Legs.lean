import TripPlanner.Proofs.Soundness

/-!
# Legs

An itinerary leg by leg: its edges, each with the state that it leads to. What is true of the start
of a trip and kept by every leg is true of the whole trip (`Context.Trail.legs_induct`).
-/

namespace TripPlanner

/-- The edges of an itinerary, each with the state that it leads to. -/
def Itinerary.legs {R : Type} (itinerary : Itinerary R) : List (EdgeIndex × State R) :=
  itinerary.edges.zip itinerary.states.tail

namespace Context

variable {R : Type} [Quantity R] {ctx : Context R} {store : StateStore R} {a s : State R}
  {states : List (State R)} {edges : List EdgeIndex} {leg : EdgeIndex × State R}

theorem Trail.legs_snoc (H : ctx.Trail store states edges a) (e : EdgeIndex) (b : State R) :
    (edges ++ [e]).zip (states ++ [b]).tail = edges.zip states.tail ++ [(e, b)] := by
  have hlength := H.length
  have hne : states ≠ [] := by
    apply List.ne_nil_of_length_pos
    omega
  have htail : edges.length = states.tail.length := by
    rw [List.length_tail]
    omega
  rw [List.tail_append_of_ne_nil hne, List.zip_append htail]
  rfl

/-- What is true of the start is true of a trip if every leg from a reachable state keeps it. -/
theorem Trail.legs_induct {P : List (EdgeIndex × State R) → State R → Prop}
    (H : ctx.Trail store states edges s) (hstart : P [] (.initial ctx.origin))
    (hleg : ∀ legs id a e b, ctx.Reachable a → (e, b) ∈ ctx.successors id a → P legs a →
      P (legs ++ [(e, b)]) b) : P (edges.zip states.tail) s := by
  have hboth : ctx.Reachable s ∧ P (edges.zip states.tail) s := by
    induction H with
    | start => exact ⟨.origin, hstart⟩
    | snoc H _ _ hstep ih =>
      obtain ⟨hreachable, hP⟩ := ih
      rw [H.legs_snoc]
      exact ⟨hreachable.step (.of_mem_successors hstep), hleg _ _ _ _ _ hreachable hstep hP⟩
  exact hboth.2

theorem Trail.exists_of_mem_legs (H : ctx.Trail store states edges s)
    (hleg : leg ∈ edges.zip states.tail) :
    ∃ id a, ctx.Reachable a ∧ leg ∈ ctx.successors id a := by
  let P (legs : List (EdgeIndex × State R)) (_ : State R) : Prop :=
    ∀ leg ∈ legs, ∃ id a, ctx.Reachable a ∧ leg ∈ ctx.successors id a
  have hP : P (edges.zip states.tail) s := by
    apply H.legs_induct
    · intro leg hleg
      exact absurd hleg List.not_mem_nil
    · intro legs id a e b ha hstep ih leg hleg
      rcases List.mem_append.1 hleg with hleg | hleg
      · exact ih leg hleg
      · cases List.mem_singleton.1 hleg
        exact ⟨id, a, ha, hstep⟩
  exact hP leg hleg

theorem Trail.map_fst_legs (H : ctx.Trail store states edges s) :
    (edges.zip states.tail).map Prod.fst = edges := by
  apply List.map_fst_zip
  rw [List.length_tail, ← H.length]
  omega

theorem Trail.exists_of_mem_edges {e : EdgeIndex} (H : ctx.Trail store states edges s)
    (he : e ∈ edges) : ∃ id a b, ctx.Reachable a ∧ (e, b) ∈ ctx.successors id a := by
  rw [← H.map_fst_legs] at he
  obtain ⟨leg, hleg, rfl⟩ := List.mem_map.1 he
  obtain ⟨id, a, ha, hstep⟩ := H.exists_of_mem_legs hleg
  exact ⟨id, a, leg.2, ha, hstep⟩

theorem Trail.states_eq (H : ctx.Trail store states edges s) :
    states = .initial ctx.origin :: (edges.zip states.tail).map Prod.snd := by
  have hstart := H.start_eq
  have hlength := H.length
  cases states with
  | nil => simp at hstart
  | cons first rest =>
    cases hstart
    rw [List.length_cons] at hlength
    rw [List.tail_cons, List.map_snd_zip (by omega)]

theorem Trail.reachable_of_mem (H : ctx.Trail store states edges s) (ha : a ∈ states) :
    ctx.Reachable a := by
  rw [H.states_eq] at ha
  rcases List.mem_cons.1 ha with rfl | ha
  · exact .origin
  · obtain ⟨leg, hleg, rfl⟩ := List.mem_map.1 ha
    obtain ⟨id, b, hb, hstep⟩ := H.exists_of_mem_legs hleg
    exact hb.step (.of_mem_successors hstep)

theorem Trail.reachable (H : ctx.Trail store states edges s) : ctx.Reachable s :=
  H.reachable_of_mem (List.mem_of_getLast? H.getLast?)

/-- A trip up to one of its legs is a trip to the state that the leg starts from. -/
theorem Trail.split {before after : List (EdgeIndex × State R)}
    (H : ctx.Trail store states edges s) (h : edges.zip states.tail = before ++ leg :: after) :
    ∃ id a states', ctx.Trail store states' (before.map Prod.fst) a ∧
      leg ∈ ctx.successors id a := by
  induction H generalizing after with
  | start => simp at h
  | @snoc states edges p a e b H hp hf hstep ih =>
    rw [H.legs_snoc] at h
    rcases List.eq_nil_or_concat after with rfl | ⟨init, last, rfl⟩
    · obtain ⟨rfl, hleg⟩ := List.append_inj' h rfl
      cases hleg
      rw [H.map_fst_legs]
      exact ⟨p, a, states, H, hstep⟩
    · rw [List.concat_eq_append, ← List.cons_append, ← List.append_assoc] at h
      exact ih (List.append_inj' h rfl).1

/-- What the start has no part in is collected from the legs. -/
theorem Trail.filterMap_states {α : Type} {f : State R → Option α}
    (H : ctx.Trail store states edges s) (hstart : f (.initial ctx.origin) = none) :
    states.filterMap f = (edges.zip states.tail).filterMap fun leg => f leg.2 := by
  conv_lhs => rw [H.states_eq]
  rw [List.filterMap_cons_none hstart, List.filterMap_map]
  rfl

theorem drivenMeters?_eq_ite {id : StateId} {e : EdgeIndex} {b : State R}
    (h : (e, b) ∈ ctx.successors id a) : ctx.drivenMeters? b =
      if b.mode = some .car then (ctx.graph.street? e).map Street.length else none := by
  obtain ⟨edge, hedge, -, -, -, hback⟩ := edge_of_mem_successors h
  have hstreet : (ctx.backEdge? b).bind Edge.street? = ctx.graph.street? e := by
    rw [backEdge?, hback, Option.bind_some, Graph.street?]
  rw [drivenMeters?, hstreet]

/-- What is driven is read off the legs. -/
theorem Trail.streetMeters_eq {itinerary : Itinerary R}
    (H : ctx.Trail store itinerary.states itinerary.edges s)
    (hover : itinerary = ctx.itineraryOver itinerary.states) : itinerary.streetMeters =
      Quantity.sum (itinerary.legs.filterMap fun leg => ctx.drivenMeters? leg.2) := by
  conv_lhs => rw [hover]
  exact congrArg Quantity.sum (H.filterMap_states rfl)

/-- Itineraries are read off trails to states that have arrived. -/
theorem trail_of_findPaths [Geodesy R] {paths : List (Itinerary R)} {itinerary : Itinerary R}
    (h : ctx.findPaths = .ok paths) (hmem : itinerary ∈ paths) :
    itinerary = ctx.itineraryOver itinerary.states ∧ ∃ s,
      ctx.Trail ctx.search.1.store itinerary.states itinerary.edges s ∧ ctx.isFinal s = true := by
  obtain ⟨-, rfl⟩ := findPaths_eq_ok_iff.1 h
  obtain ⟨id, hid, rfl⟩ := List.mem_map.1 hmem
  have hconsistent := ctx.search_reached.consistent
  obtain ⟨s, hs, hfinal⟩ := hconsistent.found id hid
  exact ⟨rfl, s, hconsistent.grown.trail_itineraryTo hs, hfinal⟩

end Context

end TripPlanner
