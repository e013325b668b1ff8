import TripPlanner.Proofs.Exact

/-!
# Steps

What can follow a state. `Context.Follows` is one edge, `Context.Chain` a sequence of edges, and
`Context.Reachable` what some sequence leads to from the origin. The number of a state decides
nothing but the parent that is noted in the next one.
-/

namespace TripPlanner

namespace Graph

variable {R : Type} {g : Graph R} {v : VertexIndex} {e : EdgeIndex} {edge : Edge R}

theorem mem_outgoing_iff : (e, edge) ∈ g.outgoing v ↔ g.edge? e = some edge ∧ edge.source = v := by
  simp [outgoing, Arena.filter, edge?, Arena.get?_eq_some_iff]

theorem mem_incoming_iff : (e, edge) ∈ g.incoming v ↔ g.edge? e = some edge ∧ edge.target = v := by
  simp [incoming, Arena.filter, edge?, Arena.get?_eq_some_iff]

theorem street?_eq_some_iff {street : Street R} :
    g.street? e = some street ↔ ∃ edge, g.edge? e = some edge ∧ edge.kind = .street street := by
  simp only [street?, Option.bind_eq_some_iff, Edge.street?]
  refine exists_congr fun edge => and_congr_right fun _ => ?_
  cases edge.kind <;> simp [EdgeKind.street?]

theorem mem_entries_iff : (e, edge) ∈ g.edges.entries ↔ g.edge? e = some edge :=
  Arena.get?_eq_some_iff.symm

end Graph

namespace State

variable {R : Type}

theorem arrivedVia_eq_true_iff {s : State R} {edgeClass : EdgeClass} :
    s.arrivedVia edgeClass = true ↔ ∃ back, s.back = some back ∧ back.edgeClass = edgeClass := by
  cases h : s.back <;> simp [arrivedVia, h]

theorem arrivedVia_congr {a b : State R} (h : a.back = b.back) (edgeClass : EdgeClass) :
    a.arrivedVia edgeClass = b.arrivedVia edgeClass := by
  rw [arrivedVia, arrivedVia, h]

theorem backStreet?_eq_some_iff {s : State R} {e : EdgeIndex} :
    s.backStreet? = some e ↔ s.back = some ⟨e, .street⟩ := by
  simp only [backStreet?, Option.bind_eq_some_iff]
  constructor
  · rintro ⟨⟨i, c⟩, hback, h⟩
    by_cases hc : c = .street
    · simp only [hc, if_true, Option.some.injEq] at h
      rw [hback, hc, h]
    · simp [hc] at h
  · exact fun h => ⟨_, h, if_pos rfl⟩

theorem backStreet?_eq_none_of_arrivedVia {s : State R} {edgeClass : EdgeClass}
    (h : s.arrivedVia edgeClass = true) (hne : edgeClass ≠ .street) : s.backStreet? = none := by
  obtain ⟨back, hback, rfl⟩ := arrivedVia_eq_true_iff.1 h
  simp [backStreet?, hback, hne]

section After

variable [Quantity R] (s : State R) (id : StateId) (e : EdgeIndex) (edge : Edge R) (move : Move R)

@[simp] theorem after_vertex : (s.after id e edge move).vertex = edge.target := rfl
@[simp] theorem after_parent : (s.after id e edge move).parent = some id := rfl
@[simp] theorem after_back : (s.after id e edge move).back = some ⟨e, edge.edgeClass⟩ := rfl
@[simp] theorem after_mode : (s.after id e edge move).mode = move.mode := rfl
@[simp] theorem after_plane : (s.after id e edge move).plane = move.plane := rfl

@[simp] theorem after_arrivedVia (c : EdgeClass) :
    (s.after id e edge move).arrivedVia c = decide (edge.edgeClass = c) := rfl

end After

end State

namespace Context

section
variable {R : Type} [Quantity R]

/-- The edge can be followed from the first state and leads to the second one. -/
def Follows (ctx : Context R) (a : State R) (e : EdgeIndex) (b : State R) : Prop :=
  ∃ id edge, ctx.graph.edge? e = some edge ∧ edge.source = a.vertex ∧
    ctx.traverse id a e edge = some b

/-- The edges can be followed one after the other and lead from the first state to the second. -/
inductive Chain (ctx : Context R) : State R → List EdgeIndex → State R → Prop where
  | nil {a : State R} : Chain ctx a [] a
  | cons {a b c : State R} {e : EdgeIndex} {es : List EdgeIndex} :
      ctx.Follows a e b → Chain ctx b es c → Chain ctx a (e :: es) c

/-- States that some sequence of edges leads to from the origin. -/
inductive Reachable (ctx : Context R) : State R → Prop where
  | origin : Reachable ctx (.initial ctx.origin)
  | step {a b : State R} {e : EdgeIndex} : Reachable ctx a → ctx.Follows a e b → Reachable ctx b

/-- The state that an edge leads to from a state. -/
def follow? (ctx : Context R) (s : State R) (e : EdgeIndex) : Option (State R) :=
  (ctx.graph.edge? e).bind fun edge =>
    if edge.source = s.vertex then ctx.traverse 0 s e edge else none

/-- The state that a sequence of edges leads to from a state. -/
def walk? (ctx : Context R) (s : State R) (es : List EdgeIndex) : Option (State R) :=
  es.foldlM ctx.follow? s

end

variable {R : Type} [Quantity R] {ctx : Context R} {a b : State R} {e : EdgeIndex}
  {es : List EdgeIndex} {id : StateId} {edge : Edge R} {move : Move R}

theorem Chain.reachable (H : ctx.Chain a es b) (ha : ctx.Reachable a) : ctx.Reachable b := by
  induction H with
  | nil => exact ha
  | cons h _ ih => exact ih (ha.step h)

theorem Chain.snoc (H : ctx.Chain a es b) {c : State R} (h : ctx.Follows b e c) :
    ctx.Chain a (es ++ [e]) c := by
  induction H with
  | nil => exact .cons h .nil
  | cons hstep _ ih => exact .cons hstep (ih h)

theorem Reachable.exists_chain (H : ctx.Reachable a) :
    ∃ es, ctx.Chain (.initial ctx.origin) es a := by
  induction H with
  | origin => exact ⟨[], .nil⟩
  | step _ h ih =>
    obtain ⟨es, hchain⟩ := ih
    exact ⟨_, hchain.snoc h⟩

/-- What can be reached depends on where the trip starts and what can be followed. -/
theorem Reachable.congr {ctx' : Context R} (H : ctx.Reachable a)
    (horigin : ctx'.origin = ctx.origin)
    (hfollows : ∀ {a e b}, ctx.Follows a e b → ctx'.Follows a e b) : ctx'.Reachable a := by
  induction H with
  | origin => exact horigin ▸ .origin
  | step _ h ih => exact ih.step (hfollows h)

theorem traverse_eq_some_iff : ctx.traverse id a e edge = some b ↔
    ∃ move, ctx.move? a e edge = some move ∧ a.after id e edge move = b := by
  simp [traverse]

theorem Follows.of_follow? (h : ctx.follow? a e = some b) : ctx.Follows a e b := by
  obtain ⟨edge, hedge, h⟩ := Option.bind_eq_some_iff.1 h
  simp only [Option.ite_none_right_eq_some] at h
  exact ⟨0, edge, hedge, h.1, h.2⟩

theorem Chain.of_walk? (h : ctx.walk? a es = some b) : ctx.Chain a es b := by
  induction es generalizing a with
  | nil =>
    cases h
    exact .nil
  | cons e es ih =>
    rw [walk?, List.foldlM_cons] at h
    obtain ⟨next, hnext, hrest⟩ := Option.bind_eq_some_iff.1 h
    exact .cons (.of_follow? hnext) (ih hrest)

theorem exists_chain_of_walk? {p : State R → Bool} (h : ((ctx.walk? a es).any p) = true) :
    ∃ s, ctx.Chain a es s ∧ p s = true := by
  obtain ⟨s, hwalk, hs⟩ := (Option.any_eq_true _ _).1 h
  exact ⟨s, .of_walk? hwalk, hs⟩

theorem exists_final_of_walk? (es : List EdgeIndex)
    (h : ((ctx.walk? a es).any ctx.isFinal) = true) :
    ∃ es s, ctx.Chain a es s ∧ ctx.isFinal s = true :=
  ⟨es, exists_chain_of_walk? h⟩

theorem not_isBlocked_of_move? (h : ctx.move? a e edge = some move) :
    ctx.graph.isBlocked edge = false := by
  cases hblocked : ctx.graph.isBlocked edge with
  | false => rfl
  | true => simp [move?, hblocked] at h

theorem mem_successors_iff : (e, b) ∈ ctx.successors id a ↔
    ∃ edge, ctx.graph.edge? e = some edge ∧ edge.source = a.vertex ∧
      ctx.traverse id a e edge = some b := by
  simp only [successors, List.mem_filterMap, Prod.exists, Graph.mem_outgoing_iff,
    Option.map_eq_some_iff, Prod.mk.injEq]
  constructor
  · rintro ⟨e', edge, ⟨hedge, hsource⟩, b', ht, rfl, rfl⟩
    exact ⟨edge, hedge, hsource, ht⟩
  · rintro ⟨edge, hedge, hsource, ht⟩
    exact ⟨e, edge, ⟨hedge, hsource⟩, b, ht, rfl, rfl⟩

theorem mem_successors_of_move? (hedge : ctx.graph.edge? e = some edge)
    (hsource : edge.source = a.vertex) (hmove : ctx.move? a e edge = some move) (id : StateId) :
    (e, a.after id e edge move) ∈ ctx.successors id a :=
  mem_successors_iff.2 ⟨edge, hedge, hsource, traverse_eq_some_iff.2 ⟨move, hmove, rfl⟩⟩

theorem move_of_mem_successors (h : (e, b) ∈ ctx.successors id a)
    (hedge : ctx.graph.edge? e = some edge) : edge.source = a.vertex ∧
      ∃ move, ctx.move? a e edge = some move ∧ b = a.after id e edge move := by
  obtain ⟨edge', hedge', hsource, ht⟩ := mem_successors_iff.1 h
  obtain ⟨move, hmove, rfl⟩ := traverse_eq_some_iff.1 ht
  cases hedge.symm.trans hedge'
  exact ⟨hsource, move, hmove, rfl⟩

theorem parent_of_mem_successors (h : (e, b) ∈ ctx.successors id a) : b.parent = some id := by
  obtain ⟨edge, -, -, ht⟩ := mem_successors_iff.1 h
  obtain ⟨move, -, rfl⟩ := traverse_eq_some_iff.1 ht
  rfl

/-- What a successor says of the edge that it came over. -/
theorem edge_of_mem_successors (h : (e, b) ∈ ctx.successors id a) : ∃ edge,
    ctx.graph.edge? e = some edge ∧ ctx.graph.isBlocked edge = false ∧ edge.source = a.vertex ∧
      edge.target = b.vertex ∧ b.back = some ⟨e, edge.edgeClass⟩ := by
  obtain ⟨edge, hedge, hsource, ht⟩ := mem_successors_iff.1 h
  obtain ⟨move, hmove, rfl⟩ := traverse_eq_some_iff.1 ht
  exact ⟨edge, hedge, not_isBlocked_of_move? hmove, hsource, rfl, rfl⟩

theorem Follows.of_mem_successors (h : (e, b) ∈ ctx.successors id a) : ctx.Follows a e b :=
  ⟨id, mem_successors_iff.1 h⟩

/-- The number of a state is noted in the next one and decides nothing else. -/
theorem Follows.mem_successors (H : ctx.Follows a e b) (i : StateId) :
    ∃ b', (e, b') ∈ ctx.successors i a ∧ b'.vertex = b.vertex ∧ b'.back = b.back ∧
      b'.plane = b.plane := by
  obtain ⟨id, edge, hedge, hsource, ht⟩ := H
  obtain ⟨move, hmove, rfl⟩ := traverse_eq_some_iff.1 ht
  exact ⟨_, mem_successors_of_move? hedge hsource hmove i, rfl, rfl, rfl⟩

/-- What a followed edge says of the next state. -/
theorem Follows.cases (H : ctx.Follows a e b) : ∃ id edge move,
    ctx.graph.edge? e = some edge ∧ edge.source = a.vertex ∧ ctx.move? a e edge = some move ∧
      b = a.after id e edge move := by
  obtain ⟨id, edge, hedge, hsource, ht⟩ := H
  obtain ⟨move, hmove, rfl⟩ := traverse_eq_some_iff.1 ht
  exact ⟨id, edge, move, hedge, hsource, hmove, rfl⟩

end Context

end TripPlanner
