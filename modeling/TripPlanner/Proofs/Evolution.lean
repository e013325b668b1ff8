import Mathlib.Logic.Relation
import TripPlanner.Proofs.Step

/-!
# Evolution

Graphs evolve by one change after the other (`Graph.Change`, `Graph.Evolved`). Edge numbers are
given out once, and of entries that can be found the street index holds those of the intersections
that are there, each at its position (`Graph.Evolved.coherent`). An edge whose number was given out
before some changes has been there before them, under the same index (`Graph.edge?_of_changes`).
-/

namespace TripPlanner

namespace Graph

variable {R : Type} [Quantity R] {g next : Graph R} {source target v : VertexIndex}
  {e e' : EdgeIndex} {edge edge' : Edge R} {vertex : Vertex R} {kind : EdgeKind R} {p : Point R}

/-! ## Look-ups -/

theorem eq_of_addEdge (h : g.addEdge source target kind = .ok (e, next)) :
    g.vertices.contains source = true ∧ g.vertices.contains target = true ∧
      next = (g.connect source target kind).2 := by
  unfold Graph.addEdge at h
  split at h
  · rename_i hends
    rw [Bool.and_eq_true] at hends
    exact ⟨hends.1, hends.2, (congrArg Prod.snd (Except.ok.inj h)).symm⟩
  · cases h

omit [Quantity R] in
theorem eq_of_addRestriction {restriction : TurnRestriction}
    (h : g.addRestriction restriction = .ok next) :
    ∃ restrictions, next = { g with restrictions := restrictions } := by
  unfold Graph.addRestriction at h
  split at h
  · cases h
  · cases h
  · split at h
    · cases h
      exact ⟨_, rfl⟩
    · cases h

omit [Quantity R] in
/-- A turn restriction on two streets that meet can be added. -/
theorem addRestriction_eq_ok {restriction : TurnRestriction}
    (hsource : g.edge? restriction.source = some edge)
    (htarget : g.edge? restriction.target = some edge') (hmeet : edge.target = edge'.source)
    (hstreet : edge.street?.isSome = true) (hstreet' : edge'.street?.isSome = true) :
    g.addRestriction restriction = .ok { g with
      restrictions := g.restrictions.insert restriction.source
        (g.restrictionsAfter restriction.source ++ [restriction]) } := by
  unfold addRestriction
  rw [hsource, htarget]
  exact if_pos ⟨hmeet, hstreet, hstreet'⟩

theorem edge?_connect : (g.connect source target kind).2.edge? e =
    if e = g.edges.next then some ⟨g.nextEdgeId, source, target, kind⟩ else g.edge? e := by
  rw [edge?, connect, Arena.get?_insert]
  rfl

theorem edge?_removeVertex : (g.removeVertex v).2.edge? e =
    if e ∈ g.incident v then none else g.edge? e := by
  rw [edge?, removeVertex, Arena.get?_eraseAll]
  rfl

theorem vertex?_addVertex : (g.addVertex vertex).2.vertex? v =
    if v = g.vertices.next then some vertex else g.vertex? v := by
  rw [vertex?, addVertex, Arena.get?_insert]
  rfl

omit [Quantity R] in
theorem vertex?_next : g.vertex? g.vertices.next = none := Arena.get?_next _

omit [Quantity R] in
theorem ne_next_of_vertex? (h : g.vertex? v = some vertex) : v ≠ g.vertices.next := by
  rintro rfl
  rw [vertex?_next] at h
  cases h

theorem vertex?_removeVertex {w : VertexIndex} : (g.removeVertex v).2.vertex? w =
    if w = v then none else g.vertex? w := by
  rw [vertex?, removeVertex, Arena.get?_erase]
  rfl

/-! ## One change after the other -/

/-- One change of a graph that leaves the closures for roadworks as they are. -/
inductive Change : Graph R → Graph R → Prop where
  | addVertex (g : Graph R) (v : Vertex R) : Change g (g.addVertex v).2
  | connect {g : Graph R} {source target : VertexIndex} (kind : EdgeKind R) :
      g.vertices.contains source = true → g.vertices.contains target = true →
      Change g (g.connect source target kind).2
  | removeVertex (g : Graph R) (v : VertexIndex) : Change g (g.removeVertex v).2
  | addRestriction {g next : Graph R} {restriction : TurnRestriction} :
      g.addRestriction restriction = .ok next → Change g next
  | modifyServices {g : Graph R} {f : Services R → Services R} :
      (f g.services).roadworks = g.services.roadworks → Change g (g.modifyServices f)
  | bumpVersion (g : Graph R) : Change g g.bumpVersion

theorem Change.addEdge (h : g.addEdge source target kind = .ok (e, next)) : g.Change next := by
  obtain ⟨hsource, htarget, rfl⟩ := eq_of_addEdge h
  exact .connect kind hsource htarget

/-- Any number of such changes. -/
def Changes : Graph R → Graph R → Prop := Relation.ReflTransGen Change

/-- The graphs that changes make of the empty one, those of the closures included. -/
inductive Evolved : Graph R → Prop where
  | empty : Evolved .empty
  | change {g next : Graph R} : Evolved g → g.Change next → Evolved next
  | modifyServices {g : Graph R} (f : Services R → Services R) : Evolved g →
      Evolved (g.modifyServices f)

/-! ## Edge numbers -/

/-- A change takes edges away or adds one under the next number. -/
theorem Change.edges (h : g.Change next) :
    next.nextEdgeId = g.nextEdgeId ∧ (∀ {e edge}, next.edge? e = some edge →
      g.edge? e = some edge) ∨
    next.nextEdgeId = g.nextEdgeId + 1 ∧ ∃ new : Edge R, new.id = g.nextEdgeId ∧
      ∀ e, next.edge? e = if e = g.edges.next then some new else g.edge? e := by
  cases h with
  | addVertex | modifyServices | bumpVersion => exact .inl ⟨rfl, fun h => h⟩
  | connect kind => exact .inr ⟨rfl, _, rfl, fun _ => edge?_connect⟩
  | removeVertex v =>
    refine .inl ⟨rfl, fun h => ?_⟩
    rw [edge?_removeVertex] at h
    split at h
    · cases h
    · exact h
  | addRestriction h =>
    obtain ⟨restrictions, rfl⟩ := eq_of_addRestriction h
    exact .inl ⟨rfl, fun h => h⟩

theorem Change.roadworks (h : g.Change next) :
    next.services.roadworks = g.services.roadworks := by
  cases h with
  | addVertex | connect | removeVertex | bumpVersion => rfl
  | modifyServices h => exact h
  | addRestriction h =>
    obtain ⟨restrictions, rfl⟩ := eq_of_addRestriction h
    rfl

/-- Numbers are given out once, and the street index is in line with the vertices. -/
structure Coherent (g : Graph R) : Prop where
  fresh : ∀ {e edge}, g.edge? e = some edge → edge.id < g.nextEdgeId
  distinct : ∀ {e e' edge edge'}, g.edge? e = some edge → g.edge? e' = some edge' →
    edge.id = edge'.id → e = e'
  listed : ∀ {v vertex}, g.vertex? v = some vertex → vertex.isStreet = true →
    (vertex.position, v) ∈ g.streetIndex.entries
  /-- An entry that cannot be found may outlast its vertex. -/
  live : ∀ {p v}, (p, v) ∈ g.streetIndex.entries → p.isDefined = true →
    ∃ vertex, g.vertex? v = some vertex ∧ vertex.isStreet = true ∧ vertex.position = p

theorem Coherent.mem_defined_iff (H : g.Coherent) : (p, v) ∈ g.streetIndex.defined ↔
    p.isDefined = true ∧
      ∃ vertex, g.vertex? v = some vertex ∧ vertex.isStreet = true ∧ vertex.position = p := by
  rw [StreetIndex.mem_defined]
  constructor
  · rintro ⟨hmem, hdefined⟩
    exact ⟨hdefined, H.live hmem hdefined⟩
  · rintro ⟨hdefined, vertex, hvertex, hstreet, rfl⟩
    exact ⟨H.listed hvertex hstreet, hdefined⟩

theorem Coherent.edge_eq (H : g.Coherent) (he : g.edge? e = some edge)
    (he' : g.edge? e' = some edge') (h : edge.id = edge'.id) : e = e' ∧ edge = edge' := by
  obtain rfl := H.distinct he he' h
  exact ⟨rfl, Option.some.inj (he.symm.trans he')⟩

theorem Coherent.fresh_change (H : g.Coherent) (h : g.Change next)
    (he : next.edge? e = some edge) : edge.id < next.nextEdgeId := by
  rcases h.edges with ⟨hid, hold⟩ | ⟨hid, new, hnew, hedges⟩
  · exact hid ▸ H.fresh (hold he)
  · rw [hedges] at he
    rw [hid]
    split at he
    · cases he
      exact hnew ▸ Nat.lt_succ_self _
    · exact Nat.lt_succ_of_lt (H.fresh he)

theorem Coherent.distinct_change (H : g.Coherent) (h : g.Change next)
    (he : next.edge? e = some edge) (he' : next.edge? e' = some edge') (hid : edge.id = edge'.id) :
    e = e' := by
  rcases h.edges with ⟨-, hold⟩ | ⟨-, new, hnew, hedges⟩
  · exact H.distinct (hold he) (hold he') hid
  · rw [hedges] at he he'
    -- The new edge shares its number with none that was there.
    split at he <;> split at he'
    · exact Eq.trans ‹_› ‹_ = _›.symm
    · cases he
      exact (Nat.ne_of_lt (H.fresh he') (hid.symm.trans hnew)).elim
    · cases he'
      exact (Nat.ne_of_lt (H.fresh he) (hid.trans hnew)).elim
    · exact H.distinct he he' hid

/-! ## The street index -/

theorem mem_entries_addVertex : (p, v) ∈ (g.addVertex vertex).2.streetIndex.entries ↔
    (vertex.isStreet = true ∧ p = vertex.position ∧ v = g.vertices.next) ∨
      (p, v) ∈ g.streetIndex.entries := by
  unfold Graph.addVertex
  cases vertex.isStreet with
  | false => simp
  | true => simp [StreetIndex.insert]

/-- With an intersection the entries go that are equal to its own. -/
theorem entries_removeVertex (hv : g.vertex? v = some vertex) (hstreet : vertex.isStreet = true) :
    (g.removeVertex v).2.streetIndex.entries = g.streetIndex.entries.filter fun entry =>
      !StreetIndex.isEntry vertex.position v entry := by
  simp only [removeVertex, hv, hstreet, if_true, StreetIndex.erase]

theorem streetIndex_removeVertex_of_isStreet_eq_false
    (h : ∀ {vertex}, g.vertex? v = some vertex → vertex.isStreet = false) :
    (g.removeVertex v).2.streetIndex = g.streetIndex := by
  unfold Graph.removeVertex
  cases hvertex : g.vertex? v with
  | none => rfl
  | some vertex =>
    dsimp only
    rw [h hvertex, if_neg Bool.false_ne_true]

theorem Coherent.addVertex (H : g.Coherent) : (g.addVertex vertex).2.Coherent where
  fresh := H.fresh
  distinct := H.distinct
  listed := by
    intro w new hw hstreet
    rw [mem_entries_addVertex]
    rw [vertex?_addVertex] at hw
    split at hw
    · cases hw
      exact .inl ⟨hstreet, rfl, ‹_›⟩
    · exact .inr (H.listed hw hstreet)
  live := by
    intro p w hmem hdefined
    rcases mem_entries_addVertex.1 hmem with ⟨hstreet, rfl, rfl⟩ | hmem
    · exact ⟨vertex, vertex?_addVertex.trans (if_pos rfl), hstreet, rfl⟩
    · obtain ⟨old, hold, hstreet, hposition⟩ := H.live hmem hdefined
      refine ⟨old, ?_, hstreet, hposition⟩
      rw [vertex?_addVertex, if_neg (ne_next_of_vertex? hold), hold]

theorem Coherent.mem_entries_removeVertex (H : g.Coherent)
    (h : (p, source) ∈ (g.removeVertex v).2.streetIndex.entries) :
    (p, source) ∈ g.streetIndex.entries ∧ (p.isDefined = true → source ≠ v) := by
  by_cases hintersection : ∃ vertex, g.vertex? v = some vertex ∧ vertex.isStreet = true
  · obtain ⟨vertex, hvertex, hstreet⟩ := hintersection
    rw [entries_removeVertex hvertex hstreet, List.mem_filter] at h
    refine ⟨h.1, ?_⟩
    rintro hdefined rfl
    -- The entry would be equal to the one that goes.
    obtain ⟨_, hthere, -, rfl⟩ := H.live h.1 hdefined
    cases hvertex.symm.trans hthere
    rw [Point.isDefined] at hdefined
    simp [StreetIndex.isEntry, hdefined] at h
  · rw [streetIndex_removeVertex_of_isStreet_eq_false fun hvertex => Bool.eq_false_iff.2
      fun hstreet => hintersection ⟨_, hvertex, hstreet⟩] at h
    refine ⟨h, ?_⟩
    rintro hdefined rfl
    obtain ⟨vertex, hvertex, hstreet, -⟩ := H.live h hdefined
    exact hintersection ⟨vertex, hvertex, hstreet⟩

theorem Coherent.removeVertex (H : g.Coherent) : (g.removeVertex v).2.Coherent where
  fresh := H.fresh_change (.removeVertex g v)
  distinct := H.distinct_change (.removeVertex g v)
  listed := by
    intro w other hw hstreet
    rw [vertex?_removeVertex] at hw
    split at hw
    · cases hw
    · rename_i hne
      have hmem := H.listed hw hstreet
      unfold Graph.removeVertex
      dsimp only
      split
      · split
        · exact List.mem_filter.2 ⟨hmem, by simp [StreetIndex.isEntry, hne]⟩
        · exact hmem
      · exact hmem
  live := by
    intro p w hmem hdefined
    obtain ⟨hold, hne⟩ := H.mem_entries_removeVertex hmem
    rw [vertex?_removeVertex, if_neg (hne hdefined)]
    exact H.live hold hdefined

theorem Coherent.change (H : g.Coherent) (h : g.Change next) : next.Coherent := by
  cases h with
  | addVertex => exact H.addVertex
  | removeVertex => exact H.removeVertex
  | connect kind hsource htarget =>
    have h := Change.connect kind hsource htarget
    exact ⟨H.fresh_change h, H.distinct_change h, H.listed, H.live⟩
  | modifyServices | bumpVersion => exact ⟨H.fresh, H.distinct, H.listed, H.live⟩
  | addRestriction h =>
    obtain ⟨restrictions, rfl⟩ := eq_of_addRestriction h
    exact ⟨H.fresh, H.distinct, H.listed, H.live⟩

theorem Evolved.coherent (H : g.Evolved) : g.Coherent := by
  induction H with
  | empty => exact ⟨nofun, nofun, nofun, nofun⟩
  | change _ h ih => exact ih.change h
  | modifyServices _ _ ih => exact ⟨ih.fresh, ih.distinct, ih.listed, ih.live⟩

/-! ## Sequences of changes -/

theorem Evolved.changes (H : g.Evolved) (h : g.Changes next) : next.Evolved := by
  induction h with
  | refl => exact H
  | tail _ h ih => exact ih.change h

theorem Changes.roadworks (h : g.Changes next) :
    next.services.roadworks = g.services.roadworks := by
  induction h with
  | refl => rfl
  | tail _ h ih => exact h.roadworks.trans ih

theorem Changes.nextEdgeId_le (h : g.Changes next) : g.nextEdgeId ≤ next.nextEdgeId := by
  induction h with
  | refl => exact Nat.le_refl _
  | tail _ h ih =>
    rcases h.edges with ⟨hid, -⟩ | ⟨hid, -⟩
    · exact hid ▸ ih
    · exact hid ▸ Nat.le_succ_of_le ih

/-- An edge whose number was given out before the changes was there before them. -/
theorem edge?_of_changes (h : g.Changes next) (he : next.edge? e = some edge)
    (hid : edge.id < g.nextEdgeId) : g.edge? e = some edge := by
  induction h with
  | refl => exact he
  | @tail mid next hchanges h ih =>
    rcases h.edges with ⟨-, hold⟩ | ⟨-, new, hnew, hedges⟩
    · exact ih (hold he)
    · rw [hedges] at he
      split at he
      · cases he
        exact (Nat.not_le_of_lt hid (hnew ▸ Changes.nextEdgeId_le hchanges)).elim
      · exact ih he

end Graph

end TripPlanner
