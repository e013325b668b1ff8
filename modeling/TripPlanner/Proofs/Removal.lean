import TripPlanner.Proofs.Intersections
import TripPlanner.Proofs.Passage

/-!
# Removal

What goes with a vertex: the edges that start or end there, the turn restrictions that mention one
of these, and the entry of an intersection in the street index. All the rest stays as it is, and in
the order it was in (`Graph.Removes`, `Graph.Evolved.removes`). A loop at the vertex is one edge,
though it is met twice, and another intersection at the same point stays in the index.

The entry of an intersection is the one that is equal to its position and its index. Where the
position is not a number, nothing is equal to it, and nothing goes from the index.
-/

namespace TripPlanner

namespace Graph

variable {R : Type} [Quantity R] {g next : Graph R} {v w : VertexIndex} {e : EdgeIndex}
  {edge : Edge R} {vertex : Vertex R} {p : Point R}

/-! ## Edges and restrictions -/

theorem edges_entries_removeVertex (g : Graph R) (v : VertexIndex) :
    (g.removeVertex v).2.edges.entries =
      g.edges.filter fun edge => edge.source ≠ v ∧ edge.target ≠ v := by
  rw [removeVertex, Arena.entries_eraseAll, Arena.filter]
  refine List.filter_congr ?_
  rintro ⟨e, edge⟩ hmem
  have hedge : g.edge? e = some edge := mem_entries_iff.1 hmem
  rw [decide_eq_decide, ← not_or, not_iff_not, mem_incident_iff]
  refine ⟨?_, fun hend => ⟨edge, hedge, hend⟩⟩
  rintro ⟨_, h, hend⟩
  cases hedge.symm.trans h
  exact hend

theorem filter_removeVertex (g : Graph R) (v : VertexIndex) (keep : Edge R → Bool) :
    (g.removeVertex v).2.edges.filter keep =
      (g.edges.filter keep).filter fun entry => entry.2.source ≠ v ∧ entry.2.target ≠ v := by
  rw [Arena.filter, edges_entries_removeVertex]
  exact List.filter_comm ..

theorem outgoing_removeVertex (hw : w ≠ v) : (g.removeVertex v).2.outgoing w =
    (g.outgoing w).filter fun entry => entry.2.target ≠ v := by
  rw [outgoing, filter_removeVertex]
  refine List.filter_congr ?_
  rintro ⟨e, edge⟩ hmem
  have hsource : edge.source = w := (mem_outgoing_iff.1 hmem).2
  simp [hsource, hw]

theorem incoming_removeVertex (hw : w ≠ v) : (g.removeVertex v).2.incoming w =
    (g.incoming w).filter fun entry => entry.2.source ≠ v := by
  rw [incoming, filter_removeVertex]
  refine List.filter_congr ?_
  rintro ⟨e, edge⟩ hmem
  have htarget : edge.target = w := (mem_incoming_iff.1 hmem).2
  simp [htarget, hw]

omit [Quantity R] in
/-- No restriction is kept under an edge that is not there. -/
theorem Regulated.restrictions_eq_none (H : g.Regulated) (h : g.edge? e = none) :
    g.restrictions.get? e = none := by
  refine Option.eq_none_iff_forall_ne_some.2 fun restrictions hget => ?_
  obtain ⟨restriction, hmem⟩ := List.exists_mem_of_ne_nil _ (H.ne_nil hget)
  obtain ⟨rfl, edge, -, hedge, -⟩ := H.binds hget restriction hmem
  cases h.symm.trans hedge

/-- Under an edge that stays, the restrictions stay whose target does. -/
theorem Regulated.restrictionsAfter_removeVertex (H : g.Regulated)
    (he : (g.removeVertex v).2.edge? e = some edge) :
    (g.removeVertex v).2.restrictionsAfter e = (g.restrictionsAfter e).filter fun restriction =>
      (g.removeVertex v).2.edges.contains restriction.target := by
  rw [Graph.restrictionsAfter_removeVertex (not_mem_incident he)]
  refine List.filter_congr fun restriction hmem => ?_
  obtain ⟨-, _, target, -, htarget, -⟩ := H.binds_of_mem hmem
  have hkept : (g.removeVertex v).2.edges.get? restriction.target =
      if restriction.target ∈ g.incident v then none else some target :=
    edge?_removeVertex.trans (by rw [htarget])
  rw [Arena.contains, hkept]
  by_cases hgone : restriction.target ∈ g.incident v <;> simp [hgone]

/-! ## All that goes -/

/-- What is left once a vertex has been removed: what was there, but for the vertex, its edges, the
restrictions that mention one of these, and its entry in the street index. -/
structure Removes (g : Graph R) (v : VertexIndex) (vertex : Vertex R) (next : Graph R) : Prop where
  vertices : ∀ w, next.vertex? w = if w = v then none else g.vertex? w
  edges : ∀ {e edge}, next.edge? e = some edge ↔
    g.edge? e = some edge ∧ edge.source ≠ v ∧ edge.target ≠ v
  outgoing : ∀ {w}, w ≠ v →
    next.outgoing w = (g.outgoing w).filter fun entry => entry.2.target ≠ v
  incoming : ∀ {w}, w ≠ v →
    next.incoming w = (g.incoming w).filter fun entry => entry.2.source ≠ v
  /-- The restrictions that are kept after an edge that stays. -/
  restrictions : ∀ {e edge}, next.edge? e = some edge → next.restrictionsAfter e =
    (g.restrictionsAfter e).filter fun restriction => next.edges.contains restriction.target
  /-- No other edge has any. -/
  unrestricted : ∀ {e}, next.edge? e = none → next.restrictions.get? e = none
  /-- Of the entries of the street index those go that are equal to the one of an intersection. -/
  entries : vertex.isStreet = true → next.streetIndex.entries =
    g.streetIndex.entries.filter fun entry => !StreetIndex.isEntry vertex.position v entry
  /-- It has been there, and nothing that can be found is left of it. -/
  entry : vertex.isStreet = true → (vertex.position, v) ∈ g.streetIndex.entries ∧
    ∀ p, (p, v) ∉ next.streetIndex.defined
  /-- The tree over the entries loses the same one, and nothing else. -/
  tree : ∀ {S}, Quantity.Ordered S → g.streetIndex.Sound S → next.streetIndex.Sound S ∧
    (vertex.isStreet = true →
      ((vertex.position, v) :: next.streetIndex.entries).Perm g.streetIndex.entries ∧
      ((vertex.position, v) :: next.streetIndex.tree.items).Perm g.streetIndex.tree.items)
  unlisted : vertex.isStreet = false → next.streetIndex = g.streetIndex
  services : next.services = g.services
  version : next.version = g.version
  nextEdgeId : next.nextEdgeId = g.nextEdgeId
  bounds : next.bounds = g.bounds

end Graph

/-! ## Two intersections at one point -/

namespace Overpass

/-- Streets between the bridge and the east, a street from there to the vertex below the bridge and
one that goes round in a circle there, with turn restrictions between them. -/
def mutations : List (Mutation ℚ) :=
  [.addVertex (.intersection "bridge" ⟨0, 0⟩), .addVertex (.intersection "below" ⟨0, 0⟩),
    .addVertex (.intersection "east" ⟨1, 0⟩), .addStreet 0 2 1 .allStreet,
    .addStreet 2 0 1 .allStreet, .addStreet 2 1 2 .allStreet, .addStreet 1 1 3 .allStreet,
    .addRestriction ⟨.noTurn, 0, 2, .allStreet⟩, .addRestriction ⟨.noTurn, 0, 1, .allStreet⟩,
    .addRestriction ⟨.onlyTurn, 2, 3, .allStreet⟩, .addRestriction ⟨.noTurn, 3, 3, .allStreet⟩]

def streets : Graph ℚ := .made mutations

end Overpass

end TripPlanner
