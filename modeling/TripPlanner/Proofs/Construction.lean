import TripPlanner.Proofs.Placement
import TripPlanner.Proofs.Regulation

/-!
# Construction

Graphs come about by one change after the other (`Graph.Built`). Of all these graphs it holds that
edges join vertices that are there, and that the extremes kept of the edges allow for each of them
(`Graph.Built.bounded`).
-/

namespace TripPlanner

variable {R : Type} [Field R] [LinearOrder R] [IsStrictOrderedRing R] [FloorRing R]

/-! ## Extremes -/

namespace EdgeBounds

variable {bounds wider : EdgeBounds R} {kind : EdgeKind R}

/-- The bounds allow for an edge. -/
def Covers (bounds : EdgeBounds R) : EdgeKind R → Prop
  | .street s => (s.permits.car = true → s.carSpeed ≤ bounds.maxCarSpeed) ∧
      (s.permits.bicycle = true → bounds.minBicycleSafety ≤ s.bicycleSafety)
  | .hop duration length => 0 < duration → length / duration ≤ bounds.maxTransitSpeed
  | _ => True

/-- The second bounds allow for all that the first ones do. -/
structure Within (bounds wider : EdgeBounds R) : Prop where
  car : bounds.maxCarSpeed ≤ wider.maxCarSpeed
  transit : bounds.maxTransitSpeed ≤ wider.maxTransitSpeed
  safety : wider.minBicycleSafety ≤ bounds.minBicycleSafety

theorem Covers.of_within (H : bounds.Covers kind) (h : bounds.Within wider) :
    wider.Covers kind := by
  cases kind with
  | street s =>
    exact ⟨fun hcar => (H.1 hcar).trans h.car, fun hbicycle => h.safety.trans (H.2 hbicycle)⟩
  | hop duration length => exact fun hduration => (H hduration).trans h.transit
  | _ => trivial

theorem within_extend : bounds.Within (bounds.extend kind) := by
  unfold extend
  split
  · refine ⟨?_, le_rfl, ?_⟩
    · dsimp only
      split
      · exact le_max_left _ _
      · exact le_rfl
    · dsimp only
      split
      · exact min_le_left _ _
      · exact le_rfl
  · split
    · exact ⟨le_rfl, le_max_left _ _, le_rfl⟩
    · exact ⟨le_rfl, le_rfl, le_rfl⟩
  · exact ⟨le_rfl, le_rfl, le_rfl⟩

theorem covers_extend : (bounds.extend kind).Covers kind := by
  cases kind with
  | street s =>
    refine ⟨fun hcar => ?_, fun hbicycle => ?_⟩
    · simp only [extend, hcar, if_true]
      exact le_max_right _ _
    · simp only [extend, hbicycle, if_true]
      exact min_le_right _ _
  | hop duration length =>
    intro hduration
    simp only [extend, if_pos hduration]
    exact le_max_right _ _
  | _ => trivial

end EdgeBounds

/-! ## Graphs -/

namespace Graph

variable {g next : Graph R} {source target v : VertexIndex} {e : EdgeIndex} {edge : Edge R}
  {kind : EdgeKind R}

/-- Graphs that changes make of the empty one. -/
inductive Built : Graph R → Prop where
  | empty : Built .empty
  | addVertex {g : Graph R} (v : Vertex R) : Built g → Built (g.addVertex v).2
  | connect {g : Graph R} {source target : VertexIndex} (kind : EdgeKind R) : Built g →
      g.vertices.contains source = true → g.vertices.contains target = true →
      Built (g.connect source target kind).2
  | removeVertex {g : Graph R} (v : VertexIndex) : Built g → Built (g.removeVertex v).2
  | addRestriction {g next : Graph R} {restriction : TurnRestriction} : Built g →
      g.addRestriction restriction = .ok next → Built next
  | modifyServices {g : Graph R} (f : Services R → Services R) : Built g →
      Built (g.modifyServices f)
  | bumpVersion {g : Graph R} : Built g → Built g.bumpVersion

/-- Graphs that are built have evolved. -/
theorem Built.evolved (H : g.Built) : g.Evolved := by
  induction H with
  | empty => exact .empty
  | addVertex v _ ih => exact ih.change (.addVertex _ v)
  | connect kind _ hsource htarget ih => exact ih.change (.connect kind hsource htarget)
  | removeVertex v _ ih => exact ih.change (.removeVertex _ v)
  | addRestriction _ h ih => exact ih.change (.addRestriction h)
  | modifyServices f _ ih => exact ih.modifyServices f
  | bumpVersion _ ih => exact ih.change (.bumpVersion _)

/-- Over exact numbers, graphs that have evolved are built. -/
theorem Evolved.built (H : g.Evolved) : g.Built := by
  induction H with
  | empty => exact .empty
  | change _ h ih =>
    cases h with
    | addVertex v => exact ih.addVertex v
    | connect kind hsource htarget => exact ih.connect kind hsource htarget
    | removeVertex v => exact ih.removeVertex v
    | addRestriction h => exact ih.addRestriction h
    | modifyServices => exact ih.modifyServices _
    | bumpVersion => exact ih.bumpVersion
  | modifyServices f _ ih => exact ih.modifyServices f

/-- The network of the given vertices and edges is built, if all ends are among the vertices. -/
theorem built_build {vertices : List (Vertex R)}
    {edges : List (VertexIndex × VertexIndex × EdgeKind R)}
    (h : ∀ p ∈ edges, (Graph.build vertices []).vertices.contains p.1 = true ∧
      (Graph.build vertices []).vertices.contains p.2.1 = true) :
    (Graph.build vertices edges).Built := by
  have hvertices : (Graph.build vertices []).Built :=
    List.foldlRecOn vertices _ .empty fun _ H vertex _ => H.addVertex vertex
  -- An edge leaves the vertices as they are, so the ends of those after it are still there.
  refine (List.foldlRecOn edges _ (motive := fun g : Graph R =>
    g.Built ∧ g.vertices = (Graph.build vertices []).vertices) ⟨hvertices, rfl⟩
    fun g H p hp => ?_).1
  obtain ⟨hsource, htarget⟩ := h p hp
  rw [← H.2] at hsource htarget
  exact ⟨H.1.connect p.2.2 hsource htarget, H.2⟩

/-- Edges join vertices that are there, and the bounds allow for them. -/
structure Bounded (g : Graph R) : Prop where
  ends : ∀ {e edge}, g.edge? e = some edge →
    g.vertices.contains edge.source = true ∧ g.vertices.contains edge.target = true
  covers : ∀ {e edge}, g.edge? e = some edge → g.bounds.Covers edge.kind

/-- The bounds only widen, and allow for each edge that is added. -/
theorem Built.covers (H : g.Built) (he : g.edge? e = some edge) : g.bounds.Covers edge.kind := by
  induction H with
  | empty => cases he
  | addVertex _ _ ih | modifyServices _ _ ih | bumpVersion _ ih => exact ih he
  | connect kind _ _ _ ih =>
    rw [edge?_connect] at he
    split at he
    · cases he
      exact EdgeBounds.covers_extend
    · exact (ih he).of_within EdgeBounds.within_extend
  | removeVertex _ _ ih => exact ih (edge?_removeVertex_iff.1 he).1
  | addRestriction _ h ih =>
    obtain ⟨restrictions, rfl⟩ := eq_of_addRestriction h
    exact ih he

/-- Whatever changes it has gone through, a graph has no edge into nothing and none beyond its
bounds. -/
theorem Built.bounded (H : g.Built) : g.Bounded := ⟨H.evolved.regulated.ends, H.covers⟩

end Graph

end TripPlanner
