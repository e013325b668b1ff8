import TripPlanner.Proofs.Evolution

/-!
# Regulation

In a graph that has evolved, edges join vertices that are there, and turn restrictions bind streets
that are there and meet (`Graph.Evolved.regulated`). So a vertex that no street touches can go
without any restriction going (`Graph.Regulated.restrictions_removeVertex`).
-/

namespace TripPlanner

namespace Graph

variable {R : Type} [Quantity R] {g next : Graph R} {source target v w : VertexIndex}
  {e : EdgeIndex} {edge : Edge R} {kind : EdgeKind R} {restriction : TurnRestriction}

/-- A restriction that is kept under an edge is about this one and another one, both streets, of
which the second starts where the first ends. -/
def Binds (g : Graph R) (e : EdgeIndex) (restriction : TurnRestriction) : Prop :=
  restriction.source = e ∧ ∃ source target, g.edge? restriction.source = some source ∧
    g.edge? restriction.target = some target ∧ source.street?.isSome = true ∧
      target.street?.isSome = true ∧ source.target = target.source

/-- Edges join vertices that are there, and restrictions bind streets that are there. -/
structure Regulated (g : Graph R) : Prop where
  ends : ∀ {e edge}, g.edge? e = some edge →
    g.vertices.contains edge.source = true ∧ g.vertices.contains edge.target = true
  ne_nil : ∀ {e restrictions}, g.restrictions.get? e = some restrictions → restrictions ≠ []
  binds : ∀ {e restrictions}, g.restrictions.get? e = some restrictions →
    ∀ restriction ∈ restrictions, g.Binds e restriction

/-! ## Look-ups -/

omit [Quantity R] in
theorem contains_iff : g.vertices.contains v = true ↔ ∃ vertex, g.vertex? v = some vertex :=
  Arena.contains_iff

omit [Quantity R] in
theorem mem_incident_iff : e ∈ g.incident v ↔
    ∃ edge, g.edge? e = some edge ∧ (edge.source = v ∨ edge.target = v) := by
  simp only [incident, List.mem_map, List.mem_append, Prod.exists, mem_outgoing_iff,
    mem_incoming_iff]
  constructor
  · rintro ⟨_, edge, ⟨hedge, hend⟩ | ⟨hedge, hend⟩, rfl⟩
    · exact ⟨edge, hedge, .inl hend⟩
    · exact ⟨edge, hedge, .inr hend⟩
  · rintro ⟨edge, hedge, hend | hend⟩
    · exact ⟨e, edge, .inl ⟨hedge, hend⟩, rfl⟩
    · exact ⟨e, edge, .inr ⟨hedge, hend⟩, rfl⟩

/-- The edges that stay are those that do not touch the vertex. -/
theorem edge?_removeVertex_iff : (g.removeVertex v).2.edge? e = some edge ↔
    g.edge? e = some edge ∧ edge.source ≠ v ∧ edge.target ≠ v := by
  rw [edge?_removeVertex]
  constructor
  · intro h
    split at h
    · cases h
    · rename_i hapart
      refine ⟨h, fun hend => hapart ?_, fun hend => hapart ?_⟩
      · exact mem_incident_iff.2 ⟨edge, h, .inl hend⟩
      · exact mem_incident_iff.2 ⟨edge, h, .inr hend⟩
  · rintro ⟨h, hsource, htarget⟩
    rw [if_neg, h]
    intro hmem
    obtain ⟨edge', hedge', hend⟩ := mem_incident_iff.1 hmem
    cases h.symm.trans hedge'
    exact hend.elim hsource htarget

theorem edge?_connect_of_edge? (h : g.edge? e = some edge) :
    (g.connect source target kind).2.edge? e = some edge := by
  rw [edge?_connect, if_neg, h]
  rintro rfl
  cases (Arena.get?_next g.edges).symm.trans h

omit [Quantity R] in
theorem get?_restrictionsWithout {gone : List EdgeIndex} {kept : List TurnRestriction} :
    (g.restrictionsWithout gone).get? e = some kept ↔ ∃ restrictions,
      g.restrictions.get? e = some restrictions ∧ e ∉ gone ∧ kept ≠ [] ∧
        kept = restrictions.filter fun restriction => restriction.target ∉ gone := by
  rw [restrictionsWithout, Table.get?_filterMap, Option.bind_eq_some_iff]
  refine exists_congr fun restrictions => and_congr_right fun _ => ?_
  dsimp only
  constructor
  · intro h
    split at h
    · cases h
    · rename_i hkeep
      cases h
      simpa [not_or, and_assoc] using hkeep
  · rintro ⟨he, hne, rfl⟩
    rw [if_neg]
    simpa [he] using hne

/-! ## One change -/

omit [Quantity R] in
theorem Binds.mono (H : g.Binds e restriction)
    (h : ∀ {e edge}, g.edge? e = some edge → edge.street?.isSome = true →
      e = restriction.source ∨ e = restriction.target → next.edge? e = some edge) :
    next.Binds e restriction := by
  obtain ⟨hkey, source, target, hsource, htarget, hstreet, hstreet', hmeet⟩ := H
  exact ⟨hkey, source, target, h hsource hstreet (.inl rfl), h htarget hstreet' (.inr rfl),
    hstreet, hstreet', hmeet⟩

omit [Quantity R] in
theorem Regulated.of_eq (H : g.Regulated) (hvertices : next.vertices = g.vertices)
    (hedges : next.edges = g.edges) (hrestrictions : next.restrictions = g.restrictions) :
    next.Regulated where
  ends h := by
    rw [edge?, hedges] at h
    exact hvertices ▸ H.ends h
  ne_nil h := H.ne_nil (hrestrictions ▸ h)
  binds h restriction hmem := by
    refine (H.binds (hrestrictions ▸ h) restriction hmem).mono fun hedge _ _ => ?_
    rw [edge?, hedges]
    exact hedge

theorem Regulated.addVertex (H : g.Regulated) (vertex : Vertex R) :
    (g.addVertex vertex).2.Regulated where
  ends h := by
    have hkept : ∀ {w}, g.vertices.contains w = true →
        (g.addVertex vertex).2.vertices.contains w = true := by
      intro w hw
      obtain ⟨old, hold⟩ := contains_iff.1 hw
      refine contains_iff.2 ⟨old, ?_⟩
      rw [vertex?_addVertex, if_neg (ne_next_of_vertex? hold), hold]
    exact (H.ends h).imp hkept hkept
  ne_nil := H.ne_nil
  binds := H.binds

theorem Regulated.connect (H : g.Regulated) (hsource : g.vertices.contains source = true)
    (htarget : g.vertices.contains target = true) (kind : EdgeKind R) :
    (g.connect source target kind).2.Regulated where
  ends h := by
    rw [edge?_connect] at h
    split at h
    · cases h
      exact ⟨hsource, htarget⟩
    · exact H.ends h
  ne_nil := H.ne_nil
  binds h restriction hmem :=
    (H.binds h restriction hmem).mono fun hedge _ _ => edge?_connect_of_edge? hedge

theorem Regulated.removeVertex (H : g.Regulated) (v : VertexIndex) :
    (g.removeVertex v).2.Regulated where
  ends h := by
    obtain ⟨hedge, hsource, htarget⟩ := edge?_removeVertex_iff.1 h
    have hkept : ∀ {w}, w ≠ v → g.vertices.contains w = true →
        (g.removeVertex v).2.vertices.contains w = true := by
      intro w hw hcontains
      obtain ⟨vertex, hvertex⟩ := contains_iff.1 hcontains
      refine contains_iff.2 ⟨vertex, ?_⟩
      rw [vertex?_removeVertex, if_neg hw, hvertex]
    exact (H.ends hedge).imp (hkept hsource) (hkept htarget)
  ne_nil h := by
    obtain ⟨-, -, -, hne, -⟩ := get?_restrictionsWithout.1 h
    exact hne
  binds {e kept} h restriction hmem := by
    obtain ⟨restrictions, hget, he, -, rfl⟩ := get?_restrictionsWithout.1 h
    obtain ⟨hmem, htarget⟩ := List.mem_filter.1 hmem
    have hbinds := H.binds hget restriction hmem
    -- Neither of its two edges goes with the vertex.
    refine hbinds.mono fun hedge _ hpart => ?_
    rw [edge?_removeVertex, if_neg, hedge]
    rcases hpart with rfl | rfl
    · exact hbinds.1 ▸ he
    · exact of_decide_eq_true htarget

omit [Quantity R] in
theorem Regulated.addRestriction (H : g.Regulated) (h : g.addRestriction restriction = .ok next) :
    next.Regulated := by
  unfold Graph.addRestriction at h
  split at h
  · cases h
  · cases h
  · rename_i source target hsource htarget
    split at h
    · rename_i hmeet
      cases h
      have hnew : g.Binds restriction.source restriction :=
        ⟨rfl, source, target, hsource, htarget, hmeet.2.1, hmeet.2.2, hmeet.1⟩
      refine ⟨H.ends, fun {e restrictions} hget => ?_, fun {e restrictions} hget r hr => ?_⟩
      · rw [Table.get?_insert] at hget
        split at hget
        · cases hget
          exact List.append_ne_nil_of_right_ne_nil _ (List.cons_ne_nil _ _)
        · exact H.ne_nil hget
      · rw [Table.get?_insert] at hget
        split at hget
        · rename_i he
          cases hget
          rcases List.mem_append.1 hr with hold | hr
          · rw [restrictionsAfter] at hold
            cases hbefore : g.restrictions.get? restriction.source with
            | none =>
              rw [hbefore] at hold
              cases hold
            | some before =>
              rw [hbefore] at hold
              exact he ▸ H.binds hbefore r hold
          · cases List.mem_singleton.1 hr
            exact he ▸ hnew
        · exact H.binds hget r hr
    · cases h

theorem Regulated.change (H : g.Regulated) (h : g.Change next) : next.Regulated := by
  cases h with
  | addVertex v => exact H.addVertex v
  | connect kind hsource htarget => exact H.connect hsource htarget kind
  | removeVertex v => exact H.removeVertex v
  | addRestriction h => exact H.addRestriction h
  | modifyServices | bumpVersion => exact H.of_eq rfl rfl rfl

/-- Whatever changes it has gone through, a graph has no edge into nothing and no restriction on
what is no street. -/
theorem Evolved.regulated (H : g.Evolved) : g.Regulated := by
  induction H with
  | empty => exact ⟨fun h => (nomatch h), fun h => (nomatch h), fun h => (nomatch h)⟩
  | change _ h ih => exact ih.change h
  | modifyServices _ _ ih => exact ih.of_eq rfl rfl rfl

omit [Quantity R] in
/-- What is not there is no end of an edge. -/
theorem Regulated.ends_ne (H : g.Regulated) (he : g.edge? e = some edge)
    (hv : g.vertex? v = none) : edge.source ≠ v ∧ edge.target ≠ v := by
  have hnot : ¬ g.vertices.contains v = true := by
    rintro hcontains
    obtain ⟨vertex, hvertex⟩ := contains_iff.1 hcontains
    cases hv.symm.trans hvertex
  exact ⟨fun h => hnot (h ▸ (H.ends he).1), fun h => hnot (h ▸ (H.ends he).2)⟩

/-! ## Vertices without streets -/

/-- No street starts or ends at the vertex. -/
def IsOffStreet (g : Graph R) (v : VertexIndex) : Prop :=
  ∀ {e edge}, g.edge? e = some edge → edge.street?.isSome = true →
    edge.source ≠ v ∧ edge.target ≠ v

/-- With a vertex that no street touches no restriction goes. -/
theorem Regulated.restrictions_removeVertex (H : g.Regulated) (h : g.IsOffStreet v) :
    (g.removeVertex v).2.restrictions = g.restrictions := by
  have hapart : ∀ {e edge}, g.edge? e = some edge → edge.street?.isSome = true →
      e ∉ g.incident v := by
    intro e edge hedge hstreet hmem
    obtain ⟨edge', hedge', hend⟩ := mem_incident_iff.1 hmem
    cases hedge.symm.trans hedge'
    exact hend.elim (h hedge hstreet).1 (h hedge hstreet).2
  change g.restrictionsWithout (g.incident v) = g.restrictions
  refine Table.filterMap_eq_self fun ⟨e, restrictions⟩ hmem => ?_
  have hget : g.restrictions.get? e = some restrictions := Table.get?_eq_some_iff.2 hmem
  have hbinds := H.binds hget
  have hkept : (restrictions.filter fun restriction => restriction.target ∉ g.incident v) =
      restrictions := by
    refine List.filter_eq_self.2 fun restriction hr => decide_eq_true ?_
    obtain ⟨-, _, _, -, htarget, -, hstreet, -⟩ := hbinds restriction hr
    exact hapart htarget hstreet
  have hkey : e ∉ g.incident v := by
    obtain ⟨restriction, hr⟩ := List.exists_mem_of_ne_nil _ (H.ne_nil hget)
    obtain ⟨rfl, _, _, hsource, -, hstreet, -⟩ := hbinds restriction hr
    exact hapart hsource hstreet
  dsimp only
  rw [hkept, if_neg]
  simpa [hkey] using H.ne_nil hget

end Graph

end TripPlanner
