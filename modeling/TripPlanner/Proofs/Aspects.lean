import TripPlanner.Proofs.Restoration

/-!
# Aspects

What can be told of a vertex without its index and without the indices and numbers of its edges is
its aspect (`Graph.Aspect`). A place has the aspect that its record gives it when it is settled
(`Graph.aspectOf`), and keeps it as long as it is registered, whatever becomes of other places
(`Graph.Hosts.placeAspect?_applyRecords`).
-/

namespace TripPlanner

namespace Graph

variable {R ρ : Type} [Place R ρ] {base g next : Graph R} {e : EdgeIndex} {edge : Edge R}
  {v w source target : VertexIndex} {vertex here : Vertex R} {kind : EdgeKind R} {id k : String}
  {record : ρ} {records : List ρ}

/-! ## The aspect of a vertex -/

/-- A vertex with what leads away from it and to it. -/
structure Aspect (R : Type) where
  vertex : Vertex R
  /-- The kinds of the edges that start there, the newest first, and where they end, if elsewhere. -/
  outgoing : List (EdgeKind R × Option VertexIndex)
  /-- The kinds of the edges that end there, the newest first, and where they start, if elsewhere. -/
  incoming : List (EdgeKind R × Option VertexIndex)
  deriving DecidableEq

/-- The other end of an edge at a vertex, none if it is a loop. -/
def otherEnd (v w : VertexIndex) : Option VertexIndex := if w = v then none else some w

/-- The aspect of a vertex that is there. -/
def aspect? (g : Graph R) (v : VertexIndex) : Option (Aspect R) :=
  (g.vertex? v).map fun vertex =>
    { vertex
      outgoing := (g.outgoing v).map fun entry => (entry.2.kind, otherEnd v entry.2.target)
      incoming := (g.incoming v).map fun entry => (entry.2.kind, otherEnd v entry.2.source) }

/-- The aspect of the vertex that is registered for an id. -/
def placeAspect? (g : Graph R) (ρ : Type) [Place R ρ] (id : String) : Option (Aspect R) :=
  ((g.registry ρ).vertex? id).bind g.aspect?

theorem aspect?_congr (hvertex : next.vertex? v = g.vertex? v)
    (houtgoing : next.outgoing v = g.outgoing v) (hincoming : next.incoming v = g.incoming v) :
    next.aspect? v = g.aspect? v := by
  rw [aspect?, aspect?, hvertex, houtgoing, hincoming]

/-- No edge starts or ends where there is no vertex. -/
theorem edges_eq_nil (H : g.Regulated) (h : g.vertex? v = none) :
    g.outgoing v = [] ∧ g.incoming v = [] := by
  simp only [List.eq_nil_iff_forall_not_mem, Prod.forall, mem_outgoing_iff, mem_incoming_iff]
  exact ⟨fun e edge hmem => (H.ends_ne hmem.1 h).1 hmem.2,
    fun e edge hmem => (H.ends_ne hmem.1 h).2 hmem.2⟩

theorem Surrounds.next_free (H : base.Surrounds g) : base.vertex? g.vertices.next = none :=
  vertex?_eq_none_of_kept (fun _ => H.vertex?) vertex?_next

variable [Quantity R]

theorem filter_edges_connect (keep : Edge R → Bool) :
    (g.connect source target kind).2.edges.filter keep =
      if keep ⟨g.nextEdgeId, source, target, kind⟩ then
        (g.edges.next, ⟨g.nextEdgeId, source, target, kind⟩) :: g.edges.filter keep
      else g.edges.filter keep := by
  rw [connect, Arena.filter, Arena.entries_insert, List.filter_cons]
  rfl

theorem outgoing_connect : (g.connect source target kind).2.outgoing v =
    if source = v then (g.edges.next, ⟨g.nextEdgeId, source, target, kind⟩) :: g.outgoing v
    else g.outgoing v := by
  rw [outgoing, filter_edges_connect]
  simp only [decide_eq_true_eq, outgoing]

theorem incoming_connect : (g.connect source target kind).2.incoming v =
    if target = v then (g.edges.next, ⟨g.nextEdgeId, source, target, kind⟩) :: g.incoming v
    else g.incoming v := by
  rw [incoming, filter_edges_connect]
  simp only [decide_eq_true_eq, incoming]

theorem filter_edges_removeVertex {keep : Edge R → Bool}
    (h : ∀ {e edge}, g.edge? e = some edge → keep edge = true →
      edge.source ≠ w ∧ edge.target ≠ w) :
    (g.removeVertex w).2.edges.filter keep = g.edges.filter keep := by
  rw [removeVertex, Arena.filter, Arena.entries_eraseAll, List.filter_comm]
  refine List.filter_eq_self.2 ?_
  rintro ⟨e, edge⟩ hmem
  obtain ⟨hentry, hkeep⟩ := List.mem_filter.1 hmem
  have hedge : g.edge? e = some edge := Arena.get?_eq_some_iff.2 hentry
  refine decide_eq_true fun hincident => ?_
  obtain ⟨edge', hedge', hend⟩ := mem_incident_iff.1 hincident
  cases hedge.symm.trans hedge'
  exact hend.elim (h hedge hkeep).1 (h hedge hkeep).2

/-- An edge between other vertices does not matter. -/
theorem aspect?_connect_ne (hsource : source ≠ v) (htarget : target ≠ v) :
    (g.connect source target kind).2.aspect? v = g.aspect? v :=
  aspect?_congr rfl (outgoing_connect.trans (if_neg hsource))
    (incoming_connect.trans (if_neg htarget))

theorem aspect?_addVertex (h : v ≠ g.vertices.next) :
    (g.addVertex vertex).2.aspect? v = g.aspect? v :=
  aspect?_congr (vertex?_addVertex.trans (if_neg h)) rfl rfl

/-- The removal of another vertex does not matter if no edge joins the two. -/
theorem aspect?_removeVertex (hne : v ≠ w) (h : ∀ {e edge}, g.edge? e = some edge →
    edge.source = v ∨ edge.target = v → edge.source ≠ w ∧ edge.target ≠ w) :
    (g.removeVertex w).2.aspect? v = g.aspect? v := by
  refine aspect?_congr (vertex?_removeVertex.trans (if_neg hne)) ?_ ?_
  · exact filter_edges_removeVertex fun he hend => h he (.inl (of_decide_eq_true hend))
  · exact filter_edges_removeVertex fun he hend => h he (.inr (of_decide_eq_true hend))

/-- Loops are listed in front, the last one first. -/
theorem aspect?_foldl_connect (loops : List (EdgeKind R)) :
    (loops.foldl (fun g loop => (g.connect v v loop).2) g).aspect? v =
      (g.aspect? v).map fun aspect => { aspect with
        outgoing := loops.reverse.map (fun loop => (loop, none)) ++ aspect.outgoing
        incoming := loops.reverse.map (fun loop => (loop, none)) ++ aspect.incoming } := by
  induction loops generalizing g with
  | nil => simp
  | cons loop loops ih =>
    have hvertex : (g.connect v v loop).2.vertex? v = g.vertex? v := rfl
    rw [List.foldl_cons, ih, aspect?, aspect?, hvertex, outgoing_connect, incoming_connect]
    simp [Function.comp_def, otherEnd]

theorem aspect?_foldl_connect_ne (loops : List (EdgeKind R)) (h : v ≠ w) :
    (loops.foldl (fun g loop => (g.connect v v loop).2) g).aspect? w = g.aspect? w :=
  List.foldlRecOn loops _ (motive := fun next : Graph R => next.aspect? w = g.aspect? w) rfl
    fun _ H _ _ => (aspect?_connect_ne h h).trans H

/-- A vertex joined to a street in both directions. -/
def joined (g : Graph R) (v : VertexIndex) (link : VertexIndex × R) : Graph R :=
  ((g.connect v link.1 (.link link.2)).2.connect link.1 v (.link link.2)).2

theorem aspect?_joined {link : VertexIndex × R} (h : link.1 ≠ v) :
    (g.joined v link).aspect? v = (g.aspect? v).map fun aspect => { aspect with
      outgoing := (.link link.2, some link.1) :: aspect.outgoing
      incoming := (.link link.2, some link.1) :: aspect.incoming } := by
  have hvertex : (g.joined v link).vertex? v = g.vertex? v := rfl
  rw [aspect?, aspect?, hvertex, joined, outgoing_connect, outgoing_connect, incoming_connect,
    incoming_connect]
  simp [Function.comp_def, otherEnd, h]

/-! ## What a record gives a place -/

/-- The vertex of a record. -/
def vertexOf (record : ρ) : Vertex R :=
  ⟨Place.name record, Place.position record, Place.vertexKind ρ (Place.id record)⟩

/-- The graph with the vertex of a record and its loops, before it is linked to the streets. -/
def lodge (g : Graph R) (record : ρ) : Graph R :=
  (Place.loops (ρ := ρ)).foldl
    (fun next loop => (next.connect g.vertices.next g.vertices.next loop).2)
    (g.addVertex (vertexOf record)).2

theorem vertex?_lodge : (g.lodge record).vertex? v =
    if v = g.vertices.next then some (vertexOf record) else g.vertex? v := by
  rw [vertex?, lodge, (foldl_connect_eq _).1]
  exact vertex?_addVertex

variable [Geodesy R]

/-- The street that a place is linked to, and how far it is, unless that is too far. -/
def linkAt? (g : Graph R) (p : Point R) : Option (VertexIndex × R) := do
  let street ← g.nearestStreet? p
  let there ← g.vertex? street
  let length := Geodesy.groundDistance p there.position
  if maxLinkDistance < length then none else some (street, length)

/-- The aspect of the place that a record settles: links in both directions and the loops of its
kind. -/
def aspectOf (g : Graph R) (record : ρ) : Aspect R :=
  let links := (g.linkAt? (Place.position record)).toList.map fun link =>
    (EdgeKind.link link.2, some link.1)
  let ways := links ++ (Place.loops (ρ := ρ)).reverse.map fun loop => (loop, none)
  ⟨vertexOf record, ways, ways⟩

theorem linkToStreets_eq_joined (h : g.vertex? v = some here) :
    g.linkToStreets v = (g.linkAt? here.position).elim g (g.joined v) := by
  unfold linkToStreets linkAt?
  simp only [h, bind, Option.bind, pure]
  cases g.nearestStreet? here.position with
  | none => rfl
  | some street =>
    dsimp only
    cases g.vertex? street with
    | none => rfl
    | some there =>
      dsimp only
      split <;> rfl

theorem exists_of_linkAt? {p : Point R} {link : VertexIndex × R} (h : g.linkAt? p = some link) :
    ∃ there, g.vertex? link.1 = some there := by
  simp only [linkAt?, bind, Option.bind_eq_some_iff] at h
  obtain ⟨street, -, there, hthere, h⟩ := h
  split at h
  · cases h
  · cases h
    exact ⟨there, hthere⟩

/-- What there is besides does not matter for links. -/
theorem Surrounds.linkAt?_eq (hbase : base.Evolved) (H : base.Surrounds g) (p : Point R) :
    g.linkAt? p = base.linkAt? p := by
  have hnearest : g.nearestStreet? p = base.nearestStreet? p := by
    rw [nearestStreet?, nearestStreet?, H.streetIndex]
  unfold linkAt?
  rw [hnearest]
  cases hstreet : base.nearestStreet? p with
  | none => rfl
  | some street =>
    obtain ⟨⟨q, street⟩, hmem, rfl⟩ := List.mem_map.1 (StreetIndex.mem_of_nearest? hstreet)
    obtain ⟨-, vertex, hvertex, -⟩ := hbase.coherent.mem_defined_iff.1 hmem
    simp only [bind, Option.bind_some, hvertex, H.vertex? hvertex]

/-! ## Settling -/

section
variable [AsidePlace R ρ] (hbase : base.Evolved) (H : base.Surrounds g)
include H

omit [Geodesy R] in
include hbase in
theorem Surrounds.lodge (record : ρ) : base.Surrounds (g.lodge record) := by
  have hadded : base.Surrounds (g.addVertex (vertexOf record)).2 :=
    H.addVertex (AsidePlace.isStreet _ _ _)
  refine hadded.upkeep hbase.regulated (PlaceChanges.upkeep (ρ := ρ) ?_)
  refine .foldl_connect _ H.next_free ?_ fun _ => id
  exact contains_iff.2 ⟨vertexOf record, vertex?_addVertex.trans (if_pos rfl)⟩

include hbase in
/-- A record that is settled gets a place with loops, linked to what it would be linked to if there
were nothing besides. -/
theorem Surrounds.settle_eq_joined (record : ρ) : ∃ services, g.settle record =
    { (base.linkAt? (Place.position record)).elim (g.lodge record)
        ((g.lodge record).joined g.vertices.next) with services := services } := by
  have hhere : (g.lodge record).vertex? g.vertices.next = some (vertexOf record) :=
    vertex?_lodge.trans (if_pos rfl)
  have hsettle : g.settle record = ((g.lodge record).linkToStreets g.vertices.next).modifyServices
    (Place.modifyRegistry fun registry : Registry ρ =>
      registry.place (Place.id record) record g.vertices.next) := rfl
  rw [hsettle, linkToStreets_eq_joined hhere, (H.lodge hbase record).linkAt?_eq hbase]
  exact ⟨_, rfl⟩

include hbase in
theorem Surrounds.aspect?_settle (record : ρ) :
    (g.settle record).aspect? g.vertices.next = some (base.aspectOf record) := by
  have hnew : ((g.addVertex (vertexOf record)).2).aspect? g.vertices.next =
      some ⟨vertexOf record, [], []⟩ := by
    obtain ⟨houtgoing, hincoming⟩ := edges_eq_nil H.regulated (vertex?_next (g := g))
    rw [aspect?, vertex?_addVertex, if_pos rfl]
    change some (Aspect.mk _ ((g.outgoing _).map _) ((g.incoming _).map _)) = _
    rw [houtgoing, hincoming]
    rfl
  have hlodged : (g.lodge record).aspect? g.vertices.next = some
      ⟨vertexOf record, (Place.loops (ρ := ρ)).reverse.map fun loop => (loop, none),
        (Place.loops (ρ := ρ)).reverse.map fun loop => (loop, none)⟩ := by
    rw [Graph.lodge, aspect?_foldl_connect, hnew]
    simp
  obtain ⟨services, hsettle⟩ := H.settle_eq_joined hbase record
  rw [hsettle]
  change ((base.linkAt? _).elim (g.lodge record) _).aspect? _ = _
  unfold aspectOf
  cases hlink : base.linkAt? (Place.position record) with
  | none => exact hlodged
  | some link =>
    have hne : link.1 ≠ g.vertices.next := by
      rintro heq
      obtain ⟨there, hthere⟩ := exists_of_linkAt? hlink
      cases (heq ▸ hthere).symm.trans H.next_free
    rw [Option.elim_some, aspect?_joined hne, hlodged]
    rfl

include hbase in
/-- Places that are there already do not change their aspect when another one is settled. -/
theorem Surrounds.aspect?_settle_ne (record : ρ) (hv : g.vertex? v = some vertex)
    (hbesides : base.vertex? v = none) : (g.settle record).aspect? v = g.aspect? v := by
  have hne : g.vertices.next ≠ v := (ne_next_of_vertex? hv).symm
  have hlodged : (g.lodge record).aspect? v = g.aspect? v :=
    (aspect?_foldl_connect_ne _ hne).trans (aspect?_addVertex hne.symm)
  obtain ⟨services, hsettle⟩ := H.settle_eq_joined hbase record
  rw [hsettle]
  change ((base.linkAt? _).elim (g.lodge record) _).aspect? _ = _
  cases hlink : base.linkAt? (Place.position record) with
  | none => exact hlodged
  | some link =>
    have hstreet : link.1 ≠ v := by
      rintro rfl
      obtain ⟨there, hthere⟩ := exists_of_linkAt? hlink
      cases hthere.symm.trans hbesides
    refine (aspect?_connect_ne hstreet hne).trans ?_
    exact (aspect?_connect_ne hne hstreet).trans hlodged

end

end Graph

end TripPlanner
