import TripPlanner.Feed
import TripPlanner.Proofs.Alternatives
import TripPlanner.Proofs.Construction

/-!
# Closures

What closing ways and areas for roadworks means (`Graph.Closes`), and that it means the same
whatever changes the graph goes through afterwards (`Graph.isBlocked_iff_of_changes`): the streets
that touch an area are closed by their numbers, which no later edge gets. Searches keep to what is
open.
-/

namespace TripPlanner

namespace Roadworks

variable {R : Type} {edge : Edge R} {ways : List Int} {closed : List EdgeId}

theorem mem_foldl_insert {α : Type} [DecidableEq α] {a : α} {new seen : List α} :
    a ∈ new.foldl (fun seen b => seen.insert b) seen ↔ a ∈ new ∨ a ∈ seen := by
  induction new generalizing seen with
  | nil => simp
  | cons b new ih => simp [ih, or_assoc, or_left_comm]

theorem blocks_close_ofWays : ((ofWays ways).close closed).blocks edge = true ↔
    edge.id ∈ closed ∨ ∃ street, edge.street? = some street ∧ street.way ∈ ways := by
  simp only [blocks, close, ofWays, Bool.or_eq_true, decide_eq_true_eq, Option.any_eq_true,
    mem_foldl_insert, List.not_mem_nil, or_false]

end Roadworks

namespace Graph

variable {R : Type} [Quantity R] {g next : Graph R} {v : VertexIndex} {e : EdgeIndex}
  {edge : Edge R} {area : Area R} {ways : List Int} {areas : List (Area R)}

/-! ## What is closed -/

/-- The vertex is an intersection in the area or on its border. -/
def IsWithin (g : Graph R) (area : Area R) (v : VertexIndex) : Prop :=
  ∃ vertex, g.vertex? v = some vertex ∧ vertex.isStreet = true ∧
    area.contains vertex.position = true

/-- An edge is among those that closing ways and areas on a graph is about: a stretch of street of
one of the ways, or one that is there and touches one of the areas. -/
def Closes (g : Graph R) (ways : List Int) (areas : List (Area R)) (e : EdgeIndex)
    (edge : Edge R) : Prop :=
  ∃ street, edge.street? = some street ∧ (street.way ∈ ways ∨
    g.edge? e = some edge ∧ ∃ area ∈ areas, g.IsWithin area edge.source ∨
      g.IsWithin area edge.target)

theorem Coherent.mem_streetsWithin_iff (H : g.Coherent) :
    v ∈ g.streetsWithin area ↔ g.IsWithin area v := by
  rw [streetsWithin, StreetIndex.mem_within]
  constructor
  · rintro ⟨p, hmem, harea⟩
    obtain ⟨vertex, hvertex, hstreet, rfl⟩ := H.live hmem (Area.isDefined_of_contains harea)
    exact ⟨vertex, hvertex, hstreet, harea⟩
  · rintro ⟨vertex, hvertex, hstreet, harea⟩
    exact ⟨vertex.position, H.listed hvertex hstreet, harea⟩

omit [Quantity R] in
theorem mem_streetIdsAt_iff {id : EdgeId} : id ∈ g.streetIdsAt v ↔ ∃ e edge,
    g.edge? e = some edge ∧ edge.street?.isSome ∧ (edge.source = v ∨ edge.target = v) ∧
      edge.id = id := by
  simp only [streetIdsAt, List.mem_map, List.mem_filter, List.mem_append, Prod.exists,
    mem_outgoing_iff, mem_incoming_iff]
  constructor
  · rintro ⟨e, edge, ⟨⟨hedge, hend⟩ | ⟨hedge, hend⟩, hstreet⟩, rfl⟩
    · exact ⟨e, edge, hedge, hstreet, .inl hend, rfl⟩
    · exact ⟨e, edge, hedge, hstreet, .inr hend, rfl⟩
  · rintro ⟨e, edge, hedge, hstreet, hend, rfl⟩
    exact ⟨e, edge, ⟨hend.imp (⟨hedge, ·⟩) (⟨hedge, ·⟩), hstreet⟩, rfl⟩

/-- The numbers that closing some areas notes down. -/
def closedIds (g : Graph R) (areas : List (Area R)) : List EdgeId :=
  areas.flatMap fun area => (g.streetsWithin area).flatMap g.streetIdsAt

theorem Coherent.mem_closedIds_iff (H : g.Coherent) {id : EdgeId} :
    id ∈ g.closedIds areas ↔ ∃ e edge, g.edge? e = some edge ∧ edge.street?.isSome ∧
      (∃ area ∈ areas, g.IsWithin area edge.source ∨ g.IsWithin area edge.target) ∧
        edge.id = id := by
  simp only [closedIds, List.mem_flatMap, H.mem_streetsWithin_iff, mem_streetIdsAt_iff]
  constructor
  · rintro ⟨area, harea, v, hv, e, edge, hedge, hstreet, rfl | rfl, rfl⟩
    · exact ⟨e, edge, hedge, hstreet, ⟨area, harea, .inl hv⟩, rfl⟩
    · exact ⟨e, edge, hedge, hstreet, ⟨area, harea, .inr hv⟩, rfl⟩
  · rintro ⟨e, edge, hedge, hstreet, ⟨area, harea, hend⟩, rfl⟩
    rcases hend with hend | hend
    · exact ⟨area, harea, _, hend, e, edge, hedge, hstreet, .inl rfl, rfl⟩
    · exact ⟨area, harea, _, hend, e, edge, hedge, hstreet, .inr rfl, rfl⟩

theorem isBlocked_applyRoadworks (H : next.services.roadworks =
    (g.applyRoadworks ways areas).services.roadworks) : next.isBlocked edge = true ↔
      edge.id ∈ g.closedIds areas ∨ ∃ street, edge.street? = some street ∧ street.way ∈ ways := by
  rw [isBlocked, H]
  exact Roadworks.blocks_close_ofWays

theorem Coherent.isBlocked_iff (H : g.Coherent) (h : (g.applyRoadworks ways areas).Changes next)
    (he : next.edge? e = some edge) :
    next.isBlocked edge = true ↔ g.Closes ways areas e edge := by
  rw [isBlocked_applyRoadworks h.roadworks, H.mem_closedIds_iff]
  constructor
  · rintro (⟨e', edge', hedge', hstreet, htouch, hid⟩ | ⟨street, hstreet, hway⟩)
    · -- The number was given out before, so the edge is the one that was closed.
      have hedge := edge?_of_changes h he (hid ▸ H.fresh hedge')
      obtain ⟨rfl, rfl⟩ := H.edge_eq hedge' hedge hid
      obtain ⟨street, hstreet⟩ := Option.isSome_iff_exists.1 hstreet
      exact ⟨street, hstreet, .inr ⟨hedge', htouch⟩⟩
    · exact ⟨street, hstreet, .inl hway⟩
  · rintro ⟨street, hstreet, hway | ⟨hedge, htouch⟩⟩
    · exact .inr ⟨street, hstreet, hway⟩
    · exact .inl ⟨e, edge, hedge, Option.isSome_iff_exists.2 ⟨street, hstreet⟩, htouch, rfl⟩

/-! ## What is found -/

variable [Geodesy R] {request : Request R} {path : Itinerary R} {paths : List (Itinerary R)}
  {ctx : Context R}

theorem isOpen_of_findPaths (h : ctx.findPaths = .ok paths) (hpath : path ∈ paths)
    (he : e ∈ path.edges) :
    ∃ edge, ctx.graph.edge? e = some edge ∧ ctx.graph.isBlocked edge = false := by
  obtain ⟨-, rfl⟩ := Context.findPaths_eq_ok_iff.1 h
  have htrip := ctx.search_reached.consistent.isTrip hpath
  obtain ⟨i, hi⟩ := List.mem_iff_getElem?.1 he
  have hlt := (List.getElem?_eq_some_iff.1 hi).1
  have hlength := htrip.length
  obtain ⟨a, ha⟩ : ∃ a, path.states[i]? = some a := ⟨_, List.getElem?_eq_getElem (by omega)⟩
  obtain ⟨b, hb⟩ : ∃ b, path.states[i + 1]? = some b := ⟨_, List.getElem?_eq_getElem (by omega)⟩
  have hleg := htrip.leg hi ha hb
  obtain ⟨-, edge, -, hedge, -⟩ := hleg.follows
  exact ⟨edge, hedge, hleg.isOpen hedge⟩

/-- The paths are what a search on the graph gives, by itself or compared with driving. -/
def Gives (g : Graph R) (paths : List (Itinerary R)) : Prop :=
  (∃ ctx : Context R, ctx.graph = g ∧ ctx.findPaths = .ok paths) ∨
    ∃ request, g.findPathsComparing request = .ok paths

/-- Each path is what a search alone gives. -/
theorem Gives.exists_findPaths (H : g.Gives paths) (hpath : path ∈ paths) :
    ∃ (ctx : Context R) (paths : List (Itinerary R)), ctx.graph = g ∧ ctx.findPaths = .ok paths ∧
      path ∈ paths := by
  rcases H with ⟨ctx, hgraph, h⟩ | ⟨request, h⟩
  · exact ⟨ctx, paths, hgraph, h, hpath⟩
  · obtain ⟨request, paths, hfind, hmem⟩ := exists_findPaths_of_comparing h hpath
    obtain ⟨ctx, hplaced, hctx⟩ := exists_context_of_findPaths hfind
    exact ⟨ctx, paths, Context.graph_of hplaced, hctx, hmem⟩

theorem Gives.isOpen (H : g.Gives paths) (hpath : path ∈ paths) (he : e ∈ path.edges) :
    ∃ edge, g.edge? e = some edge ∧ g.isBlocked edge = false := by
  obtain ⟨ctx, paths, rfl, h, hmem⟩ := H.exists_findPaths hpath
  exact isOpen_of_findPaths h hmem he

/-- Roadworks close the streets of the given ways, whenever these are added, and those that touch
one of the areas, as long as they are there. A street that is added later is closed by its way
only, whatever index it gets. Nothing that is found leads over a closed edge. -/
theorem isBlocked_iff_of_changes (H : g.Evolved)
    (h : (g.applyRoadworks ways areas).Changes next) :
    (∀ {e edge}, next.edge? e = some edge →
      (next.isBlocked edge = true ↔ g.Closes ways areas e edge)) ∧
    (∀ {e edge}, next.edge? e = some edge → g.nextEdgeId ≤ edge.id →
      (next.isBlocked edge = true ↔ ∃ street, edge.street? = some street ∧ street.way ∈ ways)) ∧
    ∀ {paths}, next.Gives paths → ∀ path ∈ paths, ∀ e ∈ path.edges, ∃ edge,
      next.edge? e = some edge ∧ next.isBlocked edge = false ∧ ¬ g.Closes ways areas e edge := by
  have hexact : ∀ {e edge}, next.edge? e = some edge →
      (next.isBlocked edge = true ↔ g.Closes ways areas e edge) := H.coherent.isBlocked_iff h
  refine ⟨hexact, fun he hlater => ?_, fun hpaths path hpath e he => ?_⟩
  · rw [hexact he]
    refine exists_congr fun street => and_congr_right fun _ => or_iff_left fun hold => ?_
    exact Nat.not_le_of_lt (H.coherent.fresh hold.1) hlater
  · obtain ⟨edge, hedge, hopen⟩ := hpaths.isOpen hpath he
    refine ⟨edge, hedge, hopen, fun hcloses => ?_⟩
    rw [(hexact hedge).2 hcloses] at hopen
    cases hopen

end Graph

/-! ## A bridge that is built anew -/

namespace Bridge

/-- A bridge halfway, and a street around it. -/
def before : Graph ℚ :=
  .build
    [.intersection "west" ⟨0, 0⟩, .intersection "bridge" ⟨1, 0⟩, .intersection "east" ⟨2, 0⟩]
    [(0, 1, .street (.plain 1 1000 .allStreet)), (1, 2, .street (.plain 2 1000 .allStreet)),
      (0, 2, .street (.plain 3 1000 .allStreet))]

/-- The bridge and the street around it are closed. -/
def closed : Graph ℚ := before.applyRoadworks [3] [⟨⟨1, 0⟩, ⟨1, 5⟩⟩]

/-- The bridge is taken down, and built anew with its first street. -/
def rebuilt : Graph ℚ :=
  (((closed.removeVertex 1).2.addVertex (.intersection "bridge" ⟨1, 0⟩)).2.connect 0 1
    (.street (.plain 1 1000 .allStreet))).2

/-- The second street follows. -/
def after : Graph ℚ := (rebuilt.connect 1 2 (.street (.plain 2 1000 .allStreet))).2

/-- A walk from west to east. -/
def walk : Context ℚ := .placed (Corners.onFoot 0 2) after 0 2 ⟨0, 0⟩ ⟨2, 0⟩

theorem changes_after : closed.Changes after :=
  .tail (.tail (.tail (.tail .refl (.removeVertex _ 1)) (.addVertex _ _))
    (.connect _ (by decide) (by decide)))
    (.connect _ (by decide) (by decide))

/-- The streets of the bridge were closed and are open again under the same indices. The street
around it stays closed, and the walk over the bridge is found. -/
theorem isBlocked_after : closed.edges.entries.map (fun p => (p.1, closed.isBlocked p.2)) =
      [(2, true), (1, true), (0, true)] ∧
    after.edges.entries.map (fun p => (p.1, after.isBlocked p.2)) =
      [(1, false), (0, false), (2, true)] ∧
    (∀ {e edge}, after.edge? e = some edge →
      (after.isBlocked edge = true ↔ before.Closes [3] [⟨⟨1, 0⟩, ⟨1, 5⟩⟩] e edge)) ∧
    ∃ paths, walk.findPaths = .ok paths ∧ paths.map Itinerary.edges = [[0, 1]] ∧
      ∀ path ∈ paths, ∀ e ∈ path.edges, ∃ edge, after.edge? e = some edge ∧
        after.isBlocked edge = false ∧ ¬ before.Closes [3] [⟨⟨1, 0⟩, ⟨1, 5⟩⟩] e edge := by
  obtain ⟨hexact, -, hopen⟩ := Graph.isBlocked_iff_of_changes
    (Graph.built_build (by decide)).evolved changes_after
  have hfound : walk.search.1.found ≠ [] := by decide
  have hpaths := Context.findPaths_eq_ok_iff.2 ⟨hfound, rfl⟩
  exact ⟨by decide, by decide, hexact, _, hpaths, by decide,
    hopen (.inl ⟨walk, rfl, hpaths⟩)⟩

end Bridge

end TripPlanner
