import TripPlanner.Network.Vertex
import TripPlanner.Spatial.Nearest

/-!
# The street index

Positions of the street vertices, asked for the nearest one to a point and for all in an area.
Where several are equally near to a point, a tree of areas over them decides.

Entries are found by comparing coordinates. One whose position is not a number is therefore neither
found nor removed.
-/

namespace TripPlanner

/-- Positions of street vertices. -/
structure StreetIndex (R : Type) where
  /-- Positions with their vertices, the newest first. -/
  entries : List (Point R × VertexIndex)
  /-- The tree of the same entries. -/
  tree : AreaTree R VertexIndex

namespace StreetIndex

variable {R : Type}

/-- The index without vertices. -/
def empty : StreetIndex R := ⟨[], .empty⟩

variable [Quantity R]

/-- Adds a vertex. -/
def insert (index : StreetIndex R) (p : Point R) (v : VertexIndex) : StreetIndex R :=
  ⟨(p, v) :: index.entries, index.tree.insert p v⟩

/-- Whether an entry is that of a vertex at a position. -/
def isEntry (p : Point R) (v : VertexIndex) (entry : Point R × VertexIndex) : Bool :=
  entry.1.equals p && entry.2 = v

/-- Removes the entry of a vertex at a position. -/
def erase (index : StreetIndex R) (p : Point R) (v : VertexIndex) : StreetIndex R :=
  ⟨index.entries.filter fun entry => !isEntry p v entry, index.tree.erase p v⟩

/-- The entries whose positions are numbers. -/
def defined (index : StreetIndex R) : List (Point R × VertexIndex) :=
  index.entries.filter fun entry => entry.1.isDefined

/-- Whether an entry is nearer to a point than another. -/
def isNearer (p : Point R) (a b : Point R × VertexIndex) : Bool :=
  a.1.planarSquare p < b.1.planarSquare p

/-- The vertices to which no other one is nearer to a point. -/
def allNearest (index : StreetIndex R) (p : Point R) : List VertexIndex :=
  match firstLeast (isNearer p) index.defined with
  | none => []
  | some nearest => (index.defined.filter fun entry => !isNearer p nearest entry).map Prod.snd

/-- The vertex nearest to a point. -/
def nearest? (index : StreetIndex R) (p : Point R) : Option VertexIndex :=
  let nearest := index.allNearest p
  if nearest.length ≤ 1 then nearest.head?
  else ((index.tree.nearest? p).filter nearest.contains).or nearest.head?

/-- The vertices in an area. -/
def within (index : StreetIndex R) (area : Area R) : List VertexIndex :=
  (index.entries.filter fun entry => area.contains entry.1).map Prod.snd

theorem mem_defined {index : StreetIndex R} {entry : Point R × VertexIndex} :
    entry ∈ index.defined ↔ entry ∈ index.entries ∧ entry.1.isDefined = true := List.mem_filter

theorem mem_of_mem_allNearest {index : StreetIndex R} {p : Point R} {v : VertexIndex}
    (h : v ∈ index.allNearest p) : v ∈ index.defined.map Prod.snd := by
  unfold allNearest at h
  split at h
  · simp at h
  · obtain ⟨entry, hentry, rfl⟩ := List.mem_map.1 h
    exact List.mem_map.2 ⟨entry, (List.mem_filter.1 hentry).1, rfl⟩

theorem mem_allNearest_of_nearest? {index : StreetIndex R} {p : Point R} {v : VertexIndex}
    (h : index.nearest? p = some v) : v ∈ index.allNearest p := by
  unfold nearest? at h
  dsimp only at h
  split at h
  · exact List.mem_of_head? h
  · rcases Option.or_eq_some_iff.1 h with h | ⟨_, h⟩
    · simpa using (Option.filter_eq_some_iff.1 h).2
    · exact List.mem_of_head? h

/-- Only vertices of the index are found. -/
theorem mem_of_nearest? {index : StreetIndex R} {p : Point R} {v : VertexIndex}
    (h : index.nearest? p = some v) : v ∈ index.defined.map Prod.snd :=
  mem_of_mem_allNearest (mem_allNearest_of_nearest? h)

theorem mem_within {index : StreetIndex R} {area : Area R} {v : VertexIndex} :
    v ∈ index.within area ↔ ∃ p, (p, v) ∈ index.entries ∧ area.contains p = true := by
  simp [within]

end StreetIndex

end TripPlanner
