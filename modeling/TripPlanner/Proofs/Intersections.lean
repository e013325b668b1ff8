import Mathlib.Data.List.Nodup
import TripPlanner.Proofs.AreaTrees
import TripPlanner.Proofs.Closures
import TripPlanner.Proofs.Mutations

/-!
# Intersections

Whatever a graph goes through, as long as the positions of its intersections are numbers, its street
index holds the intersections that are there, each once and at its position, in its list and in its
tree. So what is asked of the index is answered by them: none is nearer to a point than the one that
is found, and all in an area are found once (`Graph.indexed_made`). An entry is removed by position
and index. That it is the right one, and is found at all, rests on what the index held before
(`Graph.Evolved.erase_removeVertex`).

Nearness is about the squares of planar distances; all that they need is that `≤` and `<` compare
them as in a linear order (`Quantity.Comparable`).
-/

namespace TripPlanner

variable {R : Type} [Quantity R]

/-! ## The first of the least -/

namespace Quantity.Comparable

variable {among : R → Prop} {a b : R} {β : Type} {key : β → R} {items : List β} {least : β}

theorem not_lt (H : Comparable among) (ha : among a) (hb : among b) : ¬ a < b ↔ b ≤ a := by
  rw [H.lt_iff ha hb, Decidable.not_not]

theorem le_of_lt (H : Comparable among) (ha : among a) (hb : among b) (h : a < b) : a ≤ b :=
  (H.total ha hb).resolve_right ((H.lt_iff ha hb).1 h)

/-- The lesser one of the first two items stands for both. -/
theorem exists_lesser (H : Comparable among) {first second : β} (hfirst : among (key first))
    (hsecond : among (key second)) : ∃ lesser, (lesser = first ∨ lesser = second) ∧
      key lesser ≤ key first ∧ key lesser ≤ key second ∧ ∀ rest,
        firstLeast (fun a b => decide (key a < key b)) (first :: second :: rest) =
          firstLeast (fun a b => decide (key a < key b)) (lesser :: rest) := by
  by_cases hlt : key second < key first
  · refine ⟨second, .inr rfl, H.le_of_lt hsecond hfirst hlt, H.refl hsecond, fun rest => ?_⟩
    simp [firstLeast, hlt]
  · refine ⟨first, .inl rfl, H.refl hfirst, (H.not_lt hsecond hfirst).1 hlt, fun rest => ?_⟩
    simp [firstLeast, hlt]

/-- What is found first is among the items, and comes after none of them. -/
theorem firstLeast_spec (H : Comparable among) (hitems : ∀ item ∈ items, among (key item))
    (h : firstLeast (fun a b => decide (key a < key b)) items = some least) :
    least ∈ items ∧ ∀ item ∈ items, key least ≤ key item := by
  cases items with
  | nil => cases h
  | cons first rest =>
    induction rest generalizing first with
    | nil =>
      cases h
      simpa using H.refl (hitems first List.mem_cons_self)
    | cons second rest ih =>
      simp only [List.mem_cons, forall_eq_or_imp] at hitems ih ⊢
      obtain ⟨hfirst, hsecond, hrest⟩ := hitems
      obtain ⟨lesser, hlesser, hle, hle', hstands⟩ := H.exists_lesser hfirst hsecond
      have hamong : among (key lesser) := by
        rcases hlesser with rfl | rfl
        · exact hfirst
        · exact hsecond
      obtain ⟨hmem, hbelow, hothers⟩ := ih lesser ⟨hamong, hrest⟩ ((hstands rest).symm.trans h)
      have hleast : among (key least) := by
        rcases hmem with rfl | hmem
        · exact hamong
        · exact hrest least hmem
      refine ⟨?_, H.trans hleast hamong hfirst hbelow hle,
        H.trans hleast hamong hsecond hbelow hle', hothers⟩
      rcases hmem with rfl | hmem
      · exact hlesser.imp_right .inl
      · exact .inr (.inr hmem)

end Quantity.Comparable

/-! ## Questions to a street index -/

namespace StreetIndex

variable {index : StreetIndex R} {p : Point R} {v : VertexIndex} {area : Area R}

/-- The squares of the distances from a point to what can be found. -/
def IsDistance (index : StreetIndex R) (p : Point R) (d : R) : Prop :=
  ∃ entry ∈ index.defined, entry.1.planarSquare p = d

theorem isDistance {entry : Point R × VertexIndex} (h : entry ∈ index.defined) :
    index.IsDistance p (entry.1.planarSquare p) := ⟨entry, h, rfl⟩

theorem allNearest_eq_nil_iff (H : Quantity.Comparable (index.IsDistance p)) :
    index.allNearest p = [] ↔ index.defined = [] := by
  unfold allNearest
  cases hfirst : firstLeast (isNearer p) index.defined with
  | none => simpa using firstLeast_eq_none_iff.1 hfirst
  | some nearest =>
    obtain ⟨hmem, -⟩ := H.firstLeast_spec (fun entry h => isDistance h) hfirst
    have hself : isNearer p nearest nearest = false :=
      decide_eq_false ((H.not_lt (isDistance hmem) (isDistance hmem)).2 (H.refl (isDistance hmem)))
    refine iff_of_false ?_ (List.ne_nil_of_mem hmem)
    exact List.ne_nil_of_mem (List.mem_map_of_mem (List.mem_filter.2 ⟨hmem, by simp [hself]⟩))

theorem exists_of_mem_allNearest (H : Quantity.Comparable (index.IsDistance p))
    (h : v ∈ index.allNearest p) : ∃ q, (q, v) ∈ index.defined ∧
      ∀ entry ∈ index.defined, q.planarSquare p ≤ entry.1.planarSquare p := by
  unfold allNearest at h
  cases hfirst : firstLeast (isNearer p) index.defined with
  | none =>
    rw [hfirst] at h
    cases h
  | some nearest =>
    rw [hfirst] at h
    obtain ⟨hmem, hleast⟩ := H.firstLeast_spec (fun entry h => isDistance h) hfirst
    obtain ⟨⟨q, v⟩, hentry, rfl⟩ := List.mem_map.1 h
    obtain ⟨hq, hnear⟩ := List.mem_filter.1 hentry
    have hle : q.planarSquare p ≤ nearest.1.planarSquare p :=
      (H.not_lt (isDistance hmem) (isDistance hq)).1 (by simpa [isNearer] using hnear)
    exact ⟨q, hq, fun entry hentry => H.trans (isDistance hq) (isDistance hmem)
      (isDistance hentry) hle (hleast entry hentry)⟩

theorem nearest?_eq_none_iff (H : Quantity.Comparable (index.IsDistance p)) :
    index.nearest? p = none ↔ index.defined = [] := by
  rw [← allNearest_eq_nil_iff H, nearest?]
  split
  · exact List.head?_eq_none_iff
  · rw [Option.or_eq_none_iff, List.head?_eq_none_iff]
    refine and_iff_right_of_imp fun hnil => ?_
    simp [hnil]

theorem nodup_within (H : (index.entries.map Prod.snd).Nodup) : (index.within area).Nodup :=
  H.sublist ((List.filter_sublist).map Prod.snd)

end StreetIndex

/-! ## The intersections of a graph -/

/-- An intersection that is added has coordinates among some numbers. -/
def Mutation.PlacesAmong {R : Type} (S : R → Prop) : Mutation R → Prop
  | .addVertex v => v.isStreet = true → v.position.Among S
  | _ => True

namespace Graph

section
variable {g next : Graph R} {p : Point R} {v : VertexIndex} {vertex : Vertex R} {area : Area R}

omit [Quantity R] in
/-- The intersections that are there, each with its position. -/
def intersections (g : Graph R) : List (Point R × VertexIndex) :=
  (g.vertices.filter Vertex.isStreet).map fun entry => (entry.2.position, entry.1)

omit [Quantity R] in
theorem mem_intersections_iff : (p, v) ∈ g.intersections ↔
    ∃ vertex, g.vertex? v = some vertex ∧ vertex.isStreet = true ∧ vertex.position = p := by
  simp only [intersections, Arena.filter, List.mem_map, List.mem_filter, Prod.exists,
    Prod.mk.injEq, vertex?, Arena.get?_eq_some_iff]
  constructor
  · rintro ⟨_, vertex, ⟨hmem, hstreet⟩, hposition, rfl⟩
    exact ⟨vertex, hmem, hstreet, hposition⟩
  · rintro ⟨vertex, hmem, hstreet, hposition⟩
    exact ⟨v, vertex, ⟨hmem, hstreet⟩, hposition, rfl⟩

omit [Quantity R] in
/-- An index stands for one intersection. -/
theorem nodup_intersections (g : Graph R) : (g.intersections.map Prod.snd).Nodup := by
  have hnodup : g.vertices.indices.Nodup := (List.nodup_append.1 g.vertices.nodup).1
  simpa [intersections, Arena.filter, Function.comp_def] using
    hnodup.sublist ((List.filter_sublist).map Prod.fst)

theorem entries_removeVertex_sublist (g : Graph R) (v : VertexIndex) :
    (g.removeVertex v).2.streetIndex.entries.Sublist g.streetIndex.entries := by
  unfold Graph.removeVertex
  dsimp only
  split
  · split
    · exact List.filter_sublist
    · exact List.Sublist.refl _
  · exact List.Sublist.refl _

/-- An index is that of one entry that can be found. -/
theorem Evolved.nodup_defined (H : g.Evolved) : (g.streetIndex.defined.map Prod.snd).Nodup := by
  induction H with
  | empty => exact List.nodup_nil
  | modifyServices _ _ ih => exact ih
  | @change g next H h ih =>
    cases h with
    | connect | modifyServices | bumpVersion => exact ih
    | addRestriction h =>
      obtain ⟨restrictions, rfl⟩ := eq_of_addRestriction h
      exact ih
    | removeVertex v =>
      exact ih.sublist (((entries_removeVertex_sublist g v).filter _).map Prod.snd)
    | addVertex vertex =>
      -- What can be found is there, so its index is not free.
      have hnew : g.vertices.next ∉ g.streetIndex.defined.map Prod.snd := by
        intro hmem
        obtain ⟨⟨p, v⟩, hentry, rfl⟩ := List.mem_map.1 hmem
        obtain ⟨-, old, hold, -⟩ := H.coherent.mem_defined_iff.1 hentry
        exact ne_next_of_vertex? hold rfl
      unfold Graph.addVertex
      cases vertex.isStreet with
      | false => exact ih
      | true =>
        change (List.map Prod.snd (List.filter _ (_ :: _))).Nodup
        rw [List.filter_cons]
        split
        · exact List.nodup_cons.2 ⟨hnew, ih⟩
        · exact ih

/-! ## What becomes of the index -/

section
variable {S : R → Prop}

theorem Evolved.nodup_entries (H : g.Evolved) (hS : Quantity.Ordered S)
    (hindex : g.streetIndex.Sound S) : (g.streetIndex.entries.map Prod.snd).Nodup :=
  hindex.defined_eq hS.toComparable ▸ H.nodup_defined

/-- With an intersection, one entry goes: the one at its position under its index. -/
theorem Evolved.erase_removeVertex (H : g.Evolved) (hS : Quantity.Ordered S)
    (hindex : g.streetIndex.Sound S) (hv : g.vertex? v = some vertex)
    (hstreet : vertex.isStreet = true) :
    (g.removeVertex v).2.streetIndex.Sound S ∧
      ((vertex.position, v) :: (g.removeVertex v).2.streetIndex.entries).Perm
        g.streetIndex.entries ∧
      ((vertex.position, v) :: (g.removeVertex v).2.streetIndex.tree.items).Perm
        g.streetIndex.tree.items := by
  have herased : (g.removeVertex v).2.streetIndex = g.streetIndex.erase vertex.position v := by
    simp only [Graph.removeVertex, hv, hstreet, if_true]
  rw [herased]
  exact hindex.erase hS (H.nodup_entries hS hindex) (H.coherent.listed hv hstreet)

theorem Evolved.sound_removeVertex (H : g.Evolved) (hS : Quantity.Ordered S)
    (hindex : g.streetIndex.Sound S) (v : VertexIndex) :
    (g.removeVertex v).2.streetIndex.Sound S := by
  by_cases hv : ∃ vertex, g.vertex? v = some vertex ∧ vertex.isStreet = true
  · obtain ⟨vertex, hv, hstreet⟩ := hv
    exact (H.erase_removeVertex hS hindex hv hstreet).1
  · rwa [streetIndex_removeVertex_of_isStreet_eq_false fun h => Bool.eq_false_iff.2
      fun hstreet => hv ⟨_, h, hstreet⟩]

theorem sound_addVertex (hindex : g.streetIndex.Sound S)
    (h : vertex.isStreet = true → vertex.position.Among S) :
    (g.addVertex vertex).2.streetIndex.Sound S := by
  unfold Graph.addVertex
  cases hstreet : vertex.isStreet with
  | false => exact hindex
  | true => exact hindex.insert (h hstreet) _

theorem Upkeep.sound {own : VertexIndex → Prop} (h : Upkeep own g next) (H : g.Evolved)
    (hS : Quantity.Ordered S) (hindex : g.streetIndex.Sound S) : next.streetIndex.Sound S := by
  induction h with
  | refl => exact hindex
  | @tail mid next hmid h ih =>
    cases h with
    | connect | modifyServices => exact ih
    | addVertex _ hstreet =>
      refine sound_addVertex ih fun h => ?_
      rw [hstreet] at h
      cases h
    | removeVertex => exact (H.changes (Upkeep.changes hmid)).sound_removeVertex hS ih _

/-- Over numbers that are all in order, every index is sound. -/
theorem Evolved.sound (H : g.Evolved) (hS : Quantity.Ordered fun _ : R => True) :
    g.streetIndex.Sound fun _ => True := by
  induction H with
  | empty => exact StreetIndex.sound_empty
  | modifyServices _ _ ih => exact ih
  | change H h ih =>
    cases h with
    | connect | modifyServices | bumpVersion => exact ih
    | addVertex => exact sound_addVertex ih fun _ => ⟨trivial, trivial⟩
    | removeVertex => exact H.sound_removeVertex hS ih _
    | addRestriction h =>
      obtain ⟨restrictions, rfl⟩ := eq_of_addRestriction h
      exact ih

end

/-! ## Questions -/

/-- The squares of the planar distances from a point to the intersections can be compared. -/
def CanCompare (g : Graph R) (p : Point R) : Prop :=
  Quantity.Comparable fun d => ∃ v vertex, g.vertex? v = some vertex ∧ vertex.isStreet = true ∧
    vertex.position.planarSquare p = d

/-- The vertex is an intersection, and none is nearer to the point. -/
def IsNearest (g : Graph R) (p : Point R) (v : VertexIndex) : Prop :=
  ∃ vertex, g.vertex? v = some vertex ∧ vertex.isStreet = true ∧
    ∀ w other, g.vertex? w = some other → other.isStreet = true →
      vertex.position.planarSquare p ≤ other.position.planarSquare p

/-- The street index holds the intersections, each once, in its list and in its tree. Both lose the
one entry of an intersection that is removed. What is asked is answered accordingly. -/
structure Indexed (g : Graph R) : Prop where
  entries : g.streetIndex.entries.Perm g.intersections
  tree : g.streetIndex.tree.items.Perm g.streetIndex.entries
  removed : ∀ {v vertex}, g.vertex? v = some vertex → vertex.isStreet = true →
    ((vertex.position, v) :: (g.removeVertex v).2.streetIndex.entries).Perm
        g.streetIndex.entries ∧
      ((vertex.position, v) :: (g.removeVertex v).2.streetIndex.tree.items).Perm
        g.streetIndex.tree.items
  nearest_none : ∀ {p}, g.CanCompare p → (g.nearestStreet? p = none ↔ g.intersections = [])
  nearest : ∀ {p v}, g.CanCompare p → g.nearestStreet? p = some v → g.IsNearest p v
  nodup_within : ∀ area, (g.streetsWithin area).Nodup
  mem_within : ∀ {area v}, v ∈ g.streetsWithin area ↔ g.IsWithin area v

/-- What can be found is compared by the distances of intersections. -/
theorem Coherent.comparable (H : g.Coherent) (h : g.CanCompare p) :
    Quantity.Comparable (g.streetIndex.IsDistance p) := by
  have hsub : ∀ {d}, g.streetIndex.IsDistance p d → ∃ v vertex, g.vertex? v = some vertex ∧
      vertex.isStreet = true ∧ vertex.position.planarSquare p = d := by
    rintro _ ⟨⟨q, v⟩, hentry, rfl⟩
    obtain ⟨-, vertex, hvertex, hstreet, rfl⟩ := H.mem_defined_iff.1 hentry
    exact ⟨v, vertex, hvertex, hstreet, rfl⟩
  exact ⟨fun ha hb => h.total (hsub ha) (hsub hb),
    fun ha hb hc => h.trans (hsub ha) (hsub hb) (hsub hc),
    fun ha hb => h.lt_iff (hsub ha) (hsub hb)⟩

theorem Evolved.entries_perm {S : R → Prop} (H : g.Evolved) (hS : Quantity.Ordered S)
    (hindex : g.streetIndex.Sound S) : g.streetIndex.entries.Perm g.intersections := by
  refine (List.perm_ext_iff_of_nodup (List.Nodup.of_map _ (H.nodup_entries hS hindex))
    (List.Nodup.of_map _ g.nodup_intersections)).2 ?_
  rintro ⟨p, v⟩
  rw [mem_intersections_iff]
  constructor
  · exact fun hmem => H.coherent.live hmem ((hindex.among _ hmem).isDefined hS.toComparable)
  · rintro ⟨vertex, hvertex, hstreet, rfl⟩
    exact H.coherent.listed hvertex hstreet

theorem Evolved.indexed {S : R → Prop} (H : g.Evolved) (hS : Quantity.Ordered S)
    (hindex : g.streetIndex.Sound S) : g.Indexed := by
  have hentries := H.entries_perm hS hindex
  have hdefined := hindex.defined_eq hS.toComparable
  refine ⟨hentries, hindex.perm, fun hv hstreet => (H.erase_removeVertex hS hindex hv hstreet).2,
    fun h => ?_, fun h hfound => ?_,
    fun _ => StreetIndex.nodup_within (H.nodup_entries hS hindex),
    H.coherent.mem_streetsWithin_iff⟩
  · rw [nearestStreet?, StreetIndex.nearest?_eq_none_iff (H.coherent.comparable h), hdefined]
    exact ⟨fun hnil => List.nil_perm.1 (hnil ▸ hentries),
      fun hnil => List.perm_nil.1 (hnil ▸ hentries)⟩
  · obtain ⟨q, hentry, hleast⟩ := StreetIndex.exists_of_mem_allNearest (H.coherent.comparable h)
      (StreetIndex.mem_allNearest_of_nearest? hfound)
    obtain ⟨-, vertex, hvertex, hstreet, rfl⟩ := H.coherent.mem_defined_iff.1 hentry
    refine ⟨vertex, hvertex, hstreet, fun w other hother hstreet' => ?_⟩
    refine hleast (other.position, w) ?_
    rw [hdefined]
    exact H.coherent.listed hother hstreet'

end

/-! ## All mutations -/

section
variable [Geodesy R] {S : R → Prop} {g : Graph R} {m : Mutation R} {ms : List (Mutation R)}

theorem Evolved.sound_run (H : g.Evolved) (hS : Quantity.Ordered S)
    (hindex : g.streetIndex.Sound S) (hm : m.PlacesAmong S) :
    (m.run g).streetIndex.Sound S := by
  have haddEdge : ∀ source target kind, (Mutation.outcome g
      ((g.addEdge source target kind).map Prod.snd)).streetIndex.Sound S := by
    intro source target kind
    cases h : g.addEdge source target kind with
    | error => exact hindex
    | ok result =>
      obtain ⟨e, next⟩ := result
      obtain ⟨-, -, rfl⟩ := eq_of_addEdge h
      exact hindex
  cases m with
  | addVertex v => exact sound_addVertex hindex hm
  | removeVertex v => exact H.sound_removeVertex hS hindex v
  | addEdge source target kind => exact haddEdge source target kind
  | modifyServices f => exact hindex
  | addStreet source target way permits =>
    unfold Mutation.run addStreet
    dsimp only
    cases g.straightStreet source target way permits with
    | error => exact hindex
    | ok street => exact haddEdge source target (.street street)
  | addRestriction restriction =>
    change (Mutation.outcome g (g.addRestriction restriction)).streetIndex.Sound S
    cases h : g.addRestriction restriction with
    | error => exact hindex
    | ok next =>
      obtain ⟨restrictions, rfl⟩ := eq_of_addRestriction h
      exact hindex
  | turn t =>
    have hall : ∀ (ρ : Type) [Place R ρ], g.Disposes ρ fun _ => True := fun _ _ _ _ => trivial
    rcases t.upkeep (hall (CarPark R)) (hall (Station R)) with h | ⟨services, h⟩
    · exact h.sound H hS hindex
    · change (t.unit g).streetIndex.Sound S
      rw [h]
      exact hindex

theorem sound_made (hS : Quantity.Ordered S) (hms : ∀ m ∈ ms, m.PlacesAmong S) :
    (made ms).streetIndex.Sound S := by
  induction ms using List.reverseRecOn with
  | nil => exact StreetIndex.sound_empty
  | append_singleton ms m ih =>
    rw [List.forall_mem_append] at hms
    rw [made_concat]
    exact (evolved_made ms).sound_run hS (ih hms.1) (hms.2 m (List.mem_singleton_self m))

/-- Whatever a graph goes through, its street index holds the intersections that are there, each
once, loses the one that is removed, and finds a nearest one of them to any point and all of them in
any area, as long as their coordinates are numbers. -/
theorem indexed_made (hS : Quantity.Ordered S) (hms : ∀ m ∈ ms, m.PlacesAmong S) :
    (made ms).Indexed :=
  (evolved_made ms).indexed hS (sound_made hS hms)

end

end Graph

/-! ## A car park in the place of an intersection -/

namespace Crossroads

def parkFeed : Updater := ⟨.carPark, "parking", none, ∅⟩

/-- The eastern one of three intersections gives way to a car park in the north, which gets its
index. -/
def mutations : List (Mutation ℚ) :=
  [.addVertex (.intersection "west" ⟨0, 0⟩), .addVertex (.intersection "east" ⟨4, 0⟩),
    .addVertex (.intersection "south" ⟨1, -2⟩), .addStreet 0 2 1 .allStreet, .removeVertex 1,
    .turn (.poll parkFeed (.carParks [⟨"p", "park", ⟨1, 1⟩, 5, 10, true⟩]))]

theorem placesAmong_mutations : ∀ m ∈ mutations, m.PlacesAmong fun _ => True := by
  intro m _
  cases m with
  | addVertex => exact fun _ => ⟨trivial, trivial⟩
  | _ => trivial

/-- Whoever asks at the car park or in the east is sent to an intersection that is there. -/
theorem indexed_crossroads :
    ((Graph.made mutations).vertex? 1).map Vertex.kind = some (.parkAndRide "p") ∧
    (Graph.made (mutations.take 4)).nearestStreet? ⟨4, -1⟩ = some 1 ∧
    (Graph.made mutations).nearestStreet? ⟨4, -1⟩ = some 2 ∧
    (Graph.made mutations).IsNearest ⟨4, -1⟩ 2 ∧
    (Graph.made mutations).nearestStreet? ⟨1, 1⟩ = some 0 ∧
    (Graph.made mutations).IsNearest ⟨1, 1⟩ 0 ∧
    (Graph.made mutations).streetsWithin ⟨⟨0, -2⟩, ⟨4, 1⟩⟩ = [2, 0] ∧
    (Graph.made mutations).streetIndex.entries.Perm (Graph.made mutations).intersections ∧
    (Graph.made mutations).streetIndex.tree.items.Perm [(⟨1, -2⟩, 2), (⟨0, 0⟩, 0)] := by
  have H := Graph.indexed_made (Quantity.ordered fun _ => True) placesAmong_mutations
  have heast : (Graph.made mutations).nearestStreet? ⟨4, -1⟩ = some 2 := by decide +kernel
  have hpark : (Graph.made mutations).nearestStreet? ⟨1, 1⟩ = some 0 := by decide +kernel
  have hentries : (Graph.made mutations).streetIndex.entries = [(⟨1, -2⟩, 2), (⟨0, 0⟩, 0)] := by
    decide +kernel
  exact ⟨by decide +kernel, by decide +kernel, heast,
    H.nearest (Quantity.ordered _).toComparable heast, hpark,
    H.nearest (Quantity.ordered _).toComparable hpark, by decide +kernel, H.entries,
    hentries ▸ H.tree⟩

end Crossroads

end TripPlanner
