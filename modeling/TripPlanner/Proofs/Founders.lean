import Mathlib.Data.List.Chain
import TripPlanner.Proofs.Aspects

/-!
# Founders

What a feed of places leaves behind after one complete list after the other: the records of the
last list, and for each of them the place that was founded when its id last came
(`Place.founder?`, `Graph.tracks_applyLists`). Later records of an id change what is registered,
but not its place. So the last list alone decides about the records, and about the places only
where ids keep their names and positions (`Graph.follows_lists`).
-/

namespace TripPlanner

variable {R ρ : Type} [Place R ρ]

namespace Place

variable {record : ρ} {records : List ρ} {id : String}

/-- The first record of an id in a list. -/
def first? (records : List ρ) (id : String) : Option ρ :=
  records.find? fun record => Place.id record = id

theorem first?_cons : first? (record :: records) id =
    if Place.id record = id then some record else first? records id := by
  by_cases h : Place.id record = id <;> simp [first?, h]

theorem first?_eq_none_iff : first? records id = none ↔ id ∉ records.map Place.id := by
  simp [first?, List.find?_eq_none]

theorem of_first? (h : first? records id = some record) :
    record ∈ records ∧ Place.id record = id := by
  unfold first? at h
  exact ⟨List.mem_of_find?_eq_some h, by simpa using List.find?_some h⟩

/-- The record with which an id came, when it last came: the first one of the lists in a row up to
the last one that mention it. -/
def founder? (lists : List (List ρ)) (id : String) : Option ρ :=
  lists.foldl (fun founder records =>
    (first? records id).map fun record => founder.getD (complete record)) none

theorem founder?_concat {lists : List (List ρ)} : founder? (lists ++ [records]) id =
    (first? records id).map fun record => (founder? lists id).getD (complete record) :=
  List.foldl_concat ..

/-- No id that stays from one list to the next changes its name or position. -/
def Steady (lists : List (List ρ)) : Prop :=
  lists.IsChain fun earlier later => ∀ record ∈ earlier, ∀ record' ∈ later,
    Place.id record = Place.id record' →
      Place.name (complete record) = Place.name (complete record') ∧
        Place.position (complete record) = Place.position (complete record')

end Place

namespace Graph

variable [Quantity R] [Geodesy R] {base g : Graph R} {v : VertexIndex} {vertex : Vertex R}
  {id k : String} {record : ρ} {records : List ρ}

/-! ## What is there besides -/

/-- No two vertices besides those of the first graph are joined. -/
def Unjoined (base g : Graph R) : Prop :=
  ∀ e edge, g.edge? e = some edge → base.vertex? edge.source = none →
    base.vertex? edge.target = none → edge.source = edge.target

/-- A graph with places besides another one: what is not of that graph is registered, and no two
places are joined. -/
structure Hosts (base : Graph R) (ρ : Type) [Place R ρ] (g : Graph R) : Prop where
  evolved : base.Evolved
  surrounds : base.Surrounds g
  placed : g.Placed ρ
  disposes : g.Disposes ρ fun v => base.vertex? v = none
  live : ∀ {v vertex}, g.vertex? v = some vertex →
    base.vertex? v = some vertex ∨ g.IsRegistered ρ v
  unjoined : base.Unjoined g

omit [Geodesy R] in
theorem Unjoined.connect (H : base.Unjoined g) {source target : VertexIndex} {kind : EdgeKind R}
    (h : base.vertex? source = none → base.vertex? target = none → source = target) :
    base.Unjoined (g.connect source target kind).2 := by
  intro e edge he hsource htarget
  rw [edge?_connect] at he
  split at he
  · cases he
    exact h hsource htarget
  · exact H e edge he hsource htarget

theorem Unjoined.settle [AsidePlace R ρ] (hbase : base.Evolved) (hsurrounds : base.Surrounds g)
    (H : base.Unjoined g) (record : ρ) : base.Unjoined (g.settle record) := by
  have hlodged : base.Unjoined (g.lodge record) :=
    List.foldlRecOn _ _ (motive := fun next : Graph R => base.Unjoined next) H
      fun _ hnext _ _ => hnext.connect fun _ _ => rfl
  obtain ⟨services, hsettle⟩ := hsurrounds.settle_eq_joined hbase record
  rw [hsettle]
  cases hlink : base.linkAt? (Place.position record) with
  | none => exact hlodged
  | some link =>
    obtain ⟨there, hthere⟩ := exists_of_linkAt? hlink
    refine (hlodged.connect ?_).connect ?_
    · exact fun _ hnone => nomatch hthere.symm.trans hnone
    · exact fun hnone _ => nomatch hthere.symm.trans hnone

namespace Hosts

omit [Geodesy R] in
theorem self (H : base.Evolved) (h : base.registry ρ = .empty) : Hosts base ρ base where
  evolved := H
  surrounds := .refl H
  placed := placed_of_empty h
  disposes _ hv := hv.resolve_left (not_isRegistered_of_empty h)
  live hv := .inl hv
  unjoined _ _ he hsource _ := ((H.regulated.ends_ne he hsource).1 rfl).elim

omit [Geodesy R] in
theorem upkeep (H : Hosts base ρ g) {next : Graph R}
    (h : Upkeep (fun v => base.vertex? v = none) g next) (hown : MindsOwn ρ g next)
    (hplaced : next.Placed ρ) (hunjoined : base.Unjoined next) : Hosts base ρ next where
  evolved := H.evolved
  surrounds := H.surrounds.upkeep H.evolved.regulated h
  placed := hplaced
  disposes := H.disposes.of_mindsOwn hown
  live hv := by
    rcases hown.live hv with hregistered | ⟨hbefore, hnot⟩
    · exact .inr hregistered
    · exact .inl ((H.live hbefore).resolve_right hnot)
  unjoined := hunjoined

variable [AsidePlace R ρ]

omit [Geodesy R] in
theorem withdraw (H : Hosts base ρ g) (id : String) : Hosts base ρ (g.withdraw ρ id) := by
  refine H.upkeep (PlaceChanges.withdraw H.disposes id).upkeep (.withdraw g id)
    (Placed.withdraw H.placed id) ?_
  unfold Graph.withdraw
  dsimp only
  split
  · exact fun e edge he => H.unjoined e edge (edge?_removeVertex_iff.1 he).1
  · exact H.unjoined

theorem announce (H : Hosts base ρ g) (record : ρ) : Hosts base ρ (g.announce record) := by
  refine H.upkeep (PlaceChanges.announce H.disposes.own_next record).upkeep (.announce g record)
    (Placed.announce H.placed record) ?_
  unfold Graph.announce
  dsimp only
  split
  · exact H.unjoined
  · exact H.unjoined.settle H.evolved H.surrounds _

/-! ## One record -/

omit [Geodesy R] [AsidePlace R ρ] in
theorem placeAspect?_eq_none_iff (H : Hosts base ρ g) :
    g.placeAspect? ρ id = none ↔ id ∉ (g.registry ρ).ids := by
  refine ⟨fun h hid => ?_, fun hid => ?_⟩
  · obtain ⟨v, hv, vertex, hvertex, -⟩ := H.placed hid
    rw [placeAspect?, hv, Option.bind_some, aspect?, hvertex] at h
    cases h
  · rw [placeAspect?, Registry.vertex?_eq_none hid, Option.bind_none]

omit [Geodesy R] in
/-- Only the place of the id goes. -/
theorem placeAspect?_withdraw (H : Hosts base ρ g) :
    (g.withdraw ρ k).placeAspect? ρ id = if id = k then none else g.placeAspect? ρ id := by
  rw [placeAspect?, registry_eq (withdraw_eq g ρ k).2, Registry.vertex?_erase]
  by_cases hk : id = k
  · rw [if_pos hk, if_pos hk, Option.bind_none]
  rw [if_neg hk, if_neg hk, placeAspect?]
  cases hv : (g.registry ρ).vertex? id with
  | none => rfl
  | some v =>
    rw [Option.bind_some, Option.bind_some, Graph.withdraw]
    cases hw : (g.registry ρ).vertex? k with
    | none => rfl
    | some w =>
      have hne : v ≠ w := by
        rintro rfl
        exact hk ((Placed.standsFor H.placed hv).eq (Placed.standsFor H.placed hw))
      have hbesides : base.vertex? v = none ∧ base.vertex? w = none :=
        ⟨H.disposes v (.inl ⟨id, hv⟩), H.disposes w (.inl ⟨k, hw⟩)⟩
      refine aspect?_removeVertex hne fun {e edge} he hend => ?_
      -- An edge between the two places would have to be a loop.
      rcases hend with rfl | rfl
      · refine ⟨hne, fun htarget => hne ?_⟩
        subst htarget
        exact H.unjoined _ _ he hbesides.1 hbesides.2
      · refine ⟨fun hsource => hne ?_, hne⟩
        subst hsource
        exact (H.unjoined _ _ he hbesides.2 hbesides.1).symm

/-- A new id gets the place of its record, and all other places stay as they are. -/
theorem placeAspect?_announce (H : Hosts base ρ g) :
    (g.announce record).placeAspect? ρ id = (g.placeAspect? ρ id).or
      (if Place.id record = id then some (base.aspectOf (Place.complete record)) else none) := by
  have hid := LawfulPlace.id_complete (R := R) record
  unfold Graph.announce
  dsimp only
  rw [hid]
  split
  · rename_i hknown
    have hsame : (g.modifyServices (Place.modifyRegistry fun registry : Registry ρ =>
        registry.put (Place.id record) (Place.complete record))).placeAspect? ρ id =
          g.placeAspect? ρ id := by
      rw [placeAspect?, registry_eq rfl, Registry.vertex?_put]
      rfl
    rw [hsame]
    split
    · -- The id has its place already.
      rename_i h
      subst h
      cases hplace : g.placeAspect? ρ (Place.id record) with
      | none => exact (H.placeAspect?_eq_none_iff.1 hplace (mem_ids_of_isPlaced hknown)).elim
      | some => rfl
    · rw [Option.or_none]
  · rename_i hnew
    rw [placeAspect?, registry_eq (settle_eq g _).2, Registry.vertex?_place, hid]
    by_cases h : Place.id record = id
    · subst h
      have hnone : g.placeAspect? ρ (Place.id record) = none :=
        H.placeAspect?_eq_none_iff.2 (Placed.not_mem_ids H.placed (Bool.eq_false_iff.2 hnew))
      rw [if_pos rfl, if_pos rfl, Option.bind_some, hnone, Option.none_or]
      exact H.surrounds.aspect?_settle H.evolved _
    · rw [if_neg (Ne.symm h), if_neg h, Option.or_none, placeAspect?]
      cases hv : (g.registry ρ).vertex? id with
      | none => rfl
      | some v =>
        obtain ⟨vertex, hvertex, -⟩ := Placed.standsFor H.placed hv
        exact H.surrounds.aspect?_settle_ne H.evolved _ hvertex (H.disposes v (.inl ⟨id, hv⟩))

/-! ## A complete list -/

omit [Geodesy R] in
theorem foldl_withdraw (H : Hosts base ρ g) (ids : List String) :
    Hosts base ρ (ids.foldl (fun g id => g.withdraw ρ id) g) ∧
      ∀ id, (ids.foldl (fun g id => g.withdraw ρ id) g).placeAspect? ρ id =
        if id ∈ ids then none else g.placeAspect? ρ id := by
  induction ids generalizing g with
  | nil => exact ⟨H, fun id => rfl⟩
  | cons k ids ih =>
    obtain ⟨hhosts, haspect⟩ := ih (H.withdraw k)
    refine ⟨hhosts, fun id => ?_⟩
    rw [List.foldl_cons, haspect, H.placeAspect?_withdraw]
    by_cases hmem : id ∈ ids <;> by_cases hk : id = k <;> simp [hmem, hk]

theorem foldl_announce (H : Hosts base ρ g) (records : List ρ) :
    Hosts base ρ (records.foldl Graph.announce g) ∧
      ∀ id, (records.foldl Graph.announce g).placeAspect? ρ id = (g.placeAspect? ρ id).or
        ((Place.first? records id).map fun record => base.aspectOf (Place.complete record)) := by
  induction records generalizing g with
  | nil => exact ⟨H, fun id => (Option.or_none).symm⟩
  | cons record records ih =>
    obtain ⟨hhosts, haspect⟩ := ih (H.announce record)
    refine ⟨hhosts, fun id => ?_⟩
    rw [List.foldl_cons, haspect, H.placeAspect?_announce, Place.first?_cons, Option.or_assoc]
    split <;> rfl

/-- Ids that stay keep their places, and new ones get those of their first records. -/
theorem applyRecords (H : Hosts base ρ g) (records : List ρ) :
    Hosts base ρ (g.applyRecords records) ∧
      ∀ id, (g.applyRecords records).placeAspect? ρ id =
        (Place.first? records id).map fun record =>
          (g.placeAspect? ρ id).getD (base.aspectOf (Place.complete record)) := by
  obtain ⟨hwithdrawn, hbefore⟩ := H.foldl_withdraw (g.staleIds records)
  obtain ⟨hhosts, haspect⟩ := hwithdrawn.foldl_announce records
  refine ⟨hhosts, fun id => (haspect id).trans ?_⟩
  rw [hbefore]
  cases hfirst : Place.first? records id with
  | some record =>
    have hmem : id ∈ records.map Place.id := by
      by_contra hnot
      rw [Place.first?_eq_none_iff.2 hnot] at hfirst
      cases hfirst
    rw [if_neg fun hstale => (mem_staleIds_iff.1 hstale).2 hmem]
    cases g.placeAspect? ρ id <;> rfl
  | none =>
    have hnot := Place.first?_eq_none_iff.1 hfirst
    rw [Option.map_none, Option.or_none, Option.map_none, ite_eq_left_iff]
    intro hstale
    refine H.placeAspect?_eq_none_iff.2 fun hid => hstale ?_
    exact mem_staleIds_iff.2 ⟨hid, hnot⟩

end Hosts

/-! ## One list after the other -/

variable {lists : List (List ρ)} {last : List ρ}

theorem aspectOf_congr {record' : ρ} (hid : Place.id record = Place.id record')
    (hname : Place.name record = Place.name record')
    (hposition : Place.position record = Place.position record') :
    base.aspectOf record = base.aspectOf record' := by
  unfold aspectOf vertexOf
  rw [hid, hname, hposition]

/-- A graph after some lists: the last one is registered, and each id has the place of the record
that it came with. -/
structure Tracks (base : Graph R) (lists : List (List ρ)) (last : List ρ) (g : Graph R) : Prop
    extends Hosts base ρ g where
  record? : ∀ id, (g.registry ρ).record? id = (Place.last? last id).map Place.complete
  placeAspect? : ∀ id,
    g.placeAspect? ρ id = (Place.founder? (lists ++ [last]) id).map base.aspectOf

/-- The graph after some lists against the graph after the last one of them only. -/
structure FollowsLists (base : Graph R) (lists : List (List ρ)) (last : List ρ) : Prop where
  tracks : Tracks base lists last ((lists ++ [last]).foldl applyRecords base)
  tracks_last : Tracks base [] last (base.applyRecords last)
  steady : Place.Steady (lists ++ [last]) → ∀ id,
    ((lists ++ [last]).foldl applyRecords base).placeAspect? ρ id =
      (base.applyRecords last).placeAspect? ρ id

variable [AsidePlace R ρ]

/-- While names and positions stay, it does not matter which record an id came with. -/
theorem aspectOf_founder? (h : Place.Steady (lists ++ [last])) (id : String) :
    (Place.founder? (lists ++ [last]) id).map base.aspectOf =
      (Place.first? last id).map fun record => base.aspectOf (Place.complete record) := by
  induction lists using List.reverseRecOn generalizing last with
  | nil =>
    rw [Place.founder?_concat, Option.map_map]
    rfl
  | append_singleton lists records ih =>
    obtain ⟨hearlier, -, hlater⟩ := List.isChain_append.1 h
    rw [Place.founder?_concat, Option.map_map]
    refine Option.map_congr fun record hrecord => ?_
    rw [Function.comp_apply]
    cases hfounder : Place.founder? (lists ++ [records]) id with
    | none => rfl
    | some founder =>
      have hbefore := ih hearlier
      rw [hfounder, Option.map_some] at hbefore
      obtain ⟨record', hrecord', haspect⟩ := Option.map_eq_some_iff.1 hbefore.symm
      obtain ⟨hmem, hid⟩ := Place.of_first? hrecord
      obtain ⟨hmem', hid'⟩ := Place.of_first? hrecord'
      obtain ⟨hname, hposition⟩ :=
        hlater records (by simp) last (by simp) record' hmem' record hmem (hid'.trans hid.symm)
      rw [Option.getD_some, ← haspect]
      refine aspectOf_congr ?_ hname hposition
      rw [LawfulPlace.id_complete, LawfulPlace.id_complete, hid, hid']

theorem hosts_applyLists (H : base.Evolved) (h : base.registry ρ = .empty)
    (lists : List (List ρ)) : Hosts base ρ (lists.foldl applyRecords base) ∧
      ∀ id, (lists.foldl applyRecords base).placeAspect? ρ id =
        (Place.founder? lists id).map base.aspectOf := by
  induction lists using List.reverseRecOn with
  | nil =>
    refine ⟨.self H h, fun id => ?_⟩
    rw [List.foldl_nil, placeAspect?, h]
    rfl
  | append_singleton lists records ih =>
    obtain ⟨hhosts, haspect⟩ := ih
    rw [List.foldl_concat]
    refine ⟨(hhosts.applyRecords records).1, fun id => ?_⟩
    rw [(hhosts.applyRecords records).2, haspect, Place.founder?_concat, Option.map_map]
    refine Option.map_congr fun record _ => ?_
    cases Place.founder? lists id <;> rfl

theorem tracks_applyLists (H : base.Evolved) (h : base.registry ρ = .empty)
    (lists : List (List ρ)) (last : List ρ) :
    Tracks base lists last ((lists ++ [last]).foldl applyRecords base) := by
  obtain ⟨hhosts, haspect⟩ := hosts_applyLists H h (lists ++ [last])
  refine ⟨hhosts, fun id => ?_, haspect⟩
  rw [List.foldl_concat, record?_applyRecords]

theorem followsLists (H : base.Evolved) (h : base.registry ρ = .empty)
    (lists : List (List ρ)) (last : List ρ) : FollowsLists base lists last where
  tracks := tracks_applyLists H h lists last
  tracks_last := tracks_applyLists H h [] last
  steady hsteady id := by
    have hsingle : Place.Steady ([] ++ [last]) := List.isChain_singleton last
    have hafter := ((tracks_applyLists H h lists last).placeAspect? id).trans
      (aspectOf_founder? hsteady id)
    exact hafter.trans (((tracks_applyLists H h [] last).placeAspect? id).trans
      (aspectOf_founder? hsingle id)).symm

end Graph

/-- From any graph without the service of car parks, or of rental stations, whatever lists come one
after the other: the last one alone decides what is registered and which places there are. A place
has the name, the position and the links of the record that its id came with, so it is that of the
last list if no id changed them. -/
theorem Graph.follows_lists {R : Type} [Quantity R] [Geodesy R] {g : Graph R} (H : g.Evolved) :
    (g.services.carParks = none → ∀ (lists : List (List (CarPark R))) (last : List (CarPark R)),
      g.FollowsLists lists last) ∧
    (g.services.rental = none → ∀ (lists : List (List (Station R))) (last : List (Station R)),
      g.FollowsLists lists last) := by
  constructor
  · intro hnone lists last
    refine followsLists H ?_ lists last
    exact congrArg (·.getD .empty) hnone
  · intro hnone lists last
    refine followsLists H ?_ lists last
    have hregistry : Place.registry? (ρ := Station R) g.services = none :=
      congrArg (Option.map RentalService.stations) hnone
    exact congrArg (·.getD .empty) hregistry

/-! ## A car park that moves -/

namespace Town

/-- The car park has moved to the other end of the street, and has a new name. -/
def movedPark : CarPark ℚ := ⟨"p", "market", ⟨1, 0⟩, 7, 100, true⟩

theorem evolved_street : street.Evolved := (Graph.built_build (by decide)).evolved

/-- In between the car park is not mentioned, so it gets a new place. -/
def interrupted : List (List (CarPark ℚ)) := [[park "p" 1, park "q" 2], [park "q" 5]]

theorem follows_interrupted :
    ((interrupted ++ [[movedPark, park "q" 0]]).foldl Graph.applyRecords street).placeAspect?
      (CarPark ℚ) "p" = some (street.aspectOf movedPark) ∧
    street.aspectOf movedPark = ⟨⟨"market", ⟨1, 0⟩, .parkAndRide "p"⟩,
      [(.link 0, some 1), (.parkAndRide, none)], [(.link 0, some 1), (.parkAndRide, none)]⟩ ∧
    (((interrupted ++ [[movedPark, park "q" 0]]).foldl Graph.applyRecords street).registry
      (CarPark ℚ)).record? "q" = some (park "q" 0) ∧
    ∀ id, ((interrupted ++ [[movedPark, park "q" 0]]).foldl Graph.applyRecords
      street).placeAspect? (CarPark ℚ) id =
        (street.applyRecords [movedPark, park "q" 0]).placeAspect? (CarPark ℚ) id := by
  have hsteady : Place.Steady (interrupted ++ [[movedPark, park "q" 0]]) := by
    simp [Place.Steady, interrupted, park, movedPark, Place.id, Place.name, Place.position,
      Place.complete]
  have H := (Graph.follows_lists evolved_street).1 rfl interrupted [movedPark, park "q" 0]
  refine ⟨(H.tracks.placeAspect? "p").trans ?_, by decide +kernel, H.tracks.record? "q",
    H.steady hsteady⟩
  rfl

/-- The car park that is mentioned all along keeps its place when it moves. -/
theorem not_only_last : street.Evolved ∧ street.services.carParks = none ∧
    (∀ records ∈ [[park "p" 1], [movedPark]], (records.map CarPark.id).Nodup) ∧
    (([[park "p" 1], [movedPark]].foldl Graph.applyRecords street).registry
      (CarPark ℚ)).record? "p" = some movedPark ∧
    ([[park "p" 1], [movedPark]].foldl Graph.applyRecords street).placeAspect? (CarPark ℚ) "p" =
      some ⟨⟨"p", ⟨0, 0⟩, .parkAndRide "p"⟩,
        [(.link 0, some 0), (.parkAndRide, none)], [(.link 0, some 0), (.parkAndRide, none)]⟩ ∧
    (street.applyRecords [movedPark]).placeAspect? (CarPark ℚ) "p" =
      some ⟨⟨"market", ⟨1, 0⟩, .parkAndRide "p"⟩,
        [(.link 0, some 1), (.parkAndRide, none)], [(.link 0, some 1), (.parkAndRide, none)]⟩ ∧
    ([[park "p" 1], [movedPark]].foldl Graph.applyRecords street).placeAspect? (CarPark ℚ) "p" ≠
      (street.applyRecords [movedPark]).placeAspect? (CarPark ℚ) "p" := by
  refine ⟨evolved_street, rfl, by simp, ?_, by decide +kernel, by decide +kernel,
    by decide +kernel⟩
  rw [List.foldl_cons, List.foldl_cons, List.foldl_nil, Graph.record?_applyRecords]
  rfl

end Town

end TripPlanner
