import Mathlib.Data.List.Nodup
import Mathlib.Data.List.Perm.Basic
import TripPlanner.Network.StreetIndex
import TripPlanner.Proofs.Exact

/-!
# Trees of areas

A tree of areas holds what has been put into it and not been taken out. All its points are equally
far below the root, under groups that are not empty and have the least areas around their members
(`AreaTree.IsBalanced`). A point that is put in is one more of the items, wherever groups have to
give up points or are cut (`AreaTree.perm_insert`), and one that is there is found for removal, for
all areas on the way to it contain it (`AreaTree.perm_erase`).

The areas are made with `≤`, `min` and `max`. All that is needed of these is that they order the
coordinates that occur (`Quantity.Ordered`), as they do unless one of them is not a number. A street
index over such coordinates has the same entries in its list and in its tree (`StreetIndex.Sound`).
-/

namespace TripPlanner

/-! ## Numbers in order -/

/-- `≤` puts all numbers among some in order, and `<` is its strict part. -/
structure Quantity.Comparable {R : Type} [Quantity R] (among : R → Prop) : Prop where
  total : ∀ {a b}, among a → among b → a ≤ b ∨ b ≤ a
  trans : ∀ {a b c}, among a → among b → among c → a ≤ b → b ≤ c → a ≤ c
  lt_iff : ∀ {a b}, among a → among b → (a < b ↔ ¬ b ≤ a)

/-- Moreover `min` and `max` are the lesser and the greater one of two numbers. -/
structure Quantity.Ordered {R : Type} [Quantity R] (among : R → Prop) : Prop
    extends Quantity.Comparable among where
  min_cases : ∀ {a b}, among a → among b → min a b = a ∧ a ≤ b ∨ min a b = b ∧ b ≤ a
  max_cases : ∀ {a b}, among a → among b → max a b = a ∧ b ≤ a ∨ max a b = b ∧ a ≤ b

/-- Exact numbers are in order. -/
theorem Quantity.ordered {R : Type} [Field R] [LinearOrder R] [IsStrictOrderedRing R]
    [FloorRing R] (among : R → Prop) : Quantity.Ordered among where
  total _ _ := le_total _ _
  trans _ _ _ := le_trans
  lt_iff _ _ := lt_iff_not_ge
  min_cases {a b} _ _ := (le_total a b).imp (fun h => ⟨min_eq_left h, h⟩)
    fun h => ⟨min_eq_right h, h⟩
  max_cases {a b} _ _ := (le_total b a).imp (fun h => ⟨max_eq_left h, h⟩)
    fun h => ⟨max_eq_right h, h⟩

section
variable {R : Type} [Quantity R] {S : R → Prop} {a b c : R} {p q : Point R}

theorem Quantity.Comparable.refl (H : Quantity.Comparable S) (ha : S a) : a ≤ a :=
  (H.total ha ha).elim id id

namespace Quantity.Ordered

theorem min_mem (H : Ordered S) (ha : S a) (hb : S b) : S (min a b) := by
  rcases H.min_cases ha hb with ⟨h, -⟩ | ⟨h, -⟩
  · rwa [h]
  · rwa [h]

theorem max_mem (H : Ordered S) (ha : S a) (hb : S b) : S (max a b) := by
  rcases H.max_cases ha hb with ⟨h, -⟩ | ⟨h, -⟩
  · rwa [h]
  · rwa [h]

theorem min_le (H : Ordered S) (ha : S a) (hb : S b) (hc : S c) (h : a ≤ c ∨ b ≤ c) :
    min a b ≤ c := by
  rcases H.min_cases ha hb with ⟨hmin, hle⟩ | ⟨hmin, hle⟩
  · rw [hmin]
    exact h.elim id (H.trans ha hb hc hle)
  · rw [hmin]
    exact h.elim (H.trans hb ha hc hle) id

theorem le_max (H : Ordered S) (ha : S a) (hb : S b) (hc : S c) (h : c ≤ a ∨ c ≤ b) :
    c ≤ max a b := by
  rcases H.max_cases ha hb with ⟨hmax, hle⟩ | ⟨hmax, hle⟩
  · rw [hmax]
    exact h.elim id fun h => H.trans hc hb ha h hle
  · rw [hmax]
    exact h.elim (fun h => H.trans hc ha hb h hle) id

end Quantity.Ordered

/-! ## Areas -/

/-- Both coordinates are among some numbers. -/
def Point.Among (S : R → Prop) (p : Point R) : Prop := S p.x ∧ S p.y

theorem Point.Among.isDefined (hp : p.Among S) (H : Quantity.Comparable S) :
    p.isDefined = true := by
  simp [Point.isDefined, Point.equals, H.refl hp.1, H.refl hp.2]

namespace Area

variable {area other : Area R}

def Among (S : R → Prop) (area : Area R) : Prop := area.low.Among S ∧ area.high.Among S

theorem contains_iff (H : Quantity.Comparable S) (hp : p.Among S) : area.contains p = true ↔
    area.low.x ≤ p.x ∧ p.x ≤ area.high.x ∧ area.low.y ≤ p.y ∧ p.y ≤ area.high.y := by
  simp [contains, hp.isDefined H, and_assoc]

theorem contains_ofPoint (H : Quantity.Comparable S) (hp : p.Among S) :
    (ofPoint p).contains p = true :=
  (contains_iff H hp).2 ⟨H.refl hp.1, H.refl hp.1, H.refl hp.2, H.refl hp.2⟩

theorem Among.hull (h : area.Among S) (h' : other.Among S) (H : Quantity.Ordered S) :
    (area.hull other).Among S :=
  ⟨⟨H.min_mem h.1.1 h'.1.1, H.min_mem h.1.2 h'.1.2⟩,
    H.max_mem h.2.1 h'.2.1, H.max_mem h.2.2 h'.2.2⟩

/-- What one of two areas contains, the least area that includes both does. -/
theorem contains_hull (H : Quantity.Ordered S) (h : area.Among S) (h' : other.Among S)
    (hp : p.Among S) (hcontains : area.contains p = true ∨ other.contains p = true) :
    (area.hull other).contains p = true := by
  rw [contains_iff H.toComparable hp, contains_iff H.toComparable hp] at hcontains
  rw [contains_iff H.toComparable hp]
  exact ⟨H.min_le h.1.1 h'.1.1 hp.1 (hcontains.imp (·.1) (·.1)),
    H.le_max h.2.1 h'.2.1 hp.1 (hcontains.imp (·.2.1) (·.2.1)),
    H.min_le h.1.2 h'.1.2 hp.2 (hcontains.imp (·.2.2.1) (·.2.2.1)),
    H.le_max h.2.2 h'.2.2 hp.2 (hcontains.imp (·.2.2.2) (·.2.2.2))⟩

end Area

end

/-! ## Least items and sorting -/

section
variable {R β : Type} {less : β → β → Bool} {items : List β} {b : β}

theorem firstLeast_eq_none_iff : firstLeast less items = none ↔ items = [] := by
  cases items <;> simp [firstLeast]

theorem mem_of_firstLeast (h : firstLeast less items = some b) : b ∈ items := by
  cases items with
  | nil => cases h
  | cons first rest =>
    obtain rfl := Option.some.inj h
    refine List.foldlRecOn rest _ (motive := (· ∈ first :: rest)) List.mem_cons_self ?_
    intro least hleast c hc
    split
    · exact List.mem_cons_of_mem _ hc
    · exact hleast

end

namespace AreaTree

section
variable {R β : Type} [Quantity R] (key : β → R)

theorem perm_place (b : β) (items : List β) : (place key b items).Perm (b :: items) := by
  induction items with
  | nil => exact .refl _
  | cons c rest ih =>
    rw [place]
    split
    · exact .refl _
    · exact (ih.cons c).trans (.swap b c rest)

theorem perm_sortOn (items : List β) : (sortOn key items).Perm items := by
  suffices h : ∀ sorted : List β,
      (items.foldl (fun sorted b => place key b sorted) sorted).Perm (items ++ sorted) by
    simpa [sortOn] using h []
  induction items with
  | nil => exact fun sorted => .refl _
  | cons b rest ih =>
    intro sorted
    exact (ih _).trans (((perm_place key b sorted).append_left rest).trans List.perm_middle)

theorem perm_swapOut {members : List β} {i : Nat} {b : β} (h : members[i]? = some b) :
    members.Perm (b :: swapOut members i) := by
  obtain ⟨hi, rfl⟩ := List.getElem?_eq_some_iff.1 h
  obtain rfl | ⟨front, last, rfl⟩ := members.eq_nil_or_concat'
  · cases hi
  rw [swapOut, List.getLast?_concat]
  dsimp only
  rw [List.set_append]
  split
  · rename_i hlt
    rw [List.dropLast_concat, List.getElem_append_left hlt]
    refine (List.perm_append_singleton _ _).trans ?_
    refine ((List.getElem_cons_eraseIdx_perm hlt).symm.cons last).trans ?_
    exact (List.Perm.swap _ _ _).trans ((List.set_perm_cons_eraseIdx hlt last).symm.cons _)
  · rename_i hlt
    have hlast : i = front.length := by
      rw [List.length_append, List.length_singleton] at hi
      omega
    subst hlast
    simp [List.perm_append_singleton]

theorem perm_set {members : List β} {i : Nat} {b : β} (h : members[i]? = some b) (c : β) :
    (b :: members.set i c).Perm (c :: members) := by
  obtain ⟨hi, rfl⟩ := List.getElem?_eq_some_iff.1 h
  refine ((List.set_perm_cons_eraseIdx hi c).cons _).trans ?_
  exact (List.Perm.swap _ _ _).trans ((List.getElem_cons_eraseIdx_perm hi).cons c)

end

/-! ## Items and balance -/

section
variable {R α : Type}

/-- The items with their points, so many levels below a group. -/
def itemsBelow : Nat → List (Node R α) → List (Point R × α)
  | 0, members => members.filterMap fun
    | .entry p item => some (p, item)
    | .group .. => none
  | levels + 1, members => members.flatMap fun
    | .entry .. => []
    | .group _ inner => itemsBelow levels inner

def items (tree : AreaTree R α) : List (Point R × α) := itemsBelow tree.height tree.members

theorem itemsBelow_nil (levels : Nat) : itemsBelow levels ([] : List (Node R α)) = [] := by
  cases levels <;> rfl

theorem itemsBelow_append (levels : Nat) (members more : List (Node R α)) :
    itemsBelow levels (members ++ more) = itemsBelow levels members ++ itemsBelow levels more := by
  cases levels with
  | zero => exact List.filterMap_append
  | succ levels => exact List.flatMap_append

theorem itemsBelow_cons (levels : Nat) (node : Node R α) (members : List (Node R α)) :
    itemsBelow levels (node :: members) = itemsBelow levels [node] ++ itemsBelow levels members :=
  itemsBelow_append levels [node] members

theorem perm_itemsBelow (levels : Nat) {members others : List (Node R α)}
    (h : members.Perm others) : (itemsBelow levels members).Perm (itemsBelow levels others) := by
  cases levels with
  | zero => exact h.filterMap _
  | succ levels => exact h.flatMap_right _

theorem mem_itemsBelow_iff {levels : Nat} {members : List (Node R α)} {entry : Point R × α} :
    entry ∈ itemsBelow levels members ↔ ∃ node ∈ members, entry ∈ itemsBelow levels [node] := by
  cases levels with
  | zero => simp [itemsBelow, List.mem_filterMap]
  | succ levels => simp [itemsBelow]

variable [Quantity R]

@[simp] theorem itemsBelow_gather (levels : Nat) (inner : List (Node R α)) :
    itemsBelow (levels + 1) [gather inner] = itemsBelow levels inner :=
  List.append_nil _

/-- All points are so many levels below, under groups that are not empty and have the areas around
their members. -/
def Balanced : Nat → List (Node R α) → Prop
  | 0, members => ∀ node ∈ members, ∃ p item, node = .entry p item
  | levels + 1, members =>
    ∀ node ∈ members, ∃ inner, inner ≠ [] ∧ Balanced levels inner ∧ node = gather inner

variable {levels : Nat} {members others inner : List (Node R α)} {node new : Node R α}

theorem Balanced.mono (H : Balanced levels members) (h : others ⊆ members) :
    Balanced levels others := by
  cases levels with
  | zero => exact fun node hnode => H node (h hnode)
  | succ levels => exact fun node hnode => H node (h hnode)

theorem Balanced.append (H : Balanced levels members) (H' : Balanced levels others) :
    Balanced levels (members ++ others) := by
  cases levels with
  | zero => exact fun node hnode => (List.mem_append.1 hnode).elim (H node) (H' node)
  | succ levels => exact fun node hnode => (List.mem_append.1 hnode).elim (H node) (H' node)

theorem balanced_gather (H : Balanced levels inner) (hinner : inner ≠ []) :
    Balanced (levels + 1) [gather inner] := by
  intro node hnode
  exact ⟨inner, hinner, H, List.mem_singleton.1 hnode⟩

theorem foldl_hull {S : R → Prop} {p : Point R} (hS : Quantity.Ordered S) {area : Area R}
    (harea : area.Among S) (h : ∀ node ∈ members, node.area.Among S) (hp : p.Among S) :
    (members.foldl (fun area node => area.hull node.area) area).Among S ∧
      (area.contains p = true ∨ (∃ node ∈ members, node.area.contains p = true) →
        (members.foldl (fun area node => area.hull node.area) area).contains p = true) := by
  induction members generalizing area with
  | nil => simp [harea]
  | cons node rest ih =>
    rw [List.forall_mem_cons] at h
    obtain ⟨hamong, hcontains⟩ := ih (harea.hull h.1 hS) h.2
    refine ⟨hamong, fun hor => hcontains ?_⟩
    rw [List.exists_mem_cons_iff, ← or_assoc] at hor
    exact hor.imp_left (Area.contains_hull hS harea h.1 hp)

/-- The area around some nodes contains what one of them does. -/
theorem contains_around {S : R → Prop} {p : Point R} (hS : Quantity.Ordered S)
    (h : ∀ node ∈ members, node.area.Among S) (hnode : node ∈ members) (hp : p.Among S)
    (hcontains : node.area.contains p = true) :
    (around members).Among S ∧ (around members).contains p = true := by
  cases members with
  | nil => cases hnode
  | cons first rest =>
    rw [List.forall_mem_cons] at h
    obtain ⟨hamong, hall⟩ := foldl_hull hS h.1 h.2 hp
    refine ⟨hamong, hall ?_⟩
    rcases List.mem_cons.1 hnode with rfl | hnode
    · exact .inl hcontains
    · exact .inr ⟨node, hnode, hcontains⟩

/-- Something is in a group that is not empty. -/
theorem Balanced.exists_mem (H : Balanced levels members) (hmembers : members ≠ []) :
    ∃ node ∈ members, ∃ entry, entry ∈ itemsBelow levels [node] := by
  obtain ⟨node, hnode⟩ := List.exists_mem_of_ne_nil _ hmembers
  refine ⟨node, hnode, ?_⟩
  induction levels generalizing members node with
  | zero =>
    obtain ⟨p, item, rfl⟩ := H node hnode
    exact ⟨(p, item), List.mem_singleton_self _⟩
  | succ levels ih =>
    obtain ⟨inner, hinner, hbelow, rfl⟩ := H node hnode
    obtain ⟨first, hfirst⟩ := List.exists_mem_of_ne_nil _ hinner
    obtain ⟨entry, hentry⟩ := ih hbelow hinner first hfirst
    rw [itemsBelow_gather]
    exact ⟨entry, mem_itemsBelow_iff.2 ⟨first, hfirst, hentry⟩⟩

/-- The area of a node contains all items below it. -/
theorem Balanced.contains {S : R → Prop} (H : Balanced levels members) (hS : Quantity.Ordered S)
    (hitems : ∀ entry ∈ itemsBelow levels members, entry.1.Among S) :
    ∀ node ∈ members, node.area.Among S ∧
      ∀ entry ∈ itemsBelow levels [node], node.area.contains entry.1 = true := by
  induction levels generalizing members with
  | zero =>
    intro node hnode
    obtain ⟨p, item, rfl⟩ := H node hnode
    have hp : p.Among S :=
      hitems (p, item) (mem_itemsBelow_iff.2 ⟨_, hnode, List.mem_singleton_self _⟩)
    refine ⟨⟨hp, hp⟩, fun entry hentry => ?_⟩
    obtain rfl := List.mem_singleton.1 hentry
    exact Area.contains_ofPoint hS.toComparable hp
  | succ levels ih =>
    intro node hnode
    obtain ⟨inner, hinner, hbelow, rfl⟩ := H node hnode
    have hitems' : ∀ entry ∈ itemsBelow levels inner, entry.1.Among S := fun entry hentry =>
      hitems entry (mem_itemsBelow_iff.2 ⟨_, hnode, by rwa [itemsBelow_gather]⟩)
    have hnodes := ih hbelow hitems'
    have haround : ∀ entry ∈ itemsBelow levels inner,
        (around inner).Among S ∧ (around inner).contains entry.1 = true := by
      intro entry hentry
      obtain ⟨node, hnode, hmem⟩ := mem_itemsBelow_iff.1 hentry
      exact contains_around hS (fun node h => (hnodes node h).1) hnode (hitems' entry hentry)
        ((hnodes node hnode).2 entry hmem)
    obtain ⟨first, hfirst, entry, hentry⟩ := hbelow.exists_mem hinner
    rw [itemsBelow_gather]
    exact ⟨(haround entry (mem_itemsBelow_iff.2 ⟨first, hfirst, hentry⟩)).1,
      fun entry hentry => (haround entry hentry).2⟩

end

/-! ## Groups that are too large -/

section
variable {R α : Type} [Quantity R] {members inner inner' : List (Node R α)} {new : Node R α}
  {levels i : Nat} {p : Point R} {item : α} {entry : Point R × α} {extra : List (Point R × α)}

theorem choose_lt {areas : List (Area R)} (h : areas ≠ []) (lowest : Bool) (area : Area R) :
    choose lowest areas area < areas.length := by
  unfold choose
  dsimp only
  split
  · rename_i hsome
    have hmem := List.mem_of_mem_filter (mem_of_firstLeast hsome)
    exact List.snd_lt_of_mem_zipIdx hmem
  · split
    · rename_i hsome
      obtain ⟨⟨_, i⟩, hmem, heq⟩ := List.mem_map.1 (mem_of_firstLeast hsome)
      cases heq
      exact List.snd_lt_of_mem_zipIdx hmem
    · exact List.length_pos_iff.2 h

theorem perm_alongAxis (members : List (Node R α)) : (alongAxis members).Perm members := by
  have hbyY := (perm_sortOn (fun node : Node R α => node.area.low.y)
    (sortOn (fun node => node.area.low.x) members)).trans (perm_sortOn _ members)
  unfold alongAxis
  dsimp only
  split
  · split
    · exact hbyY
    · exact (perm_sortOn _ _).trans hbyY
  · exact perm_sortOn _ members

/-- Both parts get something. -/
theorem split_spec (h : maxMembers < members.length) :
    (split members).1 ≠ [] ∧ (split members).2 ≠ [] ∧
      ((split members).1 ++ (split members).2).Perm members := by
  have hperm := perm_alongAxis members
  have hlength := hperm.length_eq
  simp only [maxMembers] at h
  unfold split
  dsimp only
  cases hfirst : firstLeast _ (cuts (alongAxis members)) with
  | none =>
    have hnil := firstLeast_eq_none_iff.1 hfirst
    rw [cuts, List.map_eq_nil_iff, List.range'_eq_nil_iff, hlength] at hnil
    simp only [minMembers] at hnil
    omega
  | some parts =>
    obtain ⟨k, hk, rfl⟩ := List.mem_map.1 (mem_of_firstLeast hfirst)
    rw [List.mem_range'_1, hlength] at hk
    simp only [minMembers] at hk
    rw [Option.getD_some, List.splitAt_eq, ne_eq, ne_eq, List.take_eq_nil_iff,
      List.drop_eq_nil_iff, ← List.length_eq_zero_iff, hlength, List.take_append_drop]
    exact ⟨by omega, by omega, hperm⟩

/-- What becomes of a group into which a point has been put, and of what is cut off. -/
structure Holds (levels : Nat) (kept : List (Node R α)) (gone : Option (Node R α))
    (items : List (Point R × α)) : Prop where
  ne_nil : kept ≠ []
  balanced_kept : Balanced levels kept
  balanced_gone : Balanced (levels + 1) gone.toList
  perm : (itemsBelow levels kept ++ itemsBelow (levels + 1) gone.toList).Perm items

theorem holds_cutOff (H : Balanced levels members) (hmembers : members ≠ []) :
    Holds levels (cutOff members).1 (cutOff members).2 (itemsBelow levels members) := by
  unfold cutOff
  split
  · refine ⟨hmembers, H, nofun, ?_⟩
    simp [itemsBelow_nil]
  · rename_i hlarge
    obtain ⟨hkept, hgone, hperm⟩ := split_spec (Nat.lt_of_not_le hlarge)
    refine ⟨hkept, H.mono fun node h => hperm.subset (List.mem_append_left _ h), ?_, ?_⟩
    · exact balanced_gather (H.mono fun node h => hperm.subset (List.mem_append_right _ h)) hgone
    · rw [Option.toList_some, itemsBelow_gather, ← itemsBelow_append]
      exact perm_itemsBelow levels hperm

theorem giveUp_spec (H : Balanced 0 members) (hmembers : members ≠ []) :
    (giveUp members).1 ≠ [] ∧ Balanced 0 (giveUp members).1 ∧ Balanced 0 (giveUp members).2 ∧
      (itemsBelow 0 (giveUp members).1 ++ itemsBelow 0 (giveUp members).2).Perm
        (itemsBelow 0 members) := by
  unfold giveUp
  split
  · refine ⟨hmembers, H, nofun, ?_⟩
    rw [itemsBelow_nil, List.append_nil]
  · rename_i hlarge
    dsimp only
    have hsorted := perm_sortOn (fun node : Node R α => node.area.center.planarSquare
      (around members).center) members
    have hlength := hsorted.length_eq
    generalize sortOn (fun node : Node R α => node.area.center.planarSquare
      (around members).center) members = sorted at hsorted hlength
    rw [List.splitAt_eq]
    simp only [maxMembers] at hlarge
    have hbalanced : Balanced 0 sorted := H.mono hsorted.subset
    refine ⟨?_, hbalanced.mono (List.take_subset _ _), ?_, ?_⟩
    · rw [ne_eq, List.take_eq_nil_iff, ← List.length_eq_zero_iff, hlength]
      simp only [givenUp]
      omega
    · exact hbalanced.mono fun node h => List.drop_subset _ _ (List.mem_reverse.1 h)
    · rw [← itemsBelow_append]
      refine perm_itemsBelow 0 (((List.reverse_perm _).append_left _).trans ?_)
      rw [List.take_append_drop]
      exact hsorted

/-! ## Adding -/

theorem Balanced.set (H : Balanced (levels + 1) members) (hinner : Balanced levels inner)
    (hne : inner ≠ []) (i : Nat) : Balanced (levels + 1) (members.set i (gather inner)) := by
  intro node hnode
  rcases List.mem_or_eq_of_mem_set hnode with hnode | rfl
  · exact H node hnode
  · exact ⟨inner, hne, hinner, rfl⟩

/-- What comes to a group comes to the one above. -/
theorem perm_set_gather (hi : members[i]? = some (gather inner))
    (h : (itemsBelow levels inner' ++ extra).Perm (entry :: itemsBelow levels inner)) :
    (itemsBelow (levels + 1) (members.set i (gather inner')) ++ extra).Perm
      (entry :: itemsBelow (levels + 1) members) := by
  have hset := perm_itemsBelow (levels + 1) (perm_set hi (gather inner'))
  rw [itemsBelow_cons, itemsBelow_cons _ (gather inner'), itemsBelow_gather,
    itemsBelow_gather] at hset
  refine (List.perm_append_left_iff (itemsBelow levels inner)).1 ?_
  rw [← List.append_assoc]
  refine (hset.append_right extra).trans ?_
  rw [List.append_assoc]
  refine (List.perm_append_comm.append_left _).trans ?_
  rw [← List.append_assoc]
  exact (h.append_right _).trans List.perm_middle.symm

/-- The group that a point goes into is there. -/
theorem Balanced.exists_chosen (H : Balanced (levels + 1) members) (hmembers : members ≠ [])
    (lowest : Bool) (area : Area R) : ∃ i inner,
    choose lowest (members.map Node.area) area = i ∧ inner ≠ [] ∧ Balanced levels inner ∧
      members[i]? = some (gather inner) := by
  have hareas : members.map Node.area ≠ [] := by simpa using hmembers
  have hlt := choose_lt hareas lowest area
  rw [List.length_map] at hlt
  obtain ⟨inner, hne, hinner, heq⟩ := H _ (List.getElem_mem hlt)
  exact ⟨_, inner, rfl, hne, hinner, (List.getElem?_eq_getElem hlt).trans (congrArg some heq)⟩

theorem Balanced.addGivingUp (H : Balanced levels members) (h : members = [] → levels = 0)
    (p : Point R) (item : α) :
    (addGivingUp levels members (.entry p item)).1 ≠ [] ∧
      Balanced levels (addGivingUp levels members (.entry p item)).1 ∧
      Balanced 0 (addGivingUp levels members (.entry p item)).2 ∧
      (itemsBelow levels (addGivingUp levels members (.entry p item)).1 ++
        itemsBelow 0 (addGivingUp levels members (.entry p item)).2).Perm
          ((p, item) :: itemsBelow levels members) := by
  induction levels generalizing members with
  | zero =>
    have hnew : Balanced 0 (members ++ [.entry p item]) :=
      H.append fun node hnode => ⟨p, item, List.mem_singleton.1 hnode⟩
    obtain ⟨hne, hkept, hgone, hperm⟩ := giveUp_spec hnew (by simp)
    refine ⟨hne, hkept, hgone, hperm.trans ?_⟩
    rw [itemsBelow_append]
    exact List.perm_append_singleton _ _
  | succ levels ih =>
    have hmembers : members ≠ [] := fun hnil => Nat.succ_ne_zero _ (h hnil)
    obtain ⟨i, inner, hchoose, hne, hinner, hi⟩ :=
      H.exists_chosen hmembers (levels = 0) (Node.entry p item).area
    obtain ⟨hne', hkept, hgone, hperm⟩ := ih hinner fun hnil => absurd hnil hne
    rw [AreaTree.addGivingUp, hchoose, hi]
    dsimp only [gather]
    refine ⟨?_, H.set hkept hne' i, hgone, perm_set_gather hi hperm⟩
    simpa using hmembers

theorem Balanced.addCuttingOff (H : Balanced levels members) (h : members = [] → levels = 0)
    (p : Point R) (item : α) :
    Holds levels (addCuttingOff levels members (.entry p item)).1
      (addCuttingOff levels members (.entry p item)).2
      ((p, item) :: itemsBelow levels members) := by
  induction levels generalizing members with
  | zero =>
    have hnew : Balanced 0 (members ++ [.entry p item]) :=
      H.append fun node hnode => ⟨p, item, List.mem_singleton.1 hnode⟩
    obtain ⟨hne, hkept, hgone, hperm⟩ := holds_cutOff hnew (by simp)
    refine ⟨hne, hkept, hgone, hperm.trans ?_⟩
    rw [itemsBelow_append]
    exact List.perm_append_singleton _ _
  | succ levels ih =>
    have hmembers : members ≠ [] := fun hnil => Nat.succ_ne_zero _ (h hnil)
    obtain ⟨i, inner, hchoose, hne, hinner, hi⟩ :=
      H.exists_chosen hmembers (levels = 0) (Node.entry p item).area
    have hbelow := ih hinner fun hnil => absurd hnil hne
    rw [AreaTree.addCuttingOff, hchoose, hi]
    dsimp only [gather]
    have hset := (H.set hbelow.balanced_kept hbelow.ne_nil i).append hbelow.balanced_gone
    obtain ⟨hne', hkept, hgone, hperm⟩ := holds_cutOff hset (by simp [hmembers])
    refine ⟨hne', hkept, hgone, hperm.trans ?_⟩
    rw [itemsBelow_append]
    exact perm_set_gather hi hbelow.perm

end

/-! ## Whole trees -/

section
variable {R α : Type} [Quantity R] {tree : AreaTree R α}

/-- Only a root without levels below is empty. -/
structure IsBalanced (tree : AreaTree R α) : Prop where
  members : Balanced tree.height tree.members
  height : tree.members = [] → tree.height = 0

theorem isBalanced_empty : (empty : AreaTree R α).IsBalanced := ⟨nofun, fun _ => rfl⟩

theorem IsBalanced.add (H : tree.IsBalanced) (p : Point R) (item : α) :
    (tree.add (.entry p item)).IsBalanced ∧
      (tree.add (.entry p item)).items.Perm ((p, item) :: tree.items) := by
  obtain ⟨hne, hkept, hgone, hperm⟩ := H.members.addCuttingOff H.height p item
  unfold AreaTree.add
  cases hadd : addCuttingOff tree.height tree.members (.entry p item) with
  | mk members gone =>
    rw [hadd] at hne hkept hgone hperm
    cases gone with
    | none =>
      refine ⟨⟨hkept, fun hnil => absurd hnil hne⟩, ?_⟩
      rwa [Option.toList_none, itemsBelow_nil, List.append_nil] at hperm
    | some other =>
      refine ⟨⟨(balanced_gather hkept hne).append hgone, nofun⟩, ?_⟩
      change (itemsBelow (tree.height + 1) ([gather members] ++ [other])).Perm _
      rwa [itemsBelow_append, itemsBelow_gather]

theorem IsBalanced.addAll {gone : List (Node R α)} (H : tree.IsBalanced)
    (hgone : Balanced 0 gone) : (gone.foldl AreaTree.add tree).IsBalanced ∧
      (gone.foldl AreaTree.add tree).items.Perm (itemsBelow 0 gone ++ tree.items) := by
  induction gone generalizing tree with
  | nil => exact ⟨H, .refl _⟩
  | cons node rest ih =>
    obtain ⟨p, item, rfl⟩ := hgone node List.mem_cons_self
    obtain ⟨hadd, hperm⟩ := H.add p item
    obtain ⟨hall, hperm'⟩ := ih hadd (hgone.mono (List.subset_cons_self _ _))
    exact ⟨hall, hperm'.trans ((hperm.append_left _).trans List.perm_middle)⟩

/-- What is put into a tree is one more item. -/
theorem IsBalanced.insert (H : tree.IsBalanced) (p : Point R) (item : α) :
    (tree.insert p item).IsBalanced ∧
      (tree.insert p item).items.Perm ((p, item) :: tree.items) := by
  obtain ⟨hne, hkept, hgone, hperm⟩ := H.members.addGivingUp H.height p item
  unfold AreaTree.insert
  cases hadd : addGivingUp tree.height tree.members (.entry p item) with
  | mk members gone =>
    rw [hadd] at hne hkept hgone hperm
    have hroot : (⟨tree.height, members⟩ : AreaTree R α).IsBalanced :=
      ⟨hkept, fun hnil => absurd hnil hne⟩
    obtain ⟨hall, hperm'⟩ := hroot.addAll hgone
    exact ⟨hall, hperm'.trans (List.perm_append_comm.trans hperm)⟩

end

/-! ## Erasing -/

section
variable {R α : Type} [Quantity R] [DecidableEq α] {members rest : List (Node R α)}
  {tree : AreaTree R α} {levels : Nat} {p : Point R} {item : α}

theorem swapOut_subset {β : Type} {items : List β} {i : Nat} {b : β} (h : items[i]? = some b) :
    swapOut items i ⊆ items :=
  fun _ hmem => (perm_swapOut h).symm.subset (List.mem_cons_of_mem b hmem)

/-- What is found so many levels below a group is all that goes. -/
theorem perm_eraseBelow (h : eraseBelow p item levels members = some rest) :
    ∃ q : Point R, q.equals p = true ∧
      (itemsBelow levels members).Perm ((q, item) :: itemsBelow levels rest) := by
  induction levels generalizing members rest with
  | zero =>
    obtain ⟨i, hi, rfl⟩ := Option.map_eq_some_iff.1 h
    obtain ⟨hlt, hgone, -⟩ := List.findIdx?_eq_some_iff_getElem.1 hi
    have hperm := perm_itemsBelow 0 (perm_swapOut (List.getElem?_eq_getElem hlt))
    cases hnode : members[i] with
    | group => simp [hnode] at hgone
    | entry q a =>
      rw [hnode] at hgone hperm
      obtain ⟨hequals, ha⟩ := Bool.and_eq_true_iff.1 hgone
      obtain rfl := of_decide_eq_true ha
      exact ⟨q, hequals, hperm⟩
  | succ levels ih =>
    obtain ⟨⟨node, i⟩, hmem, hfound⟩ := List.exists_of_findSome?_eq_some h
    have hperm := perm_itemsBelow (levels + 1) (perm_swapOut (List.mem_zipIdx_iff_getElem?.1 hmem))
    cases node with
    | entry => cases hfound
    | group area inner =>
      obtain ⟨-, hfound⟩ := Option.ite_none_right_eq_some.1 hfound
      obtain ⟨left, hleft, rfl⟩ := Option.map_eq_some_iff.1 hfound
      obtain ⟨q, hequals, hinner⟩ := ih hleft
      refine ⟨q, hequals, hperm.trans ((hinner.append_right _).trans (.cons _ ?_))⟩
      cases left with
      | nil => rw [itemsBelow_nil]; exact .refl _
      | cons first left =>
        rw [if_neg (by simp), itemsBelow_append, itemsBelow_gather]
        exact List.perm_append_comm

theorem Balanced.eraseBelow (H : Balanced levels members)
    (h : eraseBelow p item levels members = some rest) : Balanced levels rest := by
  induction levels generalizing members rest with
  | zero =>
    obtain ⟨i, hi, rfl⟩ := Option.map_eq_some_iff.1 h
    obtain ⟨hlt, -, -⟩ := List.findIdx?_eq_some_iff_getElem.1 hi
    exact H.mono (swapOut_subset (List.getElem?_eq_getElem hlt))
  | succ levels ih =>
    obtain ⟨⟨node, i⟩, hmem, hfound⟩ := List.exists_of_findSome?_eq_some h
    have hi := List.mem_zipIdx_iff_getElem?.1 hmem
    obtain ⟨inner, -, hinner, rfl⟩ := H node (List.mem_of_getElem? hi)
    obtain ⟨-, hfound⟩ := Option.ite_none_right_eq_some.1 hfound
    obtain ⟨left, hleft, rfl⟩ := Option.map_eq_some_iff.1 hfound
    have hothers := H.mono (swapOut_subset hi)
    split
    · exact hothers
    · rename_i hne
      exact hothers.append (balanced_gather (ih hinner hleft) (by simpa using hne))

/-- An item that is there is found. -/
theorem Balanced.isSome_eraseBelow {S : R → Prop} (H : Balanced levels members)
    (hS : Quantity.Ordered S) (hitems : ∀ entry ∈ itemsBelow levels members, entry.1.Among S)
    (h : (p, item) ∈ itemsBelow levels members) :
    (AreaTree.eraseBelow p item levels members).isSome = true := by
  obtain ⟨node, hnode, hmem⟩ := mem_itemsBelow_iff.1 h
  induction levels generalizing members node with
  | zero =>
    obtain ⟨q, a, rfl⟩ := H node hnode
    cases List.mem_singleton.1 hmem
    rw [AreaTree.eraseBelow, Option.isSome_map, List.findIdx?_isSome, List.any_eq_true]
    refine ⟨_, hnode, ?_⟩
    simpa [Point.isDefined] using (hitems _ h).isDefined hS.toComparable
  | succ levels ih =>
    -- The areas on the way to the item contain it.
    have hcontains := (H.contains hS hitems node hnode).2 _ hmem
    obtain ⟨inner, -, hinner, rfl⟩ := H node hnode
    rw [itemsBelow_gather] at hmem
    obtain ⟨next, hnext, hbelow⟩ := mem_itemsBelow_iff.1 hmem
    have hfound := ih hinner (fun entry hentry => hitems entry (mem_itemsBelow_iff.2
      ⟨_, hnode, by rwa [itemsBelow_gather]⟩)) hmem next hnext hbelow
    obtain ⟨i, hi⟩ := List.mem_iff_getElem?.1 hnode
    rw [AreaTree.eraseBelow, List.findSome?_isSome_iff]
    refine ⟨(gather inner, i), List.mem_zipIdx_iff_getElem?.2 hi, ?_⟩
    change (if (gather inner).area.contains p = true then _ else none).isSome = true
    rw [if_pos hcontains, Option.isSome_map]
    exact hfound

/-- With an item that is there one item goes that is equal to it. -/
theorem IsBalanced.erase {S : R → Prop} (H : tree.IsBalanced) (hS : Quantity.Ordered S)
    (hitems : ∀ entry ∈ tree.items, entry.1.Among S) (h : (p, item) ∈ tree.items) :
    (tree.erase p item).IsBalanced ∧ ∃ q : Point R, q.equals p = true ∧
      tree.items.Perm ((q, item) :: (tree.erase p item).items) := by
  obtain ⟨rest, hrest⟩ := Option.isSome_iff_exists.1 (H.members.isSome_eraseBelow hS hitems h)
  have hbalanced := H.members.eraseBelow hrest
  obtain ⟨q, hequals, hperm⟩ := perm_eraseBelow hrest
  unfold AreaTree.erase
  rw [hrest]
  cases rest with
  | nil =>
    rw [itemsBelow_nil] at hperm
    exact ⟨isBalanced_empty, q, hequals, hperm⟩
  | cons first rest => exact ⟨⟨hbalanced, nofun⟩, q, hequals, hperm⟩

end

end AreaTree

/-! ## Street indices -/

namespace StreetIndex

variable {R : Type} [Quantity R] {S : R → Prop} {index : StreetIndex R} {p : Point R}
  {v : VertexIndex}

/-- The tree has the entries of the list. Their coordinates are among some numbers. -/
structure Sound (S : R → Prop) (index : StreetIndex R) : Prop where
  among : ∀ entry ∈ index.entries, entry.1.Among S
  balanced : index.tree.IsBalanced
  perm : index.tree.items.Perm index.entries

/-- All entries can be found. -/
theorem Sound.defined_eq (H : index.Sound S) (hS : Quantity.Comparable S) :
    index.defined = index.entries :=
  List.filter_eq_self.2 fun entry hentry => (H.among entry hentry).isDefined hS

theorem sound_empty : (empty : StreetIndex R).Sound S := ⟨nofun, AreaTree.isBalanced_empty, .refl _⟩

theorem Sound.insert (H : index.Sound S) (hp : p.Among S) (v : VertexIndex) :
    (index.insert p v).Sound S := by
  obtain ⟨hbalanced, hperm⟩ := H.balanced.insert p v
  exact ⟨List.forall_mem_cons.2 ⟨hp, H.among⟩, hbalanced, hperm.trans (H.perm.cons _)⟩

/-- An entry that is erased goes, from the list and from the tree, and no other one does. -/
theorem Sound.erase (H : index.Sound S) (hS : Quantity.Ordered S)
    (hnodup : (index.entries.map Prod.snd).Nodup) (h : (p, v) ∈ index.entries) :
    (index.erase p v).Sound S ∧ ((p, v) :: (index.erase p v).entries).Perm index.entries ∧
      ((p, v) :: (index.erase p v).tree.items).Perm index.tree.items := by
  have hown : ∀ {entry}, entry ∈ index.entries → isEntry p v entry = true → entry = (p, v) := by
    intro entry hentry heq
    exact List.inj_on_of_nodup_map hnodup hentry h (by simpa using (Bool.and_eq_true_iff.1 heq).2)
  have hself : isEntry p v (p, v) = true := by
    simpa [isEntry, Point.isDefined] using (H.among _ h).isDefined hS.toComparable
  have hentries : ((p, v) :: (index.erase p v).entries).Perm index.entries := by
    have hall := List.Nodup.of_map _ hnodup
    refine (List.perm_ext_iff_of_nodup (List.nodup_cons.2 ⟨?_, hall.filter _⟩) hall).2 ?_
    · simp [hself]
    · intro entry
      rw [List.mem_cons, List.mem_filter]
      constructor
      · rintro (rfl | ⟨hentry, -⟩)
        · exact h
        · exact hentry
      · intro hentry
        by_cases heq : isEntry p v entry = true
        · exact .inl (hown hentry heq)
        · exact .inr ⟨hentry, by simpa using heq⟩
  obtain ⟨hbalanced, q, hequals, hitems⟩ := H.balanced.erase hS
    (fun entry hentry => H.among entry (H.perm.subset hentry)) (H.perm.symm.subset h)
  cases hown (H.perm.subset (hitems.symm.subset List.mem_cons_self)) (by simp [isEntry, hequals])
  refine ⟨⟨fun entry hentry => ?_, hbalanced, ?_⟩, hentries, hitems.symm⟩
  · exact H.among entry (hentries.subset (List.mem_cons_of_mem _ hentry))
  · exact (hitems.symm.trans (H.perm.trans hentries.symm)).cons_inv

end StreetIndex

end TripPlanner
