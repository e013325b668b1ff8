import Mathlib.Algebra.Order.Floor.Ring
import Mathlib.Data.Rat.Floor
import TripPlanner.Search

/-!
# Exact quantities

The operations of an ordered field with a floor function, as quantities without rounding, and flat
ground over the rationals.
-/

namespace TripPlanner

instance (priority := low) Quantity.ofField {R : Type} [Field R] [LinearOrder R]
    [IsStrictOrderedRing R] [FloorRing R] : Quantity R where
  decidableLE := inferInstance
  decidableLT := inferInstance
  ofInt i := (i : R)
  ceil x := (⌈x⌉ : R)
  ranksBefore a b := a ≤ b

/-- Ground on which one goes along one coordinate and then along the other. -/
instance : Geodesy ℚ where
  groundDistance a b := |a.x - b.x| + |a.y - b.y|
  bearing _ _ := 0
  planarDistance a b := |a.x - b.x| + |a.y - b.y|

namespace Quantity

variable {R : Type} [Field R] [LinearOrder R] [IsStrictOrderedRing R] [FloorRing R]

theorem ofInt_eq_cast (i : Int) : (ofInt i : R) = i := rfl

theorem ceil_eq_cast (x : R) : ceil x = ((⌈x⌉ : Int) : R) := rfl

theorem ranksBefore_iff {a b : R} : ranksBefore a b = true ↔ a ≤ b := decide_eq_true_iff

theorem sum_eq_sum (xs : List R) : sum xs = xs.sum := List.sum_eq_foldl.symm

theorem sum_filterMap {α : Type} (f : α → Option R) (xs : List α) :
    sum (xs.filterMap f) = (xs.map fun x => (f x).getD 0).sum := by
  rw [sum_eq_sum]
  induction xs with
  | nil => rfl
  | cons x xs ih =>
    cases hx : f x with
    | none => rw [List.filterMap_cons_none hx, List.map_cons, List.sum_cons, hx, ih,
        Option.getD_none, zero_add]
    | some y => rw [List.filterMap_cons_some hx, List.map_cons, List.sum_cons, List.sum_cons, hx,
        ih, Option.getD_some]

theorem ofInt_nonneg {i : Int} (h : 0 ≤ i) : (0 : R) ≤ ofInt i := by
  rw [ofInt_eq_cast]
  exact_mod_cast h

theorem ceil_nonneg {x : R} (h : 0 ≤ x) : 0 ≤ ceil x := by
  rw [ceil_eq_cast]
  exact_mod_cast Int.ceil_nonneg h

theorem ratio_nonneg {n d : Int} (hn : 0 ≤ n) (hd : 0 ≤ d) : (0 : R) ≤ ratio n d :=
  div_nonneg (ofInt_nonneg hn) (ofInt_nonneg hd)

theorem ratio_pos {n d : Int} (hn : 0 < n) (hd : 0 < d) : (0 : R) < ratio n d := by
  have hn' : (0 : R) < n := by exact_mod_cast hn
  have hd' : (0 : R) < d := by exact_mod_cast hd
  exact div_pos hn' hd'

end Quantity

end TripPlanner
