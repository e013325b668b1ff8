import TripPlanner.Geodesy
import TripPlanner.Quantity

/-!
# Areas

Rectangles in the plane of coordinates: what lies in them, how they overlap, and how far a point
is from what they hold.
-/

namespace TripPlanner

/-- The square of the distance of two points in the plane of their coordinates. -/
def Point.planarSquare {R : Type} [Quantity R] (a b : Point R) : R :=
  (a.x - b.x) * (a.x - b.x) + (a.y - b.y) * (a.y - b.y)

/-- Whether two points are equal, as comparing their coordinates tells. What is not a number is not
equal to anything, not even to itself. -/
def Point.equals {R : Type} [Quantity R] (a b : Point R) : Bool :=
  a.x ≤ b.x && b.x ≤ a.x && a.y ≤ b.y && b.y ≤ a.y

/-- Whether both coordinates are numbers. -/
def Point.isDefined {R : Type} [Quantity R] (p : Point R) : Bool := p.equals p

/-- A rectangle of coordinates. -/
structure Area (R : Type) where
  /-- The corner with the least coordinates. -/
  low : Point R
  /-- The corner with the greatest coordinates. -/
  high : Point R

namespace Area

variable {R : Type} [Quantity R]

/-- The rectangle between two opposite corners, whichever they are. -/
def ofCorners (a b : Point R) : Area R :=
  ⟨⟨if a.x < b.x then a.x else b.x, if a.y < b.y then a.y else b.y⟩,
    ⟨if a.x < b.x then b.x else a.x, if a.y < b.y then b.y else a.y⟩⟩

/-- The rectangle that is a single point. -/
def ofPoint (p : Point R) : Area R := ⟨p, p⟩

/-- Whether the point lies in the area or on its border. What is not a number lies nowhere. -/
def contains (area : Area R) (p : Point R) : Bool :=
  p.isDefined && area.low.x ≤ p.x && p.x ≤ area.high.x && area.low.y ≤ p.y && p.y ≤ area.high.y

theorem isDefined_of_contains {area : Area R} {p : Point R} (h : area.contains p = true) :
    p.isDefined = true := by
  simp only [contains, Bool.and_eq_true] at h
  exact h.1.1.1.1

/-- Whether all of another area lies in the area. -/
def includes (area other : Area R) : Bool := area.contains other.low && area.contains other.high

/-- The least area that includes both. -/
def hull (a b : Area R) : Area R :=
  ⟨⟨min a.low.x b.low.x, min a.low.y b.low.y⟩, ⟨max a.high.x b.high.x, max a.high.y b.high.y⟩⟩

/-- What two areas share. Corners in the wrong order mean nothing. -/
def meet (a b : Area R) : Area R :=
  ⟨⟨max a.low.x b.low.x, max a.low.y b.low.y⟩, ⟨min a.high.x b.high.x, min a.high.y b.high.y⟩⟩

/-- Width times height, zero if the corners are in the wrong order. -/
def size (area : Area R) : R :=
  max (area.high.y - area.low.y) 0 * max (area.high.x - area.low.x) 0

/-- Width and height together. -/
def margin (area : Area R) : R :=
  max (area.high.x - area.low.x + (area.high.y - area.low.y)) 0

/-- The point in the middle. -/
def center (area : Area R) : Point R :=
  ⟨(area.low.x + area.high.x) / Quantity.ofInt 2, (area.low.y + area.high.y) / Quantity.ofInt 2⟩

/-- The point of the area that is nearest to a point. -/
def clamp (area : Area R) (p : Point R) : Point R :=
  ⟨min area.high.x (max area.low.x p.x), min area.high.y (max area.low.y p.y)⟩

/-- The square of the distance from a point to the area: nothing in the area is nearer. -/
def squareTo (area : Area R) (p : Point R) : R :=
  if area.contains p then 0 else (area.clamp p).planarSquare p

/-- The squares of the differences from a coordinate to the nearer and the farther of two. -/
def squaresTo (low high c : R) : R × R :=
  let a := (low - c) * (low - c)
  let b := (high - c) * (high - c)
  if b < a then (b, a) else (a, b)

/-- A square of a distance within which the area surely holds something, if it is the least one
around what it holds: each of its sides is touched, so the nearer side of one direction is, at
worst at the farther end of the other direction. -/
def squareReaching (area : Area R) (p : Point R) : R :=
  let (nearX, farX) := squaresTo area.low.x area.high.x p.x
  let (nearY, farY) := squaresTo area.low.y area.high.y p.y
  if farX - nearX ≤ farY - nearY then farX + nearY else nearX + farY

end Area

end TripPlanner
