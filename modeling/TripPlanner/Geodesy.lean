/-!
# Points on the globe

Points are longitude and latitude in degrees. How far apart two points are on the ground, and in
which direction one lies from the other, is a parameter of the planner: the class `Geodesy`.
-/

namespace TripPlanner

/-- A point given by its longitude and latitude in degrees. -/
structure Point (R : Type) where
  /-- The longitude. -/
  x : R
  /-- The latitude. -/
  y : R
  deriving DecidableEq, BEq

/-- Distances and directions between points. -/
class Geodesy (R : Type) where
  /-- Metres between two points along the ground. -/
  groundDistance : Point R → Point R → R
  /-- The direction in which one sets out from the first point to the second, in whole degrees
  clockwise from north. -/
  bearing : Point R → Point R → Int
  /-- The distance of the raw coordinates in the plane, in degrees. -/
  planarDistance : Point R → Point R → R

end TripPlanner
