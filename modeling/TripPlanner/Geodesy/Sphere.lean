import TripPlanner.Geodesy
import TripPlanner.Quantity.Double

/-!
# The spherical earth

Ground distances by the haversine formula on a sphere with the mean radius of the earth, in
double precision.
-/

namespace TripPlanner

namespace Sphere

/-- The ratio of a circle's circumference to its diameter. -/
def pi : Float := 3.14159265358979323846

/-- The mean radius of the earth in metres. -/
def radius : Float := 6371008.8

/-- Degrees as radians. -/
def radians (degrees : Float) : Float := degrees * (pi / 180)

/-- Radians as degrees. -/
def degrees (radians : Float) : Float := radians * (180 / pi)

/-- Metres between two points along the great circle through them. -/
def greatCircle (a b : Point Float) : Float :=
  let halfLat := Float.sin (radians (b.y - a.y) / 2)
  let halfLon := Float.sin (radians (b.x - a.x) / 2)
  let h := halfLat * halfLat
    + Float.cos (radians a.y) * Float.cos (radians b.y) * (halfLon * halfLon)
  radius * (2 * Float.asin (Float.sqrt h))

/-- The initial direction of the great circle from `a` to `b`, rounded to whole degrees from 0 to
360, halves upwards. -/
def bearing (a b : Point Float) : Int :=
  let dx := radians b.x - radians a.x
  let s := Float.cos (radians b.y) * Float.sin dx
  let c := Float.cos (radians a.y) * Float.sin (radians b.y)
    - Float.sin (radians a.y) * Float.cos (radians b.y) * Float.cos dx
  let turned := degrees (Float.atan2 s c) + 360
  let wrapped := if 360 ≤ turned then turned - 360 else turned
  Int.ofNat (Float.round wrapped).toUInt64.toNat

/-- The length of the hypotenuse over the legs `dx` and `dy`: the rounded root is corrected by the
error of its square. -/
def hypotenuse (dx dy : Float) : Float :=
  let dx := dx.abs
  let dy := dy.abs
  let long := if dx < dy then dy else dx
  let short := if dx < dy then dx else dy
  if short ≤ long * 5.551115123125783e-17 then long + short
  else
    let h := Float.sqrt (long * long + short * short)
    if h == 0 then long
    else if h ≤ 2 * short then
      let delta := h - short
      h - (long * (2 * delta - long) + (delta - 2 * (long - short)) * delta) / (2 * h)
    else
      let delta := h - long
      h - (2 * delta * (long - 2 * short) + ((4 * delta - short) * short + delta * delta)) / (2 * h)

/-- The distance of two points in the plane of their coordinates. -/
def planar (a b : Point Float) : Float := hypotenuse (a.x - b.x) (a.y - b.y)

/-- A point with machine numbers for coordinates. -/
def onMachine (p : Point Double) : Point Float := ⟨p.x.toFloat, p.y.toFloat⟩

end Sphere

instance : Geodesy Double where
  groundDistance := fun a b =>
    .ofFloat (Sphere.greatCircle (Sphere.onMachine a) (Sphere.onMachine b))
  bearing := fun a b => Sphere.bearing (Sphere.onMachine a) (Sphere.onMachine b)
  planarDistance := fun a b => .ofFloat (Sphere.planar (Sphere.onMachine a) (Sphere.onMachine b))

end TripPlanner
