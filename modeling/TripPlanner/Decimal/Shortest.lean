import TripPlanner.Decimal.Dyadic

/-!
# Shortest decimals

The decimal with the fewest digits that is read back as the same double, and of those the one
closest to it. All comparisons are made on natural numbers.
-/

namespace TripPlanner

/-- How a shortest decimal is laid out. -/
structure DecimalStyle where
  /-- Whether a whole number ends in `.0`. -/
  pointZero : Bool
  /-- Numbers below this power of ten, and not zero, are written with an exponent. -/
  positionalFrom : Option Int
  /-- Numbers from this power of ten on are written with an exponent. -/
  positionalBelow : Option Int

namespace Shortest

/-- The numbers that round to a double: all between two bounds, with the bounds if `closed`. The
bounds are whole multiples of `2 ^ scale`. -/
structure Basin where
  /-- The double itself. -/
  center : Nat
  /-- The lower bound. -/
  low : Nat
  /-- The upper bound. -/
  high : Nat
  /-- The power of two of which all three are multiples. -/
  scale : Int
  /-- Whether the bounds round to the double too. -/
  closed : Bool

/-- The basin of a double: half way to its two neighbours. The lower neighbour of a power of two is
only half as far away as the upper one. -/
def basin (d : Dyadic) : Basin :=
  let narrow := d.significand = Dyadic.leadingBit ∧ Dyadic.minExponent < d.exponent
  let center := 4 * d.significand
  ⟨center, center - (if narrow then 1 else 2), center + 2, d.exponent - 2, d.significand % 2 = 0⟩

/-- Whether a whole number of units of `10 ^ exponent` lies in the basin. -/
def Basin.holds (b : Basin) (n : Nat) (exponent : Int) : Bool :=
  -- both sides are scaled until the powers of two and ten are whole
  let value := n * Nat.pow 10 exponent.toNat * Nat.pow 2 (-b.scale).toNat
  let unit := Nat.pow 10 (-exponent).toNat * Nat.pow 2 b.scale.toNat
  if b.closed then b.low * unit ≤ value && value ≤ b.high * unit
  else b.low * unit < value && value < b.high * unit

/-- The best decimal in units of `10 ^ exponent`: the neighbour below or above that lies in the
basin, the closer one of two, the one above if both are as close. -/
def bestAt (b : Basin) (exponent : Int) : Option Nat :=
  let value := b.center * Nat.pow 2 b.scale.toNat * Nat.pow 10 (-exponent).toNat
  let unit := Nat.pow 2 (-b.scale).toNat * Nat.pow 10 exponent.toNat
  let below := value / unit
  match b.holds below exponent, b.holds (below + 1) exponent with
  | true, true => if 2 * (value % unit) < unit then some below else some (below + 1)
  | true, false => some below
  | false, true => some (below + 1)
  | false, false => none

/-- The position of the leading digit: the least power of ten above the double. -/
def magnitude (b : Basin) : Int :=
  let value := b.center * Nat.pow 2 b.scale.toNat
  let unit := Nat.pow 2 (-b.scale).toNat
  if unit ≤ value then Int.ofNat (Nat.toDigits 10 (value / unit)).length
  else 1 - Int.ofNat (Nat.toDigits 10 ((unit - 1) / value)).length

/-- Removes zeros at the end of a number of units, which get as much larger. -/
def stripZeros : Nat → Nat → Int → Nat × Int
  | 0, n, exponent => (n, exponent)
  | fuel + 1, n, exponent =>
    if n % 10 = 0 then stripZeros fuel (n / 10) (exponent + 1) else (n, exponent)

/-- The fewest digits, and the power of ten of the last one, that are read back as a double which
is not zero. Seventeen digits always are. -/
def digits (d : Dyadic) : Nat × Int :=
  let b := basin d
  let top := magnitude b
  let found := (List.range 17).findSome? fun n =>
    let exponent := top - Int.ofNat (n + 1)
    (bestAt b exponent).map fun best => stripZeros 20 best exponent
  found.getD (d.significand, d.exponent)

/-- Digits with the point put in after `point` of them, filled up with zeros. -/
def positional (pointZero : Bool) (digits : List Char) (point : Int) : String :=
  let whole :=
    if point ≤ 0 then ['0'] else (digits ++ List.replicate (point.toNat - digits.length) '0').take
      point.toNat
  let fraction := List.replicate (-point).toNat '0' ++ digits.drop point.toNat
  let fraction := if fraction.isEmpty && pointZero then ['0'] else fraction
  String.ofList (if fraction.isEmpty then whole else whole ++ '.' :: fraction)

/-- Digits with the point after the first one and a power of ten. -/
def scientific (digits : List Char) (point : Int) : String :=
  let mantissa := match digits with
    | [] => []
    | [c] => [c]
    | c :: rest => c :: '.' :: rest
  String.ofList mantissa ++ "e" ++ toString (point - 1)

/-- A double by its shortest decimal, in the given style. -/
def render (style : DecimalStyle) (x : Double) : String :=
  match Dyadic.ofDouble? x with
  | none => nonFiniteText x
  | some d =>
    let sign := if d.negative then "-" else ""
    if d.significand = 0 then sign ++ positional style.pointZero ['0'] 1
    else
      let (n, exponent) := digits d
      let text := Nat.toDigits 10 n
      let point := Int.ofNat text.length + exponent
      let small := style.positionalFrom.any fun low => point ≤ low
      let large := style.positionalBelow.any fun high => high < point
      sign ++ if small || large then scientific text point
        else positional style.pointZero text point

end Shortest

end TripPlanner
