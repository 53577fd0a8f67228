import SwiftScribe.Double.Basic

/-!
# Shortest decimals

The decimal with the fewest digits that reads back as a given double, and of those the nearest.
A double stands for every real that rounds to it; those reals form an interval around it, with
its ends if the significand is even. Decimals are tried grid by grid, `10 ^ k` apart, from coarse
to fine: on the first grid with a point in the interval, one of the two neighbours of the double
lies there.
-/

namespace SwiftScribe

/-- The decimal number `digits * 10 ^ exponent`. -/
structure Decimal where
  digits : Nat
  exponent : Int
deriving DecidableEq

namespace Double

/-- Which of two decimals that are equally near a double is taken. -/
inductive Tie where
  /-- The one with an even last digit. -/
  | toEven
  /-- The larger one. -/
  | up
deriving DecidableEq

/-- The interval of reals that round to a double, in units of a quarter of its last place. -/
structure Interval where
  low : Nat
  high : Nat
  /-- Whether the ends belong to it. -/
  closed : Bool

/-- The neighbour below a power of two is only half as far away. -/
def interval (x : Double) : Interval :=
  let narrow := x.significand == fractions && decide (-1074 < x.exponent)
  { low := 4 * x.significand - (if narrow then 1 else 2)
    high := 4 * x.significand + 2
    closed := x.significand % 2 == 0 }

/-- The point of the grid `10 ^ k` that is nearest to `x`, if the grid has a point in the interval
of `x`. With `scale` and `unit` both sides of a comparison are naturals: the grid point `c` is
compared with `y` quarter units by comparing `c * scale` with `y * unit`. -/
def nearestOnGrid? (tie : Tie) (x : Double) (k : Int) : Option Decimal :=
  let quarter := x.exponent - 2
  let scale := tenTo k.toNat * twoTo (-quarter).toNat
  let unit := twoTo quarter.toNat * tenTo (-k).toNat
  let range := x.interval
  let inside (c : Nat) : Bool :=
    if range.closed then range.low * unit ≤ c * scale && c * scale ≤ range.high * unit
    else range.low * unit < c * scale && c * scale < range.high * unit
  let value := 4 * x.significand * unit
  let below := value / scale
  let twice := 2 * (value % scale)
  let roundUp :=
    if twice = scale then (match tie with | .toEven => below % 2 == 1 | .up => true)
    else decide (scale < twice)
  match inside below, inside (below + 1) with
  | true, true => some ⟨if roundUp then below + 1 else below, k⟩
  | true, false => some ⟨below, k⟩
  | false, true => some ⟨below + 1, k⟩
  | false, false => none

/-- The first hit among the grids `k`, `k - 1`, and so on. -/
def firstHit (tie : Tie) (x : Double) : Nat → Int → Decimal
  | 0, k => ⟨0, k⟩
  | grids + 1, k => (nearestOnGrid? tie x k).getD (firstHit tie x grids (k - 1))

/-- **The shortest decimal that reads back as the magnitude of `x`.** The first grid tried is
coarser than `x`; seventeen digits always suffice, so the scan ends within twenty-one grids. -/
def shortest (tie : Tie) (x : Double) : Decimal :=
  if x.isZero then ⟨0, 0⟩
  else
    let binary : Int := x.significand.log2 + x.exponent + 1
    firstHit tie x 21 (binary * 1233 / 4096 + 2)

end Double

end SwiftScribe
