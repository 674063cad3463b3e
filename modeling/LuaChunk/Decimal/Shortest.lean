import LuaChunk.Decimal.Binary64

/-!
# The shortest decimal that reads back

Around a positive binary64 number lies the interval of the reals that round to it. Its ends are
halfway to the two neighbours and belong to it when the significand is even, since a tie rounds
to the even neighbour. The shortest decimal is found on the coarsest decimal grid
`{0, 10 ^ k, 2 · 10 ^ k, …}` that has a point in the interval, and it is the point of that grid
nearest to the number, the upper one of two that are equally near. Whether a grid has a point in
the interval is decided on the two grid points next to the number, because the interval holds
everything between any of its points and the number.

All comparisons are exact. Grid points and the ends of the interval are counted in one common
measure, for which both powers of two and powers of ten are turned into natural factors.
-/
namespace LuaChunk

/-- A natural number times a power of ten. -/
structure Decimal where
  /-- The natural number. -/
  digits : Nat
  /-- The exponent of ten. -/
  exponent : Int
  deriving DecidableEq

/-- The number of decimal digits of a natural number; zero has one. -/
def decimalLength (value : Nat) : Nat := (Nat.toDigits 10 value).length

/-- The least exponent of ten whose power is above a positive dyadic number. -/
def Dyadic.decimalCeiling (number : Dyadic) : Int :=
  if number.denominator ≤ number.numerator then decimalLength number.floor
  else 1 - decimalLength ((number.denominator - 1) / number.numerator)

/-- The reals that round to a positive binary64 number, in quarters of its last place. -/
structure RoundingInterval where
  /-- The lower end. -/
  lower : Nat
  /-- The number itself. -/
  centre : Nat
  /-- The upper end. -/
  upper : Nat
  /-- The exponent of two of a quarter of the last place. -/
  exponent : Int
  /-- Whether the ends belong to the interval. -/
  closed : Bool

namespace RoundingInterval

/-- The interval of a positive magnitude. The neighbour below a power of two is half as far
away as the one above, unless the numbers below have the same last place. -/
def ofMagnitude (number : Dyadic) : RoundingInterval where
  lower :=
    if number.significand = Nat.pow 2 52 ∧ -1074 < number.exponent then 4 * number.significand - 1
    else 4 * number.significand - 2
  centre := 4 * number.significand
  upper := 4 * number.significand + 2
  exponent := number.exponent - 2
  closed := number.significand % 2 = 0

/-- A quarter of the last place, in the common measure with the grid of an exponent of ten. -/
def quarter (interval : RoundingInterval) (grid : Int) : Nat :=
  Nat.pow 2 interval.exponent.toNat * Nat.pow 10 (-grid).toNat

/-- The step of the grid of an exponent of ten, in the common measure. -/
def step (interval : RoundingInterval) (grid : Int) : Nat :=
  Nat.pow 10 grid.toNat * Nat.pow 2 (-interval.exponent).toNat

/-- Whether a point of a grid lies in the interval. -/
def holds (interval : RoundingInterval) (grid : Int) (point : Nat) : Bool :=
  let position := point * interval.step grid
  let lower := interval.lower * interval.quarter grid
  let upper := interval.upper * interval.quarter grid
  if interval.closed then lower ≤ position && position ≤ upper
  else lower < position && position < upper

/-- The greatest point of a grid that does not pass the number. -/
def pointBelow (interval : RoundingInterval) (grid : Int) : Nat :=
  interval.centre * interval.quarter grid / interval.step grid

/-- Whether the number is nearer to the grid point below it than to the next one. -/
def nearerBelow (interval : RoundingInterval) (grid : Int) : Bool :=
  2 * (interval.centre * interval.quarter grid) <
    (2 * interval.pointBelow grid + 1) * interval.step grid

/-- The point of a grid in the interval that is nearest to the number, if one lies in it. -/
def nearest? (interval : RoundingInterval) (grid : Int) : Option Nat :=
  let below := interval.pointBelow grid
  let holdsBelow := interval.holds grid below
  let holdsAbove := interval.holds grid (below + 1)
  if holdsBelow && (!holdsAbove || interval.nearerBelow grid) then some below
  else if holdsAbove then some (below + 1)
  else none

/-- Search a number of grids from a given one on, each ten times as fine as the one before. On
the finest one the point below the number is taken as it is. -/
def search (interval : RoundingInterval) : Nat → Int → Decimal
  | 0, grid => ⟨interval.pointBelow grid, grid⟩
  | finer + 1, grid =>
    match interval.nearest? grid with
    | some point => ⟨point, grid⟩
    | none => search interval finer (grid - 1)

end RoundingInterval

/-- The shortest decimal that reads back as a positive magnitude. The search begins on a grid
whose first point is above the number; seventeen digits suffice for every number, so one of the
next seventeen grids has a point in the interval. -/
def Dyadic.shortest (number : Dyadic) : Decimal :=
  (RoundingInterval.ofMagnitude number).search 18 number.decimalCeiling

end LuaChunk
