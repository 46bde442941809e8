import PeerMessaging.Number.Binary64
import PeerMessaging.Number.Decimal

/-!
# The shortest decimal that reads back

Between a floating point number and its neighbours lies an interval of numbers that are nearer to it
than to any other. Of the decimals in that interval the shortest is chosen, and of several as short
the nearest (`Binary64.shortest`): the grids of the powers of ten are tried from the coarsest down,
and on each the two points next to the number.
-/

namespace PeerMessaging

/-- A number written as a whole number and a power of ten. -/
structure Scaled where
  significand : Nat
  exponent : Int
  deriving DecidableEq, Repr

namespace Binary64

/-- The numbers that round to a given one, in quarters of a unit. -/
structure Interval where
  low : Nat
  value : Nat
  high : Nat
  /-- The ends round to the number too. -/
  closed : Bool
  deriving DecidableEq, Repr

/-- The numbers that round to a finite number other than zero. Below a power of two the neighbour is
only half as far; the ends go to the even neighbour. -/
def interval (x : Binary64) : Interval where
  low := 4 * x.units - if x.fraction = 0 ∧ 1 < x.exponent then gap else 2 * gap
  value := 4 * x.units
  high := 4 * x.units + 2 * gap
  closed := x.fraction % 2 = 0
where
  /-- The distance to the next number up, in units. -/
  gap : Nat := 1 <<< (x.exponent - 1)

/-- The factors that make quarters of a unit and the points of the grid of 10ᵏ comparable: the point
`c` is at `c * a` where the quarter `n` is at `n * b`. -/
def gridScale (k : Int) : Nat × Nat :=
  if 0 ≤ k then (Nat.pow 10 k.toNat * (4 * one), 1) else (4 * one, Nat.pow 10 (-k).toNat)

/-- A point of the grid of 10ᵏ in an interval: of the two next to the value the nearer, and the even
one if they are equally near. -/
def gridPoint? (i : Interval) (k : Int) : Option Nat :=
  let (a, b) := gridScale k
  let inside (c : Nat) : Bool :=
    if i.closed then i.low * b ≤ c * a && c * a ≤ i.high * b
    else i.low * b < c * a && c * a < i.high * b
  let c := i.value * b / a
  match inside c, inside (c + 1) with
  | true, true =>
    let twice := 2 * (i.value * b)
    let middle := (2 * c + 1) * a
    some (if twice < middle ∨ twice = middle ∧ c % 2 = 0 then c else c + 1)
  | true, false => some c
  | false, true => some (c + 1)
  | false, false => none

/-- Tries the grids from 10ᵏ down, at most `count` of them. -/
def coarsest (i : Interval) (k : Int) : Nat → Scaled
  | 0 => ⟨i.value * (gridScale k).2 / (gridScale k).1, k⟩
  | count + 1 =>
    match gridPoint? i k with
    | some c => ⟨c, k⟩
    | none => coarsest i (k - 1) count

/-- A power of ten above a number of the given quarters of a unit: the binary order of magnitude,
times the logarithm of two. -/
def topExponent (quarters : Nat) : Int := (((quarters.log2 : Int) - 1075) * 30103) / 100000 + 2

/-- The shortest decimal that rounds to a finite number, its sign apart. -/
def shortest (x : Binary64) : Scaled :=
  if x.magnitude = 0 then ⟨0, 0⟩
  else
    let i := x.interval
    coarsest i (topExponent i.value) 24

end Binary64

end PeerMessaging
