/-!
# Binary floating point of 64 bits

A `Binary64` is a number in the IEEE 754 double format, held as its bits. Every finite magnitude is
a whole number of units of 2⁻¹⁰⁷⁴ (`Binary64.units`), so arithmetic on magnitudes is exact
arithmetic on natural numbers followed by one rounding (`Binary64.nearest`), to the nearest number
and to the even one of two equally near.
-/

namespace PeerMessaging

/-- The bits of a number in the IEEE 754 double format. -/
structure Binary64 where
  bits : UInt64
  deriving DecidableEq, Repr

namespace Binary64

/-- The number has its sign bit set. -/
def isNegative (x : Binary64) : Bool := 0x8000000000000000 ≤ x.bits.toNat

/-- The bits below the sign. They order magnitudes as numbers do. -/
def magnitude (x : Binary64) : Nat := x.bits.toNat % 0x8000000000000000

/-- The biased exponent. -/
def exponent (x : Binary64) : Nat := x.magnitude / 0x10000000000000

/-- The bits behind the binary point. -/
def fraction (x : Binary64) : Nat := x.magnitude % 0x10000000000000

/-- The magnitude of infinity. -/
def infinite : Nat := 0x7FF0000000000000

/-- The number is neither infinite nor undefined. -/
def isFinite (x : Binary64) : Bool := x.magnitude < infinite

/-- The number with a sign and a magnitude. -/
def ofMagnitude (negative : Bool) (magnitude : Nat) : Binary64 :=
  ⟨.ofNat (magnitude + if negative then 0x8000000000000000 else 0)⟩

/-- The finite number with a magnitude, counted in units of 2⁻¹⁰⁷⁴. -/
def unitsOf (magnitude : Nat) : Nat :=
  let e := magnitude / 0x10000000000000
  let f := magnitude % 0x10000000000000
  if e = 0 then f else (0x10000000000000 + f) <<< (e - 1)

/-- A finite number without its sign, counted in units of 2⁻¹⁰⁷⁴. -/
def units (x : Binary64) : Nat := unitsOf x.magnitude

/-- The quotient of two natural numbers, rounded to the nearest and, half way, to the even one. -/
def roundDiv (n d : Nat) : Nat :=
  let q := n / d
  let r := n % d
  if 2 * r < d ∨ 2 * r = d ∧ q % 2 = 0 then q else q + 1

/-- The magnitude nearest to `n / d` units: with all its bits if it is small, otherwise with 53 of
them. What is too large for the format is infinite. -/
def nearest (n d : Nat) : Nat :=
  let whole := n / d
  let shift := if whole < 0x20000000000000 then 0 else whole.log2 - 52
  min (shift * 0x10000000000000 + roundDiv n (d <<< shift)) infinite

/-- The number of units in one. -/
def one : Nat := 1 <<< 1074

/-- The magnitude nearest to a natural number. -/
def ofNat (n : Nat) : Nat := nearest (n * one) 1

/-- The magnitude nearest to the product of two finite ones. -/
def mul (a b : Nat) : Nat := nearest (unitsOf a * unitsOf b) one

/-- The magnitude nearest to the quotient of two finite ones. -/
def div (a b : Nat) : Nat := nearest (unitsOf a * one) (unitsOf b)

end Binary64

end PeerMessaging
