import PeerMessaging.Number.Binary64
import PeerMessaging.Number.Decimal

/-!
# Decimal numerals

A `Numeral` is a decimal number as it is written: a sign, digits, perhaps a fraction and perhaps an
exponent. `Numeral.toBinary64?` reads it as a floating point number in two roundings: as many
leading digits as fit 64 bits are taken as a whole number, which is rounded, and that is multiplied
or divided by a rounded power of ten. Further digits count for the order of magnitude only, so the
last place can differ from that of the nearest number.
-/

namespace PeerMessaging

/-- A decimal number as it is written. -/
structure Numeral where
  negative : Bool
  /-- The digits before the point. -/
  whole : List Nat
  /-- The digits behind the point, if there is one. -/
  fraction : Option (List Nat)
  /-- The power of ten, if one is written. -/
  exponent : Option Int
  deriving DecidableEq, Repr

/-- The largest number of 64 bits. -/
def maxWord64 : Nat := 0xFFFFFFFFFFFFFFFF

/-- Takes digits into a significand while it fits 64 bits; the answer counts the digits left. -/
def takeDigits (significand : Nat) : List Nat → Nat × Nat
  | [] => (significand, 0)
  | d :: ds =>
    let next := 10 * significand + d
    if next ≤ maxWord64 then takeDigits next ds else (significand, ds.length + 1)

/-- All digits are taken exactly if the number they spell fits 64 bits. -/
theorem takeDigits_eq_iff {s n : Nat} {ds : List Nat} (h : s ≤ maxWord64) :
    takeDigits s ds = (n, 0) ↔ Decimal.ofDigits s ds = n ∧ n ≤ maxWord64 := by
  induction ds generalizing s with
  | nil =>
    simp only [takeDigits, Decimal.ofDigits, List.foldl_nil, Prod.mk.injEq, and_true]
    exact ⟨fun e => ⟨e, e ▸ h⟩, fun e => e.1⟩
  | cons d ds ih =>
    have hd : Decimal.ofDigits s (d :: ds) = Decimal.ofDigits (10 * s + d) ds := rfl
    by_cases hn : 10 * s + d ≤ maxWord64
    · rw [hd, ← ih hn]
      simp [takeDigits, hn]
    · have := Decimal.le_ofDigits (10 * s + d) ds
      simp only [takeDigits, if_neg hn, hd, Prod.mk.injEq, Nat.add_eq_zero_iff, Nat.one_ne_zero,
        and_false, false_iff, not_and, Nat.not_le]
      omega

/-- The number that digits spell, if it fits 64 bits. -/
def word64? (ds : List Nat) : Option Nat :=
  match takeDigits 0 ds with
  | (n, 0) => some n
  | _ => none

/-- Digits are read as the number they spell, unless that is too large. -/
theorem word64?_eq_some_iff {n : Nat} {ds : List Nat} :
    word64? ds = some n ↔ Decimal.ofDigits 0 ds = n ∧ n ≤ maxWord64 := by
  rw [← takeDigits_eq_iff (Nat.zero_le _), word64?]
  split <;> simp_all

namespace Binary64

/-- The largest power of ten that is a finite number. -/
def maxPowerOfTen : Nat := 308

/-- The magnitude nearest to a power of ten. -/
def powerOfTen (k : Nat) : Nat := ofNat (Nat.pow 10 k)

/-- A magnitude times a power of ten; `none` if that is too large. A power below the smallest is
divided out in steps, each of which rounds. -/
def scale? (magnitude : Nat) (e : Int) : Option Nat :=
  if 0 ≤ e then
    if e ≤ maxPowerOfTen then
      let product := mul magnitude (powerOfTen e.toNat)
      if product < infinite then some product else none
    else if magnitude = 0 then some 0
    else none
  else if -e ≤ maxPowerOfTen then
    some (div magnitude (powerOfTen (-e).toNat))
  else if magnitude = 0 then
    some 0
  else
    scale? (div magnitude (powerOfTen maxPowerOfTen)) (e + maxPowerOfTen)
termination_by e.natAbs
decreasing_by
  simp only [maxPowerOfTen] at *
  omega

end Binary64

namespace Numeral

/-- The numeral has neither a point nor an exponent. -/
def isWhole (n : Numeral) : Bool := n.fraction.isNone && n.exponent.isNone

/-- The floating point number that a numeral is read as; `none` if it is too large. -/
def toBinary64? (n : Numeral) : Option Binary64 :=
  let (s, skipped) := takeDigits 0 n.whole
  let behind := n.fraction.getD []
  let (s, left) := takeDigits s behind
  let e : Int := skipped - (behind.length - left : Nat) + n.exponent.getD 0
  (Binary64.scale? (Binary64.ofNat s) e).map (Binary64.ofMagnitude n.negative)

end Numeral

end PeerMessaging
