import Mathlib.Algebra.GroupWithZero.Nat
import PeerMessaging.Number.Numeral

/-!
# How far rounding goes

A rounding moves a number by at most half of its last place: a whole number that is rounded to a
finite one grows by at most one part in 2⁵³ (`Binary64.unitsOf_nearest_le`), and nothing below the
middle between the largest finite number and the next power of two is rounded to infinity
(`Binary64.nearest_lt_infinite`). So the product of a rounded whole number and a rounded power of
ten is finite if the exact product is a little less than that (`Binary64.mul_lt_infinite`), and then
a number is read (`Binary64.isSome_scale?`).
-/

namespace PeerMessaging.Binary64

/-! ## One rounding -/

section
variable {n d w k r : Nat}

/-- The quotient is rounded up by at most a half. -/
theorem two_mul_roundDiv_le (n d : Nat) : 2 * (roundDiv n d * d) ≤ 2 * n + d := by
  have hn : d * (n / d) + n % d = n := Nat.div_add_mod n d
  rw [Nat.mul_comm] at hn
  simp only [roundDiv]
  split
  · omega
  · rw [Nat.add_mul, Nat.one_mul]
    omega

theorem div_le_roundDiv (n d : Nat) : n / d ≤ roundDiv n d := by
  simp only [roundDiv]
  split <;> omega

theorem roundDiv_le_succ (n d : Nat) : roundDiv n d ≤ n / d + 1 := by
  simp only [roundDiv]
  split <;> omega

/-- The places that a whole number has beyond the 53 bits that are kept. -/
def places (whole : Nat) : Nat := if whole < 0x20000000000000 then 0 else whole.log2 - 52

theorem nearest_eq (n d : Nat) :
    nearest n d =
      min (places (n / d) * 0x10000000000000 + roundDiv n (d * 2 ^ places (n / d))) infinite := by
  simp only [nearest, places, Nat.shiftLeft_eq]

/-- Without its last places a number has no more than 53 bits. -/
theorem lt_places (w : Nat) : w < 0x20000000000000 * 2 ^ places w := by
  unfold places
  split
  · omega
  · rename_i h
    have hlog : 53 ≤ w.log2 := (Nat.le_log2 (by omega)).2 (by omega)
    have hlt : w < 2 ^ (w.log2 + 1) := Nat.lt_log2_self
    rw [show w.log2 + 1 = 53 + (w.log2 - 52) by omega, Nat.pow_add] at hlt
    exact hlt

/-- Places are dropped only where 53 bits are left. -/
theorem places_le (h : places w ≠ 0) : 0x10000000000000 * 2 ^ places w ≤ w := by
  unfold places at h ⊢
  split
  · rename_i hw
    exact absurd (if_pos hw) h
  · rename_i hw
    have hlog : 53 ≤ w.log2 := (Nat.le_log2 (by omega)).2 (by omega)
    have hle : 2 ^ w.log2 ≤ w := Nat.log2_self_le (by omega)
    rw [show w.log2 = 52 + (w.log2 - 52) by omega, Nat.pow_add] at hle
    exact hle

/-- A number below 2¹⁰²⁴, which is 2²⁰⁹⁸ units, has no more places than the largest finite one. -/
theorem places_le_of_lt (h : w < 2 ^ 2098) : places w ≤ 2045 := by
  by_cases h0 : places w = 0
  · omega
  have hpow : 2 ^ (52 + places w) < 2 ^ 2098 := by
    rw [Nat.pow_add]
    exact Nat.lt_of_le_of_lt (places_le h0) h
  have := (Nat.pow_lt_pow_iff_right (by omega)).1 hpow
  omega

/-- What is left when the last places are dropped is rounded to 53 bits, or to the next power of
two. -/
theorem roundDiv_places_le (n d : Nat) :
    roundDiv n (d * 2 ^ places (n / d)) ≤ 0x20000000000000 := by
  have hlt := lt_places (n / d)
  have hsucc := roundDiv_le_succ n (d * 2 ^ places (n / d))
  have hdiv : n / (d * 2 ^ places (n / d)) < 0x20000000000000 := by
    rw [← Nat.div_div_eq_div_mul]
    exact Nat.div_lt_of_lt_mul (by rw [Nat.mul_comm]; exact hlt)
  omega

/-- A number with no more than 53 bits and places behind them is held as both. -/
theorem unitsOf_add (hk : k = 0 ∨ 0x10000000000000 ≤ r) (hr : r ≤ 0x20000000000000) :
    unitsOf (k * 0x10000000000000 + r) = r * 2 ^ k := by
  simp only [unitsOf, Nat.shiftLeft_eq]
  by_cases hsmall : r < 0x10000000000000
  · obtain rfl : k = 0 := by omega
    rw [if_pos (by omega)]
    omega
  by_cases htop : r = 0x20000000000000
  · subst htop
    rw [if_neg (by omega),
      show (k * 0x10000000000000 + 0x20000000000000) / 0x10000000000000 - 1 = k + 1 by omega,
      show (k * 0x10000000000000 + 0x20000000000000) % 0x10000000000000 = 0 by omega, Nat.pow_succ]
    omega
  · rw [if_neg (by omega),
      show (k * 0x10000000000000 + r) / 0x10000000000000 - 1 = k by omega,
      show 0x10000000000000 + (k * 0x10000000000000 + r) % 0x10000000000000 = r by omega]

/-! ## Whole numbers -/

/-- Below 2¹⁰²⁴ a whole number is rounded to a magnitude of its own, which may be infinity. -/
theorem unitsOf_nearest (hn : n < 2 ^ 2098) :
    unitsOf (nearest n 1) = roundDiv n (2 ^ places n) * 2 ^ places n := by
  have hle := roundDiv_places_le n 1
  have hplaces := places_le_of_lt hn
  rw [Nat.div_one, Nat.one_mul] at hle
  rw [nearest_eq, Nat.div_one, Nat.one_mul, Nat.min_eq_left (by unfold infinite; omega)]
  refine unitsOf_add ?_ hle
  by_cases h : places n = 0
  · exact .inl h
  · have hfull : 0x10000000000000 ≤ n / 2 ^ places n :=
      (Nat.le_div_iff_mul_le (Nat.two_pow_pos _)).2 (places_le h)
    exact .inr (Nat.le_trans hfull (div_le_roundDiv _ _))

/-- A whole number grows by at most one part in 2⁵³ when it is rounded. -/
theorem unitsOf_nearest_le (hn : n < 2 ^ 2098) :
    unitsOf (nearest n 1) * 2 ^ 53 ≤ n * (2 ^ 53 + 1) := by
  have hhalf := two_mul_roundDiv_le n (2 ^ places n)
  rw [unitsOf_nearest hn]
  by_cases h : places n = 0
  · rw [h] at hhalf ⊢
    omega
  · have := places_le h
    omega

end

/-! ## What stays finite -/

section
variable {n d s e : Nat}

/-- Half of the last place of the largest finite number, in units. -/
def halfPlace : Nat := 2 ^ 2044

/-- The middle between the largest finite number and the next power of two, in units. -/
def overflow : Nat := (2 ^ 54 - 1) * halfPlace

/-- So far below the middle that two roundings do not reach it, in units. -/
def nearOverflow : Nat := (2 ^ 54 - 5) * halfPlace

/-- How the bounds lie among the powers of two and of ten. -/
theorem order_of_bounds :
    0 < one ∧ 4 * one = 2 ^ 1076 ∧ halfPlace.log2 = 2044 ∧ 2 ^ 2045 = 2 * halfPlace ∧
      (2 ^ 56 * halfPlace).log2 = 2100 ∧ overflow < 2 ^ 2098 ∧
      10 ^ maxPowerOfTen * one < 2 ^ 2098 ∧ nearOverflow < 10 ^ (maxPowerOfTen + 1) * one := by
  decide +kernel

theorem one_units_pos : 0 < one := order_of_bounds.1

theorem four_mul_one_pos : 0 < 4 * one := Nat.mul_pos (by decide) one_units_pos

theorem four_mul_one : 4 * one = 2 ^ 1076 := order_of_bounds.2.1

theorem halfPlace_pos : 0 < halfPlace := by
  refine Nat.pos_of_ne_zero fun h => ?_
  have hlog := order_of_bounds.2.2.1
  rw [h] at hlog
  cases hlog

theorem two_pow_le_halfPlace {k : Nat} (h : k ≤ 2044) : 2 ^ k ≤ halfPlace :=
  (Nat.le_log2 (Nat.ne_of_gt halfPlace_pos)).1 (order_of_bounds.2.2.1 ▸ h)

theorem two_mul_halfPlace : 2 ^ 2045 = 2 * halfPlace := order_of_bounds.2.2.2.1

theorem log2_two_pow_mul_halfPlace : (2 ^ 56 * halfPlace).log2 = 2100 :=
  order_of_bounds.2.2.2.2.1

theorem overflow_lt : overflow < 2 ^ 2098 := order_of_bounds.2.2.2.2.2.1

theorem nearOverflow_lt : nearOverflow < 2 ^ 2098 :=
  Nat.lt_of_le_of_lt (Nat.mul_le_mul_right halfPlace (by decide)) overflow_lt

/-- What is below the middle is rounded to a finite number. -/
theorem nearest_lt_infinite (h : n < d * overflow) : nearest n d < infinite := by
  have hd : 0 < d := Nat.pos_of_lt_mul_right h
  have hwhole : n / d < 2 ^ 2098 := Nat.lt_trans (Nat.div_lt_of_lt_mul h) overflow_lt
  have hle := roundDiv_places_le n d
  have hhalf := two_mul_roundDiv_le n (d * 2 ^ places (n / d))
  have hplaces := places_le_of_lt hwhole
  rw [nearest_eq]
  refine Nat.lt_of_le_of_lt (Nat.min_le_left _ _) ?_
  by_cases htop : places (n / d) = 2045
  · -- In the last binade the rounding must not reach the next power of two.
    have hsmall : roundDiv n (d * 2 ^ places (n / d)) < 0x20000000000000 := by
      rw [htop, two_mul_halfPlace, Nat.mul_left_comm d] at hhalf ⊢
      rw [overflow, Nat.mul_left_comm] at h
      refine Nat.lt_of_mul_lt_mul_right (a := 2 * (d * halfPlace)) ?_
      omega
    unfold infinite
    omega
  · unfold infinite
    omega

/-- Two factors that grow in the ratio of `v` to `u` have a product below a bound if the exact
product is below the bound by more than that ratio twice. -/
theorem mul_lt_of_growth {a b x y o t u v c m : Nat} (ha : a * u ≤ x * o * v)
    (hb : b * u ≤ y * o * v) (h : x * y * o ≤ c * t) (hratio : c * (v * v) < m * (u * u))
    (hpos : 0 < o * t) : a * b < o * (m * t) := by
  refine Nat.lt_of_mul_lt_mul_right (a := u * u) ?_
  calc a * b * (u * u) = a * u * (b * u) := by ac_rfl
    _ ≤ x * o * v * (y * o * v) := Nat.mul_le_mul ha hb
    _ = x * y * o * (o * (v * v)) := by ac_rfl
    _ ≤ c * t * (o * (v * v)) := Nat.mul_le_mul_right _ h
    _ = o * t * (c * (v * v)) := by ac_rfl
    _ < o * t * (m * (u * u)) := Nat.mul_lt_mul_of_pos_left hratio hpos
    _ = o * (m * t) * (u * u) := by ac_rfl

/-- The powers of ten that are read are below 2¹⁰²⁴. -/
theorem ten_pow_mul_one_lt (he : e ≤ maxPowerOfTen) : 10 ^ e * one < 2 ^ 2098 := by
  have hlargest : 10 ^ maxPowerOfTen * one < 2 ^ 2098 := order_of_bounds.2.2.2.2.2.2.1
  refine Nat.lt_of_le_of_lt (Nat.mul_le_mul_right one ?_) hlargest
  exact Nat.pow_le_pow_right (by omega) he

/-- The product of a rounded whole number and a rounded power of ten is finite if the exact product
is below the middle by more than the two roundings can make it grow. -/
theorem mul_lt_infinite (he : e ≤ maxPowerOfTen) (h : s * 10 ^ e * one ≤ nearOverflow) :
    mul (ofNat s) (powerOfTen e) < infinite := by
  have hs : s * one < 2 ^ 2098 := by
    refine Nat.lt_of_le_of_lt (Nat.mul_le_mul_right one ?_) (Nat.lt_of_le_of_lt h nearOverflow_lt)
    exact Nat.le_mul_of_pos_right s (Nat.pow_pos (by omega))
  have hfirst : unitsOf (ofNat s) * 2 ^ 53 ≤ s * one * (2 ^ 53 + 1) := unitsOf_nearest_le hs
  have hsecond : unitsOf (powerOfTen e) * 2 ^ 53 ≤ 10 ^ e * one * (2 ^ 53 + 1) :=
    unitsOf_nearest_le (ten_pow_mul_one_lt he)
  have hratio : (2 ^ 54 - 5) * ((2 ^ 53 + 1) * (2 ^ 53 + 1)) <
      (2 ^ 54 - 1) * (2 ^ 53 * 2 ^ 53) := by decide
  have hpos : 0 < one * halfPlace := Nat.mul_pos one_units_pos halfPlace_pos
  have hproduct := mul_lt_of_growth hfirst hsecond h hratio hpos
  rw [← overflow] at hproduct
  exact nearest_lt_infinite hproduct

/-- A larger power of ten is beyond the middle by itself. -/
theorem le_maxPowerOfTen (hs : 0 < s) (h : s * 10 ^ e * one ≤ nearOverflow) :
    e ≤ maxPowerOfTen := by
  refine Nat.not_lt.1 fun he => ?_
  have hlarge : nearOverflow < 10 ^ (maxPowerOfTen + 1) * one :=
    order_of_bounds.2.2.2.2.2.2.2
  have hpower : 10 ^ (maxPowerOfTen + 1) ≤ 10 ^ e := Nat.pow_le_pow_right (by omega) he
  have hproduct : 10 ^ (maxPowerOfTen + 1) ≤ s * 10 ^ e :=
    Nat.le_trans hpower (Nat.le_mul_of_pos_left _ hs)
  have := Nat.mul_le_mul_right one hproduct
  omega

end

/-! ## Powers of ten -/

/-- A number is read that is divided by a power of ten. -/
theorem isSome_scale?_of_neg {magnitude : Nat} {e : Int} (he : e < 0) :
    (scale? magnitude e).isSome = true := by
  fun_induction scale? magnitude e with
  | case7 magnitude e _ _ _ ih =>
    refine ih ?_
    unfold maxPowerOfTen at *
    omega
  | case5 | case6 => rfl
  | _ => omega

/-- A whole number times a power of ten is read if the exact product is below the middle by more
than the roundings can make it grow. -/
theorem isSome_scale? {s : Nat} {e : Int}
    (h : 0 ≤ e → s * 10 ^ e.toNat * one ≤ nearOverflow) :
    (scale? (ofNat s) e).isSome = true := by
  by_cases he : e < 0
  · exact isSome_scale?_of_neg he
  have hbound := h (by omega)
  rw [scale?, if_pos (by omega)]
  by_cases hmax : e ≤ maxPowerOfTen
  · have hproduct := mul_lt_infinite (by omega) hbound
    simp only [if_pos hmax, if_pos hproduct, Option.isSome_some]
  · have hs : s = 0 := by
      refine Nat.eq_zero_of_not_pos fun hs => hmax ?_
      have := le_maxPowerOfTen hs hbound
      omega
    have hzero : ofNat s = 0 := by
      rw [hs, ofNat, Nat.zero_mul]
      rfl
    rw [if_neg hmax, if_pos hzero, Option.isSome_some]

end PeerMessaging.Binary64
