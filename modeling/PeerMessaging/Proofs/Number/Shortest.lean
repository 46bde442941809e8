import PeerMessaging.Number.Shortest
import PeerMessaging.Proofs.Number.Rounding

/-!
# The shortest decimal is read

The decimal chosen for a finite number lies in the interval of the numbers that round to it, or is
the point of the last grid below it: it is not above the interval (`Binary64.coarsest_le`), it is
not zero unless the number is (`Binary64.significand_shortest_pos`), and its power of ten is not far
below the number (`Binary64.exponent_shortest_ge`). So what is read of it, which may be less than
the decimal if its digits are too many, is finite again (`Binary64.isSome_scale?_shortest`).
-/

namespace PeerMessaging.Binary64

/-! ## Grids -/

section
variable {i : Interval} {k : Int} {c n s left count : Nat}

/-- Inside an interval is not outside its ends, whether these belong to it or not. -/
theorem le_of_inside {low point high : Nat} {closed : Bool}
    (h : (if closed then decide (low ≤ point) && decide (point ≤ high)
      else decide (low < point) && decide (point < high)) = true) :
    low ≤ point ∧ point ≤ high := by
  split at h <;> simp only [Bool.and_eq_true, decide_eq_true_eq] at h <;> omega

/-- A chosen point lies in the interval. -/
theorem le_of_gridPoint? (h : gridPoint? i k = some c) :
    i.low * (gridScale k).2 ≤ c * (gridScale k).1 ∧
      c * (gridScale k).1 ≤ i.high * (gridScale k).2 := by
  simp only [gridPoint?] at h
  split at h
  · split at h <;> cases h <;> exact le_of_inside ‹_›
  · cases h
    exact le_of_inside ‹_›
  · cases h
    exact le_of_inside ‹_›
  · cases h

/-- The factors of a grid are not zero. -/
theorem gridScale_pos (k : Int) : 0 < (gridScale k).1 ∧ 0 < (gridScale k).2 := by
  unfold gridScale
  split
  · exact ⟨Nat.mul_pos (Nat.pow_pos (by omega)) four_mul_one_pos, Nat.one_pos⟩
  · exact ⟨four_mul_one_pos, Nat.pow_pos (by omega)⟩

/-- What is chosen is not above the interval. -/
theorem coarsest_le (hi : i.value ≤ i.high) :
    (coarsest i k count).significand * (gridScale (coarsest i k count).exponent).1 ≤
      i.high * (gridScale (coarsest i k count).exponent).2 := by
  induction count generalizing k with
  | zero =>
    exact Nat.le_trans (Nat.div_mul_le_self _ _) (Nat.mul_le_mul_right _ hi)
  | succ count ih =>
    rw [coarsest]
    cases h : gridPoint? i k with
    | some c => exact (le_of_gridPoint? h).2
    | none => exact ih

/-- The grids are tried down to the last. -/
theorem le_exponent_coarsest (i : Interval) (k : Int) (count : Nat) :
    k - count ≤ (coarsest i k count).exponent := by
  induction count generalizing k with
  | zero => exact Int.sub_le_self _ (by omega)
  | succ count ih =>
    rw [coarsest]
    cases gridPoint? i k with
    | some c => exact Int.sub_le_self _ (by omega)
    | none =>
      have := ih (k - 1)
      simp only
      omega

/-- What is chosen is not zero, if the last grid is fine enough. -/
theorem significand_coarsest_pos (hlow : 0 < i.low)
    (hlast : (gridScale (k - count)).1 ≤ i.value * (gridScale (k - count)).2) :
    0 < (coarsest i k count).significand := by
  induction count generalizing k with
  | zero =>
    rw [Int.natCast_zero, Int.sub_zero] at hlast
    exact Nat.div_pos hlast (gridScale_pos k).1
  | succ count ih =>
    rw [coarsest]
    cases h : gridPoint? i k with
    | some c =>
      have hpos := Nat.mul_pos hlow (gridScale_pos k).2
      exact Nat.pos_of_mul_pos_right (Nat.lt_of_lt_of_le hpos (le_of_gridPoint? h).1)
    | none =>
      refine ih ?_
      rwa [Int.sub_sub, Int.add_comm, ← Int.natCast_succ]

/-- A decimal not above a number of quarters is not above it with fewer digits, either. -/
theorem mul_pow_le_of_grid (h : c * (gridScale k).1 ≤ n * (gridScale k).2)
    (hs : s * 10 ^ left ≤ c) (he : 0 ≤ k + left) : s * 10 ^ (k + left).toNat * (4 * one) ≤ n := by
  unfold gridScale at h
  split at h
  · obtain ⟨j, rfl⟩ : ∃ j : Nat, k = j := ⟨k.toNat, by omega⟩
    have hexp : (j + left : Int).toNat = left + j := by omega
    rw [Nat.mul_one, Int.toNat_natCast] at h
    rw [hexp, Nat.pow_add]
    calc s * (10 ^ left * 10 ^ j) * (4 * one) = s * 10 ^ left * (10 ^ j * (4 * one)) := by ac_rfl
      _ ≤ c * (10 ^ j * (4 * one)) := Nat.mul_le_mul_right _ hs
      _ ≤ n := h
  · obtain ⟨j, rfl⟩ : ∃ j : Nat, k = -j := ⟨(-k).toNat, by omega⟩
    obtain ⟨e, rfl⟩ : ∃ e, left = e + j := ⟨left - j, by omega⟩
    have hexp : (-j + (e + j : Nat) : Int).toNat = e := by omega
    rw [Int.neg_neg, Int.toNat_natCast] at h
    rw [Nat.pow_add, ← Nat.mul_assoc] at hs
    rw [hexp]
    refine Nat.le_of_mul_le_mul_right (c := 10 ^ j) ?_ (Nat.pow_pos (by omega))
    calc s * 10 ^ e * (4 * one) * 10 ^ j = s * 10 ^ e * 10 ^ j * (4 * one) := by ac_rfl
      _ ≤ c * (4 * one) := Nat.mul_le_mul_right _ hs
      _ ≤ n * 10 ^ j := h

end

/-! ## Intervals -/

section
variable {x : Binary64}

theorem gap_eq (x : Binary64) : interval.gap x = 2 ^ (x.exponent - 1) := by
  rw [interval.gap, Nat.shiftLeft_eq, Nat.one_mul]

theorem gap_pos (x : Binary64) : 0 < interval.gap x := by
  rw [gap_eq]
  exact Nat.two_pow_pos _

/-- The bits of a number, with the leading one that is not held. -/
def mantissa (x : Binary64) : Nat := (if x.exponent = 0 then 0 else 0x10000000000000) + x.fraction

/-- A number is a whole multiple of the distance to the next one. -/
theorem units_eq (x : Binary64) : x.units = x.mantissa * interval.gap x := by
  rw [units, unitsOf, gap_eq, mantissa]
  simp only [← exponent.eq_1, ← fraction.eq_1, Nat.shiftLeft_eq]
  by_cases h : x.exponent = 0
  · simp only [h, if_true, Nat.zero_add, Nat.zero_sub, Nat.pow_zero, Nat.mul_one]
  · simp only [h, if_false]

theorem fraction_lt (x : Binary64) : x.fraction < 0x10000000000000 :=
  Nat.mod_lt _ (by omega)

theorem magnitude_eq (x : Binary64) :
    x.magnitude = x.exponent * 0x10000000000000 + x.fraction := by
  rw [exponent, fraction]
  omega

/-- The interval of a number other than zero lies above zero. -/
theorem low_pos (hx : x.magnitude ≠ 0) : 0 < x.interval.low := by
  have hgap := gap_pos x
  have hm := magnitude_eq x
  have hunits : interval.gap x ≤ x.units := by
    rw [units_eq]
    refine Nat.le_mul_of_pos_left _ ?_
    rw [mantissa]
    split <;> omega
  rw [interval]
  simp only
  split <;> omega

theorem value_le_high (x : Binary64) : x.interval.value ≤ x.interval.high := Nat.le_add_right _ _

/-- How far up the interval of a number goes that is some magnitudes below infinity. -/
theorem high_le {t : Nat} (hx : x.magnitude + t ≤ infinite) (ht : 0 < t) (ht' : t ≤ 3) :
    x.interval.high ≤ (2 ^ 56 + 4 - 8 * t) * halfPlace := by
  have hm := magnitude_eq x
  have hf := fraction_lt x
  have hhigh : x.interval.high = (4 * x.mantissa + 2) * interval.gap x := by
    rw [Nat.add_mul, Nat.mul_assoc, ← units_eq]
    rfl
  unfold infinite at hx
  rw [hhigh]
  -- In the last binade the mantissa is bounded by the distance from infinity, below it the distance
  -- to the next number is at most half as long.
  by_cases htop : x.exponent = 2046
  · have hexp : x.exponent - 1 = 2045 := by omega
    rw [gap_eq, hexp, two_mul_halfPlace, ← Nat.mul_assoc]
    refine Nat.mul_le_mul_right _ ?_
    rw [mantissa, if_neg (by omega)]
    omega
  · have hhalf : interval.gap x ≤ halfPlace := by
      rw [gap_eq]
      exact two_pow_le_halfPlace (by omega)
    refine Nat.mul_le_mul ?_ hhalf
    rw [mantissa]
    split <;> omega

end

/-! ## The last grid -/

/-- Three decimal places are less than ten binary ones. -/
theorem ten_pow_le (k : Nat) : 10 ^ k ≤ 2 ^ (10 * ((k + 2) / 3)) :=
  calc 10 ^ k ≤ 10 ^ (3 * ((k + 2) / 3)) := Nat.pow_le_pow_right (by omega) (by omega)
    _ = (10 ^ 3) ^ ((k + 2) / 3) := Nat.pow_mul ..
    _ ≤ (2 ^ 10) ^ ((k + 2) / 3) := Nat.pow_le_pow_left (by decide) _
    _ = 2 ^ (10 * ((k + 2) / 3)) := (Nat.pow_mul ..).symm

/-- Thirteen binary places are less than four decimal ones. -/
theorem two_pow_le (k : Nat) : 2 ^ (13 * (k / 4)) ≤ 10 ^ k :=
  calc 2 ^ (13 * (k / 4)) = (2 ^ 13) ^ (k / 4) := Nat.pow_mul ..
    _ ≤ (10 ^ 4) ^ (k / 4) := Nat.pow_le_pow_left (by decide) _
    _ = 10 ^ (4 * (k / 4)) := (Nat.pow_mul ..).symm
    _ ≤ 10 ^ k := Nat.pow_le_pow_right (by omega) (by omega)

/-- The last grid is finer than the number: 24 powers of ten below the first one its step is no
longer than the number, whatever the order of magnitude is. -/
theorem gridScale_last_le {v : Nat} (hv : v ≠ 0) (hv' : v.log2 < 2101) :
    (gridScale (topExponent v - (24 : Nat))).1 ≤
      v * (gridScale (topExponent v - (24 : Nat))).2 := by
  have hlog : 2 ^ v.log2 ≤ v := Nat.log2_self_le hv
  unfold topExponent gridScale
  rw [four_mul_one]
  generalize v.log2 = n at hlog hv'
  generalize hp : 1076 = p
  -- What is left to show is linear in the two logarithms, and 24 powers of ten are room enough for
  -- the fractions of ten that are used for them.
  split
  · rw [Nat.mul_one]
    refine Nat.le_trans ?_ hlog
    refine Nat.le_trans (Nat.mul_le_mul_right _ (ten_pow_le _)) ?_
    rw [← Nat.pow_add]
    exact Nat.pow_le_pow_right (by omega) (by omega)
  · refine Nat.le_trans ?_ (Nat.mul_le_mul hlog (two_pow_le _))
    rw [← Nat.pow_add]
    exact Nat.pow_le_pow_right (by omega) (by omega)

/-! ## The chosen decimal -/

section
variable {x y : Binary64}

/-- The interval of a number ends far below 2²¹⁰¹ quarters of a unit. -/
theorem log2_lt_of_le_high {n : Nat} (hx : x.isFinite = true) (hn : n ≤ x.interval.high) :
    n.log2 < 2101 := by
  by_cases h0 : n = 0
  · rw [h0]
    decide
  have hlt : x.magnitude < infinite := of_decide_eq_true hx
  have hhigh : x.interval.high ≤ 2 ^ 56 * halfPlace :=
    Nat.le_trans (high_le hlt Nat.one_pos (by omega)) (Nat.mul_le_mul_right _ (by omega))
  have hpow : 2 ^ n.log2 ≤ 2 ^ 56 * halfPlace :=
    Nat.le_trans (Nat.log2_self_le h0) (Nat.le_trans hn hhigh)
  have hne : 2 ^ 56 * halfPlace ≠ 0 := Nat.ne_of_gt (Nat.mul_pos (by decide) halfPlace_pos)
  have hlog := (Nat.le_log2 hne).2 hpow
  rw [log2_two_pow_mul_halfPlace] at hlog
  omega

/-- Zero is the only number for which zero is chosen. -/
theorem significand_shortest_pos (hx : x.isFinite = true) (h0 : x.magnitude ≠ 0) :
    0 < x.shortest.significand := by
  have hvalue : x.interval.value ≠ 0 := by
    have hlow : x.interval.low ≤ x.interval.value := Nat.sub_le _ _
    have := low_pos h0
    omega
  rw [shortest, if_neg h0]
  exact significand_coarsest_pos (low_pos h0)
    (gridScale_last_le hvalue (log2_lt_of_le_high hx (value_le_high x)))

/-- The power of ten of what is chosen is not far below that of the smallest number. -/
theorem exponent_shortest_ge (x : Binary64) : -400 ≤ x.shortest.exponent := by
  rw [shortest]
  split
  · decide
  · have hlast := le_exponent_coarsest x.interval (topExponent x.interval.value) 24
    have htop : -322 ≤ topExponent x.interval.value := by
      unfold topExponent
      omega
    simp only
    omega

/-- What is chosen for a number other than zero, and what there is of it with fewer digits, is not
above the interval of the number. -/
theorem mul_pow_shortest_le {s left : Nat} (h0 : x.magnitude ≠ 0)
    (hs : s * 10 ^ left ≤ x.shortest.significand) (he : 0 ≤ x.shortest.exponent + left) :
    s * 10 ^ (x.shortest.exponent + left).toNat * (4 * one) ≤ x.interval.high := by
  refine mul_pow_le_of_grid ?_ hs he
  rw [shortest, if_neg h0]
  exact coarsest_le (value_le_high x)

/-- What is chosen depends on the magnitude alone. -/
theorem shortest_congr (h : x.magnitude = y.magnitude) : x.shortest = y.shortest := by
  have hunits : x.units = y.units := congrArg unitsOf h
  have hfraction : x.fraction = y.fraction := congrArg (· % 0x10000000000000) h
  have hexponent : x.exponent = y.exponent := congrArg (· / 0x10000000000000) h
  have hinterval : x.interval = y.interval := by
    simp only [interval, interval.gap, hunits, hexponent, hfraction]
  rw [shortest, shortest, h, hinterval]

/-- What is chosen for the largest number and the one below it, and that it is a finite product. -/
theorem shortest_of_top :
    shortest ⟨0x7FEFFFFFFFFFFFFF⟩ = ⟨17976931348623157, 292⟩ ∧
      mul (ofNat 17976931348623157) (powerOfTen 292) < infinite ∧
      shortest ⟨0x7FEFFFFFFFFFFFFE⟩ = ⟨17976931348623155, 292⟩ ∧
      mul (ofNat 17976931348623155) (powerOfTen 292) < infinite := by
  decide +kernel

/-- The largest number and the one below it: the ends of their intervals are too near to the middle
for a general bound, but what is chosen for them is read. -/
theorem isSome_scale?_of_top (hx : x.isFinite = true) (htop : infinite < x.magnitude + 3) :
    x.shortest.significand ≤ maxWord64 ∧
      (scale? (ofNat x.shortest.significand) x.shortest.exponent).isSome = true := by
  have hread : ∀ c, mul (ofNat c) (powerOfTen 292) < infinite →
      (scale? (ofNat c) 292).isSome = true := by
    intro c hc
    rw [scale?, if_pos (by decide), if_pos (by decide)]
    exact (if_pos hc).symm ▸ rfl
  have hlt : x.magnitude < infinite := of_decide_eq_true hx
  obtain ⟨hlargest, hproduct, hbelow, hproduct'⟩ := shortest_of_top
  obtain hm | hm : x.magnitude = infinite - 1 ∨ x.magnitude = infinite - 2 := by omega
  · rw [(shortest_congr hm).trans hlargest]
    exact ⟨by decide, hread _ hproduct⟩
  · rw [(shortest_congr hm).trans hbelow]
    exact ⟨by decide, hread _ hproduct'⟩

/-- What is chosen for a finite number is read as a finite number, also if not all of its digits
count. -/
theorem isSome_scale?_shortest {s left : Nat} (hx : x.isFinite = true)
    (hs : s * 10 ^ left ≤ x.shortest.significand)
    (hall : x.shortest.significand ≤ maxWord64 → s = x.shortest.significand ∧ left = 0) :
    (scale? (ofNat s) (x.shortest.exponent + left)).isSome = true := by
  by_cases h0 : x.magnitude = 0
  · have hshortest : x.shortest = ⟨0, 0⟩ := by rw [shortest, if_pos h0]
    rw [hshortest] at hall ⊢
    obtain ⟨rfl, rfl⟩ := hall (Nat.zero_le _)
    exact isSome_scale? fun _ => by simp
  by_cases htop : infinite < x.magnitude + 3
  · obtain ⟨hfits, hsome⟩ := isSome_scale?_of_top hx htop
    obtain ⟨rfl, rfl⟩ := hall hfits
    simpa using hsome
  · refine isSome_scale? fun he => ?_
    have hle := mul_pow_shortest_le h0 hs he
    have hhigh := high_le (Nat.not_lt.1 htop) (by omega) (Nat.le_refl 3)
    rw [Nat.mul_left_comm] at hle
    unfold nearOverflow
    omega

end

end PeerMessaging.Binary64
