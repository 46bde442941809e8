import Mathlib.Algebra.GroupWithZero.Nat
import PeerMessaging.Number.Numeral

/-!
# What is taken of a numeral

The digits of a numeral spell a whole number (`Numeral.significand`), which stands for that many
times a power of ten (`Numeral.power`). If they spell more than fits 64 bits only the digits in
front are taken, and those left count for the power: so the number that is rounded is never more
than the numeral stands for (`Numeral.exists_toBinary64?_eq`).
-/

namespace PeerMessaging

/-! ## Digits -/

namespace Decimal
variable {n : Nat} {ds : List Nat}

theorem ofDigits_append (n : Nat) (ds ds' : List Nat) :
    ofDigits n (ds ++ ds') = ofDigits (ofDigits n ds) ds' := List.foldl_append

/-- Each digit behind a number makes it at least ten times as large. -/
theorem mul_pow_le_ofDigits (n : Nat) (ds : List Nat) : n * 10 ^ ds.length ≤ ofDigits n ds := by
  induction ds generalizing n with
  | nil => exact Nat.le_of_eq (Nat.mul_one n)
  | cons d ds ih =>
    refine Nat.le_trans ?_ (ih (10 * n + d))
    rw [List.length_cons, Nat.pow_succ, Nat.mul_left_comm, Nat.mul_comm]
    exact Nat.mul_le_mul_right _ (by omega)

/-- Digits spell less than the power of ten with as many zeros. -/
theorem ofDigits_lt (n : Nat) (hds : ∀ d ∈ ds, d < 10) :
    ofDigits n ds < (n + 1) * 10 ^ ds.length := by
  induction ds generalizing n with
  | nil => exact Nat.lt_of_lt_of_eq (Nat.lt_succ_self n) (Nat.mul_one _).symm
  | cons d ds ih =>
    have hd := hds d (.head _)
    have hten : (n + 1) * 10 ^ (d :: ds).length = 10 * (n + 1) * 10 ^ ds.length := by
      rw [List.length_cons, Nat.pow_succ]
      ac_rfl
    refine Nat.lt_of_lt_of_le (ih (10 * n + d) fun d h => hds d (.tail _ h)) ?_
    rw [hten]
    exact Nat.mul_le_mul_right _ (by omega)

/-- Zeros in front do not count. -/
theorem ofDigits_replicate_zero (k : Nat) : ofDigits 0 (List.replicate k 0) = 0 := by
  induction k with
  | zero => rfl
  | succ k ih => exact ih

/-- No number but zero is written with a zero in front. -/
theorem digits_eq_zero_cons (h : digits n = 0 :: ds) : n = 0 ∧ ds = [] := by
  fun_induction digits n generalizing ds with
  | case1 n hn =>
    rw [List.cons.injEq] at h
    exact ⟨h.1, h.2.symm⟩
  | case2 n hn ih =>
    obtain ⟨d, ds', hd⟩ := List.exists_cons_of_ne_nil (digits_ne_nil (n / 10))
    rw [hd, List.cons_append, List.cons.injEq] at h
    have := (ih (h.1 ▸ hd)).1
    omega

/-- A number other than zero is at least the power of ten of its first digit. -/
theorem pow_le_of_pos (hn : 0 < n) : 10 ^ ((digits n).length - 1) ≤ n := by
  obtain ⟨d, ds, hds⟩ := List.exists_cons_of_ne_nil (digits_ne_nil n)
  have hd : 0 < d := by
    refine Nat.pos_of_ne_zero ?_
    rintro rfl
    exact absurd (digits_eq_zero_cons hds).1 (by omega)
  have hspell : ofDigits d ds = n := by
    have := ofDigits_digits n
    rwa [hds, ofDigits, List.foldl_cons, Nat.mul_zero, Nat.zero_add] at this
  calc 10 ^ ((digits n).length - 1) = 10 ^ ds.length := by rw [hds, List.length_cons]; rfl
    _ ≤ d * 10 ^ ds.length := Nat.le_mul_of_pos_left _ hd
    _ ≤ n := hspell ▸ mul_pow_le_ofDigits d ds

end Decimal

/-! ## What is taken -/

/-- The digits that are taken spell no more than all of them, with a zero for each one left. -/
theorem takeDigits_le (s : Nat) (ds : List Nat) :
    (takeDigits s ds).2 ≤ ds.length ∧
      (takeDigits s ds).1 * 10 ^ (takeDigits s ds).2 ≤ Decimal.ofDigits s ds := by
  induction ds generalizing s with
  | nil => exact ⟨Nat.le_refl 0, Nat.le_of_eq (Nat.mul_one s)⟩
  | cons d ds ih =>
    by_cases hnext : 10 * s + d ≤ maxWord64
    · obtain ⟨hleft, hle⟩ := ih (10 * s + d)
      simp only [takeDigits, if_pos hnext]
      exact ⟨Nat.le_succ_of_le hleft, hle⟩
    · simp only [takeDigits, if_neg hnext]
      exact ⟨Nat.le_refl _, Decimal.mul_pow_le_ofDigits s (d :: ds)⟩

namespace Numeral
variable {n : Numeral}

/-- The number that all digits spell, those behind the point too. -/
def significand (n : Numeral) : Nat := Decimal.ofDigits 0 (n.whole ++ n.fraction.getD [])

/-- The power of ten of the last digit. -/
def power (n : Numeral) : Int := n.exponent.getD 0 - (n.fraction.getD []).length

/-- What is rounded for a numeral that is not long before its point: the digits that are taken times
the power of ten of the last of them. All digits are taken if they fit 64 bits. -/
theorem exists_toBinary64?_eq (hdigits : ∀ d ∈ n.whole, d < 10) (hlength : n.whole.length ≤ 16) :
    ∃ s left : Nat,
      n.toBinary64? =
        (Binary64.scale? (Binary64.ofNat s) (n.power + left)).map
          (Binary64.ofMagnitude n.negative) ∧
      s * 10 ^ left ≤ n.significand ∧
      (n.significand ≤ maxWord64 → s = n.significand ∧ left = 0) := by
  have hfits : Decimal.ofDigits 0 n.whole ≤ maxWord64 := by
    have hlt := Decimal.ofDigits_lt 0 hdigits
    have hpow : 10 ^ n.whole.length ≤ 10 ^ 16 := Nat.pow_le_pow_right (by omega) hlength
    rw [maxWord64]
    omega
  have hwhole : takeDigits 0 n.whole = (Decimal.ofDigits 0 n.whole, 0) :=
    (takeDigits_eq_iff (Nat.zero_le _)).2 ⟨rfl, hfits⟩
  obtain ⟨hleft, hle⟩ := takeDigits_le (Decimal.ofDigits 0 n.whole) (n.fraction.getD [])
  refine ⟨_, _, ?_, (Decimal.ofDigits_append ..).symm ▸ hle, fun hall => ?_⟩
  · rw [toBinary64?, hwhole]
    simp only
    congr 2
    rw [power]
    omega
  · rw [significand, Decimal.ofDigits_append] at hall ⊢
    rw [(takeDigits_eq_iff hfits).2 ⟨rfl, hall⟩]
    exact ⟨rfl, rfl⟩

end Numeral

end PeerMessaging
