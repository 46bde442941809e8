/-!
# Decimal digits

A natural number is written as its decimal digits, the most significant first (`digits`), and digits
are read as the number they spell (`ofDigits`). Reading undoes writing (`ofDigits_digits`), and a
number is written with digits only (`digits_lt`).
-/

namespace PeerMessaging.Decimal

/-- The decimal digits of a number, the most significant first; zero has one. -/
def digits (n : Nat) : List Nat :=
  if n < 10 then [n] else digits (n / 10) ++ [n % 10]

/-- The number that digits spell behind those of `n`. -/
def ofDigits (n : Nat) (ds : List Nat) : Nat := ds.foldl (fun n d => 10 * n + d) n

/-- Digits never make a number smaller. -/
theorem le_ofDigits (n : Nat) (ds : List Nat) : n ≤ ofDigits n ds := by
  induction ds generalizing n with
  | nil => exact Nat.le_refl n
  | cons d ds ih => exact Nat.le_trans (by omega) (ih (10 * n + d))

theorem digits_of_lt {n : Nat} (h : n < 10) : digits n = [n] := by
  rw [digits, if_pos h]

/-- A number is read back from its digits. -/
theorem ofDigits_digits (n : Nat) : ofDigits 0 (digits n) = n := by
  fun_induction digits n with
  | case1 n h => simp [ofDigits]
  | case2 n h ih =>
    simp only [ofDigits, List.foldl_append, List.foldl_cons, List.foldl_nil] at *
    omega

/-- The digits of a number are below ten. -/
theorem digits_lt (n : Nat) : ∀ d ∈ digits n, d < 10 := by
  fun_induction digits n with
  | case1 n h => simpa using h
  | case2 n h ih =>
    intro d hd
    rcases List.mem_append.1 hd with hd | hd
    · exact ih d hd
    · have := List.mem_singleton.1 hd
      omega

theorem digits_ne_nil (n : Nat) : digits n ≠ [] := by
  fun_cases digits n <;> simp

end PeerMessaging.Decimal
