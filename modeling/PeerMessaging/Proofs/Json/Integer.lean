import PeerMessaging.Proofs.Json.Numeral

/-!
# Integers are read back

An integer is written as its digits, with a minus sign in front if it is negative: that is the
numeral of its sign and its digits (`Json.writeInt_eq`), which is read as it is
(`Json.numeral_writeInt`). If the integer fits 64 bits it is read back (`Json.number_writeInt`).
-/

namespace PeerMessaging

/-- The digits of a number are a numeral. -/
theorem Numeral.wellFormed_digits (negative : Bool) (n : Nat) :
    Numeral.WellFormed ⟨negative, Decimal.digits n, none, none⟩ where
  digits_lt := by
    rw [Option.getD_none, List.append_nil]
    exact Decimal.digits_lt n
  whole_ne_nil := Decimal.digits_ne_nil n
  zero_alone _ h := (Decimal.digits_eq_zero_cons h).2
  fraction_ne_nil := nofun
  exponent_le _ h := nomatch h

namespace Json

open JsonText

section
variable {rest : Bytes}

/-- An integer is written as the numeral of its sign and its digits. -/
theorem writeInt_eq (n : Int) :
    writeInt n = writeNumeral ⟨decide (n < 0), Decimal.digits n.natAbs, none, none⟩ := by
  simp only [writeInt, writeNumeral, writeUnsigned, writeFraction, writeExponent, writeNat,
    decide_eq_true_eq, List.append_nil]
  split
  · rfl
  · rfl

/-- An integer is written with a minus sign or a digit first. -/
theorem exists_writeInt (n : Int) :
    ∃ b tail, writeInt n = b :: tail ∧ (b = byte '-' ∨ isDigit b = true) := by
  rw [writeInt_eq]
  exact exists_writeNumeral (Numeral.wellFormed_digits _ _)

/-- What is written for an integer is the numeral of its sign and its digits. -/
theorem numeral_writeInt (pass : Pass) (n : Int) (hr : EndsNumeral rest) :
    numeral pass (writeInt n ++ rest) =
      .ok (⟨decide (n < 0), Decimal.digits n.natAbs, none, none⟩, rest) := by
  rw [writeInt_eq]
  exact numeral_writeNumeral pass (Numeral.wellFormed_digits _ _) hr

/-- Digits alone are read as an integer if that fits 64 bits, with its sign or without. -/
theorem numberValue?_digits {n : Int} (hlow : -0x8000000000000000 ≤ n)
    (hhigh : n ≤ 0xFFFFFFFFFFFFFFFF) :
    numberValue? ⟨decide (n < 0), Decimal.digits n.natAbs, none, none⟩ = some (.integer n) := by
  have hword : word64? (Decimal.digits n.natAbs) = some n.natAbs :=
    word64?_digits (by rw [maxWord64]; omega)
  have hint : numberValue?.integer? ⟨decide (n < 0), Decimal.digits n.natAbs, none, none⟩ =
      some n := by
    rw [numberValue?.integer?, hword]
    by_cases hn : n < 0
    · have hsize : 0 < n.natAbs ∧ n.natAbs ≤ 0x8000000000000000 := by omega
      simp only [Option.bind_eq_bind, Option.bind_some, hn, decide_true, Bool.not_true,
        Bool.false_eq_true, if_false, if_pos hsize]
      congr 1
      omega
    · simp only [Option.bind_eq_bind, Option.bind_some, hn, decide_false, Bool.not_false, if_true]
      congr 1
      omega
  have hwhole : Numeral.isWhole ⟨decide (n < 0), Decimal.digits n.natAbs, none, none⟩ = true := rfl
  rw [numberValue?, if_pos hwhole, hint]

/-- An integer that fits 64 bits is read back from what is written for it. -/
theorem number_writeInt {n : Int} (hlow : -0x8000000000000000 ≤ n)
    (hhigh : n ≤ 0xFFFFFFFFFFFFFFFF) (levels : Nat) (hr : EndsNumeral rest) :
    number (.reading levels) (writeInt n ++ rest) = .ok (.integer n, rest) := by
  rw [number, numeral_writeInt _ n hr]
  simp only [numberValue?_digits hlow hhigh]

end

end Json

end PeerMessaging
