import PeerMessaging.Proofs.Json.Record
import PeerMessaging.Proofs.Number.Shortest

/-!
# Floating point numbers are read

A finite number is written as its shortest decimal, in one of four layouts, each of which is a
numeral of that decimal (`Json.Spells`, `Json.exists_writeReal`). So it is read as a number
(`Json.exists_readsAs_real`), which need not be the same in its last place. A number that is not
finite is written as `null`, which is no number (`Json.failsAs_real`).
-/

namespace PeerMessaging.Json

open JsonText Binary64

/-! ## Layouts -/

/-- A numeral stands for a decimal. It has a point or an exponent and few digits before the point;
its digits are those of the decimal, or they fit 64 bits and end behind the point. -/
structure Spells (n : Numeral) (s : Scaled) : Prop where
  wellFormed : n.WellFormed
  not_whole : n.isWhole = false
  length_le : n.whole.length ≤ 16
  decimal : n.significand = s.significand ∧ n.power = s.exponent ∨
    n.significand ≤ maxWord64 ∧ n.power < 0

section
variable {c : Nat} {e : Int} (negative : Bool)

/-- The digits of a decimal, zeros up to the point and one behind it. -/
theorem spells_positional (he : 0 ≤ e) (hpoint : e + (Decimal.digits c).length ≤ 16)
    (hzero : c = 0 → e = 0) :
    Spells ⟨negative, Decimal.digits c ++ List.replicate e.toNat 0, some [0], none⟩ ⟨c, e⟩ := by
  have hdigits : ∀ d ∈ Decimal.digits c ++ List.replicate e.toNat 0 ++ [0], d < 10 := by
    simp only [List.mem_append, List.mem_replicate, List.mem_singleton]
    rintro d ((hd | hd) | hd)
    · exact Decimal.digits_lt c d hd
    · omega
    · omega
  have hlength : (Decimal.digits c ++ List.replicate e.toNat 0).length ≤ 16 := by
    rw [List.length_append, List.length_replicate]
    omega
  refine ⟨⟨hdigits, ?whole, ?zero, nofun, nofun⟩, rfl, hlength,
    .inr ⟨?fits, Int.negSucc_lt_zero 0⟩⟩
  case whole => exact List.append_ne_nil_of_left_ne_nil (Decimal.digits_ne_nil c) _
  case zero =>
    intro ds h
    obtain ⟨d, ds', hds⟩ := List.exists_cons_of_ne_nil (Decimal.digits_ne_nil c)
    simp only [hds, List.cons_append, List.cons.injEq] at h
    obtain ⟨rfl, rfl⟩ := h
    obtain ⟨hc, rfl⟩ := Decimal.digits_eq_zero_cons hds
    rw [hzero hc]
    rfl
  case fits =>
    have hlt := Decimal.ofDigits_lt 0 hdigits
    have hpow : 10 ^ (Decimal.digits c ++ List.replicate e.toNat 0 ++ [0]).length ≤ 10 ^ 17 :=
      Nat.pow_le_pow_right (by omega) (by rw [List.length_append]; exact Nat.succ_le_succ hlength)
    simp only [Numeral.significand, Option.getD_some, maxWord64]
    omega

/-- A zero in front of the digits of a number is the only one of them. -/
theorem eq_nil_of_digits {whole behind : List Nat} (h : whole ++ behind = Decimal.digits c) :
    ∀ ds, whole = 0 :: ds → ds = [] := by
  rintro ds rfl
  exact (List.append_eq_nil_iff.1 (Decimal.digits_eq_zero_cons h.symm).2).1

/-- The digits of a decimal with the point between them. -/
theorem spells_point (he : e < 0) (hlow : 0 < e + (Decimal.digits c).length)
    (hpoint : e + (Decimal.digits c).length ≤ 16) :
    Spells ⟨negative, (Decimal.digits c).take (e + (Decimal.digits c).length).toNat,
      some ((Decimal.digits c).drop (e + (Decimal.digits c).length).toNat), none⟩ ⟨c, e⟩ := by
  generalize hp : (e + (Decimal.digits c).length).toNat = p
  have hsplit := List.take_append_drop p (Decimal.digits c)
  have hlength : ((Decimal.digits c).drop p).length = (-e).toNat := by
    rw [List.length_drop]
    omega
  refine ⟨⟨?digits, ?whole, eq_nil_of_digits hsplit, ?fraction, nofun⟩, rfl, ?length,
    .inl ⟨?significand, ?power⟩⟩
  case digits => exact hsplit.symm ▸ Decimal.digits_lt c
  case whole =>
    intro h
    have := congrArg List.length h
    simp only [List.length_take, List.length_nil] at this
    omega
  case fraction =>
    intro h
    simp only [Option.some.injEq] at h
    rw [h, List.length_nil] at hlength
    omega
  case length =>
    rw [List.length_take]
    omega
  case significand => exact (congrArg _ hsplit).trans (Decimal.ofDigits_digits c)
  case power =>
    rw [Numeral.power]
    simp only [Option.getD_none, Option.getD_some, hlength]
    omega

/-- Zeros on both sides of the point and the digits of a decimal. -/
theorem spells_zeros (hpoint : e + (Decimal.digits c).length ≤ 0) :
    Spells ⟨negative, [0], some (List.replicate (-(e + (Decimal.digits c).length)).toNat 0 ++
      Decimal.digits c), none⟩ ⟨c, e⟩ := by
  generalize hp : (-(e + (Decimal.digits c).length)).toNat = p
  have hdigits : ∀ d ∈ [0] ++ (List.replicate p 0 ++ Decimal.digits c), d < 10 := by
    simp only [List.mem_append, List.mem_replicate, List.mem_singleton]
    rintro d (hd | hd | hd)
    · omega
    · omega
    · exact Decimal.digits_lt c d hd
  refine ⟨⟨hdigits, nofun, ?zero, ?fraction, nofun⟩, rfl, Nat.le_add_left 1 15,
    .inl ⟨?significand, ?power⟩⟩
  case zero =>
    rintro ds ⟨⟩
    rfl
  case fraction =>
    intro h
    simp only [Option.some.injEq] at h
    exact Decimal.digits_ne_nil c (List.append_eq_nil_iff.1 h).2
  case significand =>
    simp only [Numeral.significand, Option.getD_some]
    rw [← List.append_assoc, Decimal.ofDigits_append, List.singleton_append,
      ← List.replicate_succ, Decimal.ofDigits_replicate_zero, Decimal.ofDigits_digits]
  case power =>
    rw [Numeral.power]
    simp only [Option.getD_none, Option.getD_some, List.length_append, List.length_replicate]
    omega

/-- One digit of a decimal, the point and the others if there are any, and an exponent. -/
theorem spells_exponent (hexp : (e + (Decimal.digits c).length - 1).natAbs ≤ maxWord64) :
    Spells ⟨negative, (Decimal.digits c).take 1,
      if ((Decimal.digits c).drop 1).isEmpty then none else some ((Decimal.digits c).drop 1),
      some (e + (Decimal.digits c).length - 1)⟩ ⟨c, e⟩ := by
  have hsplit := List.take_append_drop 1 (Decimal.digits c)
  have hfraction : (if ((Decimal.digits c).drop 1).isEmpty then none
      else some ((Decimal.digits c).drop 1)).getD [] = (Decimal.digits c).drop 1 := by
    split
    · rename_i h
      exact (List.isEmpty_iff.1 h).symm
    · rfl
  have hpos := List.length_pos_iff.2 (Decimal.digits_ne_nil c)
  refine ⟨⟨?digits, ?whole, eq_nil_of_digits hsplit, ?fraction, ?exponent⟩, Bool.and_false _,
    ?length, .inl ⟨?significand, ?power⟩⟩
  case digits =>
    simp only [hfraction, hsplit]
    exact Decimal.digits_lt c
  case whole =>
    intro h
    have := congrArg List.length h
    simp only [List.length_take, List.length_nil] at this
    omega
  case fraction =>
    intro h
    simp only at h
    split at h
    · cases h
    · rename_i hne
      rw [Option.some.injEq] at h
      exact hne (List.isEmpty_iff.2 h)
  case exponent =>
    rintro e' ⟨⟩
    exact hexp
  case length =>
    simp only [List.length_take]
    omega
  case significand =>
    simp only [Numeral.significand, hfraction, hsplit, Decimal.ofDigits_digits]
  case power =>
    simp only [Numeral.power, hfraction, Option.getD_some, List.length_drop]
    omega

/-- What is written for a decimal is a numeral that stands for it, whatever its sign. -/
theorem exists_writeUnsigned (hzero : c = 0 → e = 0)
    (hexp : (e + (Decimal.digits c).length - 1).natAbs ≤ maxWord64) :
    ∃ n, n.negative = negative ∧ writeUnsigned n = writeDecimal (Decimal.digits c) e ∧
      Spells n ⟨c, e⟩ := by
  simp only [writeDecimal]
  by_cases hpositional : 0 ≤ e ∧ e + (Decimal.digits c).length ≤ positionalDigits
  · refine ⟨_, rfl, ?_, spells_positional negative hpositional.1 hpositional.2 hzero⟩
    rw [if_pos hpositional]
    simp only [writeUnsigned, writeFraction, writeExponent, digitBytes, List.map_append,
      List.map_replicate]
    rfl
  rw [if_neg hpositional]
  by_cases hpoint : 0 < e + (Decimal.digits c).length ∧
      e + (Decimal.digits c).length ≤ positionalDigits
  · refine ⟨_, rfl, ?_, spells_point negative (by omega) hpoint.1 hpoint.2⟩
    rw [if_pos hpoint]
    simp only [writeUnsigned, writeFraction, writeExponent, List.append_nil, List.append_assoc,
      List.singleton_append]
  rw [if_neg hpoint]
  by_cases hzeros : -leadingZeros < e + (Decimal.digits c).length ∧
      e + (Decimal.digits c).length ≤ 0
  · refine ⟨_, rfl, ?_, spells_zeros negative hzeros.2⟩
    rw [if_pos hzeros]
    simp only [writeUnsigned, writeFraction, writeExponent, digitBytes, List.map_append,
      List.map_replicate, List.append_nil, List.append_assoc]
    rfl
  · refine ⟨_, rfl, ?_, spells_exponent negative hexp⟩
    rw [if_neg hzeros]
    have hfraction : ∀ ds, writeFraction (if ds.isEmpty then none else some ds) =
        if (digitBytes ds).isEmpty then [] else byte '.' :: digitBytes ds := by
      intro ds
      cases ds <;> rfl
    have hsign : ∀ n : Int, (if n < 0 then [byte '-'] else [byte '+']) =
        [if n < 0 then byte '-' else byte '+'] := by
      intro n
      split <;> rfl
    simp only [writeUnsigned, writeExponent, hfraction, hsign, List.append_assoc,
      List.cons_append, List.nil_append]

end

/-! ## Finite numbers -/

section
variable {x : Binary64} {n : Numeral}

/-- The exponent of what is written for a finite number is small. -/
theorem natAbs_exponent_le (hx : x.isFinite = true) :
    (x.shortest.exponent + (Decimal.digits x.shortest.significand).length - 1).natAbs ≤
      maxWord64 := by
  by_cases h0 : x.magnitude = 0
  · rw [shortest, if_pos h0, Decimal.digits_of_lt (by decide)]
    decide
  have hlow := exponent_shortest_ge x
  have hlength := List.length_pos_iff.2 (Decimal.digits_ne_nil x.shortest.significand)
  generalize hleft : (Decimal.digits x.shortest.significand).length - 1 = left at *
  have hhigh : x.shortest.exponent + left < 2101 := by
    by_cases he : 0 ≤ x.shortest.exponent + left
    · have hfirst : 1 * 10 ^ left ≤ x.shortest.significand := by
        rw [Nat.one_mul, ← hleft]
        exact Decimal.pow_le_of_pos (significand_shortest_pos hx h0)
      have hle := Nat.le_trans (Nat.le_mul_of_pos_right _ four_mul_one_pos)
        (mul_pow_shortest_le h0 hfirst he)
      rw [Nat.one_mul] at hle
      have htwo := Nat.pow_le_pow_left (show 2 ≤ 10 by omega) (x.shortest.exponent + left).toNat
      have hlog := log2_lt_of_le_high hx (Nat.le_trans htwo hle)
      rw [Nat.log2_two_pow] at hlog
      omega
    · omega
  rw [maxWord64]
  omega

/-- What is written for a finite number is a numeral of its shortest decimal. -/
theorem exists_writeReal (hx : x.isFinite = true) :
    ∃ n, writeReal x = writeNumeral n ∧ Spells n x.shortest := by
  have hzero : x.shortest.significand = 0 → x.shortest.exponent = 0 := by
    intro hc
    by_cases h0 : x.magnitude = 0
    · rw [shortest, if_pos h0]
    · have := significand_shortest_pos hx h0
      omega
  obtain ⟨n, hsign, hbytes, hn⟩ :=
    exists_writeUnsigned x.isNegative hzero (natAbs_exponent_le hx)
  exact ⟨n, by rw [writeReal, if_pos hx, writeNumeral, hsign, hbytes], hn⟩

/-- A numeral of the shortest decimal of a finite number is read as a finite number. -/
theorem exists_numberValue? (hx : x.isFinite = true) (hn : Spells n x.shortest) :
    ∃ y, numberValue? n = some (.real y) := by
  obtain ⟨s, left, hvalue, hle, hall⟩ :=
    Numeral.exists_toBinary64?_eq hn.wellFormed.whole_lt hn.length_le
  have hsome : (scale? (ofNat s) (n.power + left)).isSome = true := by
    rcases hn.decimal with ⟨hc, he⟩ | ⟨hfits, he⟩
    · rw [he]
      rw [hc] at hle hall
      exact isSome_scale?_shortest hx hle hall
    · refine isSome_scale?_of_neg ?_
      have := (hall hfits).2
      omega
  obtain ⟨m, hm⟩ := Option.isSome_iff_exists.1 hsome
  refine ⟨ofMagnitude n.negative m, ?_⟩
  simp only [numberValue?, hn.not_whole, Bool.false_eq_true, if_false, hvalue, hm, Option.map_some]

/-- A finite number is read as a number. -/
theorem exists_readsAs_real (hx : x.isFinite = true) :
    ∃ y, (FieldValue.real x).ReadsAs .real (.real y) := by
  obtain ⟨n, hbytes, hn⟩ := exists_writeReal hx
  obtain ⟨y, hy⟩ := exists_numberValue? hx hn
  refine ⟨y, fun rest hr => ?_⟩
  have hnumber : number (.reading maxLevels) (writeNumeral n ++ rest) = .ok (.real y, rest) := by
    simp only [number, numeral_writeNumeral _ hn.wellFormed hr, hy]
  obtain ⟨b, tail, h, hb⟩ := exists_writeNumeral hn.wellFormed
  rw [h, List.cons_append] at hnumber
  rw [FieldValue.write, hbytes, h, List.cons_append, readField,
    skipBlank_cons (not_blank_of_numeral hb)]
  simp only [reduceCtorEq, if_false, if_pos hb, hnumber, fieldOfNumber?]

/-! ## Other numbers -/

/-- A number that is not finite is written as a word that is no number. -/
theorem failsAs_real (hx : ¬ x.isFinite = true) :
    (FieldValue.real x).FailsAs .real .unexpected := by
  intro rest
  rw [FieldValue.write, writeReal, if_neg hx]
  rfl

end

end PeerMessaging.Json
