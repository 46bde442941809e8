import PeerMessaging.Json.Parser
import PeerMessaging.Json.Printer
import PeerMessaging.Proofs.Number.Numeral

/-!
# Numerals are read back

A numeral is written as its sign, its digits, its fraction and its exponent (`Json.writeNumeral`).
If it is one that can be written (`Numeral.WellFormed`), each part is read as it is, because what
stands behind it cannot go on with it, and so is the whole (`Json.numeral_writeNumeral`). What
stands behind the numeral must not go on with it, either (`Json.EndsNumeral`).
-/

namespace PeerMessaging

/-- The numeral can be written: it has digits before the point, of which a zero stands alone, and
behind the point if there is one, and its exponent fits 64 bits. -/
structure Numeral.WellFormed (n : Numeral) : Prop where
  digits_lt : ∀ d ∈ n.whole ++ n.fraction.getD [], d < 10
  whole_ne_nil : n.whole ≠ []
  zero_alone : ∀ ds, n.whole = 0 :: ds → ds = []
  fraction_ne_nil : n.fraction ≠ some []
  exponent_le : ∀ e, n.exponent = some e → e.natAbs ≤ maxWord64

theorem Numeral.WellFormed.whole_lt {n : Numeral} (h : n.WellFormed) : ∀ d ∈ n.whole, d < 10 :=
  fun d hd => h.digits_lt d (List.mem_append_left _ hd)

theorem Numeral.WellFormed.fraction_lt {n : Numeral} (h : n.WellFormed) {ds : List Nat}
    (hf : n.fraction = some ds) : ∀ d ∈ ds, d < 10 := by
  intro d hd
  refine h.digits_lt d (List.mem_append_right _ ?_)
  rwa [hf]

namespace Json

open JsonText

/-! ## What is written -/

/-- Writes the digits behind the point, if there is one. -/
def writeFraction : Option (List Nat) → Bytes
  | none => []
  | some ds => byte '.' :: digitBytes ds

/-- Writes the exponent, if there is one, with its sign. -/
def writeExponent : Option Int → Bytes
  | none => []
  | some e => byte 'e' :: (if e < 0 then byte '-' else byte '+') :: writeNat e.natAbs

/-- Writes a numeral without its sign. -/
def writeUnsigned (n : Numeral) : Bytes :=
  digitBytes n.whole ++ (writeFraction n.fraction ++ writeExponent n.exponent)

/-- Writes a numeral. -/
def writeNumeral (n : Numeral) : Bytes :=
  (if n.negative then [byte '-'] else []) ++ writeUnsigned n

/-- No digit stands here. -/
def EndsDigits (rest : Bytes) : Prop := ∀ b tail, rest = b :: tail → isDigit b = false

/-- No byte stands here, or one that cannot go on with a numeral. -/
def EndsNumeral (rest : Bytes) : Prop :=
  ∀ b tail, rest = b :: tail →
    isDigit b = false ∧ b ≠ byte '.' ∧ b ≠ byte 'e' ∧ b ≠ byte 'E'

section
variable {rest : Bytes} {ds : List Nat} {n : Numeral}

theorem EndsNumeral.endsDigits (hr : EndsNumeral rest) : EndsDigits rest :=
  fun b tail h => (hr b tail h).1

/-! ## Digits -/

/-- A digit is written as a byte that is read as the digit. -/
theorem isDigit_ofNat : ∀ d < 10, isDigit (.ofNat (48 + d)) = true ∧
    (UInt8.ofNat (48 + d)).toNat - 48 = d := by decide

/-- Digits are taken as far as they go. -/
theorem takeDigitBytes_digitBytes (hd : ∀ d ∈ ds, d < 10) (hr : EndsDigits rest) :
    takeDigitBytes (digitBytes ds ++ rest) = (ds, rest) := by
  induction ds with
  | nil =>
    cases rest with
    | nil => rfl
    | cons b tail =>
      have hb : ¬ isDigit b = true := Bool.not_eq_true _ ▸ hr b tail rfl
      exact if_neg hb
  | cons d ds ih =>
    obtain ⟨hb, hv⟩ := isDigit_ofNat d (hd d (.head _))
    rw [digitBytes, List.map_cons, List.cons_append, takeDigitBytes, if_pos hb]
    rw [← digitBytes, ih fun d h => hd d (.tail _ h), hv]

theorem someDigits_digitBytes (pass : Pass) (hne : ds ≠ []) (hd : ∀ d ∈ ds, d < 10)
    (hr : EndsDigits rest) : someDigits pass (digitBytes ds ++ rest) = .ok (ds, rest) := by
  obtain ⟨d, tail, rfl⟩ := List.exists_cons_of_ne_nil hne
  rw [someDigits, takeDigitBytes_digitBytes hd hr]

/-- Digits are taken as those before a point, if a zero stands alone. -/
theorem wholeDigits_digitBytes (pass : Pass) (h : n.WellFormed) (hr : EndsDigits rest) :
    wholeDigits pass (digitBytes n.whole ++ rest) = .ok (n.whole, rest) := by
  rw [wholeDigits, someDigits_digitBytes pass h.whole_ne_nil h.whole_lt hr]
  split
  · rename_i hzero
    rw [Except.ok.injEq, Prod.mk.injEq] at hzero
    cases h.zero_alone _ hzero.1
  · rfl

/-! ## Fraction and exponent -/

theorem fractionDigits_of_endsNumeral (pass : Pass) (hr : EndsNumeral rest) :
    fractionDigits pass rest = .ok (none, rest) := by
  cases rest with
  | nil => rfl
  | cons b tail => exact if_neg (hr b tail rfl).2.1

theorem exponent_of_endsNumeral (pass : Pass) (hr : EndsNumeral rest) :
    exponent pass rest = .ok (none, rest) := by
  cases rest with
  | nil => rfl
  | cons b tail => exact if_neg (not_or.2 (hr b tail rfl).2.2)

/-- The digits of a number are read as the number, if it fits 64 bits. -/
theorem word64?_digits {k : Nat} (hk : k ≤ maxWord64) : word64? (Decimal.digits k) = some k :=
  word64?_eq_some_iff.2 ⟨Decimal.ofDigits_digits k, hk⟩

/-- The digits of an exponent are taken behind its sign. -/
theorem exponent_writeExponent (pass : Pass) (h : n.WellFormed) (hr : EndsNumeral rest) :
    exponent pass (writeExponent n.exponent ++ rest) = .ok (n.exponent, rest) := by
  cases he : n.exponent with
  | none => exact exponent_of_endsNumeral pass hr
  | some e =>
    have hdigits : someDigits pass (writeNat e.natAbs ++ rest) =
        .ok (Decimal.digits e.natAbs, rest) :=
      someDigits_digitBytes pass (Decimal.digits_ne_nil _) (Decimal.digits_lt _) hr.endsDigits
    have hword := word64?_digits (h.exponent_le e he)
    rw [writeExponent, List.cons_append, List.cons_append, exponent, if_pos (.inl rfl)]
    by_cases hneg : e < 0
    · simp only [hneg, if_true, exponentSign, hdigits, Except.map, hword, Option.getD_some]
      rw [show -(e.natAbs : Int) = e by omega]
    · simp only [hneg, if_false, exponentSign, show ¬ byte '+' = byte '-' by decide, if_true,
        hdigits, Except.map, hword, Option.getD_some, Bool.false_eq_true]
      rw [show (e.natAbs : Int) = e by omega]

/-- No digit stands where an exponent may. -/
theorem endsDigits_writeExponent (e : Option Int) (hr : EndsNumeral rest) :
    EndsDigits (writeExponent e ++ rest) := by
  cases e with
  | none => exact hr.endsDigits
  | some e =>
    rintro b tail ⟨⟩
    decide

/-- No digit stands where a fraction may. -/
theorem endsDigits_writeFraction (f : Option (List Nat)) (hr : EndsDigits rest) :
    EndsDigits (writeFraction f ++ rest) := by
  cases f with
  | none => exact hr
  | some ds =>
    rintro b tail ⟨⟩
    decide

/-- The digits of a fraction are taken behind its point. -/
theorem fractionDigits_writeFraction (pass : Pass) (h : n.WellFormed) (hr : EndsNumeral rest) :
    fractionDigits pass (writeFraction n.fraction ++ (writeExponent n.exponent ++ rest)) =
      .ok (n.fraction, writeExponent n.exponent ++ rest) := by
  cases hf : n.fraction with
  | none =>
    cases n.exponent with
    | none => exact fractionDigits_of_endsNumeral pass hr
    | some e => rfl
  | some ds =>
    have hne : ds ≠ [] := by
      rintro rfl
      exact h.fraction_ne_nil hf
    have hdigits := someDigits_digitBytes pass hne (h.fraction_lt hf)
      (endsDigits_writeExponent n.exponent hr)
    rw [writeFraction, List.cons_append, fractionDigits, if_pos rfl, hdigits]
    rfl

/-! ## Numerals -/

/-- Behind the sign come the digits, of which the first is no sign. -/
theorem exists_digitBytes (h : n.WellFormed) (rest : Bytes) :
    ∃ b tail, digitBytes n.whole ++ rest = b :: tail ∧ isDigit b = true := by
  obtain ⟨d, ds, hds⟩ := List.exists_cons_of_ne_nil h.whole_ne_nil
  have hd : d < 10 := h.whole_lt d (hds ▸ .head _)
  exact ⟨_, digitBytes ds ++ rest, by rw [hds]; rfl, (isDigit_ofNat d hd).1⟩

/-- A numeral is written with a minus sign or a digit first. -/
theorem exists_writeNumeral (h : n.WellFormed) :
    ∃ b tail, writeNumeral n = b :: tail ∧ (b = byte '-' ∨ isDigit b = true) := by
  rw [writeNumeral]
  split
  · exact ⟨_, _, rfl, .inl rfl⟩
  · obtain ⟨b, tail, hb, hdigit⟩ :=
      exists_digitBytes h (writeFraction n.fraction ++ writeExponent n.exponent)
    exact ⟨b, tail, hb, .inr hdigit⟩

/-- A numeral is read as it is written. -/
theorem numeral_writeNumeral (pass : Pass) (h : n.WellFormed) (hr : EndsNumeral rest) :
    numeral pass (writeNumeral n ++ rest) = .ok (n, rest) := by
  have hbehind := endsDigits_writeFraction n.fraction (endsDigits_writeExponent n.exponent hr)
  have hwhole := wholeDigits_digitBytes pass h hbehind
  have hfraction := fractionDigits_writeFraction pass h hr
  have hexponent := exponent_writeExponent pass h hr
  have hbytes : writeNumeral n ++ rest = (if n.negative then [byte '-'] else []) ++
      (digitBytes n.whole ++ (writeFraction n.fraction ++ (writeExponent n.exponent ++ rest))) := by
    simp only [writeNumeral, writeUnsigned, List.append_assoc]
  rw [hbytes]
  cases hneg : n.negative with
  | true =>
    rw [if_pos rfl, List.singleton_append, numeral]
    simp only [if_true, hwhole, hfraction, hexponent]
    rw [← hneg]
  | false =>
    obtain ⟨b, tail, hb, hdigit⟩ := exists_digitBytes h
      (writeFraction n.fraction ++ (writeExponent n.exponent ++ rest))
    have hne : b ≠ byte '-' := by
      rintro rfl
      cases hdigit
    rw [hb] at hwhole ⊢
    rw [if_neg (by decide), List.nil_append, numeral]
    simp only [if_neg hne, hwhole, hfraction, hexponent]
    rw [← hneg]

end

end Json

end PeerMessaging
