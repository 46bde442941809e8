import PeerMessaging.Json.Text

/-!
# Strings are read back

Whatever bytes a string is made of, each of them is written as itself or as an escape, and what is
written for a byte is read as that byte (`JsonText.readBytes_escape`). So a string is read back from
what is written for it, and what stands behind it is left (`JsonText.read_write`).
-/

namespace PeerMessaging.JsonText

/-! ## Escapes -/

/-- A hexadecimal digit is read as what it was written for. -/
theorem hexValue?_hexDigit : ∀ n < 16, hexValue? (hexDigit n) = some n := by decide

/-- An ASCII character is the one byte of its number. -/
theorem characterBytes_of_lt {n : Nat} (h : n < 128) : characterBytes n = [UInt8.ofNat n] := by
  have hvalid : n.isValidChar := .inl (by omega)
  have hval : (Char.ofNat n).val.toNat = n := by
    rw [Char.ofNat, dif_pos hvalid]
    rfl
  rw [characterBytes, String.utf8EncodeChar, hval, if_pos (by omega)]

/-- The letter that stands for a control character is read as the character. -/
theorem lookup_letterEscapes {p : UInt8 × UInt8} (h : p ∈ shortEscapes) :
    p.2 ≠ byte 'u' ∧ letterEscapes.lookup p.2 = some p.1 := by
  have hall : shortEscapes.all fun p =>
      p.2 ≠ byte 'u' ∧ letterEscapes.lookup p.2 = some p.1 := by decide
  exact of_decide_eq_true (List.all_eq_true.1 hall p h)

/-- The number of a control character is read as the character. -/
theorem unicodeEscape_of_lt {b : UInt8} (h : b < 32) (rest : Bytes) :
    unicodeEscape (byte '0' :: byte '0' :: hexDigit (b.toNat / 16) :: hexDigit (b.toNat % 16) ::
      rest) = .ok ([b], rest) := by
  have hlt : b.toNat < 32 := UInt8.lt_iff_toNat_lt.1 h
  have hzero : hexValue? (byte '0') = some 0 := rfl
  have hnumber : ((0 * 16 + 0) * 16 + b.toNat / 16) * 16 + b.toNat % 16 = b.toNat := by omega
  rw [unicodeEscape, hexEscape]
  simp only [hzero, hexValue?_hexDigit (b.toNat / 16) (by omega),
    hexValue?_hexDigit (b.toNat % 16) (by omega), hnumber]
  rw [if_pos (.inl (by omega)), characterBytes_of_lt (by omega), UInt8.ofNat_toNat]

/-- A byte that does not stand for itself is written as a backslash and what is read as the byte. -/
theorem escape_of_special {b : UInt8} (h : b = quote ∨ b = backslash ∨ b < 32) :
    ∃ tail, escape b = backslash :: tail ∧ ∀ rest, readEscape (tail ++ rest) = .ok ([b], rest) := by
  by_cases hb : b = quote ∨ b = backslash
  · refine ⟨[b], by rw [escape, if_pos hb], fun rest => ?_⟩
    rcases hb with rfl | rfl <;> rfl
  have hlt : b < 32 := by
    rcases h with h | h | h
    · exact absurd (.inl h) hb
    · exact absurd (.inr h) hb
    · exact h
  have hge : ¬ 32 ≤ b := UInt8.not_le.2 hlt
  cases hs : shortEscapes.lookup b with
  | some letter =>
    refine ⟨[letter], by rw [escape, if_neg hb, if_neg hge, hs], fun rest => ?_⟩
    obtain ⟨_, _, hmem, -⟩ := List.lookup_eq_some_iff.1 hs
    have hin : (b, letter) ∈ shortEscapes := hmem ▸ by simp
    obtain ⟨hu, hletter⟩ := lookup_letterEscapes hin
    simp only [List.singleton_append, readEscape, if_neg hu, hletter]
  | none =>
    refine ⟨_, by rw [escape, if_neg hb, if_neg hge, hs], fun rest => ?_⟩
    simp only [List.cons_append, List.nil_append, readEscape, if_true]
    exact unicodeEscape_of_lt hlt rest

/-! ## Strings -/

section
variable {acc rest rest' out : Bytes} {b : UInt8}

theorem readBytes_quote (acc rest : Bytes) :
    readBytes acc (quote :: rest) = .ok (acc.reverse, rest) := by
  rw [readBytes, if_pos rfl]

theorem readBytes_backslash (h : readEscape rest = .ok (out, rest')) :
    readBytes acc (backslash :: rest) = readBytes (out.reverse ++ acc) rest' := by
  rw [readBytes, if_neg (by decide), if_pos rfl]
  split <;> rename_i hr <;> cases h.symm.trans hr
  rfl

theorem readBytes_plain (h : ¬ (b = quote ∨ b = backslash ∨ b < 32)) :
    readBytes acc (b :: rest) = readBytes (b :: acc) rest := by
  obtain ⟨hq, hb, hlt⟩ : b ≠ quote ∧ b ≠ backslash ∧ ¬ b < 32 := by simpa using h
  rw [readBytes, if_neg hq, if_neg hb, if_neg hlt]

/-- What is written for a byte is read as the byte. -/
theorem readBytes_escape (acc : Bytes) (b : UInt8) (rest : Bytes) :
    readBytes acc (escape b ++ rest) = readBytes (b :: acc) rest := by
  by_cases h : b = quote ∨ b = backslash ∨ b < 32
  · obtain ⟨tail, ht, hr⟩ := escape_of_special h
    rw [ht, List.cons_append, readBytes_backslash (hr rest)]
    rfl
  · have hb : ¬ (b = quote ∨ b = backslash) := fun hb => h (hb.imp_right .inl)
    have hge : 32 ≤ b := UInt8.not_lt.1 fun hlt => h (.inr (.inr hlt))
    rw [escape, if_neg hb, if_pos hge]
    exact readBytes_plain h

/-- What is written for the bytes of a string is read as them up to the closing quote. -/
theorem readBytes_flatMap_escape (acc bytes rest : Bytes) :
    readBytes acc (bytes.flatMap escape ++ quote :: rest) = .ok (acc.reverse ++ bytes, rest) := by
  induction bytes generalizing acc with
  | nil => rw [List.flatMap_nil, List.nil_append, readBytes_quote, List.append_nil]
  | cons b bytes ih =>
    rw [List.flatMap_cons, List.append_assoc, readBytes_escape, ih, List.reverse_cons,
      List.append_assoc, List.singleton_append]

/-- A string is read back from what is written for it. -/
theorem read_write (s : String) (rest : Bytes) :
    ∃ tail, write s ++ rest = quote :: tail ∧ read tail = .ok (s, rest) := by
  refine ⟨(textBytes s).flatMap escape ++ quote :: rest, by simp [write], ?_⟩
  rw [read, readBytes_flatMap_escape]
  simp only [List.reverse_nil, List.nil_append, bytesText?_textBytes]

end

end PeerMessaging.JsonText
