/-!
# Bytes and big-endian words

The wire carries byte strings (`Bytes`), and every number on it is a 32-bit word written with its
most significant byte first. `wordBytes` writes a word and `wordOfBytes` reads one; each undoes the
other (`wordOfBytes_wordBytes`, `wordBytes_wordOfBytes`).
-/

namespace PeerMessaging

/-- A byte string. -/
abbrev Bytes := List UInt8

/-- The four bytes of a word, the most significant first. -/
def wordBytes (w : UInt32) : Bytes :=
  [.ofNat (w.toNat / 0x1000000), .ofNat (w.toNat / 0x10000), .ofNat (w.toNat / 0x100),
    .ofNat w.toNat]

/-- The word that four bytes spell, the most significant first. -/
def wordOfBytes (a b c d : UInt8) : UInt32 :=
  .ofNat (a.toNat * 0x1000000 + b.toNat * 0x10000 + c.toNat * 0x100 + d.toNat)

@[simp]
theorem length_wordBytes (w : UInt32) : (wordBytes w).length = 4 := rfl

/-- A word is read back from its bytes. -/
theorem wordOfBytes_wordBytes (w : UInt32) :
    wordOfBytes (.ofNat (w.toNat / 0x1000000)) (.ofNat (w.toNat / 0x10000))
      (.ofNat (w.toNat / 0x100)) (.ofNat w.toNat) = w := by
  have := w.toNat_lt
  apply UInt32.toNat_inj.1
  simp only [wordOfBytes, UInt32.toNat_ofNat', UInt8.toNat_ofNat']
  omega

/-- Four bytes are written back from their word. -/
theorem wordBytes_wordOfBytes (a b c d : UInt8) :
    wordBytes (wordOfBytes a b c d) = [a, b, c, d] := by
  have := a.toNat_lt
  have := b.toNat_lt
  have := c.toNat_lt
  have := d.toNat_lt
  simp only [wordBytes, wordOfBytes, UInt32.toNat_ofNat', List.cons.injEq, ← UInt8.toNat_inj,
    UInt8.toNat_ofNat', and_true]
  omega

/-- A byte string cut into pieces of a length, the last of them maybe shorter. -/
def pieces (length : Nat) (b : Bytes) : List Bytes :=
  if _h : b = [] ∨ length = 0 then [] else b.take length :: pieces length (b.drop length)
termination_by b.length
decreasing_by
  have := List.length_pos_iff.2 (not_or.1 _h).1
  simp only [List.length_drop]
  omega

/-- The UTF-8 bytes of a text. -/
def textBytes (s : String) : Bytes := s.toUTF8.data.toList

/-- The text that a byte string spells in UTF-8, if it is well formed. -/
def bytesText? (b : Bytes) : Option String := String.fromUTF8? ⟨b.toArray⟩

/-- A text is read back from its UTF-8 bytes. -/
theorem bytesText?_textBytes (s : String) : bytesText? (textBytes s) = some s := by
  have h : (⟨(textBytes s).toArray⟩ : ByteArray) = s.toByteArray := by simp [textBytes]
  simp only [bytesText?, String.fromUTF8?, h, s.isValidUTF8, ↓reduceDIte]
  rfl

end PeerMessaging
