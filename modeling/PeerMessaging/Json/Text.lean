import PeerMessaging.Bytes

/-!
# JSON strings

A string is written between quotes, byte by byte: a quote, a backslash and the control characters
are escaped, every other byte stands for itself (`JsonText.write`). Reading (`JsonText.read`) undoes
the escapes and then asks for well-formed UTF-8; skipping (`JsonText.skip`) only looks for the end.
-/

namespace PeerMessaging

/-- Why a text is not what was to be read. -/
inductive JsonFault
  /-- It ends too early. -/
  | truncated
  /-- It is not JSON, or holds what no value can hold. -/
  | malformed
  /-- It is JSON but not of the expected type. -/
  | unexpected
  deriving DecidableEq, Repr

/-- What is read from the front of a text, and the rest of it. -/
abbrev JsonRead (α : Type) := Except JsonFault (α × Bytes)

namespace JsonText

/-- The byte of an ASCII character. -/
def byte (c : Char) : UInt8 := c.toNat.toUInt8

/-- The quote. -/
def quote : UInt8 := byte '"'

/-- The backslash. -/
def backslash : UInt8 := byte '\\'

/-- The letters that stand for control characters behind a backslash. -/
def shortEscapes : List (UInt8 × UInt8) :=
  [(8, byte 'b'), (9, byte 't'), (10, byte 'n'), (12, byte 'f'), (13, byte 'r')]

/-- A hexadecimal digit, a small letter from ten on. -/
def hexDigit (n : Nat) : UInt8 := if n < 10 then .ofNat (48 + n) else .ofNat (87 + n)

/-- A byte as it is written inside a string. -/
def escape (b : UInt8) : Bytes :=
  if b = quote ∨ b = backslash then [backslash, b]
  else if 32 ≤ b then [b]
  else
    match shortEscapes.lookup b with
    | some letter => [backslash, letter]
    | none =>
      [backslash, byte 'u', byte '0', byte '0', hexDigit (b.toNat / 16), hexDigit (b.toNat % 16)]

/-- Writes a string. -/
def write (s : String) : Bytes := quote :: (textBytes s).flatMap escape ++ [quote]

/-- The value of a hexadecimal digit of either case. -/
def hexValue? (b : UInt8) : Option Nat :=
  let n := b.toNat
  if 48 ≤ n ∧ n ≤ 57 then some (n - 48)
  else if 65 ≤ n ∧ n ≤ 70 then some (n - 55)
  else if 97 ≤ n ∧ n ≤ 102 then some (n - 87)
  else none

/-- Reads the four hexadecimal digits of an escape. -/
def hexEscape : Bytes → JsonRead Nat
  | a :: b :: c :: d :: rest =>
    match hexValue? a, hexValue? b, hexValue? c, hexValue? d with
    | some a, some b, some c, some d => .ok (((a * 16 + b) * 16 + c) * 16 + d, rest)
    | _, _, _, _ => .error .malformed
  | _ => .error .truncated

/-- The UTF-8 bytes of a character known by its number. -/
def characterBytes (n : Nat) : Bytes := String.utf8EncodeChar (.ofNat n)

/-- Reads the second half of a pair of surrogates, itself an escape; `n` is the first half. -/
def lowSurrogate (n : Nat) : Bytes → JsonRead Bytes
  | [] => .error .truncated
  | [b] => .error (if b = backslash then .truncated else .malformed)
  | b :: c :: rest =>
    if b = backslash ∧ c = byte 'u' then
      match hexEscape rest with
      | .error e => .error e
      | .ok (m, rest) =>
        if m < 0xDC00 ∨ 0xDFFF < m then .error .malformed
        else .ok (characterBytes ((n - 0xD800) * 0x400 + (m - 0xDC00) + 0x10000), rest)
    else .error .malformed

/-- Reads what follows a backslash and the letter `u`: a character, or a pair of surrogates that
make one. -/
def unicodeEscape (bytes : Bytes) : JsonRead Bytes :=
  match hexEscape bytes with
  | .error e => .error e
  | .ok (n, rest) =>
    if n < 0xD800 ∨ 0xDFFF < n then .ok (characterBytes n, rest)
    else if 0xDC00 ≤ n then .error .malformed
    else lowSurrogate n rest

/-- The letters that may follow a backslash, and what they stand for. -/
def letterEscapes : List (UInt8 × UInt8) :=
  [(quote, quote), (backslash, backslash), (byte '/', byte '/')] ++
    shortEscapes.map fun (b, letter) => (letter, b)

/-- Reads what follows a backslash. -/
def readEscape : Bytes → JsonRead Bytes
  | [] => .error .truncated
  | b :: rest =>
    if b = byte 'u' then unicodeEscape rest
    else
      match letterEscapes.lookup b with
      | some c => .ok ([c], rest)
      | none => .error .malformed

/-- Passes over what follows a backslash; surrogates need not be paired. -/
def skipEscape : Bytes → JsonRead Bytes
  | [] => .error .truncated
  | b :: rest =>
    if b = byte 'u' then (hexEscape rest).map fun (_, rest) => ([], rest)
    else if (letterEscapes.lookup b).isSome then .ok ([], rest)
    else .error .malformed

theorem length_lt_of_hexEscape {bytes rest : Bytes} {n : Nat}
    (h : hexEscape bytes = .ok (n, rest)) : rest.length < bytes.length := by
  unfold hexEscape at h
  split at h
  · split at h
    · cases h
      simp only [List.length_cons]
      omega
    · cases h
  · cases h

theorem length_lt_of_lowSurrogate {bytes rest out : Bytes} {n : Nat}
    (h : lowSurrogate n bytes = .ok (out, rest)) : rest.length < bytes.length := by
  unfold lowSurrogate at h
  split at h
  · cases h
  · cases h
  · split at h
    · split at h
      · cases h
      · rename_i hx
        have := length_lt_of_hexEscape hx
        split at h
        · cases h
        · simp only [Except.ok.injEq, Prod.mk.injEq] at h
          obtain ⟨-, rfl⟩ := h
          simp only [List.length_cons]
          omega
    · cases h

theorem length_lt_of_unicodeEscape {bytes rest out : Bytes}
    (h : unicodeEscape bytes = .ok (out, rest)) : rest.length < bytes.length := by
  unfold unicodeEscape at h
  split at h
  · cases h
  · rename_i hx
    have := length_lt_of_hexEscape hx
    split at h
    · cases h
      exact this
    · split at h
      · cases h
      · exact Nat.lt_trans (length_lt_of_lowSurrogate h) this

/-- An escape takes something off the text. -/
theorem length_lt_of_readEscape {bytes rest out : Bytes}
    (h : readEscape bytes = .ok (out, rest)) : rest.length < bytes.length := by
  unfold readEscape at h
  split at h
  · cases h
  · split at h
    · have := length_lt_of_unicodeEscape h
      simp only [List.length_cons]
      omega
    · split at h
      · cases h
        simp
      · cases h

/-- An escape that is passed over takes something off the text. -/
theorem length_lt_of_skipEscape {bytes rest out : Bytes}
    (h : skipEscape bytes = .ok (out, rest)) : rest.length < bytes.length := by
  unfold skipEscape at h
  split at h
  · cases h
  · rename_i r
    split at h
    · cases hx : hexEscape r with
      | error e => rw [hx] at h; cases h
      | ok p =>
        have hl := @length_lt_of_hexEscape _ p.2 p.1 hx
        rw [hx] at h
        cases h
        simp only [List.length_cons]
        omega
    · split at h
      · cases h
        simp
      · cases h

/-- Reads up to the closing quote: the bytes of the string, put behind `acc`, which is held in
reverse. -/
def readBytes (acc : Bytes) : Bytes → JsonRead Bytes
  | [] => .error .truncated
  | b :: rest =>
    if b = quote then .ok (acc.reverse, rest)
    else if b = backslash then
      match _h : readEscape rest with
      | .error e => .error e
      | .ok (out, rest') => readBytes (out.reverse ++ acc) rest'
    else if b < 32 then .error .malformed
    else readBytes (b :: acc) rest
termination_by bytes => bytes.length
decreasing_by
  · have := length_lt_of_readEscape _h
    simp only [List.length_cons]
    omega
  · simp

/-- Reads a string whose opening quote has been read. -/
def read (bytes : Bytes) : JsonRead String :=
  match readBytes [] bytes with
  | .error e => .error e
  | .ok (out, rest) =>
    match bytesText? out with
    | some s => .ok (s, rest)
    | none => .error .malformed

/-- Passes over a string whose opening quote has been read. -/
def skip : Bytes → JsonRead Unit
  | [] => .error .truncated
  | b :: rest =>
    if b = quote then .ok ((), rest)
    else if b = backslash then
      match _h : skipEscape rest with
      | .error e => .error e
      | .ok (_, rest') => skip rest'
    else if b < 32 then .error .malformed
    else skip rest
termination_by bytes => bytes.length
decreasing_by
  · have := length_lt_of_skipEscape _h
    simp only [List.length_cons]
    omega
  · simp

end JsonText

end PeerMessaging
