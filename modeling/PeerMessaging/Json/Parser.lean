import PeerMessaging.Json.Text
import PeerMessaging.Json.Value
import PeerMessaging.Number.Numeral

/-!
# Reading JSON

A text is read from left to right, and the first fault met is the answer. A value is either read or
only passed over (`Json.Pass`): a value that is read may be nested 127 levels deep and its strings
and numbers must be ones that can be held, while one that is passed over has no limit. `Json.parse`
reads a whole text as one value.
-/

namespace PeerMessaging.Json

open JsonText

/-- What is done with a value that is met. -/
inductive Pass
  /-- It is read; so many more levels of arrays and objects are allowed. -/
  | reading (levels : Nat)
  /-- It is passed over. -/
  | skipping
  deriving DecidableEq, Repr

/-- Goes one level deeper, if that is allowed. -/
def Pass.enter? : Pass → Option Pass
  | reading 0 => none
  | reading (levels + 1) => some (reading levels)
  | skipping => some skipping

/-- The levels that a value may be nested. -/
def maxLevels : Nat := 127

/-- Drops blanks. -/
def skipBlank : Bytes → Bytes
  | [] => []
  | b :: rest => if b = 32 ∨ b = 9 ∨ b = 10 ∨ b = 13 then skipBlank rest else b :: rest

/-- Passes over the rest of a word whose first letter has been met. -/
def word : Bytes → Bytes → JsonRead Unit
  | [], rest => .ok ((), rest)
  | _ :: _, [] => .error .truncated
  | w :: ws, b :: rest => if b = w then word ws rest else .error .malformed

/-- The words of JSON by their first letters: what follows the letter, and the value. -/
def words : List (UInt8 × String × JsonValue) :=
  [(byte 'n', "ull", .null), (byte 't', "rue", .bool true), (byte 'f', "alse", .bool false)]

/-- A byte is a decimal digit. -/
def isDigit (b : UInt8) : Bool := 48 ≤ b && b ≤ 57

/-- Takes digits off the front. -/
def takeDigitBytes : Bytes → List Nat × Bytes
  | [] => ([], [])
  | b :: rest =>
    if isDigit b then
      let (ds, rest) := takeDigitBytes rest
      ((b.toNat - 48) :: ds, rest)
    else ([], b :: rest)

/-- The fault of a number that breaks off at the end of the text. -/
def Pass.atEnd : Pass → JsonFault
  | reading _ => .truncated
  | skipping => .malformed

/-- Takes digits, of which there has to be one. -/
def someDigits (pass : Pass) (bytes : Bytes) : JsonRead (List Nat) :=
  match takeDigitBytes bytes with
  | ([], []) => .error pass.atEnd
  | ([], _ :: _) => .error .malformed
  | (ds, rest) => .ok (ds, rest)

/-- Takes the digits before the point: a zero stands alone. -/
def wholeDigits (pass : Pass) (bytes : Bytes) : JsonRead (List Nat) :=
  match someDigits pass bytes with
  | .ok (0 :: _ :: _, _) => .error .malformed
  | r => r

/-- Takes the point and the digits behind it, if there is a point. -/
def fractionDigits (pass : Pass) : Bytes → JsonRead (Option (List Nat))
  | [] => .ok (none, [])
  | b :: rest =>
    if b = byte '.' then (someDigits pass rest).map fun (ds, rest) => (some ds, rest)
    else .ok (none, b :: rest)

/-- Takes the sign of an exponent; the answer is whether it is negative. -/
def exponentSign : Bytes → Bool × Bytes
  | [] => (false, [])
  | b :: rest =>
    if b = byte '-' then (true, rest)
    else if b = byte '+' then (false, rest)
    else (false, b :: rest)

/-- Takes the exponent, if there is one. One beyond 64 bits is as good as the largest that fits
them: no number can have digits enough to make up for it. -/
def exponent (pass : Pass) : Bytes → JsonRead (Option Int)
  | [] => .ok (none, [])
  | b :: rest =>
    if b = byte 'e' ∨ b = byte 'E' then
      let (negative, rest) := exponentSign rest
      (someDigits pass rest).map fun (ds, rest) =>
        let n : Int := (word64? ds).getD maxWord64
        (some (if negative then -n else n), rest)
    else .ok (none, b :: rest)

/-- Takes a numeral, of which the first character has been looked at. -/
def numeral (pass : Pass) (bytes : Bytes) : JsonRead Numeral :=
  let (negative, rest) :=
    match bytes with
    | b :: rest => if b = byte '-' then (true, rest) else (false, b :: rest)
    | [] => (false, [])
  match wholeDigits pass rest with
  | .error e => .error e
  | .ok (whole, rest) =>
    match fractionDigits pass rest with
    | .error e => .error e
    | .ok (fraction, rest) =>
      match exponent pass rest with
      | .error e => .error e
      | .ok (exponent, rest) => .ok (⟨negative, whole, fraction, exponent⟩, rest)

/-- The number that a numeral stands for: an integer if it is written as one and fits 64 bits, and
else a floating point number, which must not be too large. Minus zero is not an integer. -/
def numberValue? (n : Numeral) : Option JsonValue :=
  match if n.isWhole then integer? n else none with
  | some value => some (.integer value)
  | none => n.toBinary64?.map .real
where
  /-- The integer that the digits before the point spell, if it fits 64 bits. -/
  integer? (n : Numeral) : Option Int := do
    let size ← word64? n.whole
    if !n.negative then some size
    else if 0 < size ∧ size ≤ 0x8000000000000000 then some (-size)
    else none

/-- Takes a number. -/
def number (pass : Pass) (bytes : Bytes) : JsonRead JsonValue :=
  match numeral pass bytes with
  | .error e => .error e
  | .ok (n, rest) =>
    match pass with
    | .skipping => .ok (.null, rest)
    | .reading _ =>
      match numberValue? n with
      | some v => .ok (v, rest)
      | none => .error .malformed

/-- Takes a string whose opening quote has been taken. -/
def string (pass : Pass) (bytes : Bytes) : JsonRead String :=
  match pass with
  | .reading _ => JsonText.read bytes
  | .skipping => (JsonText.skip bytes).map fun (_, rest) => ("", rest)

/-- Takes a value that is no array and no object. -/
def scalar (pass : Pass) : Bytes → JsonRead JsonValue
  | [] => .error .truncated
  | b :: rest =>
    if b = byte '-' ∨ isDigit b then number pass (b :: rest)
    else if b = quote then (string pass rest).map fun (s, rest) => (.text s, rest)
    else
      match words.lookup b with
      | some (letters, v) => (word (letters.toList.map byte) rest).map fun (_, rest) => (v, rest)
      | none => .error .malformed

/-- Takes the colon behind a key. -/
def colon (bytes : Bytes) : JsonRead Unit :=
  match skipBlank bytes with
  | [] => .error .truncated
  | b :: rest => if b = byte ':' then .ok ((), rest) else .error .malformed

/-- Takes the quote that opens a key. -/
def keyQuote (bytes : Bytes) : JsonRead Unit :=
  match skipBlank bytes with
  | [] => .error .truncated
  | b :: rest => if b = quote then .ok ((), rest) else .error .malformed

mutual

/-- Takes a value. -/
def value (pass : Pass) (bytes : Bytes) : Nat → JsonRead JsonValue
  | 0 => .error .malformed
  | fuel + 1 =>
    match skipBlank bytes with
    | [] => .error .truncated
    | b :: rest =>
      if b = byte '[' then
        match pass.enter? with
        | none => .error .malformed
        | some inner =>
          match skipBlank rest with
          | [] => .error .truncated
          | c :: after =>
            if c = byte ']' then .ok (.array [], after)
            else (elements inner (c :: after) fuel).map fun (vs, rest) => (.array vs, rest)
      else if b = byte '\x7b' then
        match pass.enter? with
        | none => .error .malformed
        | some inner =>
          match skipBlank rest with
          | [] => .error .truncated
          | c :: after =>
            if c = byte '\x7d' then .ok (.object [], after)
            else (members inner (c :: after) fuel).map fun (ms, rest) =>
              (.object (ms.foldl (fun acc (k, v) => JsonValue.insert k v acc) []), rest)
      else scalar pass (b :: rest)

/-- Takes the elements of an array and its closing bracket. -/
def elements (pass : Pass) (bytes : Bytes) : Nat → JsonRead (List JsonValue)
  | 0 => .error .malformed
  | fuel + 1 =>
    match value pass bytes fuel with
    | .error e => .error e
    | .ok (v, rest) =>
      match skipBlank rest with
      | [] => .error .truncated
      | b :: rest =>
        if b = byte ']' then .ok ([v], rest)
        else if b = byte ',' then
          (elements pass rest fuel).map fun (vs, rest) => (v :: vs, rest)
        else .error .malformed

/-- Takes the members of an object and its closing brace. -/
def members (pass : Pass) (bytes : Bytes) : Nat → JsonRead (List (String × JsonValue))
  | 0 => .error .malformed
  | fuel + 1 =>
    match keyQuote bytes with
    | .error e => .error e
    | .ok ((), rest) =>
      match string pass rest with
      | .error e => .error e
      | .ok (key, rest) =>
        match colon rest with
        | .error e => .error e
        | .ok ((), rest) =>
          match value pass rest fuel with
          | .error e => .error e
          | .ok (v, rest) =>
            match skipBlank rest with
            | [] => .error .truncated
            | b :: rest =>
              if b = byte '\x7d' then .ok ([(key, v)], rest)
              else if b = byte ',' then
                (members pass rest fuel).map fun (ms, rest) => ((key, v) :: ms, rest)
              else .error .malformed

end

/-- Enough fuel for every text of a length: each bracket and each element takes a character. -/
def fuelFor (bytes : Bytes) : Nat := 2 * bytes.length + 2

/-- Takes a value that is read. -/
def readValue (bytes : Bytes) : JsonRead JsonValue :=
  value (.reading maxLevels) bytes (fuelFor bytes)

/-- Passes over a value. -/
def skipValue (fuel : Nat) (bytes : Bytes) : JsonRead Unit :=
  (value .skipping bytes fuel).map fun (_, rest) => ((), rest)

/-- Nothing but blanks may follow the value of a text. -/
def finished {α : Type} : JsonRead α → Except JsonFault α
  | .error e => .error e
  | .ok (a, rest) => if (skipBlank rest).isEmpty then .ok a else .error .malformed

/-- Reads a text as one value. -/
def parse (bytes : Bytes) : Except JsonFault JsonValue := finished (readValue bytes)

end PeerMessaging.Json
