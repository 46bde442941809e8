import PeerMessaging.Json.Parser
import PeerMessaging.Json.Printer

/-!
# Records as JSON

A record has named fields of fixed kinds (`RecordType`). It is written as an object with its fields
in order, and read from an object with the fields in any order, or from an array of exactly its
fields. Members that are no fields are passed over. A token of the wrong type is a fault of its own,
once it is known to be a token.
-/

namespace PeerMessaging.Json

open JsonText

/-- The kinds of field. -/
inductive FieldKind
  /-- An integer of 32 bits with a sign. -/
  | int32
  /-- A floating point number. -/
  | real
  /-- A text. -/
  | text
  deriving DecidableEq, Repr

/-- The value of a field. -/
inductive FieldValue
  | int32 (value : Int32)
  | real (value : Binary64)
  | text (value : String)
  deriving DecidableEq

/-- The fields of a record with their kinds, in order. -/
abbrev RecordType := List (String × FieldKind)

/-- Writes the value of a field. -/
def FieldValue.write : FieldValue → Bytes
  | int32 n => writeInt n.toInt
  | real x => writeReal x
  | text s => JsonText.write s

/-- Writes a record. -/
def writeRecord (fields : List (String × FieldValue)) : Bytes :=
  byte '\x7b' :: separated (fields.map fun (k, v) => writeMember k v.write) ++ [byte '\x7d']

/-- The fault of a token that is not of the expected type: its own, if it has one. -/
def wrongType (bytes : Bytes) : JsonFault :=
  match bytes with
  | [] => .truncated
  | b :: _ =>
    if b = byte '[' ∨ b = byte '\x7b' then .unexpected
    else
      match scalar (.reading maxLevels) bytes with
      | .error e => e
      | .ok _ => .unexpected

/-- The value that a number gives to a field of a kind. -/
def fieldOfNumber? : FieldKind → JsonValue → Option FieldValue
  | .int32, .integer n =>
    if -0x80000000 ≤ n ∧ n < 0x80000000 then some (.int32 (.ofInt n)) else none
  | .real, .integer n => some (.real (.ofMagnitude (n < 0) (Binary64.ofNat n.natAbs)))
  | .real, .real x => some (.real x)
  | _, _ => none

/-- Takes the value of a field. -/
def readField (kind : FieldKind) (bytes : Bytes) : JsonRead FieldValue :=
  match skipBlank bytes with
  | [] => .error .truncated
  | b :: rest =>
    if kind = .text then
      if b = quote then (JsonText.read rest).map fun (s, rest) => (.text s, rest)
      else .error (wrongType (b :: rest))
    else if b = byte '-' ∨ isDigit b then
      match number (.reading maxLevels) (b :: rest) with
      | .error e => .error e
      | .ok (v, rest) =>
        match fieldOfNumber? kind v with
        | some f => .ok (f, rest)
        | none => .error .unexpected
    else .error (wrongType (b :: rest))

/-- Takes the fields behind the first one from an array, and its closing bracket. -/
def readElements : RecordType → Bytes → JsonRead (List FieldValue)
  | [], bytes =>
    match skipBlank bytes with
    | [] => .error .truncated
    | b :: rest => if b = byte ']' then .ok ([], rest) else .error .malformed
  | (_, kind) :: fields, bytes =>
    match skipBlank bytes with
    | [] => .error .truncated
    | b :: rest =>
      if b = byte ']' then .error .unexpected
      else if b = byte ',' then
        match skipBlank rest with
        | [] => .error .truncated
        | c :: rest =>
          if c = byte ']' then .error .malformed
          else
            match readField kind (c :: rest) with
            | .error e => .error e
            | .ok (v, rest) =>
              (readElements fields rest).map fun (vs, rest) => (v :: vs, rest)
      else .error .malformed

/-- Takes the fields of a record from an array whose opening bracket has been taken. -/
def readArray (type : RecordType) (bytes : Bytes) : JsonRead (List FieldValue) :=
  match type with
  | [] => readElements [] bytes
  | (_, kind) :: fields =>
    match skipBlank bytes with
    | [] => .error .truncated
    | b :: rest =>
      if b = byte ']' then .error .unexpected
      else
        match readField kind (b :: rest) with
        | .error e => .error e
        | .ok (v, rest) => (readElements fields rest).map fun (vs, rest) => (v :: vs, rest)

/-- Takes one member of an object, whose key is still to come. A field may be given once. -/
def readMember (type : RecordType) (fuel : Nat) (found : List (String × FieldValue))
    (bytes : Bytes) : JsonRead (List (String × FieldValue)) :=
  match keyQuote bytes with
  | .error e => .error e
  | .ok ((), rest) =>
    match JsonText.read rest with
    | .error e => .error e
    | .ok (key, rest) =>
      match type.lookup key with
      | none =>
        match colon rest with
        | .error e => .error e
        | .ok ((), rest) => (skipValue fuel rest).map fun ((), rest) => (found, rest)
      | some kind =>
        if (found.lookup key).isSome then .error .unexpected
        else
          match colon rest with
          | .error e => .error e
          | .ok ((), rest) => (readField kind rest).map fun (v, rest) => ((key, v) :: found, rest)

/-- The values of the fields in order, if each was given. -/
def collect? (type : RecordType) (found : List (String × FieldValue)) : Option (List FieldValue) :=
  type.mapM fun (name, _) => found.lookup name

/-- Takes the members behind the first one from an object, and its closing brace. -/
def readMembers (type : RecordType) (found : List (String × FieldValue)) (bytes : Bytes) :
    Nat → JsonRead (List FieldValue)
  | 0 => .error .malformed
  | fuel + 1 =>
    match skipBlank bytes with
    | [] => .error .truncated
    | b :: rest =>
      if b = byte '\x7d' then
        match collect? type found with
        | some vs => .ok (vs, rest)
        | none => .error .unexpected
      else if b = byte ',' then
        match readMember type fuel found rest with
        | .error e => .error e
        | .ok (found, rest) => readMembers type found rest fuel
      else .error .malformed

/-- Takes the fields of a record from an object whose opening brace has been taken. -/
def readObject (type : RecordType) (bytes : Bytes) : JsonRead (List FieldValue) :=
  match skipBlank bytes with
  | [] => .error .truncated
  | b :: rest =>
    if b = byte '\x7d' then
      match collect? type [] with
      | some vs => .ok (vs, rest)
      | none => .error .unexpected
    else
      let fuel := fuelFor rest
      match readMember type fuel [] (b :: rest) with
      | .error e => .error e
      | .ok (found, rest) => readMembers type found rest fuel

/-- Takes a record. -/
def readRecord (type : RecordType) (bytes : Bytes) : JsonRead (List FieldValue) :=
  match skipBlank bytes with
  | [] => .error .truncated
  | b :: rest =>
    if b = byte '[' then readArray type rest
    else if b = byte '\x7b' then readObject type rest
    else .error (wrongType (b :: rest))

/-- Reads a text as one record. -/
def parseRecord (type : RecordType) (bytes : Bytes) : Except JsonFault (List FieldValue) :=
  finished (readRecord type bytes)

end PeerMessaging.Json
