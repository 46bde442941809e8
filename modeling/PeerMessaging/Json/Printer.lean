import PeerMessaging.Json.Text
import PeerMessaging.Json.Value
import PeerMessaging.Number.Shortest

/-!
# Writing JSON

Values are written without blanks. An integer is written with its digits; a floating point number
with the fewest digits that read back, positionally where that is short and with an exponent
elsewhere (`Json.writeReal`); a number that is not finite is written as `null`.
-/

namespace PeerMessaging.Json

open JsonText

/-- The bytes of an ASCII text. -/
def ascii (s : String) : Bytes := s.toList.map byte

/-- Decimal digits as they are written. -/
def digitBytes (ds : List Nat) : Bytes := ds.map fun d => .ofNat (48 + d)

/-- Writes a natural number. -/
def writeNat (n : Nat) : Bytes := digitBytes (Decimal.digits n)

/-- Writes an integer. -/
def writeInt (n : Int) : Bytes := if n < 0 then byte '-' :: writeNat n.natAbs else writeNat n.natAbs

/-- Numbers from this power of ten on are written with an exponent. -/
def positionalDigits : Int := 16

/-- Numbers with this many zeros behind the point are written with an exponent. -/
def leadingZeros : Int := 5

/-- Writes a decimal with its digits and the power of ten of the last one: positionally, with at
least one digit behind the point, or as one digit, a point, the others and an exponent. -/
def writeDecimal (ds : List Nat) (e : Int) : Bytes :=
  let point : Int := e + ds.length
  let zeros (n : Int) : Bytes := List.replicate n.toNat (byte '0')
  if 0 ≤ e ∧ point ≤ positionalDigits then
    digitBytes ds ++ zeros e ++ ascii ".0"
  else if 0 < point ∧ point ≤ positionalDigits then
    digitBytes (ds.take point.toNat) ++ [byte '.'] ++ digitBytes (ds.drop point.toNat)
  else if -leadingZeros < point ∧ point ≤ 0 then
    ascii "0." ++ zeros (-point) ++ digitBytes ds
  else
    let behind := digitBytes (ds.drop 1)
    let exponent := point - 1
    digitBytes (ds.take 1) ++ (if behind.isEmpty then [] else byte '.' :: behind) ++ [byte 'e'] ++
      (if exponent < 0 then [byte '-'] else [byte '+']) ++ writeNat exponent.natAbs

/-- Writes a floating point number. -/
def writeReal (x : Binary64) : Bytes :=
  if x.isFinite then
    let s := x.shortest
    (if x.isNegative then [byte '-'] else []) ++
      writeDecimal (Decimal.digits s.significand) s.exponent
  else
    ascii "null"

/-- Puts commas between the parts of a list. -/
def separated : List Bytes → Bytes
  | [] => []
  | [part] => part
  | part :: parts => part ++ byte ',' :: separated parts

/-- Writes one member of an object. -/
def writeMember (key : String) (value : Bytes) : Bytes := JsonText.write key ++ byte ':' :: value

mutual

/-- Writes a value. -/
def write : JsonValue → Bytes
  | .null => ascii "null"
  | .bool true => ascii "true"
  | .bool false => ascii "false"
  | .integer n => writeInt n
  | .real x => writeReal x
  | .text s => JsonText.write s
  | .array elements => byte '[' :: separated (writeElements elements) ++ [byte ']']
  | .object members => byte '\x7b' :: separated (writeMembers members) ++ [byte '\x7d']

/-- Writes the elements of an array. -/
def writeElements : List JsonValue → List Bytes
  | [] => []
  | v :: vs => write v :: writeElements vs

/-- Writes the members of an object. -/
def writeMembers : List (String × JsonValue) → List Bytes
  | [] => []
  | (k, v) :: rest => writeMember k (write v) :: writeMembers rest

end

end PeerMessaging.Json
