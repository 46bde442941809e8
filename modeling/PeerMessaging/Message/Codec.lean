import PeerMessaging.Json.Record
import PeerMessaging.Message.Body
import PeerMessaging.Text.Quoted

/-!
# Codecs

A codec turns the bodies of one message type into payloads and payloads into bodies (`Codec`). It is
known by the name of its message type and may refuse either. Raw codecs hand payloads on
(`Codec.raw`), JSON codecs write a record or a value (`Codec.position`, `Codec.chat`,
`Codec.reading`, `Codec.json`), and a codec can refuse everything (`Codec.refusing`).
-/

namespace PeerMessaging

/-- What a fault of a text is called. -/
def JsonFault.message : JsonFault → String
  | .truncated => "unexpected end of text"
  | .malformed => "malformed text"
  | .unexpected => "value of an unexpected type"

/-- Why a codec refused a body or a payload. -/
inductive CodecError
  /-- The body is not of the type that the codec takes. -/
  | typeMismatch (expected : String)
  /-- The payload is not the JSON text that is expected. -/
  | json (fault : JsonFault)
  /-- A reason of the codec's own. -/
  | other (reason : String)
  deriving DecidableEq, Repr

namespace CodecError

/-- The text of an error. -/
def message : CodecError → String
  | typeMismatch expected => "message body is not a " ++ expected
  | json fault => "json error: " ++ fault.message
  | other reason => reason

/-- The texts of the errors behind an error. -/
def causes : CodecError → List String
  | json fault => [fault.message]
  | _ => []

end CodecError

/-- Turns bodies into payloads and back. -/
structure Codec where
  /-- The name of the message type. -/
  typeName : String
  /-- How the codec is shown. -/
  description : String
  encode : Body → Except CodecError Bytes
  decode : Bytes → Except CodecError Body

namespace Codec

/-- Hands payloads on as they are. A list of bytes is taken too, and comes back as a raw body. -/
def raw (name : String) : Codec where
  typeName := name
  description := "RawCodec \x7b name: " ++ quoted name ++ " \x7d"
  encode
    | .raw bytes | .octets bytes => .ok bytes
    | _ => .error (.typeMismatch "Bytes")
  decode payload := .ok (.raw payload)

/-- Refuses every body and every payload. -/
def refusing (name reason : String) : Codec where
  typeName := name
  description := "FailCodec \x7b name: " ++ quoted name ++ ", reason: " ++ quoted reason ++ " \x7d"
  encode _ := .error (.other reason)
  decode _ := .error (.other reason)

/-- How the values of a type are written as JSON and read. -/
structure Form (α : Type) where
  /-- What the type is called in errors. -/
  label : String
  /-- The body that holds a value. -/
  toBody : α → Body
  /-- The value that a body holds, if it is of the type. -/
  ofBody? : Body → Option α
  write : α → Bytes
  parse : Bytes → Except JsonFault α

/-- Writes the values of a type as JSON. -/
def ofForm {α : Type} (form : Form α) (name : String) : Codec where
  typeName := name
  description :=
    "JsonCodec \x7b name: " ++ quoted name ++ ", rust_type: " ++ quoted form.label ++ " \x7d"
  encode body :=
    match form.ofBody? body with
    | some a => .ok (form.write a)
    | none => .error (.typeMismatch form.label)
  decode payload :=
    match form.parse payload with
    | .ok a => .ok (form.toBody a)
    | .error fault => .error (.json fault)

/-- Reads a record and makes a value of its fields. -/
def parseFields {α : Type} (type : Json.RecordType) (make : List Json.FieldValue → Option α)
    (payload : Bytes) : Except JsonFault α :=
  match Json.parseRecord type payload with
  | .error fault => .error fault
  | .ok fields =>
    match make fields with
    | some a => .ok a
    | none => .error .unexpected

/-- Positions, with the fields `x` and `y`. -/
def positionForm (label : String) : Form Position where
  label
  toBody := .position
  ofBody?
    | .position p => some p
    | _ => none
  write p := Json.writeRecord [("x", .int32 p.x), ("y", .int32 p.y)]
  parse := parseFields [("x", .int32), ("y", .int32)] fun
    | [.int32 x, .int32 y] => some ⟨x, y⟩
    | _ => none

/-- Lines of a conversation, with the fields `from` and `text`. -/
def chatForm (label : String) : Form Chat where
  label
  toBody := .chat
  ofBody?
    | .chat c => some c
    | _ => none
  write c := Json.writeRecord [("from", .text c.sender), ("text", .text c.text)]
  parse := parseFields [("from", .text), ("text", .text)] fun
    | [.text sender, .text text] => some ⟨sender, text⟩
    | _ => none

/-- Measurements, with the fields `sensor` and `value`. -/
def readingForm (label : String) : Form Reading where
  label
  toBody := .reading
  ofBody?
    | .reading r => some r
    | _ => none
  write r := Json.writeRecord [("sensor", .text r.sensor), ("value", .real r.value)]
  parse := parseFields [("sensor", .text), ("value", .real)] fun
    | [.text sensor, .real value] => some ⟨sensor, value⟩
    | _ => none

/-- Any JSON value. -/
def jsonForm (label : String) : Form JsonValue where
  label
  toBody := .json
  ofBody?
    | .json v => some v
    | _ => none
  write := Json.write
  parse := Json.parse

/-- A codec of positions. -/
def position (label name : String) : Codec := ofForm (positionForm label) name

/-- A codec of lines of a conversation. -/
def chat (label name : String) : Codec := ofForm (chatForm label) name

/-- A codec of measurements. -/
def reading (label name : String) : Codec := ofForm (readingForm label) name

/-- A codec of JSON values. -/
def json (label name : String) : Codec := ofForm (jsonForm label) name

end Codec

end PeerMessaging
