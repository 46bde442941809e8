import PeerMessaging.Bytes
import PeerMessaging.Json.Value

/-!
# Message bodies

A message carries a type id and a body. A body is a value of one of a few types (`Body`), which are
never confused: bytes handed on as they are and a list of bytes are different types even when they
hold the same bytes. Which type a body has is its kind (`Body.kind`), and a body is only ever taken
out of a message as the type that it has (`Message.bodyOf?`).
-/

namespace PeerMessaging

/-- A point on a plane. -/
structure Position where
  x : Int32
  y : Int32
  deriving DecidableEq

/-- A line of a conversation. -/
structure Chat where
  sender : String
  text : String
  deriving DecidableEq

/-- What a sensor measured. -/
structure Reading where
  sensor : String
  value : Binary64
  deriving DecidableEq

/-- What a message carries. -/
inductive Body
  /-- A payload handed on as it is. -/
  | raw (bytes : Bytes)
  /-- A list of bytes. -/
  | octets (bytes : Bytes)
  | text (value : String)
  | number (value : UInt64)
  | nothing
  | position (value : Position)
  | chat (value : Chat)
  | reading (value : Reading)
  | json (value : JsonValue)

/-- The types of body. -/
inductive Body.Kind
  | raw
  | octets
  | text
  | number
  | nothing
  | position
  | chat
  | reading
  | json
  deriving DecidableEq, Repr

/-- The type of a body. -/
def Body.kind : Body → Kind
  | raw _ => .raw
  | octets _ => .octets
  | text _ => .text
  | number _ => .number
  | nothing => .nothing
  | position _ => .position
  | chat _ => .chat
  | reading _ => .reading
  | json _ => .json

/-- A body under the id of its message type. -/
structure Message where
  typeId : UInt32
  body : Body

namespace Message

/-- A message whose body is its payload. -/
def raw (typeId : UInt32) (payload : Bytes) : Message := ⟨typeId, .raw payload⟩

/-- The body is of a type. -/
def is (m : Message) (kind : Body.Kind) : Bool := m.body.kind = kind

/-- The body, if it is of a type. -/
def bodyOf? (m : Message) (kind : Body.Kind) : Option Body :=
  if m.is kind then some m.body else none

/-- Puts another body of the same type in the place of the body. -/
def setBody? (m : Message) (body : Body) : Option Message :=
  if m.is body.kind then some { m with body } else none

/-- Takes the body out as a type, or hands the message back. -/
def intoBody (m : Message) (kind : Body.Kind) : Except Message Body :=
  match m.bodyOf? kind with
  | some body => .ok body
  | none => .error m

/-- How a message is shown. Only a raw body says something about itself. -/
def describe (m : Message) : String :=
  let body :=
    match m.body with
    | .raw bytes => "<" ++ toString bytes.length ++ " raw bytes>"
    | _ => "<opaque>"
  "Message \x7b type_id: " ++ toString m.typeId.toNat ++ ", body: " ++ body ++ " \x7d"

end Message

end PeerMessaging
