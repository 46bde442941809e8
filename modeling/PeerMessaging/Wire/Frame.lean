import PeerMessaging.Net.IoError
import PeerMessaging.Time
import PeerMessaging.Wire.Version

/-!
# Frames

What travels between two peers is a sequence of items (`Item`): data frames, each a message type id
with a payload, and keepalives, which say only that the peer is there. `FrameConfig` holds what the
two sides have to agree on, and `FrameError` the ways in which reading or writing frames fails.
-/

namespace PeerMessaging

/-- A data frame: the id of a message type and the encoded message. -/
structure Frame where
  typeId : UInt32
  payload : Bytes
  deriving DecidableEq, Repr

/-- One item on the wire. -/
inductive Item
  | keepalive
  | frame (frame : Frame)
  deriving DecidableEq, Repr

/-- The length of a data frame's header: protocol word, payload length and type id. -/
def headerSize : Nat := 12

/-- The length of a keepalive, which is one word. -/
def keepaliveSize : Nat := 4

/-- The word that stands for a keepalive. -/
def keepaliveWord : UInt32 := 0

/-- The most bytes that a payload may have on the wire: its length is a signed word. -/
def maxWireLength : Nat := 0x7FFFFFFF

/-- The bytes that a frame takes on the wire. -/
def Frame.wireSize (f : Frame) : Nat := headerSize + f.payload.length

/-- The bytes that an item takes on the wire. -/
def Item.wireSize : Item → Nat
  | .keepalive => keepaliveSize
  | .frame f => f.wireSize

/-- What a stream of frames is read and written with. -/
structure FrameConfig where
  /-- The version written to the peer, whose signature is expected of it. -/
  protocol : ProtocolVersion := .standard
  /-- The longest payload, in bytes, that is sent or taken. -/
  maxPayload : Nat := 16 * 1024 * 1024
  /-- The time limit of one read. -/
  readTimeout : Option Duration := none
  /-- The time limit of one write. -/
  writeTimeout : Option Duration := none
  deriving DecidableEq, Repr

instance : Inhabited FrameConfig := ⟨{}⟩

/-- Why frames could not be read or written. -/
inductive FrameError
  /-- The first word of an item carries another protocol's signature. -/
  | unknownProtocol (header : UInt32) (expected : UInt16)
  /-- The payload length is negative as a signed word. -/
  | invalidLength (length : Int)
  /-- The payload is longer than allowed. -/
  | payloadTooLarge (size max : Nat)
  /-- The stream failed. -/
  | io (error : IoError)
  /-- The stream has ended. -/
  | connectionClosed
  deriving DecidableEq, Repr

namespace FrameError

/-- The text of an error. -/
def message : FrameError → String
  | unknownProtocol header expected =>
    "unknown protocol header 0x" ++ hex 8 header.toNat ++ " (expected signature 0x" ++
      hex 4 expected.toNat ++ ")"
  | invalidLength length => "invalid frame length " ++ toString length
  | payloadTooLarge size max =>
    "payload too large (" ++ toString size ++ " bytes, max " ++ toString max ++ ")"
  | io e => "frame I/O error: " ++ e.message
  | connectionClosed => "connection closed"

/-- The bytes read are not what the protocol allows, so nothing after them can be trusted. -/
def isProtocolViolation : FrameError → Bool
  | unknownProtocol .. | invalidLength _ | payloadTooLarge .. => true
  | io _ | connectionClosed => false

/-- The error number of the operating system behind an error. -/
def osCode : FrameError → Option Int
  | io e => e.osCode
  | _ => none

end FrameError

end PeerMessaging
