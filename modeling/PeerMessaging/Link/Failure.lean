import PeerMessaging.Link.Lifecycle
import PeerMessaging.Message.Registry
import PeerMessaging.Net.Transport
import PeerMessaging.Wire.Frame

/-!
# Failures of a connection

A call on a connection that cannot be carried out is answered with a `PeerError`. What goes wrong
while the connection runs is a `ConnectionError`, which is kept as the last error and told to the
listeners. A fatal one ends the connection; any other only drops the message it is about. How a
failed read is classified is `ConnectionError.ofReceive`, and how a message that could not be
encoded or decoded is, `ConnectionError.ofRegistry`.
-/

namespace PeerMessaging

/-- Why a call on a connection was refused. -/
inductive PeerError
  | transport (cause : TransportError)
  | frame (cause : FrameError)
  | registry (cause : RegistryError)
  /-- The operation is not allowed in this state. -/
  | invalidState (operation : String) (state : ConnectionState)
  /-- The loop could not be started. -/
  | spawn (cause : IoError)
  deriving DecidableEq

/-- The texts of the errors behind an error of a stream of frames. -/
def FrameError.causes : FrameError → List String
  | .io e => [e.message]
  | _ => []

namespace PeerError

/-- The text of an error. -/
def message : PeerError → String
  | transport cause => "transport error: " ++ cause.message
  | frame cause => "frame error: " ++ cause.message
  | registry cause => "registry error: " ++ cause.message
  | invalidState operation state => "cannot " ++ operation ++ " while " ++ state.text
  | spawn cause => "failed to spawn I/O loop: " ++ cause.message

/-- The texts of the errors behind an error. -/
def causes : PeerError → List String
  | transport cause => cause.message :: cause.causes
  | frame cause => cause.message :: cause.causes
  | registry cause => cause.message :: cause.causes
  | invalidState .. => []
  | spawn cause => [cause.message]

/-- The error number of the operating system behind an error. -/
def osCode : PeerError → Option Int
  | transport cause => cause.osCode
  | frame cause => cause.osCode
  | spawn cause => cause.osCode
  | registry _ | invalidState .. => none

end PeerError

/-- What went wrong on a connection. -/
inductive ErrorKind
  | connectFailed
  | bindFailed
  | acceptFailed
  | sendFailed
  | receiveFailed
  /-- The peer ended or reset the stream. -/
  | connectionReset
  /-- The peer speaks another protocol. -/
  | unknownProtocol
  /-- The length of a frame is negative or too large. -/
  | invalidMessage
  /-- No codec is registered for a message. -/
  | unknownMessageType
  /-- A codec refused a message. -/
  | parseFailed
  deriving DecidableEq, Repr

/-- The words for a kind of error. -/
def ErrorKind.text : ErrorKind → String
  | connectFailed => "connect failed"
  | bindFailed => "bind failed"
  | acceptFailed => "accept failed"
  | sendFailed => "send failed"
  | receiveFailed => "receive failed"
  | connectionReset => "connection reset"
  | unknownProtocol => "unknown protocol"
  | invalidMessage => "invalid message"
  | unknownMessageType => "unknown message type"
  | parseFailed => "parse failed"

/-- The kinds of error. -/
def ErrorKind.all : List ErrorKind :=
  [connectFailed, bindFailed, acceptFailed, sendFailed, receiveFailed, connectionReset,
    unknownProtocol, invalidMessage, unknownMessageType, parseFailed]

/-- The name of a kind where it is shown as a value. -/
def ErrorKind.name : ErrorKind → String
  | connectFailed => "ConnectFailed"
  | bindFailed => "BindFailed"
  | acceptFailed => "AcceptFailed"
  | sendFailed => "SendFailed"
  | receiveFailed => "ReceiveFailed"
  | connectionReset => "ConnectionReset"
  | unknownProtocol => "UnknownProtocol"
  | invalidMessage => "InvalidMessage"
  | unknownMessageType => "UnknownMessageType"
  | parseFailed => "ParseFailed"

/-- An error of a running connection. -/
structure ConnectionError where
  kind : ErrorKind
  message : String
  /-- The error ends the connection. -/
  fatal : Bool := false
  /-- The error number of the operating system. -/
  osCode : Option Int := none
  deriving DecidableEq, Repr

namespace ConnectionError

/-- The text of an error. -/
def text (e : ConnectionError) : String := e.kind.text ++ ": " ++ e.message

/-- A socket could not be opened. -/
def ofTransport (kind : ErrorKind) (e : TransportError) : ConnectionError :=
  ⟨kind, e.message, true, e.osCode⟩

/-- A stream could not be set up. -/
def ofPeer (kind : ErrorKind) (e : PeerError) : ConnectionError :=
  ⟨kind, e.message, true, e.osCode⟩

/-- A stream of frames failed. -/
def ofFrame (kind : ErrorKind) (e : FrameError) : ConnectionError :=
  ⟨kind, e.message, true, e.osCode⟩

/-- The kind of error that a failed read is. -/
def receiveKind : FrameError → ErrorKind
  | .unknownProtocol .. => .unknownProtocol
  | .invalidLength _ | .payloadTooLarge .. => .invalidMessage
  | .connectionClosed => .connectionReset
  | .io e => if e.isReset then .connectionReset else .receiveFailed

/-- A read failed. -/
def ofReceive (e : FrameError) : ConnectionError := ofFrame (receiveKind e) e

/-- The kind of error that a message without a fitting codec is. -/
def registryKind : RegistryError → ErrorKind
  | .unknownType _ | .unknownTypeName _ => .unknownMessageType
  | .duplicateType .. | .encode .. | .decode .. => .parseFailed

/-- A message could not be encoded or decoded, and is dropped. -/
def ofRegistry (e : RegistryError) : ConnectionError := ⟨registryKind e, e.message, false, none⟩

end ConnectionError

end PeerMessaging
