import PeerMessaging.Net.IoError
import PeerMessaging.Net.Literal

/-!
# Reaching a peer

Before a socket is opened its address is found (`resolve`): a host given by its digits stands for
itself, and any other name is looked up. What goes wrong on the way to a stream, and in setting one
up, is a `TransportError`.
-/

namespace PeerMessaging

/-- Why a socket could not be opened or set up. -/
inductive TransportError
  /-- No address was found for a host. -/
  | resolve (host : String) (port : UInt16) (cause : IoError)
  /-- The address could not be bound. -/
  | bind (address : SocketAddress) (cause : IoError)
  /-- The address could not be connected to. -/
  | connect (address : SocketAddress) (cause : IoError)
  /-- A waiting peer could not be accepted. -/
  | accept (cause : IoError)
  /-- The socket failed otherwise. -/
  | io (cause : IoError)
  deriving DecidableEq

namespace TransportError

/-- The error of the socket call behind an error. -/
def cause : TransportError → IoError
  | resolve _ _ c | bind _ c | connect _ c | accept c | io c => c

/-- The text of an error. -/
def message : TransportError → String
  | resolve host port c =>
    "failed to resolve " ++ host ++ ":" ++ toString port.toNat ++ ": " ++ c.message
  | bind address c => "failed to bind to " ++ address.text ++ ": " ++ c.message
  | connect address c => "failed to connect to " ++ address.text ++ ": " ++ c.message
  | accept c => "failed to accept connection: " ++ c.message
  | io c => "transport I/O error: " ++ c.message

/-- The texts of the errors behind an error. That of a failed accept is only part of its text. -/
def causes : TransportError → List String
  | accept _ => []
  | e => [e.cause.message]

/-- The error number of the operating system behind an error. -/
def osCode (e : TransportError) : Option Int := e.cause.osCode

end TransportError

/-- The addresses of a host known by name. -/
abbrev NameService := String → Except IoError (List IpAddress)

/-- The error of a host name with a NUL in it. -/
def nulInName : IoError := .described .invalidInput "file name contained an unexpected NUL byte"

/-- The error of a host name that has no address. -/
def noAddress : IoError := .described .addressNotAvailable "address resolved to nothing"

/-- A name service that knows no host. -/
def NameService.none : NameService := fun _ =>
  .error (.described .uncategorized
    "failed to lookup address information: Name or service not known")

/-- Finds the address of a host: the one it spells, or the first of its name. -/
def resolve (names : NameService) (host : String) (port : UInt16) :
    Except TransportError SocketAddress :=
  match HostAddress.parse? host with
  | some a => .ok { ip := a.ip, port, zone := a.zone }
  | Option.none =>
    if host.toList.contains '\x00' then .error (.resolve host port nulInName)
    else
      match names host with
      | .error e => .error (.resolve host port e)
      | .ok [] => .error (.resolve host port noAddress)
      | .ok (ip :: _) => .ok { ip, port }

end PeerMessaging
