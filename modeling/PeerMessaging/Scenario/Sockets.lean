import PeerMessaging.Scenario.Network

/-!
# Sockets on one host

A listening socket and streams under names, used directly (`Sockets`). Several names may stand for
one end of a stream, which is closed when the last of them is dropped. Nothing happens but what is
called, so a read that would have to wait runs into its time limit.
-/

namespace PeerMessaging

/-- How reading a number of bytes ends. -/
inductive ReadEnd
  | complete (bytes : Bytes)
  /-- The stream ended before. -/
  | eof (bytes : Bytes)
  /-- The time limit was reached before. -/
  | timeout (bytes : Bytes)
  | failed (error : TransportError)

/-- A listening socket and streams on a host. -/
structure Sockets where
  host : Host
  listener : Option SocketAddress := none
  /-- The streams, by the numbers of their ends. -/
  streams : List (String × Nat) := []

namespace Sockets

/-- The address of the listening socket. -/
def listening (s : Sockets) : Except Halt SocketAddress := Halt.require s.listener

/-- The end of a stream under a name. -/
def stream (s : Sockets) (name : String) : Except Halt StreamEnd := do
  Halt.require (s.host.ends[← Halt.find name s.streams]?)

/-- The number of the end under a name that is to be read or written. -/
def ready (s : Sockets) (name : String) : Except Halt Nat := Halt.require (s.streams.lookup name)

/-- Puts an end of a stream under a name. -/
def put (s : Sockets) (name : String) (id : Nat) : Sockets :=
  { s with streams := (name, id) :: s.streams.filter (·.1 ≠ name) }

/-- Finds an address and binds it. -/
def bindAt (s : Sockets) (name : String) (port : UInt16) :
    Except TransportError (SocketAddress × Host) := do
  let address ← resolve .none name port
  match s.host.bind address with
  | (.ok bound, host) => return (bound, host)
  | (.error e, _) => throw (.bind address e)

/-- Listens on a port that the host chooses; the answer is the address. -/
def bind (s : Sockets) : Except TransportError SocketAddress × Sockets :=
  match s.bindAt "127.0.0.1" 0 with
  | .ok (address, host) => (.ok address, { s with host, listener := some address })
  | .error e => (.error e, s)

/-- Binds the address of the listening socket once more. -/
def bindAgain (s : Sockets) : Except Halt (Except TransportError Unit) := do
  let address ← s.listening
  match s.host.bind address with
  | (.ok _, _) => return .ok ()
  | (.error e, _) => return .error (.bind address e)

/-- Stops listening. -/
def unbind (s : Sockets) : Sockets :=
  { s with host := s.listener.elim s.host s.host.unbind, listener := none }

/-- Accepts a stream under a name; the answer is `false` if none waits. -/
def accept (s : Sockets) (name : String) : Except Halt (Bool × Sockets) := do
  match s.host.accept (← s.listening) with
  | (some id, host) => return (true, { s with host }.put name id)
  | (none, _) => return (false, s)

/-- Opens a stream under a name, to a port of this host or to the listening socket. -/
def connect (s : Sockets) (name : String) (limit : Option Duration) (port : Option UInt16) :
    Except Halt (Except TransportError Unit × Sockets) := do
  let port ← match port with
    | some port => pure port
    | none => do pure (← s.listening).port
  let address := Scenario.loopbackPort port
  match s.host.connect address limit with
  | (.ok id, host) => return (.ok (), { s with host }.put name id)
  | (.error e, _) => return (.error (.connect address e), s)

/-- Puts a stream under another name too. -/
def clone (s : Sockets) (name new : String) : Except Halt Sockets := do
  return s.put new (← Halt.find name s.streams)

/-- Writes bytes; the answer is how many were taken. -/
def write (s : Sockets) (name : String) (bytes : Bytes) :
    Except Halt (Except TransportError Nat × Sockets) := do
  let id ← s.ready name
  match s.host.writes id with
  | ⟨.fail e, _⟩ :: _ => return (.error (.io e), s)
  | _ => return (.ok bytes.length, { s with host := s.host.deliver id bytes })

/-- Reads until so many bytes are there. -/
def read (s : Sockets) (name : String) (count : Nat) : Except Halt (ReadEnd × Sockets) := do
  let id ← s.ready name
  let e ← s.stream name
  let bytes := e.received.take count
  let host := s.host.modifyEnd id fun e => { e with received := e.received.drop count }
  let result : ReadEnd :=
    if bytes.length = count then .complete bytes
    else if e.wasReset then .failed (.io (.system 104))
    else if e.ended then .eof bytes
    else .timeout bytes
  return (result, { s with host })

/-- Sets a time limit of a stream, which cannot be zero. -/
def setTimeout (s : Sockets) (name : String) (limit : Option Duration) :
    Except Halt (Except TransportError Unit) := do
  let _ ← s.stream name
  return if limit = some 0 then .error (.io .zeroDuration) else .ok ()

/-- Shuts a stream down in both directions. -/
def shutdown (s : Sockets) (name : String) : Except Halt Sockets := do
  let id ← Halt.find name s.streams
  let host := (s.host.shutdown id).modifyEnd id fun e => { e with ended := true }
  return { s with host }

/-- Drops a name. -/
def drop (s : Sockets) (name : String) : Sockets :=
  let streams := s.streams.filter (·.1 ≠ name)
  match s.streams.lookup name with
  | some id =>
    if streams.any (·.2 = id) then { s with streams }
    else { s with streams, host := s.host.close id }
  | none => s

/-- Two ends have each other's addresses. -/
def addresses (s : Sockets) (a b : String) : Except Halt (Bool × Bool) := do
  let a ← s.stream a
  let b ← s.stream b
  return (a.address = b.peerAddress, a.peerAddress = b.address)

/-- How a stream is shown. -/
def describe (s : Sockets) (name : String) : Except Halt String := do
  let e ← s.stream name
  return "NetStream \x7b type: \"tcp\", peer: " ++ e.peerAddress.text ++ " \x7d"

/-- How the listening socket is shown. -/
def describeListener (s : Sockets) : Except Halt String := do
  return "TcpTransport \x7b addr: " ++ (← s.listening).text ++ " \x7d"

end Sockets

end PeerMessaging
