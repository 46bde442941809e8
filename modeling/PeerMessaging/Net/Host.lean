import PeerMessaging.Net.Transport
import PeerMessaging.Stream.Input
import PeerMessaging.Stream.Output

/-!
# A host with its sockets

The sockets of one host (`Host`): those that listen, and the ends of streams between two of them. No
two sockets listen where one address reaches both (`Host.isTaken`). A stream delivers at once and in
order. The end of a stream is found after the bytes sent before it; a stream whose other end was
closed with bytes unread is reset, and so is one that is written to after the other end was closed.
On a host without routes no stream can be opened at all.
-/

namespace PeerMessaging

/-- A socket that listens, with the streams that wait to be accepted. -/
structure ListeningSocket where
  address : SocketAddress
  waiting : List Nat := []
  deriving DecidableEq

/-- An end of a stream. -/
structure StreamEnd where
  address : SocketAddress
  peerAddress : SocketAddress
  /-- The number of the other end. -/
  other : Nat
  /-- The bytes that have arrived and are not read. -/
  received : Bytes := []
  /-- No more bytes will arrive. -/
  ended : Bool := false
  /-- The stream was reset, and nobody has been told. -/
  wasReset : Bool := false
  /-- Nothing more can be sent. -/
  shut : Bool := false
  /-- The end is closed. -/
  closed : Bool := false
  deriving DecidableEq

/-- The first of the ports that a host chooses. -/
def Host.firstPort : UInt16 := 49152

/-- A host: its sockets and what can be reached from it. -/
structure Host where
  /-- Streams can be opened. -/
  routed : Bool := true
  /-- The addresses that are the host's own. -/
  isOwn : IpAddress → Bool := fun _ => true
  /-- The numbers of the zones that the host is in. -/
  zones : List UInt32 := [1]
  listening : List ListeningSocket := []
  ends : Array StreamEnd := #[]
  /-- The port that is chosen next. -/
  nextPort : UInt16 := Host.firstPort

namespace Host

/-- The address 127.0.0.1. -/
def loopback : IpAddress := .v4 ⟨127, 0, 0, 1⟩

/-- A host that can be reached from itself, under its loopback addresses. -/
def reachable : Host :=
  { isOwn := fun
      | .v4 ip => ip.a = 127 ∨ ip = ⟨0, 0, 0, 0⟩
      | .v6 ip => ip.groups.toList.take 7 = List.replicate 7 0 }

/-- A host without routes and without addresses. It takes any IPv4 address for its own. -/
def isolated : Host :=
  { routed := false
    isOwn := fun ip =>
      match ip.mapped with
      | .v4 _ => true
      | .v6 _ => ip.isAny }

/-- The ports that were chosen by the host. -/
def chosenPorts (h : Host) : List Nat :=
  (List.range (h.nextPort - firstPort).toNat).map (firstPort.toNat + ·)

/-- The socket that is reached under an address. -/
def listener? (h : Host) (address : SocketAddress) : Option ListeningSocket :=
  h.listening.find? fun l => l.address.port = address.port && l.address.ip.covers address.ip

/-- A socket listens where one on the address would be reached. -/
def isTaken (h : Host) (address : SocketAddress) : Bool :=
  h.listening.any fun l =>
    l.address.port = address.port &&
      (l.address.ip.covers address.ip || address.ip.covers l.address.ip)

/-- Chooses a port if none is asked for. -/
def choosePort (h : Host) (address : SocketAddress) : SocketAddress × Host :=
  if address.port = 0 then
    ({ address with port := h.nextPort }, { h with nextPort := h.nextPort + 1 })
  else (address, h)

/-- Binds a socket to an address and listens on it. The address has to be the host's own, in a zone
of the host where it needs one, and free. -/
def bind (h : Host) (address : SocketAddress) : Except IoError SocketAddress × Host :=
  if address.ip.isMulticastV6 || address.lacksZone then (.error (.system 22), h)
  else if address.ip.isLinkLocal && !h.zones.contains address.zone then (.error (.system 19), h)
  else if !h.isOwn address.ip then (.error (.system 99), h)
  else if address.port ≠ 0 && h.isTaken address then (.error (.system 98), h)
  else
    let (address, h) := h.choosePort address
    (.ok address, { h with listening := ⟨address, []⟩ :: h.listening })

/-- Changes an end of a stream. -/
def modifyEnd (h : Host) (id : Nat) (f : StreamEnd → StreamEnd) : Host :=
  { h with ends := h.ends.modify id f }

/-- Stops listening on an address. The streams that wait are reset. -/
def unbind (h : Host) (address : SocketAddress) : Host :=
  let gone := h.listening.filter (·.address = address)
  let h := { h with listening := h.listening.filter (·.address ≠ address) }
  (gone.flatMap (·.waiting)).foldl (fun h id =>
    (h.modifyEnd id fun e => { e with closed := true }).modifyEnd ((h.ends[id]?).elim id (·.other))
      fun e => { e with wasReset := true }) h

/-- Why no stream can be opened from a host without routes: to an IPv4 address there is no way, and
for IPv6 the host has no address of its own to start from. -/
def unrouted (ip : IpAddress) : IoError :=
  match ip.mapped with
  | .v4 _ => .system 101
  | .v6 _ => .system 99

/-- Opens a stream to an address; the answer is the number of its end. An attempt that is given no
time fails, and so does one on an address that lacks its zone or stands for a group. -/
def connect (h : Host) (address : SocketAddress) (limit : Option Duration) :
    Except IoError Nat × Host :=
  if address.ip.isMulticastV6 then (.error (.system 101), h)
  else if address.lacksZone then (.error (.system 22), h)
  else if !h.routed then (.error (unrouted address.ip), h)
  else if limit = some 0 then (.error .zeroDuration, h)
  else
    match h.listener? address with
    | none => (.error (.system 111), h)
    | some l =>
      let (own, h) := h.choosePort { ip := address.ip, port := 0 }
      let id := h.ends.size
      let ends := h.ends.push { address := own, peerAddress := address, other := id + 1 }
        |>.push { address, peerAddress := own, other := id }
      let listening := h.listening.map fun s =>
        if s.address = l.address then { s with waiting := s.waiting ++ [id + 1] } else s
      (.ok id, { h with ends, listening })

/-- Accepts the stream that has waited longest; the answer is the number of its end. -/
def accept (h : Host) (address : SocketAddress) : Option Nat × Host :=
  match h.listening.find? (·.address = address) with
  | some ⟨_, id :: rest⟩ =>
    let listening := h.listening.map fun s =>
      if s.address = address then { s with waiting := rest } else s
    (some id, { h with listening })
  | _ => (none, h)

/-- What the reads of a stream come to: the bytes that have arrived, and then a reset, the end of
the stream or a time-out. -/
def reads (h : Host) (id : Nat) : List ReadOutcome :=
  match h.ends[id]? with
  | none => [.eof]
  | some e =>
    let last : ReadOutcome :=
      if e.wasReset then .fail (.system 104) else if e.ended then .eof else .fail (.system 11)
    if e.received.isEmpty then [last] else [.data e.received, last]

/-- Keeps of a stream what was not read. -/
def keepUnread (h : Host) (id : Nat) (unread : List ReadOutcome) : Host :=
  h.modifyEnd id fun e =>
    { e with
      received := unread.flatMap fun
        | .data bytes => bytes
        | _ => []
      wasReset := e.wasReset && !unread.isEmpty
      ended := e.ended || e.wasReset && unread.isEmpty }

/-- What the writes to a stream come to; it takes all bytes if nothing is listed. -/
def writes (h : Host) (id : Nat) : List (Timed WriteOutcome) :=
  match h.ends[id]? with
  | none => [⟨.fail (.system 32), 0⟩]
  | some e =>
    if e.wasReset then [⟨.fail (.system 104), 0⟩]
    else if e.shut then [⟨.fail (.system 32), 0⟩]
    else []

/-- Sends bytes to the other end. If that is closed, the stream is reset. -/
def deliver (h : Host) (id : Nat) (bytes : Bytes) : Host :=
  match h.ends[id]? with
  | none => h
  | some e =>
    if bytes.isEmpty then h
    else if (h.ends[e.other]?).all (·.closed) then
      h.modifyEnd id fun e => { e with wasReset := true }
    else h.modifyEnd e.other fun o => { o with received := o.received ++ bytes }

/-- Ends what an end sends. -/
def shutdown (h : Host) (id : Nat) : Host :=
  match h.ends[id]? with
  | none => h
  | some e =>
    (h.modifyEnd id fun e => { e with shut := true }).modifyEnd e.other fun o =>
      { o with ended := true }

/-- Closes an end. The other end finds the end of the stream, or a reset if bytes were left
unread. -/
def close (h : Host) (id : Nat) : Host :=
  match h.ends[id]? with
  | none => h
  | some e =>
    if e.closed then h
    else
      let h := h.modifyEnd id fun e => { e with shut := true, closed := true }
      h.modifyEnd e.other fun o =>
        if e.received.isEmpty then { o with ended := true } else { o with wasReset := true }

end Host

end PeerMessaging
