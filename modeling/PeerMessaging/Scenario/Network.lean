import PeerMessaging.Scenario.Node

/-!
# Connections on one host

A `Scenario` is a host with connections and bare sockets under names, and a clock. After each call
the loops of the connections run until none has anything left to do (`Scenario.settle`), and only
waiting lets time pass (`Scenario.waitUntil`). A call on something that is not there ends the
scenario, and so does a failure of a bare socket (`Halt`).
-/

namespace PeerMessaging

/-- Why a scenario cannot go on. -/
inductive Halt
  /-- Something that is to be used is not there. -/
  | missing
  /-- A name is looked up that stands for nothing. -/
  | unknownName
  /-- The port of a connection is used that has no address. -/
  | noAddress
  /-- A socket failed. -/
  | failed (error : IoError)
  deriving DecidableEq

/-- Connections and bare sockets on a host. -/
structure Scenario where
  host : Host
  now : Moment := 0
  nodes : List (String × Node) := []
  /-- Bare sockets that listen. -/
  listeners : List (String × SocketAddress) := []
  /-- Bare streams, by the numbers of their ends. -/
  streams : List (String × Nat) := []

/-- A port, or the name of whoever listens on it. -/
inductive PortOf
  | number (port : UInt16)
  | listener (name : String)

/-- What is there, or the end of the scenario. -/
def Halt.require {α : Type} (a : Option α) (halt : Halt := .missing) : Except Halt α :=
  match a with
  | some a => .ok a
  | none => .error halt

/-- What a name stands for, or the end of the scenario. -/
def Halt.find {α : Type} (name : String) (table : List (String × α)) : Except Halt α :=
  require (table.lookup name) .unknownName

namespace Scenario

/-- The most steps that are made before a scenario counts as settled. -/
def settleLimit : Nat := 1000000

/-- How long a wait lasts at most. -/
def patience : Duration := milliseconds 5000

/-- Puts a connection under a name. -/
def put (s : Scenario) (name : String) (n : Node) : Scenario :=
  { s with nodes := (name, n) :: s.nodes.filter (·.1 ≠ name) }

/-- The connection under a name. -/
def node (s : Scenario) (name : String) : Except Halt Node := Halt.find name s.nodes

/-! ### Time -/

/-- Runs the loops until none has anything to do, or the limit is reached. -/
def settleWithin : Nat → Scenario → Scenario
  | 0, s => s
  | limit + 1, s =>
    match s.nodes.find? fun (_, n) => n.hasWork s.host s.now with
    | none => s
    | some (name, n) =>
      let (n, host) := n.step s.host s.now
      settleWithin limit
        { s with host, nodes := s.nodes.map fun (m, k) => (m, if m = name then n else k) }

/-- Runs the loops until none has anything to do. -/
def settle (s : Scenario) : Scenario := settleWithin settleLimit s

/-- When something will happen by itself. -/
def nextTimer (s : Scenario) : Option Moment :=
  (s.nodes.filterMap fun (_, n) => n.nextKeepalive).min?

/-- Lets time pass until a condition holds or a deadline is reached, through at most so many
timers. -/
def passTime (holds : Scenario → Bool) (deadline : Moment) : Nat → Scenario → Bool × Scenario
  | 0, s => (holds s, s)
  | timers + 1, s =>
    if holds s then (true, s)
    else
      match s.nextTimer with
      | none => (false, { s with now := max s.now deadline })
      | some t =>
        if deadline < t then (false, { s with now := max s.now deadline })
        else passTime holds deadline timers (settle { s with now := max t s.now })

/-- Waits until a condition holds; the answer tells whether it came to that. -/
def waitUntil (holds : Scenario → Bool) (s : Scenario) : Bool × Scenario :=
  let s := s.settle
  s.passTime holds (s.now + patience) settleLimit

/-- Lets time pass. -/
def sleep (span : Duration) (s : Scenario) : Scenario :=
  let s := s.settle
  (s.passTime (fun _ => false) (s.now + span) settleLimit).2

/-! ### Connections -/

/-- Makes a call on a connection. -/
def update {α : Type} (s : Scenario) (name : String) (call : Moment → Node → α × Node) :
    Except Halt (α × Scenario) := do
  let (a, n) := call s.now (← s.node name)
  return (a, s.put name n)

/-- Waits until a connection satisfies a condition. -/
def waitFor (s : Scenario) (name : String) (holds : Node → Bool) : Except Halt (Bool × Scenario) :=
  do
    let _ ← s.node name
    return s.waitUntil fun s => (s.nodes.lookup name).any holds

/-- A port by its number or by whoever listens on it. -/
def port (s : Scenario) : PortOf → Except Halt UInt16
  | .number n => .ok n
  | .listener name =>
    match s.listeners.lookup name with
    | some address => .ok address.port
    | none => do
      match (← s.node name).connection.shared.localAddress with
      | some address => return address.port
      | none => throw .noAddress

/-- Waits until the loop of a connection has ended. A gate does not hold it. -/
def join (s : Scenario) (name : String) : Except Halt Scenario := do
  let n ← s.node name
  let s := (s.put name
    { n with connection := n.connection.await, gateOpen := true, held := false }).settle
  let n ← s.node name
  if n.connection.isIdle then return s.put name { n with connection := n.connection.join }
  else return s

/-- Closes a connection and waits until its loop has ended; the answer is the state then. -/
def close (s : Scenario) (name : String) : Except Halt (ConnectionState × Scenario) := do
  let n ← s.node name
  let s ← (s.put name { n with connection := n.connection.requestClose }).join name
  return ((← s.node name).connection.state, s)

/-- Closes a connection and forgets it, if there is one. -/
def drop (s : Scenario) (name : String) : Scenario :=
  match s.close name with
  | .ok (_, s) => { s with nodes := s.nodes.filter (·.1 ≠ name) }
  | .error _ => s

/-- Puts a new connection under a name. One that was there is closed. -/
def start (s : Scenario) (name : String) (n : Node) : Scenario := (s.drop name).put name n

/-- Resets a connection; the answer is the state then. -/
def reset (s : Scenario) (name : String) :
    Except Halt (Except PeerError ConnectionState × Scenario) := do
  match (← s.node name).connection.requireStopped false with
  | .error e => return (.error e, s)
  | .ok () =>
    let s ← s.join name
    let (raised, n) := (← s.node name).attempt (·.reset false)
    match raised with
    | .error e => return (.error e, s.put name n)
    | .ok raised =>
      let n := (n.connection.toTell raised).foldl (fun n (l, event) => n.hear false s.now l event) n
      return (.ok n.connection.state, s.put name n)

/-- Opens the gate that holds a loop. -/
def openGate (s : Scenario) (name : String) : Except Halt Scenario := do
  return s.put name { ← s.node name with gateOpen := true, held := false }

/-- Takes the next events of a subscription, waiting for them. -/
def takeEvents (s : Scenario) (name : String) (count : Nat) :
    Except Halt (List Event × Scenario) := do
  let (_, s) ← s.waitFor name fun n => n.subscription.all fun (_, c) => count ≤ c.waiting.length
  let n ← s.node name
  let (id, channel) ← Halt.require n.subscription
  let (events, channel) := channel.take count
  return (events, s.put name { n with subscription := some (id, channel) })

/-- Takes the events of a subscription that are there. -/
def takeWaitingEvents (s : Scenario) (name : String) : Except Halt (List Event × Scenario) := do
  let (_, channel) ← Halt.require (← s.node name).subscription
  s.takeEvents name channel.waiting.length

/-- Gives up a subscription, if there is one. -/
def dropEvents (s : Scenario) (name : String) : Scenario :=
  match s.nodes.lookup name with
  | some n => s.put name { n with subscription := n.subscription.map fun (id, c) => (id, c.drop) }
  | none => s

/-! ### Bare sockets -/

/-- The address of a port of this host. -/
def loopbackPort (port : UInt16) : SocketAddress := { ip := Host.loopback, port }

/-- Puts a stream under a name. -/
def putStream (s : Scenario) (name : String) (id : Nat) : Scenario :=
  { s with streams := (name, id) :: s.streams }

/-- The number of the stream under a name that is to be read or written. -/
def stream (s : Scenario) (name : String) : Except Halt Nat :=
  Halt.require (s.streams.lookup name)

/-- Listens on a port that the host chooses. -/
def rawListen (s : Scenario) (name : String) : Except Halt Scenario :=
  match s.host.bind (loopbackPort 0) with
  | (.ok address, host) => .ok { s with host, listeners := (name, address) :: s.listeners }
  | (.error e, _) => .error (.failed e)

/-- Accepts a stream. -/
def rawAccept (s : Scenario) (name : String) : Except Halt Scenario := do
  let address ← Halt.find name s.listeners
  match s.host.accept address with
  | (some id, host) => return { s with host }.putStream name id
  | (none, _) => throw (.failed (.system 11))

/-- Opens a stream to whoever listens under a name. -/
def rawConnect (s : Scenario) (name : String) (listener : String) : Except Halt Scenario := do
  match s.host.connect (loopbackPort (← s.port (.listener listener))) none with
  | (.ok id, host) => return { s with host }.putStream name id
  | (.error e, _) => throw (.failed e)

/-- Writes bytes. -/
def rawWrite (s : Scenario) (name : String) (bytes : Bytes) : Except Halt Scenario := do
  let id ← s.stream name
  match s.host.writes id with
  | ⟨.fail e, _⟩ :: _ => throw (.failed e)
  | _ => return { s with host := s.host.deliver id bytes }

/-- Writes pieces of bytes one after another, with pauses. -/
def rawDribble (s : Scenario) (name : String) (pause : Duration) :
    List Bytes → Except Halt Scenario
  | [] => .ok s
  | piece :: rest => do rawDribble ((← s.rawWrite name piece).sleep pause) name pause rest

/-- What has arrived on a stream and is not read. -/
def arrived (s : Scenario) (id : Nat) : Bytes := (s.host.ends[id]?).elim [] (·.received)

/-- Nothing more will arrive on a stream. -/
def isOver (s : Scenario) (id : Nat) : Bool :=
  (s.host.ends[id]?).all fun e => e.ended || e.wasReset

/-- Takes bytes that have arrived. -/
def takeArrived (s : Scenario) (id : Nat) (count : Nat) : Bytes × Scenario :=
  let host := s.host.modifyEnd id fun e => { e with received := e.received.drop count }
  ((s.arrived id).take count, { s with host })

/-- Waits until so many bytes have arrived. -/
def rawPeek (s : Scenario) (name : String) (count : Nat) : Except Halt Scenario := do
  let id ← Halt.find name s.streams
  let (found, s) := s.waitUntil fun s => count ≤ (s.arrived id).length
  if found then return s
  else if s.isOver id then throw (.failed (.described .unexpectedEnd "failed to fill whole buffer"))
  else throw (.failed (.system 11))

/-- Reads exactly so many bytes. -/
def rawRead (s : Scenario) (name : String) (count : Nat) : Except Halt (Bytes × Scenario) := do
  let id ← s.stream name
  let s ← s.rawPeek name count
  return s.takeArrived id count

/-- Reads until the stream ends. -/
def rawReadAll (s : Scenario) (name : String) : Except Halt (Bytes × Scenario) := do
  let id ← s.stream name
  let (ended, s) := s.waitUntil (·.isOver id)
  if !ended then throw (.failed (.system 11))
  if (s.host.ends[id]?).any (·.wasReset) then throw (.failed (.system 104))
  return s.takeArrived id (s.arrived id).length

/-- Ends what is sent on a stream. -/
def rawShutdown (s : Scenario) (name : String) : Except Halt Scenario := do
  return { s with host := s.host.shutdown (← Halt.find name s.streams) }

/-- Closes a stream and forgets it, if there is one. -/
def rawClose (s : Scenario) (name : String) : Scenario :=
  { s with
    host := (s.streams.lookup name).elim s.host s.host.close
    streams := s.streams.filter (·.1 ≠ name) }

end Scenario

end PeerMessaging
