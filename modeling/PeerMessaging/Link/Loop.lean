import PeerMessaging.Link.Config
import PeerMessaging.Link.Listener
import PeerMessaging.Link.Queue
import PeerMessaging.Wire.FrameReader
import PeerMessaging.Wire.FrameWriter

/-!
# The loop that runs a connection

A connection is run by a loop of its own, which owns the sockets. Callers only touch what they share
with it (`Shared`). The loop goes in rounds: it announces the pending state if that has changed, and
then does what the current state asks for: it connects, binds, looks for a peer, exchanges frames,
or lets go of the stream. In a terminal state it ends.

A round is a list of tasks (`Task`), and `Loop.step` carries out the first of them. Between two
steps anybody may call the connection, so a step is what no other caller can divide. What the socket
calls of a step come to is given with it (`SocketCalls`), whatever it is.

Some tasks set themselves a deadline. If the clock cannot show it the loop ends at once, in whatever
state it is (`Loop.tick`).

How long the loop rests between two rounds is left to whoever makes the steps. Nothing is said of
what it logs, of the socket options that make no difference to it, or of a loop that could not be
started.
-/

namespace PeerMessaging

/-- What a connection's callers share with its loop. -/
structure Shared where
  lifecycle : Lifecycle := .new
  /-- Messages to be sent. -/
  outbound : MessageQueue := {}
  /-- Messages received. -/
  inbound : MessageQueue := {}
  listeners : Listeners := {}
  lastError : Option ConnectionError := none
  /-- The address of the socket that listens or is connected. -/
  localAddress : Option SocketAddress := none

/-- Where to connect to, or where to listen. -/
structure Endpoint where
  host : String
  port : UInt16
  deriving DecidableEq, Repr

/-- What the socket calls of one step come to. A step takes of them those that it makes. -/
structure SocketCalls where
  /-- The time. -/
  now : Moment := 0
  /-- Finding the peer and connecting to it. -/
  connect : Except TransportError Unit := .ok ()
  /-- Finding the address to listen on and binding it; the answer is the address bound. -/
  bind : Except TransportError SocketAddress
  /-- Accepting a peer; `false` if nobody is waiting. -/
  accept : Except TransportError Bool := .ok false
  /-- Setting up a stream; the answer is its own address, if that can be told. -/
  setUp : Except PeerError (Option SocketAddress) := .ok none
  /-- The reads, one after another. -/
  reads : List ReadOutcome := []
  /-- The writes, one after another. -/
  writes : List (Timed WriteOutcome) := []
  /-- The flushes, one after another. -/
  flushes : List (Timed FlushOutcome) := []

/-- What a write of the loop is part of. -/
inductive WritePurpose
  /-- Exchanging frames: a failure ends the connection. -/
  | exchange
  /-- Closing: a failure is of no consequence. -/
  | closing
  deriving DecidableEq, Repr

/-- A step of the loop that is still to be made. -/
inductive Task
  /-- Makes the pending state the current one, and tells the listeners. -/
  | announce
  /-- Does what the current state asks for. -/
  | act
  /-- Tells listeners of an event, one in each step. -/
  | notify (event : Event) (rest : List Listener)
  /-- Keeps an error as the last one, and tells the listeners. -/
  | report (error : ConnectionError)
  /-- Asks for a transition, which may be refused. -/
  | advance (next : ConnectionState)
  /-- Takes the messages to be sent. -/
  | collect
  /-- Queues messages for writing, one in each step. -/
  | encode (rest : List Message)
  /-- Writes what is queued, until a deadline. -/
  | write (purpose : WritePurpose) (deadline : Moment)
  /-- Reads. -/
  | receive
  /-- Hands on what was read, one item in each step. -/
  | dispatch (rest : List Item)
  /-- Sends a keepalive if it is time. -/
  | keepalive
  /-- Lets go of the sockets. -/
  | release

/-- The loop of a connection. It has ended when it has no tasks. -/
structure Loop where
  registry : Registry
  config : ConnectionConfig
  endpoint : Endpoint
  /-- The address of the listening socket, if there is one. -/
  listener : Option SocketAddress := none
  /-- The receiving side of the stream, if there is one. -/
  reader : Option Decoder := none
  /-- The sending side of the stream, if there is one. -/
  writer : Option Encoder := none
  lastKeepalive : Moment := 0
  tasks : List Task

/-- The most reads of a round while there is something left to write. -/
def receiveBurst : Nat := 128

/-- The tasks of a new round. -/
def nextRound : List Task := [.announce, .act]

/-- The tasks after a fatal error. -/
def failing (error : ConnectionError) (next : ConnectionState) : List Task :=
  [.report error, .advance next]

/-- The state that a failed read leads to. -/
def stateAfter (e : FrameError) : ConnectionState :=
  if e.isProtocolViolation then .error else .closing

/-- What a step leaves behind. -/
structure Step where
  shared : Shared
  loop : Loop
  /-- The event that was raised. -/
  raised : Option Event := none
  /-- The listener that was told of an event. -/
  told : Option (Listener × Event) := none
  /-- The bytes that the stream took. -/
  sent : Bytes := []
  /-- Of the reads, those that were not made. -/
  unread : List ReadOutcome := []

namespace Loop

/-- A loop that is about to start. -/
def new (registry : Registry) (config : ConnectionConfig) (endpoint : Endpoint) (now : Moment) :
    Loop :=
  { registry, config, endpoint, lastKeepalive := now, tasks := nextRound }

/-- The loop has ended. -/
def hasEnded (l : Loop) : Bool := l.tasks.isEmpty

/-- Puts tasks before all others. -/
def first (l : Loop) (tasks : List Task) : Loop := { l with tasks := tasks ++ l.tasks }

@[simp] theorem tasks_first (l : Loop) (tasks : List Task) :
    (l.first tasks).tasks = tasks ++ l.tasks := rfl

/-- Raises an event: those who are registered now will be told of it before anything else. -/
def raise (s : Shared) (l : Loop) (event : Event) : Step :=
  { shared := s, loop := l.first [.notify event s.listeners.registered], raised := some event }

/-- Lets go of the sockets. What has not been written is dropped. -/
def release (l : Loop) : Loop := { l with listener := none, reader := none, writer := none }

/-- Ends the loop at once: a listener failed in an unforeseen way. -/
def abandon (l : Loop) : Loop := { l.release with tasks := [] }

/-- Takes over a new stream. No time limit of a stream can be zero. -/
def attach (kind : ErrorKind) (calls : SocketCalls) (s : Shared) (l : Loop) : Step :=
  let limits := l.config.readTimeout = 0 ∨ l.config.writeTimeout = 0
  let ready : Except PeerError (Option SocketAddress) :=
    match calls.setUp with
    | .ok address => if limits then .error (.frame (.io .zeroDuration)) else .ok address
    | .error e => .error e
  match ready with
  | .ok address =>
    { shared := { s with localAddress := address.or s.localAddress }
      loop := { l with
        reader := some (.new l.config.streamConfig)
        writer := some (.new l.config.streamConfig)
        lastKeepalive := calls.now }.first [.advance .connected] }
  | .error e => { shared := s, loop := l.first (failing (.ofPeer kind e) .error) }

/-- Does what the current state asks for. -/
def act (calls : SocketCalls) (s : Shared) (l : Loop) : Step :=
  let next := { l with tasks := nextRound }
  match s.lifecycle.current with
  | .initial => { shared := s, loop := next }
  | .connecting =>
    match calls.connect with
    | .ok () => attach .connectFailed calls s next
    | .error e =>
      { shared := s, loop := next.first (failing (.ofTransport .connectFailed e) .error) }
  | .opening =>
    match calls.bind with
    | .ok address =>
      { shared := { s with localAddress := some address }
        loop := { next with listener := some address }.first [.advance .listening] }
    | .error e => { shared := s, loop := next.first (failing (.ofTransport .bindFailed e) .error) }
  | .listening =>
    match l.listener with
    | none =>
      let error : ConnectionError := ⟨.acceptFailed, "no listening socket", true, none⟩
      { shared := s, loop := next.first (failing error .error) }
    | some _ =>
      match calls.accept with
      | .ok false => { shared := s, loop := next }
      | .ok true => attach .acceptFailed calls s { next with listener := none }
      | .error e =>
        { shared := s, loop := next.first (failing (.ofTransport .acceptFailed e) .error) }
  | .connected =>
    let deadline := calls.now + l.config.readTimeout
    { shared := s, loop := next.first [.collect, .write .exchange deadline] }
  | .closing =>
    let deadline := calls.now + l.config.flushTimeout
    { shared := s
      loop := next.first [.collect, .write .closing deadline, .release, .advance .closed] }
  | .closed | .error =>
    { shared := { s with outbound := s.outbound.clear.2 }, loop := { l.release with tasks := [] } }

/-- Queues a message for writing. One that cannot be encoded, or is too long, is reported. -/
def encode (m : Message) (l : Loop) (w : Encoder) : Loop :=
  match l.registry.encode m with
  | .error e => l.first [.report (.ofRegistry e)]
  | .ok f =>
    let (result, w) := w.enqueue f
    let l := { l with writer := some w }
    match result with
    | .ok () => l
    | .error e => l.first [.report ⟨.invalidMessage, e.message, false, none⟩]

/-- Writes what is queued, as far as the stream takes it. -/
def write (purpose : WritePurpose) (deadline : Moment) (calls : SocketCalls) (s : Shared)
    (l : Loop) : Step :=
  match l.writer with
  | none =>
    { shared := s, loop := if purpose = .exchange then l.first [.receive, .keepalive] else l }
  | some encoder =>
    let output : OutputStream :=
      { writes := calls.writes, flushes := calls.flushes, now := calls.now }
    let (result, w) := FrameWriter.flushPending (some deadline) ⟨encoder, output⟩
    let l := { l with writer := some w.encoder }
    let loop :=
      match purpose, result with
      | .closing, _ => l
      | .exchange, .ok _ => l.first [.receive, .keepalive]
      | .exchange, .error e => l.first (failing (.ofFrame .sendFailed e) .closing)
    { shared := s, loop, sent := w.output.accepted }

/-- Reads: once, or while there is something left to write until the stream runs dry. -/
def receive (calls : SocketCalls) (s : Shared) (l : Loop) : Step :=
  match l.reader with
  | none => { shared := s, loop := l }
  | some decoder =>
    let reads := if l.writer.any Encoder.hasPending then receiveBurst else 1
    let (items, failure, r) := FrameReader.burst ⟨decoder, ⟨calls.reads, 0⟩⟩ reads
    let after := failure.elim [] fun e => failing (.ofReceive e) (stateAfter e)
    { shared := s
      loop := { l with reader := some r.decoder }.first (.dispatch items :: after)
      unread := r.input.outcomes }

/-- Hands on an item. A keepalive is of no consequence, and a frame that cannot be decoded is
reported. -/
def dispatch (item : Item) (s : Shared) (l : Loop) : Step :=
  match item with
  | .keepalive => { shared := s, loop := l }
  | .frame f =>
    match l.registry.decode f with
    | .ok m => raise { s with inbound := s.inbound.push m } l .message
    | .error e => { shared := s, loop := l.first [.report (.ofRegistry e)] }

/-- No keepalive is called for: the connection is about to leave its state, the last keepalive is
not long enough ago, or something else is left to write. -/
abbrev Rests (calls : SocketCalls) (s : Shared) (l : Loop) (encoder : Encoder) : Prop :=
  s.lifecycle.desired ≠ .connected ∨ calls.now - l.lastKeepalive < l.config.keepaliveInterval ∨
    encoder.hasPending = true

/-- Sends a keepalive if one is called for. -/
def keepalive (calls : SocketCalls) (s : Shared) (l : Loop) : Step :=
  match l.writer with
  | none => { shared := s, loop := l }
  | some encoder =>
    if l.Rests calls s encoder then
      { shared := s, loop := l }
    else
      let output : OutputStream :=
        { writes := calls.writes, flushes := calls.flushes, now := calls.now }
      let (result, w) := FrameWriter.flushPending (some (calls.now + l.config.writeTimeout))
        ⟨encoder.enqueueKeepalive, output⟩
      let l := { l with writer := some w.encoder }
      let loop :=
        match result with
        | .ok _ => { l with lastKeepalive := w.output.now }
        | .error e => l.first (failing (.ofFrame .connectionReset e) .closing)
      { shared := s, loop, sent := w.output.accepted }

/-- Carries out the first task. -/
def step (calls : SocketCalls) (s : Shared) (l : Loop) : Step :=
  match l.tasks with
  | [] => { shared := s, loop := l }
  | task :: rest =>
    let l := { l with tasks := rest }
    match task with
    | .announce =>
      match s.lifecycle.apply with
      | (some state, lifecycle) => raise { s with lifecycle } l (.state state)
      | (none, _) => { shared := s, loop := l }
    | .act => act calls s l
    | .notify _ [] => { shared := s, loop := l }
    | .notify event (listener :: rest) =>
      { shared := s, loop := l.first [.notify event rest], told := some (listener, event) }
    | .report error => raise { s with lastError := some error } l (.error error)
    | .advance next => { shared := { s with lifecycle := s.lifecycle.tryRequest next }, loop := l }
    | .collect =>
      if l.writer.isSome then
        let (messages, outbound) := s.outbound.drain
        { shared := { s with outbound }, loop := l.first [.encode messages] }
      else { shared := s, loop := l }
    | .encode [] => { shared := s, loop := l }
    | .encode (m :: rest) =>
      let l := l.first [.encode rest]
      { shared := s, loop := l.writer.elim l (l.encode m) }
    | .write purpose deadline => write purpose deadline calls s l
    | .receive => receive calls s l
    | .dispatch [] => { shared := s, loop := l }
    | .dispatch (item :: rest) => dispatch item s (l.first [.dispatch rest])
    | .keepalive => keepalive calls s l
    | .release => { shared := s, loop := l.release }

/-- The time that the first task gives itself from now on, if it sets itself a deadline. -/
def allowance (calls : SocketCalls) (s : Shared) (l : Loop) : Option Duration :=
  match l.tasks, s.lifecycle.current with
  | .act :: _, .connected => some l.config.readTimeout
  | .act :: _, .closing => some l.config.flushTimeout
  | .keepalive :: _, _ =>
    if l.writer.all fun encoder => decide (l.Rests calls s encoder) then none
    else some l.config.writeTimeout
  | _, _ => none

/-- The first task needs a deadline that the clock cannot show. -/
def overruns (calls : SocketCalls) (s : Shared) (l : Loop) : Bool :=
  (l.allowance calls s).any fun d => (calls.now.after? d).isNone

/-- Makes a step. If that needs a deadline that the clock cannot show the loop ends at once. -/
def tick (calls : SocketCalls) (s : Shared) (l : Loop) : Step :=
  if l.overruns calls s then { shared := s, loop := l.abandon, unread := calls.reads }
  else l.step calls s

theorem tick_of_overruns {calls : SocketCalls} {s : Shared} {l : Loop}
    (h : l.overruns calls s = true) :
    l.tick calls s = { shared := s, loop := l.abandon, unread := calls.reads } := if_pos h

theorem tick_of_not_overruns {calls : SocketCalls} {s : Shared} {l : Loop}
    (h : l.overruns calls s = false) : l.tick calls s = l.step calls s :=
  if_neg (Bool.eq_false_iff.1 h)

/-- A loop that has ended makes no more steps. -/
theorem step_of_hasEnded {calls : SocketCalls} {s : Shared} {l : Loop} (h : l.hasEnded = true) :
    l.step calls s = { shared := s, loop := l } := by
  have ht : l.tasks = [] := List.isEmpty_iff.1 h
  simp [step, ht]

end Loop

end PeerMessaging
