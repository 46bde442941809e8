import PeerMessaging.Link.Connection
import PeerMessaging.Net.Host
import PeerMessaging.Scenario.Audience

/-!
# A connection in a scenario

A `Node` is a connection together with those who listen to it. A listener logs what it is told
(`LogEntry`) and then does a deed (`Deed`), which may be a call on the connection, may hold the loop
at a gate until that is opened, or may fail and so end the loop at once. `Node.step` makes one step
of the connection's loop against the sockets of a host.
-/

namespace PeerMessaging

/-- What a listener does after it has logged an event. -/
inductive Deed
  | nothing
  /-- Waits at the gate. -/
  | gate
  /-- Fails in an unforeseen way. -/
  | panic
  | close
  | reset
  | listen
  | addListener
  | register
  /-- Logs the state. -/
  | state
  /-- Logs how many messages have been received. -/
  | pending
  | send (message : Message)
  /-- Sends back every message received. -/
  | echo

/-- The part of a listener of a connection. -/
inductive Hearer
  /-- Logs every event under a label. -/
  | recorder (label : String)
  /-- Passes every event on into a channel. -/
  | channel
  | silent
  /-- Reacts to one state, or to all. -/
  | onState (only : Option ConnectionState) (deed : Deed)
  | onMessage (deed : Deed)
  | onError (deed : Deed)

/-- The events that a part is about. -/
def Hearer.interest : Hearer → Interest
  | recorder _ | channel => .everything
  | silent => .nothing
  | onState .. => .states
  | onMessage _ => .messages
  | onError _ => .errors

/-- The part is that of the recorder with a label. -/
def Hearer.isRecorder (label : String) : Hearer → Bool
  | recorder l => l = label
  | _ => false

/-- A line of the log of a connection. -/
inductive LogEntry
  /-- A recorder was told of an event. -/
  | heard (label : String) (event : Event)
  /-- A callback was told of an event. -/
  | told (event : Event)
  /-- A callback made a call. -/
  | called (operation : String) (result : Except PeerError Unit)
  /-- A callback asked for the state. -/
  | state (state : ConnectionState)
  /-- A callback asked how many messages have been received. -/
  | pending (count : Nat)

/-- A connection and its listeners. -/
structure Node where
  connection : Connection
  /-- The parts of the listeners; a listener is known by its place. -/
  hearers : List Hearer := []
  log : List LogEntry := []
  /-- The listener whose channel is read, and the channel. -/
  subscription : Option (Nat × EventChannel) := none
  gateOpen : Bool := false
  /-- The loop waits at the gate. -/
  held : Bool := false
  /-- The number of the end of the connection's stream. -/
  stream : Option Nat := none

namespace Node

/-- Appends a line to the log. -/
def write (n : Node) (entry : LogEntry) : Node := { n with log := n.log ++ [entry] }

/-- Makes a call on the connection that may be refused. -/
def attempt {α : Type} (n : Node) (call : Connection → Except PeerError α × Connection) :
    Except PeerError α × Node :=
  let (result, connection) := call n.connection
  (result, { n with connection })

/-- Registers a listener for a part. -/
def listenAs (n : Node) (hearer : Hearer) : Except PeerError Unit × Node :=
  match n.attempt (·.addListener ⟨n.hearers.length, hearer.interest⟩) with
  | (.ok (), n) => (.ok (), { n with hearers := n.hearers ++ [hearer] })
  | refused => refused

/-- Registers a listener for a new channel, which is the one that is read from now on. -/
def subscribe (n : Node) : Except PeerError Unit × Node :=
  match n.listenAs .channel with
  | (.ok (), n) => (.ok (), { n with subscription := some (n.hearers.length - 1, {}) })
  | refused => refused

/-- Removes the recorder with a label, the last of several; the answer tells whether it was
registered. -/
def removeRecorder (n : Node) (label : String) : Except PeerError Bool × Node :=
  let id := (List.range n.hearers.length).reverse.find? fun id =>
    n.hearers[id]?.any (·.isRecorder label)
  n.attempt (·.removeListener (id.getD n.hearers.length))

/-- Does a deed. -/
def perform (onLoop : Bool) (now : Moment) (n : Node) (deed : Deed) : Node :=
  let logged (operation : String) (r : Except PeerError Unit × Node) : Node :=
    r.2.write (.called operation r.1)
  match deed with
  | .nothing => n
  | .gate => if n.gateOpen then n else { n with held := onLoop }
  | .panic =>
    { n with connection := { n.connection with loop := n.connection.loop.map Loop.abandon } }
  | .close =>
    { n with connection := n.connection.requestClose }.write (.called "close" (.ok ()))
  | .reset =>
    let (result, n) := n.attempt (·.reset onLoop)
    logged "reset" (result.map fun _ => (), n)
  | .listen => logged "listen" (n.attempt (·.listen ⟨"127.0.0.1", 0⟩ now))
  | .addListener => logged "add_listener" (n.listenAs .silent)
  | .register => logged "register" (n.attempt (·.register 99 (.raw "late")))
  | .state => n.write (.state n.connection.state)
  | .pending => n.write (.pending n.connection.pending)
  | .send m => { n with connection := n.connection.send m }
  | .echo =>
    let (messages, c) := n.connection.takeAll
    { n with connection := messages.foldl Connection.send c }

/-- Tells a listener of an event. -/
def hear (onLoop : Bool) (now : Moment) (n : Node) (l : Listener) (event : Event) : Node :=
  let called (deed : Deed) : Node := (n.write (.told event)).perform onLoop now deed
  if l.interest.covers event then
    match n.hearers[l.id]?, event with
    | some (.recorder label), _ => n.write (.heard label event)
    | some .channel, _ =>
      { n with subscription := n.subscription.map fun (id, channel) =>
          (id, if id = l.id then channel.send event else channel) }
    | some (.onState only deed), .state s => if only.all (· = s) then called deed else n
    | some (.onMessage deed), _ => called deed
    | some (.onError deed), _ => called deed
    | _, _ => n
  else n

/-! ### Running the loop -/

/-- Makes the socket calls of the loop's next step. The answer holds what they came to, and the
number of a stream that they opened. -/
def callSockets (n : Node) (l : Loop) (h : Host) (now : Moment) :
    SocketCalls × Option Nat × Host :=
  let none : SocketCalls := { now, bind := .error (.io (.plain .unsupported)) }
  let opened (calls : SocketCalls) (id : Nat) (h : Host) : SocketCalls × Option Nat × Host :=
    ({ calls with setUp := .ok ((h.ends[id]?).map (·.address)) }, some id, h)
  let address := resolve .none l.endpoint.host l.endpoint.port
  let stream := n.stream.getD h.ends.size
  match l.tasks.head?, n.connection.state with
  | some .act, .connecting =>
    match address with
    | .error e => ({ none with connect := .error e }, Option.none, h)
    | .ok address =>
      match h.connect address (some l.config.connectTimeout) with
      | (.ok id, h) => opened none id h
      | (.error e, h) => ({ none with connect := .error (.connect address e) }, Option.none, h)
  | some .act, .opening =>
    match address with
    | .error e => ({ none with bind := .error e }, Option.none, h)
    | .ok address =>
      let (result, h) := h.bind address
      ({ none with bind := result.mapError (.bind address) }, Option.none, h)
  | some .act, .listening =>
    match l.listener.map h.accept with
    | some (some id, h) => opened { none with accept := .ok true } id h
    | _ => (none, Option.none, h)
  | some (.write ..), _ | some .keepalive, _ =>
    ({ none with writes := h.writes stream }, Option.none, h)
  | some .receive, _ => ({ none with reads := h.reads stream }, Option.none, h)
  | _, _ => (none, Option.none, h)

/-- Makes one step of the loop. -/
def step (n : Node) (h : Host) (now : Moment) : Node × Host :=
  match n.connection.loop with
  | none => (n, h)
  | some l =>
    let (calls, opened, h) := n.callSockets l h now
    let s := l.tick calls n.connection.shared
    let n := { n with connection := n.connection.after s }
    let stream := n.stream.or opened
    let h := stream.elim h fun id => h.deliver id s.sent
    let h := match l.tasks.head?, stream with
      | some .receive, some id => h.keepUnread id s.unread
      | _, _ => h
    let n := match s.told with
      | some (listener, event) => n.hear true now listener event
      | none => n
    let after := n.connection.loop
    let h := match l.listener, after.bind (·.listener) with
      | some address, none => h.unbind address
      | _, _ => h
    if (after.bind (·.reader)).isSome then ({ n with stream }, h)
    else ({ n with stream := none }, stream.elim h h.close)

/-- When the loop will send its next keepalive, if nothing else happens. -/
def nextKeepalive (n : Node) : Option Moment :=
  match n.connection.loop, n.connection.state with
  | some l, .connected =>
    if l.hasEnded then none
    else some (l.lastKeepalive + max l.config.keepaliveInterval l.config.readTimeout)
  | _, _ => none

/-- The loop has something to do. -/
def hasWork (n : Node) (h : Host) (now : Moment) : Bool :=
  match n.connection.loop with
  | none => false
  | some l =>
    if n.held then false
    else
      match l.tasks, n.connection.state with
      | [], _ => false
      | [.announce, .act], state =>
        state ≠ n.connection.desired ||
          match state with
          | .initial => false
          | .listening => l.listener.any fun a => (h.accept a).1.isSome
          | .connected =>
            n.connection.shared.outbound.length ≠ 0 || n.nextKeepalive.any (· ≤ now) ||
              n.stream.any fun id => h.reads id ≠ [.fail (.system 11)]
          | _ => true
      | _, _ => true

end Node

end PeerMessaging
