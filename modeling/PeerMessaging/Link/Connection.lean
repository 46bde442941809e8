import PeerMessaging.Link.Loop

/-!
# Connections

A `Connection` is one end of a link. Codecs and listeners are registered while nothing has been
started. Then it either connects to a peer or listens for one (`Connection.connect`,
`Connection.listen`), which starts its loop. It is closed by asking for that and waiting until the
loop has ended (`Connection.requestClose`, `Connection.join`). A connection that has stopped can be
made as good as new (`Connection.reset`).

Calls may be made on the loop itself, from a listener that is told of an event. Such a call does not
wait for the loop, and it cannot reset the connection.
-/

namespace PeerMessaging

/-- One end of a link. -/
structure Connection where
  config : ConnectionConfig := {}
  registry : Registry := .empty
  shared : Shared := {}
  /-- The loop, from the start of a session until somebody has waited for its end. -/
  loop : Option Loop := none
  /-- Somebody is waiting for the loop to end. -/
  awaited : Bool := false
  /-- Loops that had not ended when another was started. Nobody holds on to them any more. -/
  strays : List Loop := []

namespace Connection

/-- A connection that has not been started. -/
def new (config : ConnectionConfig) : Connection := { config }

/-- A connection with codecs. -/
def withRegistry (registry : Registry) (config : ConnectionConfig) : Connection :=
  { config, registry }

/-- The state applied last. -/
def state (c : Connection) : ConnectionState := c.shared.lifecycle.current

/-- The state pending. -/
def desired (c : Connection) : ConnectionState := c.shared.lifecycle.desired

/-- Refuses an operation once something has been started. -/
def requireInitial (c : Connection) (operation : String) : Except PeerError Unit :=
  if c.desired = .initial then .ok () else .error (.invalidState operation c.desired)

/-! ### Codecs and listeners -/

/-- What comes of a call that is in place only as long as nothing has been started. -/
def whileInitial {α : Type} (c : Connection) (operation : String)
    (called : Except PeerError α × Connection) : Except PeerError α × Connection :=
  match c.requireInitial operation with
  | .ok () => called
  | .error e => (.error e, c)

/-- Registers a codec under an id. -/
def register (c : Connection) (typeId : UInt32) (codec : Codec) :
    Except PeerError Unit × Connection :=
  c.whileInitial "register a codec" <|
    let called := c.registry.register typeId codec
    (called.1.mapError .registry, { c with registry := called.2 })

/-- Registers a codec under the id of its type name. -/
def registerNamed (c : Connection) (codec : Codec) : Except PeerError UInt32 × Connection :=
  c.whileInitial "register a codec" <|
    let called := c.registry.registerNamed codec
    (called.1.mapError .registry, { c with registry := called.2 })

/-- Makes a message of a type known by name. -/
def message (c : Connection) (name : String) (body : Body) : Except PeerError Message :=
  (c.registry.message name body).mapError .registry

/-- Registers a listener. -/
def addListener (c : Connection) (listener : Listener) : Except PeerError Unit × Connection :=
  c.whileInitial "add a listener"
    (.ok (), { c with shared := { c.shared with listeners := c.shared.listeners.add listener } })

/-- Removes every registration of a listener; the answer tells whether there was one. -/
def removeListener (c : Connection) (id : Nat) : Except PeerError Bool × Connection :=
  c.whileInitial "remove a listener" <|
    let (found, listeners) := c.shared.listeners.remove id
    (.ok found, { c with shared := { c.shared with listeners } })

/-! ### The life of a connection -/

/-- Starts the loop in a first state. A loop that is still there and has not ended is let go. -/
def start (c : Connection) (operation : String) (first : ConnectionState) (endpoint : Endpoint)
    (now : Moment) : Except PeerError Unit × Connection :=
  match c.shared.lifecycle.request first with
  | .error pending => (.error (.invalidState operation pending), c)
  | .ok lifecycle =>
    (.ok (), { c with
      shared := { c.shared with lifecycle }
      loop := some (.new c.registry c.config endpoint now)
      awaited := false
      strays := c.strays ++ c.loop.toList.filter (!·.hasEnded) })

/-- Connects to a peer. -/
def connect (c : Connection) (endpoint : Endpoint) (now : Moment) :
    Except PeerError Unit × Connection :=
  c.start "connect" .connecting endpoint now

/-- Listens for one peer. -/
def listen (c : Connection) (endpoint : Endpoint) (now : Moment) :
    Except PeerError Unit × Connection :=
  c.start "listen" .opening endpoint now

/-- Asks for the connection to be closed. That is of no consequence before it is started and after
it has stopped. -/
def requestClose (c : Connection) : Connection :=
  { c with shared := { c.shared with lifecycle := c.shared.lifecycle.tryRequest .closing } }

/-- The loop has ended, or there is none. -/
def isIdle (c : Connection) : Bool := c.loop.all Loop.hasEnded

/-- Begins to wait for the loop. -/
def await (c : Connection) : Connection := { c with awaited := true }

/-- Lets go of a loop that has ended. -/
def join (c : Connection) : Connection := { c with loop := none, awaited := false }

/-- The caller is the loop itself. When somebody waits for the loop that can no longer be told. -/
def isLoop (c : Connection) (onLoop : Bool) : Bool := onLoop && c.loop.isSome && !c.awaited

/-- Refuses a reset unless the connection is about to stop, and the caller is not its loop. -/
def requireStopped (c : Connection) (onLoop : Bool) : Except PeerError Unit :=
  if c.desired.isTerminal && !c.isLoop onLoop then .ok ()
  else .error (.invalidState "reset" c.desired)

/-- Lets go of a loop that has ended, unless somebody else is waiting for it. -/
def letGo (c : Connection) : Connection := if c.awaited then c else c.join

/-- Asks for the first state. -/
def requestReset (c : Connection) : Except PeerError Unit × Connection :=
  match c.shared.lifecycle.request .initial with
  | .error pending => (.error (.invalidState "reset" pending), c)
  | .ok lifecycle => (.ok (), { c with shared := { c.shared with lifecycle } })

/-- Forgets the error reported last. -/
def clearError (c : Connection) : Connection :=
  { c with shared := { c.shared with lastError := none } }

/-- Forgets the address of the socket. -/
def clearAddress (c : Connection) : Connection :=
  { c with shared := { c.shared with localAddress := none } }

/-- Drops the messages to be sent. -/
def dropOutbound (c : Connection) : Connection :=
  { c with shared := { c.shared with outbound := c.shared.outbound.clear.2 } }

/-- Drops the messages received. -/
def dropInbound (c : Connection) : Connection :=
  { c with shared := { c.shared with inbound := c.shared.inbound.clear.2 } }

/-- Forgets and drops all of this. -/
def clear (c : Connection) : Connection := c.clearError.clearAddress.dropOutbound.dropInbound

/-- Makes the pending state the current one; the answer is the event that is raised by it. -/
def applyPending (c : Connection) : Option Event × Connection :=
  let (announced, lifecycle) := c.shared.lifecycle.apply
  (announced.map .state, { c with shared := { c.shared with lifecycle } })

/-- Makes a connection that has stopped as good as new, with the codecs and listeners it has. The
answer is the event that is raised by it. Other calls may come between any two of these things
(`Chore`); here they are done in one go. -/
def reset (c : Connection) (onLoop : Bool) : Except PeerError (Option Event) × Connection :=
  match c.requireStopped onLoop with
  | .error e => (.error e, c)
  | .ok () =>
    match c.letGo.requestReset with
    | (.error e, c) => (.error e, c)
    | (.ok (), c) =>
      let (raised, c) := c.clear.applyPending
      (.ok raised, c)

/-- Who is to be told of an event, and of what. -/
def toTell (c : Connection) (event : Option Event) : List (Listener × Event) :=
  event.elim [] fun e => c.shared.listeners.registered.map (·, e)

/-- One step of the loop. -/
def work (calls : SocketCalls) (c : Connection) : Option Step :=
  c.loop.map (Loop.tick calls c.shared)

/-- The connection after a step of its loop. -/
def after (c : Connection) (step : Step) : Connection :=
  { c with shared := step.shared, loop := some step.loop }

@[simp] theorem letGo_shared (c : Connection) : c.letGo.shared = c.shared := by
  unfold letGo
  split <;> rfl

@[simp] theorem letGo_loop (c : Connection) :
    c.letGo.loop = if c.awaited then c.loop else none := by
  unfold letGo
  split <;> rfl

@[simp] theorem letGo_config (c : Connection) : c.letGo.config = c.config := by
  unfold letGo
  split <;> rfl

@[simp] theorem letGo_registry (c : Connection) : c.letGo.registry = c.registry := by
  unfold letGo
  split <;> rfl

@[simp] theorem letGo_strays (c : Connection) : c.letGo.strays = c.strays := by
  unfold letGo
  split <;> rfl

/-- A request for the first state that is refused changes nothing. -/
theorem requestReset_cases (c : Connection) :
    (∃ c', c.requestReset = (.ok (), c')) ∨ ∃ e, c.requestReset = (.error e, c) := by
  unfold requestReset
  split
  · exact .inr ⟨_, rfl⟩
  · exact .inl ⟨_, rfl⟩

/-- The first state is asked for if it is permitted. -/
theorem requestReset_eq_ok {c c' : Connection} (h : c.requestReset = (.ok (), c')) :
    c.desired.permits .initial = true ∧
      c' = { c with shared := { c.shared with lifecycle := ⟨c.state, .initial⟩ } } := by
  unfold requestReset at h
  split at h
  · cases h
  · rename_i lifecycle hr
    cases h
    obtain ⟨hp, rfl⟩ := Lifecycle.request_eq_ok_iff.1 hr
    exact ⟨hp, rfl⟩

/-- Everything is cleared, and the first state applied, after it has been asked for. -/
theorem applyPending_clear {c c' : Connection} (h : c.requestReset = (.ok (), c')) :
    c'.clear.applyPending =
      ((if c.state = .initial then none else some .initial).map .state,
        { c with shared := { lifecycle := .new, listeners := c.shared.listeners } }) := by
  obtain ⟨-, rfl⟩ := requestReset_eq_ok h
  unfold applyPending Lifecycle.apply
  by_cases hs : c.state = .initial
  · simp [clear, clearError, clearAddress, dropOutbound, dropInbound, hs, Lifecycle.new,
      MessageQueue.clear, MessageQueue.empty]
  · simp [clear, clearError, clearAddress, dropOutbound, dropInbound, hs, Lifecycle.new,
      MessageQueue.clear, MessageQueue.empty]

/-- A reset that is accepted has asked for the first state, and then does the rest. -/
theorem exists_of_reset {c c' : Connection} {onLoop : Bool} {raised : Option Event}
    (h : c.reset onLoop = (.ok raised, c')) :
    ∃ c₁, c.letGo.requestReset = (.ok (), c₁) ∧ c₁.clear.applyPending = (raised, c') := by
  unfold reset at h
  split at h
  · cases h
  · split at h
    · cases h
    · cases h
      exact ⟨_, ‹_›, rfl⟩

/-- It announces the first state if that is not current. It leaves nothing of the session but the
codecs and listeners, and keeps a loop only as long as somebody waits for it. -/
theorem reset_eq_ok {c c' : Connection} {onLoop : Bool} {raised : Option Event}
    (h : c.reset onLoop = (.ok raised, c')) :
    c.desired.permits .initial = true ∧
      raised = (if c.state = .initial then none else some .initial).map .state ∧
      c' = { c.letGo with shared := { lifecycle := .new, listeners := c.shared.listeners } } := by
  obtain ⟨c₁, hr, h⟩ := exists_of_reset h
  have ha := applyPending_clear hr
  have hp := (requestReset_eq_ok hr).1
  rw [h, state, letGo_shared] at ha
  rw [desired, letGo_shared] at hp
  exact ⟨hp, congrArg Prod.fst ha, congrArg Prod.snd ha⟩

/-- It is accepted if the connection is about to stop: nothing is done in vain before that. -/
theorem exists_reset_eq_ok {c : Connection} {onLoop : Bool}
    (hs : c.requireStopped onLoop = .ok ()) : ∃ raised c', c.reset onLoop = (.ok raised, c') := by
  have hterminal : c.desired.isTerminal = true := by
    unfold requireStopped at hs
    split at hs
    · exact (Bool.and_eq_true_iff.1 ‹_›).1
    · cases hs
  have hp' : c.letGo.shared.lifecycle.desired.permits .initial = true := by
    rw [letGo_shared]
    exact ConnectionState.permits_initial_of_isTerminal hterminal
  have hr : c.letGo.requestReset = (.ok (), { c.letGo with
      shared := { c.letGo.shared with lifecycle := ⟨c.letGo.state, .initial⟩ } }) := by
    rw [requestReset, Lifecycle.request, if_pos hp']
    rfl
  simp only [reset, hs, hr]
  exact ⟨_, _, rfl⟩

/-! ### Messages -/

/-- Queues a message to be sent. After the connection has stopped it is dropped. -/
def send (c : Connection) (m : Message) : Connection :=
  if c.desired.isTerminal then c
  else { c with shared := { c.shared with outbound := c.shared.outbound.push m } }

/-- Takes the oldest message received. -/
def takeNext (c : Connection) : Option Message × Connection :=
  let (m, inbound) := c.shared.inbound.pop
  (m, { c with shared := { c.shared with inbound } })

/-- Takes all messages received. -/
def takeAll (c : Connection) : List Message × Connection :=
  let (messages, inbound) := c.shared.inbound.drain
  (messages, { c with shared := { c.shared with inbound } })

/-- How many messages have been received and not taken. -/
def pending (c : Connection) : Nat := c.shared.inbound.length

/-! ### Views -/

/-- The error reported last. -/
def lastError (c : Connection) : Option ConnectionError := c.shared.lastError

/-- How a connection is shown. -/
def describe (c : Connection) : String :=
  let address := c.shared.localAddress.elim "None" fun a => "Some(" ++ a.text ++ ")"
  "Connection \x7b state: " ++ c.state.name ++ ", local_addr: " ++ address ++ ", listeners: " ++
    toString c.shared.listeners.length ++ " \x7d"

end Connection

end PeerMessaging
