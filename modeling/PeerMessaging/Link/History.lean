import PeerMessaging.Link.Connection

/-!
# Histories of a connection

Whatever happens to a connection is a sequence of moves (`Move`): calls, from outside or from a
listener, and steps of its loop, in any order. `Connection.move` says what comes of one move and
`Connection.play` what comes of a sequence of them, so that a law of `play` holds however the calls
fall between the steps of the loop.

There is one loop in such a history: one that was left running when another was started
(`Connection.strays`) makes no steps in it. A reset is made in one go when the loop has ended, or
when somebody else waits for it. Whatever else may come of either is in a `Scene`.
-/

namespace PeerMessaging

/-- What may happen to a connection. -/
inductive Move
  | register (typeId : UInt32) (codec : Codec)
  | registerNamed (codec : Codec)
  | addListener (listener : Listener)
  | removeListener (id : Nat)
  | connect (endpoint : Endpoint) (now : Moment)
  | listen (endpoint : Endpoint) (now : Moment)
  | requestClose
  /-- Somebody begins to wait for the loop. -/
  | await
  /-- Whoever waits for the loop finds that it has ended. -/
  | join
  | reset (onLoop : Bool)
  | send (message : Message)
  | takeNext
  | clearError
  /-- The loop makes a step. -/
  | work (calls : SocketCalls)
  /-- A listener fails, which ends the loop. -/
  | abandon

/-- What comes of a move. -/
structure Outcome where
  connection : Connection
  /-- Why the call was refused. -/
  refusal : Option PeerError := none
  /-- The event that was raised. -/
  raised : Option Event := none
  /-- Who was told of what. -/
  told : List (Listener × Event) := []

namespace Connection

/-- What comes of a call that may be refused. -/
def answered {α : Type} (called : Except PeerError α × Connection) : Outcome :=
  match called with
  | (.ok _, connection) => { connection }
  | (.error e, connection) => { connection, refusal := some e }

/-- What comes of a move. One that has to wait for the end of the loop does nothing before that. -/
def move (c : Connection) : Move → Outcome
  | .register typeId codec => answered (c.register typeId codec)
  | .registerNamed codec => answered (c.registerNamed codec)
  | .addListener listener => answered (c.addListener listener)
  | .removeListener id => answered (c.removeListener id)
  | .connect endpoint now => answered (c.connect endpoint now)
  | .listen endpoint now => answered (c.listen endpoint now)
  | .requestClose => { connection := c.requestClose }
  | .await => { connection := c.await }
  | .join => { connection := if c.isIdle then c.join else c }
  | .reset onLoop =>
    match c.requireStopped onLoop with
    | .error e => { connection := c, refusal := some e }
    | .ok () =>
      if c.isIdle || c.awaited then
        match c.reset onLoop with
        | (.ok raised, connection) => { connection, raised, told := connection.toTell raised }
        | (.error e, connection) => { connection, refusal := some e }
      else { connection := c }
  | .send m => { connection := c.send m }
  | .takeNext => { connection := c.takeNext.2 }
  | .clearError => { connection := c.clearError }
  | .work calls =>
    match c.work calls with
    | some s => { connection := c.after s, raised := s.raised, told := s.told.toList }
    | none => { connection := c }
  | .abandon => { connection := { c with loop := c.loop.map Loop.abandon } }

/-- What comes of moves, one after another. -/
def play (c : Connection) : List Move → List Outcome
  | [] => []
  | m :: rest => c.move m :: play (c.move m).connection rest

/-- The events raised in a history. -/
def events (history : List Outcome) : List Event := history.filterMap (·.raised)

/-- The states announced in a history. -/
def announced (history : List Outcome) : List ConnectionState :=
  (events history).filterMap fun
    | .state s => some s
    | _ => none

end Connection

end PeerMessaging
