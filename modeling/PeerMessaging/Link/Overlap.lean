import PeerMessaging.Link.History

/-!
# Calls that overlap

In a history of moves (`Connection.play`) a reset is made in one go. It does several things,
however, and other calls may come between any two of them (`Chore`): the connection may be started
again before its listeners have been told that it is as good as new. In a `Scene` each caller who
resets the connection has something still to do, and whoever is next may go on (`Scene.act`).

A reset that waits for a loop may go on at any time here, whether that has ended or not. So may a
loop that had not ended when another was started.
-/

namespace PeerMessaging

/-- A thing that a reset does. Nothing comes between its parts. -/
inductive Chore
  /-- Begins to wait for the loop, or lets go of it if it has ended. -/
  | wait
  /-- Asks for the first state. If that is refused the reset is over. -/
  | request
  | clearError
  | clearAddress
  | dropOutbound
  | dropInbound
  /-- Makes the pending state the current one. -/
  | apply
  /-- Raises an event: those who are registered now will be told of it. -/
  | raise (event : Event)
  /-- Tells listeners of an event, one after another. -/
  | notify (event : Event) (rest : List Listener)

/-- What a reset that is in place has to do. -/
def renewing : List Chore :=
  [.wait, .request, .clearError, .clearAddress, .dropOutbound, .dropInbound, .apply]

/-- What comes of a chore that has others behind it, and the chores that are left then. -/
def Chore.perform (c : Connection) (rest : List Chore) : Chore → Outcome × List Chore
  | wait => ({ connection := if c.isIdle || c.awaited then c.letGo else c.await }, rest)
  | request =>
    match c.requestReset with
    | (.ok (), connection) => ({ connection }, rest)
    | (.error e, connection) => ({ connection, refusal := some e }, [])
  | clearError => ({ connection := c.clearError }, rest)
  | clearAddress => ({ connection := c.clearAddress }, rest)
  | dropOutbound => ({ connection := c.dropOutbound }, rest)
  | dropInbound => ({ connection := c.dropInbound }, rest)
  | apply =>
    let (event, connection) := c.applyPending
    ({ connection }, event.toList.map raise ++ rest)
  | raise event =>
    ({ connection := c, raised := some event }, notify event c.shared.listeners.registered :: rest)
  | notify _ [] => ({ connection := c }, rest)
  | notify event (listener :: more) =>
    ({ connection := c, told := [(listener, event)] }, notify event more :: rest)

/-- A connection that callers are about to reset. -/
structure Scene where
  connection : Connection
  /-- What each of them has still to do. -/
  renewals : List (List Chore) := []

namespace Scene

/-- What may happen in a scene. -/
inductive Act
  /-- A call is made, or the loop makes a step. A reset that is in place is only begun. -/
  | move (m : Move)
  /-- A reset goes on. -/
  | renew (i : Nat)
  /-- A listener fails that a reset tells of an event, which ends the reset. -/
  | fail (i : Nat)
  /-- A loop that another has taken the place of makes a step. -/
  | stray (i : Nat) (calls : SocketCalls)

/-- What a reset has still to do. -/
def renewal (s : Scene) (i : Nat) : List Chore := s.renewals.getD i []

/-- Nothing happens. -/
def stay (s : Scene) : Outcome × List (List Chore) := ({ connection := s.connection }, s.renewals)

/-- What comes of an act, and what each reset has still to do after it. -/
def act (s : Scene) : Act → Outcome × List (List Chore)
  | .move (.reset onLoop) =>
    match s.connection.requireStopped onLoop with
    | .ok () => ({ connection := s.connection }, s.renewals ++ [renewing])
    | .error e => ({ connection := s.connection, refusal := some e }, s.renewals)
  | .move m => (s.connection.move m, s.renewals)
  | .renew i =>
    match s.renewal i with
    | [] => s.stay
    | chore :: rest =>
      let (outcome, left) := chore.perform s.connection rest
      (outcome, s.renewals.set i left)
  | .fail i =>
    match s.renewal i with
    | .notify .. :: _ => ({ connection := s.connection }, s.renewals.set i [])
    | _ => s.stay
  | .stray i calls =>
    match s.connection.strays[i]? with
    | none => s.stay
    | some l =>
      let step := l.tick calls s.connection.shared
      let strays := s.connection.strays.set i step.loop
      let connection := { s.connection with shared := step.shared, strays }
      ({ connection, raised := step.raised, told := step.told.toList }, s.renewals)

/-- The scene after an act. -/
def next (s : Scene) (a : Act) : Scene where
  connection := (s.act a).1.connection
  renewals := (s.act a).2

/-- What comes of acts, one after another. -/
def play (s : Scene) : List Act → List Outcome
  | [] => []
  | a :: rest => (s.act a).1 :: (s.next a).play rest

/-- The scene after acts, one after another. -/
def after (s : Scene) (acts : List Act) : Scene := acts.foldl next s

end Scene

end PeerMessaging
