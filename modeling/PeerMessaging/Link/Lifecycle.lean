/-!
# The lifecycle of a connection

A connection is in one of eight states (`ConnectionState`), and `ConnectionState.permits` says which
may follow which. A `Lifecycle` has two slots: the state that was applied last and the one that is
pending. Anybody may ask for a transition, which is held to the pending state
(`Lifecycle.request`); the loop that runs the connection applies what is pending
(`Lifecycle.apply`).
-/

namespace PeerMessaging

/-- The states of a connection. -/
inductive ConnectionState
  /-- Nothing has been started. -/
  | initial
  /-- A stream to the peer is being opened. -/
  | connecting
  /-- The listening socket is being bound. -/
  | opening
  /-- Waiting for one peer. -/
  | listening
  /-- Exchanging frames with the peer. -/
  | connected
  /-- Letting go of the socket. -/
  | closing
  /-- Shut down. -/
  | closed
  /-- Stopped by a fatal error. -/
  | error
  deriving DecidableEq, Repr

namespace ConnectionState

/-- The states in the order of a connection's life. -/
def all : List ConnectionState :=
  [initial, connecting, opening, listening, connected, closing, closed, error]

/-- The loop that runs the connection ends in this state. -/
def isTerminal : ConnectionState → Bool
  | closed | error => true
  | _ => false

/-- The second state may follow the first. -/
def permits : ConnectionState → ConnectionState → Bool
  | initial, connecting | initial, opening => true
  | connecting, connected | connecting, closing | connecting, error => true
  | opening, listening | opening, closing | opening, error => true
  | listening, connected | listening, closing | listening, error => true
  | connected, closing | connected, error => true
  | closing, closed | closing, error => true
  | closed, initial | error, initial => true
  | _, _ => false

/-- A session is only begun in the first state. -/
theorem eq_initial_of_permits {a b : ConnectionState} (h : a.permits b = true)
    (hb : b = .connecting ∨ b = .opening) : a = .initial := by
  rcases hb with rfl | rfl <;> cases a <;> first | rfl | cases h

/-- A connection that has stopped can begin anew. -/
theorem permits_initial_of_isTerminal {a : ConnectionState} (h : a.isTerminal = true) :
    a.permits .initial = true := by
  cases a <;> first | rfl | cases h

/-- The states that may follow. -/
def successors (s : ConnectionState) : List ConnectionState := all.filter s.permits

/-- The word for a state. -/
def text : ConnectionState → String
  | initial => "initial"
  | connecting => "connecting"
  | opening => "opening"
  | listening => "listening"
  | connected => "connected"
  | closing => "closing"
  | closed => "closed"
  | error => "error"

/-- The name of a state where it is shown as a value. -/
def name (s : ConnectionState) : String := s.text.capitalize

end ConnectionState

/-- The applied state of a connection and the pending one. -/
structure Lifecycle where
  /-- The state applied last. -/
  current : ConnectionState
  /-- The state to be applied next. -/
  desired : ConnectionState
  deriving DecidableEq, Repr

namespace Lifecycle

/-- The lifecycle of a connection that has not been started. -/
def new : Lifecycle := ⟨.initial, .initial⟩

/-- Asks for a transition from the pending state. If it is not permitted, the pending state is the
answer. -/
def request (l : Lifecycle) (next : ConnectionState) : Except ConnectionState Lifecycle :=
  if l.desired.permits next then .ok { l with desired := next } else .error l.desired

/-- Asks for a transition and lets it be if it is not permitted. -/
def tryRequest (l : Lifecycle) (next : ConnectionState) : Lifecycle :=
  match l.request next with
  | .ok l => l
  | .error _ => l

/-- Makes the pending state the current one; the answer is the new state if it changed. -/
def apply (l : Lifecycle) : Option ConnectionState × Lifecycle :=
  if l.current = l.desired then (none, l) else (some l.desired, { l with current := l.desired })

/-- A request is accepted just when the pending state permits it, and then it is what is pending. -/
theorem request_eq_ok_iff {l l' : Lifecycle} {next : ConnectionState} :
    l.request next = .ok l' ↔ l.desired.permits next = true ∧ l' = { l with desired := next } := by
  unfold request
  split
  · rename_i h
    exact ⟨fun e => ⟨h, (Except.ok.inj e).symm⟩, fun e => e.2 ▸ rfl⟩
  · rename_i h
    exact ⟨nofun, fun e => absurd e.1 h⟩

/-- A request, accepted or not, leaves the current state as it is. -/
theorem current_tryRequest (l : Lifecycle) (next : ConnectionState) :
    (l.tryRequest next).current = l.current := by
  unfold tryRequest request
  split <;> rename_i h <;> split at h <;> cases h <;> rfl

/-- After the pending state is applied both slots hold it. -/
theorem apply_snd (l : Lifecycle) : l.apply.2 = ⟨l.desired, l.desired⟩ := by
  obtain ⟨current, desired⟩ := l
  unfold apply
  split
  · rename_i h
    cases h
    rfl
  · rfl

end Lifecycle

end PeerMessaging
