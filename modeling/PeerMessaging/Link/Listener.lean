import PeerMessaging.Link.Failure

/-!
# Listeners of a connection

A connection tells its listeners of every `Event`, in the order in which they were registered. A
listener may be registered more than once, and is then told as often; it is removed with all its
registrations (`Listeners.remove`). What a listener does when it is told of an event may change who
is registered: that counts from the next event on, for an event goes to those who were registered
when it was raised (`Listeners.raise`).
-/

namespace PeerMessaging

/-- What a connection tells its listeners. -/
inductive Event
  /-- This is the state now. -/
  | state (state : ConnectionState)
  /-- A message has come in. -/
  | message
  | error (error : ConnectionError)
  deriving DecidableEq, Repr

/-- The events that a listener reacts to. -/
inductive Interest
  | everything
  | states
  | messages
  | errors
  | nothing
  deriving DecidableEq, Repr

/-- The event is of interest. -/
def Interest.covers : Interest → Event → Bool
  | everything, _ | states, .state _ | messages, .message | errors, .error _ => true
  | _, _ => false

/-- A listener, known by a number. -/
structure Listener where
  id : Nat
  interest : Interest := .everything
  deriving DecidableEq, Repr

/-- The listeners in the order of their registrations. -/
structure Listeners where
  registered : List Listener := []
  deriving DecidableEq, Repr

namespace Listeners

/-- Nobody listens. -/
def empty : Listeners := {}

instance : Inhabited Listeners := ⟨empty⟩

/-- Registers a listener behind all others. -/
def add (ls : Listeners) (l : Listener) : Listeners := ⟨ls.registered ++ [l]⟩

/-- Removes every registration of a listener; the answer tells whether there was one. -/
def remove (ls : Listeners) (id : Nat) : Bool × Listeners :=
  (ls.registered.any (·.id = id), ⟨ls.registered.filter (·.id ≠ id)⟩)

/-- How many registrations there are. -/
def length (ls : Listeners) : Nat := ls.registered.length

/-- Raises an event: everybody who is registered now is told of it, one after another, whatever
they do to the registrations on being told. -/
def raise {σ : Type} (listeners : σ → Listeners) (tell : Listener → Event → σ → σ) (event : Event)
    (s : σ) : σ :=
  (listeners s).registered.foldl (fun s l => tell l event s) s

@[simp] theorem registered_add (ls : Listeners) (l : Listener) :
    (ls.add l).registered = ls.registered ++ [l] := rfl

end Listeners

end PeerMessaging
