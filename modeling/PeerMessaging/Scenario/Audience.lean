import PeerMessaging.Link.Listener

/-!
# An audience

Listeners under labels (`Audience`), of whom each has a part to play: to keep a log of what it is
told, to say nothing, to pass the events on into a channel, or to log the events of one kind and
then change the audience (`Reaction`). Events are raised with `Audience.raise`.
-/

namespace PeerMessaging

/-- The part of a listener. -/
inductive Part
  /-- Logs every event. -/
  | recorder
  /-- Reacts to nothing. -/
  | silent
  /-- Passes every event on into a channel. -/
  | channel
  /-- Logs the events of one kind, and then reacts. -/
  | callback (interest : Interest)
  deriving DecidableEq, Repr

/-- The events that a part is about. -/
def Part.interest : Part → Interest
  | recorder | channel => .everything
  | silent => .nothing
  | callback interest => interest

/-- What a listener does after it has logged an event. -/
inductive Reaction
  | nothing
  /-- Registers the listener of a label. -/
  | add (label : String)
  /-- Removes the listener of a label. -/
  | remove (label : String)
  /-- Makes a listener and registers it. -/
  | make (label : String) (part : Part) (reaction : Reaction)
  deriving DecidableEq, Repr

/-- The sending end of a channel of events and what waits at the other end. -/
structure EventChannel where
  waiting : List Event := []
  /-- Nobody is at the other end any more. -/
  dropped : Bool := false
  deriving DecidableEq, Repr

namespace EventChannel

/-- Sends an event, which is lost if nobody is at the other end. -/
def send (c : EventChannel) (event : Event) : EventChannel :=
  if c.dropped then c else { c with waiting := c.waiting ++ [event] }

/-- Takes up to `count` of the events that wait. -/
def take (c : EventChannel) (count : Nat) : List Event × EventChannel :=
  (c.waiting.take count, { c with waiting := c.waiting.drop count })

/-- Gives up the receiving end. -/
def drop (c : EventChannel) : EventChannel := { c with waiting := [], dropped := true }

end EventChannel

/-- A listener with its label and its part. -/
structure Member where
  label : String
  part : Part
  reaction : Reaction := .nothing
  channel : EventChannel := {}
  deriving DecidableEq, Repr

/-- Listeners under labels, and what they have logged. -/
structure Audience where
  listeners : Listeners := {}
  /-- Those made so far; a listener is known by its place. -/
  members : List Member := []
  log : List (String × Event) := []
  deriving DecidableEq, Repr

namespace Audience

/-- The listener at a place. -/
def listenerAt (a : Audience) (id : Nat) : Listener :=
  ⟨id, (a.members[id]?).elim .nothing (·.part.interest)⟩

/-- The place of the listener made last under a label. -/
def find? (a : Audience) (label : String) : Option Nat :=
  (List.range a.members.length).reverse.find? fun id => a.members[id]?.any (·.label = label)

/-- Makes a listener without registering it. -/
def make (a : Audience) (label : String) (part : Part) (reaction : Reaction) : Audience :=
  { a with members := a.members ++ [⟨label, part, reaction, {}⟩] }

/-- Registers the listener of a label. -/
def add (a : Audience) (label : String) : Audience :=
  match a.find? label with
  | some id => { a with listeners := a.listeners.add (a.listenerAt id) }
  | none => a

/-- Removes the listener of a label; the answer tells whether it was registered. -/
def remove (a : Audience) (label : String) : Bool × Audience :=
  match a.find? label with
  | some id =>
    let (found, listeners) := a.listeners.remove id
    (found, { a with listeners })
  | none => (false, a)

/-- Lets a listener react. -/
def react (a : Audience) : Reaction → Audience
  | .nothing => a
  | .add label => a.add label
  | .remove label => (a.remove label).2
  | .make label part reaction => (a.make label part reaction).add label

/-- Changes the channel of a listener. -/
def withChannel (a : Audience) (id : Nat) (f : EventChannel → EventChannel) : Audience :=
  { a with members := a.members.modify id fun m => { m with channel := f m.channel } }

/-- Tells a listener of an event. -/
def tell (l : Listener) (event : Event) (a : Audience) : Audience :=
  match a.members[l.id]? with
  | none => a
  | some m =>
    if l.interest.covers event then
      match m.part with
      | .channel => a.withChannel l.id (·.send event)
      | _ => { a with log := a.log ++ [(m.label, event)] }.react m.reaction
    else a

/-- Raises an event. -/
def raise (a : Audience) (event : Event) : Audience := Listeners.raise listeners tell event a

/-- Takes the events that wait in the channel of a label. -/
def takeEvents (a : Audience) (label : String) : List Event × Audience :=
  match a.find? label with
  | none => ([], a)
  | some id =>
    let events := (a.members[id]?).elim [] (·.channel.waiting)
    (events, a.withChannel id fun c => (c.take events.length).2)

/-- Gives up the receiving end of the channel of a label. -/
def dropChannel (a : Audience) (label : String) : Audience :=
  match a.find? label with
  | some id => a.withChannel id EventChannel.drop
  | none => a

end Audience

end PeerMessaging
