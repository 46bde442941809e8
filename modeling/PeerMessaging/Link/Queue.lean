import PeerMessaging.Message.Body

/-!
# Message queues

A queue of messages between those who call a connection and the loop that runs it. Messages leave in
the order in which they came (`MessageQueue.pop`), or all at once (`MessageQueue.drain`,
`MessageQueue.clear`). Each operation is one step, whoever makes it.

A queue is held in two parts, so that a message is put behind the others without passing them.
`MessageQueue.messages` is what the queue holds, and every operation is known by what it does to
that (`messages_push`, `messages_pop`, `messages_drain`).
-/

namespace PeerMessaging

/-- Messages that wait. -/
structure MessageQueue where
  /-- The messages that leave first, in order. -/
  front : List Message := []
  /-- The messages behind those, the last one first. -/
  back : List Message := []

namespace MessageQueue

/-- A queue without messages. -/
def empty : MessageQueue := {}

instance : Inhabited MessageQueue := ⟨empty⟩

/-- The messages in the order in which they leave. -/
def messages (q : MessageQueue) : List Message := q.front ++ q.back.reverse

/-- Puts a message behind all others. -/
def push (q : MessageQueue) (m : Message) : MessageQueue := { q with back := m :: q.back }

/-- Takes the first message. -/
def pop (q : MessageQueue) : Option Message × MessageQueue :=
  match q.front, q.back.reverse with
  | m :: rest, _ => (some m, { q with front := rest })
  | [], m :: rest => (some m, { front := rest })
  | [], [] => (none, q)

/-- Takes all messages. -/
def drain (q : MessageQueue) : List Message × MessageQueue := (q.messages, empty)

/-- How many messages are waiting. -/
def length (q : MessageQueue) : Nat := q.front.length + q.back.length

/-- Drops all messages; the answer is how many there were. -/
def clear (q : MessageQueue) : Nat × MessageQueue := (q.length, empty)

@[simp] theorem messages_empty : empty.messages = [] := rfl

@[simp] theorem messages_push (q : MessageQueue) (m : Message) :
    (q.push m).messages = q.messages ++ [m] := by
  simp [messages, push]

/-- What is taken and what is left are what was there. -/
theorem messages_pop (q : MessageQueue) : q.pop.1.toList ++ q.pop.2.messages = q.messages := by
  unfold pop
  split <;> simp_all [messages]

/-- Nothing is left of a queue that has been drained. -/
theorem messages_drain (q : MessageQueue) : q.drain.1 ++ q.drain.2.messages = q.messages := by
  simp [drain]

theorem length_messages (q : MessageQueue) : q.messages.length = q.length := by
  simp [messages, length]

end MessageQueue

end PeerMessaging
