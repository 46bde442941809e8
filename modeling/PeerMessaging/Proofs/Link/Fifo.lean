import PeerMessaging.Link.Queue

/-!
# Any number of threads at one queue

Threads push messages into a queue and take them out, each operation as one step, and the steps of
all threads are interleaved in any way (`MessageQueue.Step`). A message that has been pushed is
known by when and by whom (`MessageQueue.Parcel`), so that two messages that are alike are still
told apart. A step moves parcels from those that wait to those that have left and loses none
(`MessageQueue.Waits.step`), and so does every interleaving (`MessageQueue.Waits.run`): what has
left and what waits are together what was pushed, in that order
(`MessageQueue.messages_leave_once_in_order`).
-/

namespace PeerMessaging.MessageQueue

/-- What is done to a queue in one step. -/
inductive Op
  | push (m : Message)
  | pop
  | drain
  | clear

/-- A step of an interleaving: a thread does something to the queue. -/
structure Step where
  thread : Nat
  op : Op

/-- The queue after an operation. -/
def after (q : MessageQueue) : Op → MessageQueue
  | .push m => q.push m
  | .pop => q.pop.2
  | .drain => q.drain.2
  | .clear => q.clear.2

/-- The messages that an operation takes out of the queue, in order: one is handed out, or all are,
or all are dropped. -/
def removedBy (q : MessageQueue) : Op → List Message
  | .push _ => []
  | .pop => q.pop.1.toList
  | .drain => q.drain.1
  | .clear => q.messages

/-- The queue after steps. -/
def run (q : MessageQueue) (steps : List Step) : MessageQueue :=
  steps.foldl (fun q s => q.after s.op) q

/-- The messages that steps take out of the queue, one step after another. -/
def removed (q : MessageQueue) : List Step → List Message
  | [] => []
  | s :: steps => q.removedBy s.op ++ removed (q.after s.op) steps

/-- What one thread does in an interleaving. -/
def opsOf (thread : Nat) (steps : List Step) : List Op :=
  (steps.filter (·.thread = thread)).map (·.op)

/-- The message that an operation pushes. -/
def Op.pushed? : Op → Option Message
  | push m => some m
  | pop | drain | clear => none

/-- A message that has been pushed, with the thread and the time. No two pushes have the same
time. -/
structure Parcel where
  thread : Nat
  time : Nat
  message : Message

/-- What a step pushes at a time. -/
def Step.sent (time : Nat) (s : Step) : List Parcel :=
  (s.op.pushed?.map fun m => ⟨s.thread, time, m⟩).toList

/-- What steps push from a time on, one step after another. -/
def sent (time : Nat) : List Step → List Parcel
  | [] => []
  | s :: steps => s.sent time ++ sent (time + 1) steps

/-! ## What is pushed -/

section
variable {time : Nat} {steps : List Step} {p : Parcel}

theorem Step.time_of_mem_sent {s : Step} (h : p ∈ s.sent time) : p.time = time := by
  obtain ⟨thread, op⟩ := s
  cases op with
  | push m =>
    cases List.mem_singleton.1 h
    rfl
  | _ => cases h

theorem le_time_of_mem_sent (h : p ∈ sent time steps) : time ≤ p.time := by
  induction steps generalizing time with
  | nil => cases h
  | cons s steps ih =>
    rcases List.mem_append.1 h with h | h
    · exact Nat.le_of_eq (Step.time_of_mem_sent h).symm
    · exact Nat.le_of_succ_le (ih h)

/-- Parcels are in the order of their times, so that none stands twice. -/
theorem pairwise_sent (time : Nat) (steps : List Step) :
    (sent time steps).Pairwise (·.time < ·.time) := by
  induction steps generalizing time with
  | nil => exact .nil
  | cons s steps ih =>
    refine List.pairwise_append.2 ⟨?_, ih (time + 1), fun p hp p' hp' => ?_⟩
    · rw [Step.sent]
      cases s.op.pushed? with
      | none => exact .nil
      | some m => exact List.pairwise_singleton ..
    · have hlater := le_time_of_mem_sent hp'
      rw [Step.time_of_mem_sent hp]
      exact hlater

/-- The parcels of a thread are what it pushes. -/
theorem filter_sent (thread time : Nat) (steps : List Step) :
    ((sent time steps).filter (·.thread = thread)).map (·.message) =
      (opsOf thread steps).filterMap Op.pushed? := by
  induction steps generalizing time with
  | nil => rfl
  | cons s steps ih =>
    obtain ⟨t, op⟩ := s
    have hops : opsOf thread (⟨t, op⟩ :: steps) =
        (if t = thread then [op] else []) ++ opsOf thread steps := by
      by_cases h : t = thread <;> simp [opsOf, h]
    rw [sent, List.filter_append, List.map_append, ih, hops, List.filterMap_append]
    congr 1
    by_cases h : t = thread <;> cases op <;> simp [Step.sent, Op.pushed?, h]

end

/-! ## What leaves and what waits -/

/-- A queue hands out the first of its messages, if there is one, and keeps the others. -/
theorem pop_eq (q : MessageQueue) :
    q.pop.1 = q.messages.head? ∧ q.pop.2.messages = q.messages.tail := by
  unfold pop
  split <;> simp_all [messages]

/-- These parcels wait in a queue, in this order. -/
def Waits (q : MessageQueue) (waiting : List Parcel) : Prop :=
  waiting.map (·.message) = q.messages

namespace Waits
variable {q : MessageQueue} {waiting : List Parcel}

/-- The message that is taken is the first that waits. -/
theorem pop (h : q.Waits waiting) :
    q.pop.1 = waiting.head?.map (·.message) ∧ q.pop.2.Waits waiting.tail := by
  obtain ⟨hfirst, hrest⟩ := q.pop_eq
  rw [Waits, hfirst, hrest, ← h, List.head?_map, List.map_tail]
  exact ⟨rfl, rfl⟩

/-- A step lets some parcels leave, which are what it takes out of the queue, and keeps the others
and what it pushes in the queue. -/
theorem step (h : q.Waits waiting) (time : Nat) (s : Step) :
    ∃ leaving staying, leaving ++ staying = waiting ++ s.sent time ∧
      leaving.map (·.message) = q.removedBy s.op ∧ (q.after s.op).Waits staying := by
  obtain ⟨thread, op⟩ := s
  cases op with
  | push m =>
    refine ⟨[], waiting ++ [⟨thread, time, m⟩], rfl, rfl, ?_⟩
    rw [Waits, List.map_append, h, after, messages_push]
    rfl
  | pop =>
    obtain ⟨hfirst, hrest⟩ := h.pop
    have hremoved : q.removedBy .pop = (waiting.head?.map (·.message)).toList := by
      rw [removedBy, hfirst]
    cases waiting with
    | nil => exact ⟨[], [], rfl, hremoved.symm, hrest⟩
    | cons p waiting =>
      exact ⟨[p], waiting, (List.append_nil _).symm, hremoved.symm, hrest⟩
  | drain => exact ⟨waiting, [], rfl, h, rfl⟩
  | clear => exact ⟨waiting, [], rfl, h, rfl⟩

/-- Steps let parcels leave in the order in which they wait or are pushed, which are what the steps
take out of the queue, and the others wait. -/
theorem run (h : q.Waits waiting) (time : Nat) (steps : List Step) :
    ∃ left staying, left ++ staying = waiting ++ sent time steps ∧
      left.map (·.message) = q.removed steps ∧ (q.run steps).Waits staying := by
  induction steps generalizing q waiting time with
  | nil => exact ⟨[], waiting, (List.append_nil _).symm, rfl, h⟩
  | cons s steps ih =>
    obtain ⟨leaving, staying, hparcels, hleaving, hstaying⟩ := h.step time s
    obtain ⟨left, last, hrest, hleft, hlast⟩ := ih hstaying (time + 1)
    refine ⟨leaving ++ left, last, ?_, ?_, hlast⟩
    · rw [List.append_assoc, hrest, ← List.append_assoc, hparcels, List.append_assoc, sent]
    · rw [List.map_append, hleaving, hleft, removed]

end Waits

/-- Nothing that is pushed into a queue is lost or leaves twice, and all leaves in the order in
which it was pushed. However the steps of any number of threads are interleaved, from an empty queue
on:

* what has left, in the order of the operations that took it out, and then what waits in the queue
  is what has been pushed, in the order of the pushes;
* no push stands in it twice, since the times ascend;
* the messages of each thread stand in it as the thread has pushed them, one after another;
* the length of the queue is the number of pushes less that of the messages that have left;
* the next message to be handed out is the first that waits, if there is one, and the others wait
  on;
* taking all messages hands out what waits, and dropping all answers how many wait; either leaves
  the queue empty. -/
theorem messages_leave_once_in_order (steps : List Step) :
    ∃ left waiting : List Parcel, left ++ waiting = sent 0 steps ∧
      left.map (·.message) = empty.removed steps ∧
      waiting.map (·.message) = (empty.run steps).messages ∧
      (left ++ waiting).Pairwise (·.time < ·.time) ∧
      (∀ thread, ((left ++ waiting).filter (·.thread = thread)).map (·.message) =
        (opsOf thread steps).filterMap Op.pushed?) ∧
      (empty.run steps).length = (sent 0 steps).length - (empty.removed steps).length ∧
      (empty.removed steps).length ≤ (sent 0 steps).length ∧
      ((empty.run steps).pop.1 = waiting.head?.map (·.message) ∧
        (empty.run steps).pop.2.messages = waiting.tail.map (·.message)) ∧
      (empty.run steps).drain = (waiting.map (·.message), empty) ∧
      (empty.run steps).clear = (waiting.length, empty) := by
  have hempty : empty.Waits [] := rfl
  obtain ⟨left, waiting, hparcels, hleft, hwaits⟩ := hempty.run 0 steps
  rw [List.nil_append] at hparcels
  have hlength : waiting.length = (empty.run steps).length := by
    rw [← length_messages, ← hwaits, List.length_map]
  have hcount : (empty.removed steps).length + waiting.length = (sent 0 steps).length := by
    rw [← hparcels, List.length_append, ← hleft, List.length_map]
  refine ⟨left, waiting, hparcels, hleft, hwaits, ?_, fun thread => ?_, ?_, ?_, ?_, ?_, ?_⟩
  · rw [hparcels]
    exact pairwise_sent 0 steps
  · rw [hparcels]
    exact filter_sent thread 0 steps
  · omega
  · omega
  · exact ⟨hwaits.pop.1, hwaits.pop.2.symm⟩
  · rw [drain, hwaits]
  · rw [clear, hlength]

end PeerMessaging.MessageQueue
