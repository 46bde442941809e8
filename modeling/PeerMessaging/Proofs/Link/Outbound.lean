import PeerMessaging.Proofs.Link.Trace
import PeerMessaging.Proofs.Wire.Attempts

/-!
# What a connection makes of what it is to send

To flush the messages that are queued the loop takes them all, encodes them one after another, and
then writes what there is to write until a deadline (`WritePurpose.rest` says what it goes on with).
Whatever is done to the connection meanwhile, each message is queued for writing or reported
(`Outbox.Flush`), and every byte that was to be written or has been queued is written or left over
(`sent_in_order`).
-/

namespace PeerMessaging

/-! ## Flushing -/

namespace Task

/-- The task may precede the write of a flush. -/
def prepares : Task → Bool
  | encode _ => true
  | task => task.relays

/-- The task may be part of a flush. -/
def flushes : Task → Bool
  | write .. => true
  | task => task.prepares

/-- What carries something out may precede the write. -/
theorem prepares_of_relays {task : Task} (h : task.relays = true) : task.prepares = true := by
  cases task <;> first | rfl | exact h

/-- What may precede the write may be part of the flush. -/
theorem flushes_of_prepares {task : Task} (h : task.prepares = true) : task.flushes = true := by
  cases task <;> first | rfl | exact h

/-- What may precede the write sets no deadline. -/
theorem isTimed_of_prepares {task : Task} (h : task.prepares = true) : task.isTimed = false := by
  cases task <;> first | rfl | cases h

end Task

/-- What the loop goes on with after a flush. -/
def WritePurpose.rest : WritePurpose → List Task
  | exchange => nextRound
  | closing => .release :: .advance .closed :: nextRound

/-- The state in which a flush has this purpose. -/
def WritePurpose.state : WritePurpose → ConnectionState
  | exchange => .connected
  | closing => .closing

/-- How long a flush may go on writing. -/
def WritePurpose.limit (config : ConnectionConfig) : WritePurpose → Duration
  | exchange => config.readTimeout
  | closing => config.flushTimeout

/-- The loop may go on with these tasks after the write of a flush and what comes of it. -/
def WritePurpose.leadsTo (purpose : WritePurpose) (tail : List Task) : Prop :=
  tail = purpose.rest ∨ purpose = .exchange ∧ tail = .receive :: .keepalive :: nextRound

/-- What a write that fails brings about: a fatal error ends the exchange of frames. -/
def WritePurpose.effects (listeners : List Listener) (e : FrameError) :
    WritePurpose → List Effect
  | exchange => (ConnectionError.ofFrame .sendFailed e).effects listeners .closing
  | closing => []

/-- The stream that the writes of a step go to. -/
def SocketCalls.output (calls : SocketCalls) : OutputStream :=
  { writes := calls.writes, flushes := calls.flushes, now := calls.now }

namespace Loop

/-- The tasks of the flush that the loop is at. -/
def flushing (l : Loop) : List Task := l.tasks.takeWhile Task.flushes

/-- What the next step writes with, and until when. -/
def toWrite (calls : SocketCalls) (l : Loop) : Option (Moment × FrameWriter) :=
  match l.tasks, l.writer with
  | .write _ deadline :: _, some w => some (deadline, ⟨w, calls.output⟩)
  | _, _ => none

/-- The error that the next write fails with. -/
def writeFailure? (calls : SocketCalls) (l : Loop) : Option FrameError :=
  (l.toWrite calls).bind fun (deadline, w) => w.failure? (some deadline)

/-- The writes that the next step makes in a flush, each with the moment at which it is over. -/
def writeAttempts (calls : SocketCalls) (l : Loop) : List (Moment × WriteOutcome) :=
  (l.toWrite calls).elim [] fun (deadline, w) => w.attempts (some deadline)

/-- The flushes of the stream that the next step makes in a flush. -/
def flushAttempts (calls : SocketCalls) (l : Loop) : List (Timed FlushOutcome) :=
  (l.toWrite calls).elim [] fun (deadline, w) => w.flushAttempts (some deadline)

end Loop

section
variable {calls : SocketCalls} {s : Shared} {l : Loop} {task : Task} {plan rest tail : List Task}
  {purpose : WritePurpose} {deadline : Moment} {w : Encoder}

/-! ## Steps -/

/-- Tasks that carry out what has been decided hold no messages to be sent. -/
theorem heldMessages_of_relays (hp : ∀ t ∈ plan, t.relays = true) : heldMessages plan = [] := by
  refine List.flatMap_eq_nil_iff.2 fun t ht => ?_
  have h := hp t ht
  cases t <;> first | rfl | cases h

/-- Nothing that follows a flush is part of it. -/
theorem WritePurpose.takeWhile_flushes (ht : purpose.leadsTo tail) :
    tail.takeWhile Task.flushes = [] := by
  rcases ht with rfl | ⟨-, rfl⟩
  · cases purpose <;> rfl
  · rfl

namespace Loop

/-- Before what follows it, a flush is the plan that is left of it. -/
theorem flushing_append (ht : l.tasks = plan ++ tail) (hp : ∀ t ∈ plan, t.flushes = true)
    (htail : tail.takeWhile Task.flushes = []) : l.flushing = plan := by
  rw [flushing, ht, List.takeWhile_append_of_pos hp, htail, List.append_nil]

/-- Only a write writes. -/
theorem toWrite_eq_none (calls : SocketCalls) (ht : l.tasks = task :: rest)
    (hn : task.prepares = true) : l.toWrite calls = none := by
  unfold toWrite
  split
  · rename_i ht' _
    cases ht.symm.trans ht'
    cases hn
  · rfl

/-- A connected loop plans a flush in every round, and one that closes plans its last. -/
theorem step_plans (ht : l.tasks = [.act]) (hc : s.lifecycle.current = purpose.state) :
    l.step calls s =
      { shared := s
        loop := { l with
          tasks := .collect :: .write purpose (calls.now + purpose.limit l.config) ::
            purpose.rest } } := by
  cases purpose <;> simp only [step, ht, act, hc, WritePurpose.state] <;> rfl

/-- After the messages have been encoded there is nothing to encode. -/
theorem step_encoded (ht : l.tasks = .encode [] :: rest) :
    l.step calls s = { shared := s, loop := { l with tasks := rest } } := by
  simp only [step, ht]

/-- A task that precedes the write is replaced by others that cost less. -/
theorem step_prepares (calls : SocketCalls) (s : Shared) (listeners : List Listener)
    (hs : s.listeners.registered = listeners) (ht : l.tasks = task :: rest)
    (hn : task.prepares = true) :
    ∃ plan, (l.step calls s).loop.tasks = plan ++ rest ∧ (∀ t ∈ plan, t.prepares = true) ∧
      costs listeners.length plan < task.cost listeners.length := by
  have relays (hn : task.relays = true) :
      ∃ plan, (l.step calls s).loop.tasks = plan ++ rest ∧ (∀ t ∈ plan, t.prepares = true) ∧
        costs listeners.length plan < task.cost listeners.length := by
    obtain ⟨plan, ht', hp, -, hc⟩ := step_relay calls {} ht hn hs rfl
    exact ⟨plan, ht', fun t hm => Task.prepares_of_relays (hp t hm), hc⟩
  cases task with
  | encode messages =>
    cases messages with
    | nil =>
      refine ⟨[], ?_, List.forall_mem_nil _, Nat.lt_succ_of_le (Nat.zero_le _)⟩
      rw [step_encoded ht, List.nil_append]
    | cons m ms =>
      rcases (l.step_encode ht calls s).2 with h | ⟨w, e, -, -, h⟩
      · refine ⟨[.encode ms], h, by simp [Task.prepares], ?_⟩
        simp only [costs, Task.cost, List.length_cons, Nat.succ_mul]
        omega
      · refine ⟨[.report e, .encode ms], h, by simp [Task.prepares, Task.relays], ?_⟩
        simp only [costs, Task.cost, List.length_cons, Nat.succ_mul]
        omega
  | _ => exact relays hn

/-- The write of a flush takes bytes off those to be written, and a failure is reported if that is
what it leads to. -/
theorem step_flush (calls : SocketCalls) (s : Shared) (registry : Registry) (config : FrameConfig)
    (listeners : List Listener) (ht : l.tasks = .write purpose deadline :: purpose.rest)
    (hw : l.writer = some w) :
    let after := (FrameWriter.flushPending (some deadline) ⟨w, calls.output⟩).2
    ∃ plan tail, (l.step calls s).loop.tasks = plan ++ tail ∧
      purpose.leadsTo tail ∧ (∀ t ∈ plan, t.relays = true) ∧
      (l.step calls s).loop.writer = some after.encoder ∧
      (l.step calls s).sent = after.output.accepted ∧ l.effects calls s = [] ∧
      effectsOf registry config listeners plan =
        (l.writeFailure? calls).elim [] fun e => purpose.effects listeners e := by
  have hwrite : l.toWrite calls = some (deadline, ⟨w, calls.output⟩) := by
    simp only [toWrite, ht, hw]
  have hquiet : (l.step calls s).shared = s ∧ (l.step calls s).raised = none ∧
      (l.step calls s).told = none := by
    simp only [step, ht, write, hw, and_self]
  have heffects : l.effects calls s = [] := by
    rw [effects_of_inbound (by rw [hquiet.1]), hquiet.2.1, hquiet.2.2, asked, ht]
    rfl
  simp only [heffects, writeFailure?, hwrite, Option.bind_some, FrameWriter.failure?, step, ht,
    write, hw, SocketCalls.output]
  generalize FrameWriter.flushPending _ _ = r
  obtain ⟨result, w'⟩ := r
  cases purpose with
  | closing =>
    refine ⟨[], _, rfl, .inl rfl, List.forall_mem_nil _, rfl, trivial, trivial, ?_⟩
    cases result <;> rfl
  | exchange =>
    cases result with
    | ok b => exact ⟨[], _, rfl, .inr ⟨rfl, rfl⟩, List.forall_mem_nil _, rfl, trivial, trivial, rfl⟩
    | error e =>
      exact ⟨failing _ .closing, _, rfl, .inl rfl, by simp [failing, Task.relays], rfl, trivial,
        trivial, effectsOf_failing _ _⟩

end Loop

end

/-! ## The ledger of a flush -/

/-- What a flush begins with. -/
structure Outbox where
  registry : Registry
  config : FrameConfig
  listeners : List Listener
  purpose : WritePurpose
  deadline : Moment
  /-- The bytes that are still to be written. -/
  pending : Bytes
  /-- The messages that are queued. -/
  queue : List Message

namespace Outbox

/-- The bytes to be written once these messages have been encoded. -/
def encoded (b : Outbox) (done : List Message) : Bytes :=
  b.pending ++ (done.filterMap (b.registry.outgoing b.config)).flatMap
    (frameBytes b.config.protocol)

/-- What the messages bring about. -/
def reports (b : Outbox) : List Effect :=
  b.queue.flatMap (Message.effects b.registry b.config b.listeners)

/-- What tasks are to bring about. -/
def due (b : Outbox) (tasks : List Task) : List Effect :=
  effectsOf b.registry b.config b.listeners tasks

/-- How far a flush is: these bytes have been sent in these writes, this has failed, and this has
been brought about. -/
inductive Flush (b : Outbox) (sent : Bytes) (log : List (Moment × WriteOutcome))
    (failures : List FrameError) (trace : List Effect) (l : Loop) : Prop
  /-- Messages are encoded. -/
  | preparing {plan : List Task} {done : List Message} {w : Encoder}
      (ht : l.tasks = plan ++ .write b.purpose b.deadline :: b.purpose.rest)
      (hp : ∀ t ∈ plan, t.prepares = true) (hw : l.writer = some w) (hc : w.config = b.config)
      (hq : done ++ heldMessages plan = b.queue) (hb : w.pending = b.encoded done)
      (hs : sent = []) (hlog : log = []) (hf : failures = [])
      (he : trace ++ b.due plan = b.reports)
  /-- The write has been made. -/
  | written {plan tail : List Task} {w : Encoder} {result : Except FrameError Bool}
      (ht : l.tasks = plan ++ tail) (hp : ∀ t ∈ plan, t.relays = true)
      (htail : b.purpose.leadsTo tail) (hw : l.writer = some w) (hc : w.config = b.config)
      (hb : sent ++ w.pending = b.encoded b.queue)
      (hlog : FrameWriter.Stops (some b.deadline) log result w.pending) (hf : failures.length ≤ 1)
      (he : trace ++ b.due plan =
        b.reports ++ failures.flatMap fun e => b.purpose.effects b.listeners e)

section
variable {b : Outbox} {calls : SocketCalls} {s : Shared} {l : Loop} {sent : Bytes}
  {log : List (Moment × WriteOutcome)} {failures : List FrameError} {trace : List Effect}
  {task : Task} {plan rest : List Task} {done : List Message} {m : Message}

/-- One more message has been encoded, if it can be. -/
theorem encoded_append (b : Outbox) (done : List Message) (m : Message) :
    b.encoded (done ++ [m]) = b.encoded done ++
      (b.registry.outgoing b.config m).toList.flatMap (frameBytes b.config.protocol) := by
  rw [encoded, encoded, List.filterMap_append, List.flatMap_append, List.append_assoc]
  cases ho : b.registry.outgoing b.config m with
  | none => rw [List.filterMap_cons_none ho]; rfl
  | some f => rw [List.filterMap_cons_some ho]; rfl

namespace Flush

/-- Before the write, a flush is the plan that is left and the write. -/
theorem flushing_of_preparing
    (ht : l.tasks = plan ++ .write b.purpose b.deadline :: b.purpose.rest)
    (hp : ∀ t ∈ plan, t.prepares = true) :
    l.flushing = plan ++ [.write b.purpose b.deadline] := by
  refine @Loop.flushing_append l _ b.purpose.rest ?_ ?_ (WritePurpose.takeWhile_flushes (.inl rfl))
  · rw [ht, List.append_assoc]
    rfl
  · exact List.forall_mem_append.2 ⟨fun t hm => Task.flushes_of_prepares (hp t hm),
      List.forall_mem_singleton.2 rfl⟩

/-- After the write, it is the plan that is left. -/
theorem flushing_of_written {tail : List Task} (ht : l.tasks = plan ++ tail)
    (hp : ∀ t ∈ plan, t.relays = true) (htail : b.purpose.leadsTo tail) : l.flushing = plan :=
  Loop.flushing_append ht
    (fun t hm => Task.flushes_of_prepares (Task.prepares_of_relays (hp t hm)))
    (WritePurpose.takeWhile_flushes htail)

/-- Wherever a flush is, each message has been encoded or is held, each byte has been sent or is to
be written, and each effect has been brought about or is due. -/
theorem balance (h : b.Flush sent log failures trace l) :
    ∃ done w, l.writer = some w ∧ w.config = b.config ∧
      done ++ heldMessages l.flushing = b.queue ∧ sent ++ w.pending = b.encoded done ∧
      trace ++ b.due l.flushing =
        b.reports ++ failures.flatMap (fun e => b.purpose.effects b.listeners e) ∧
      failures.length ≤ 1 := by
  cases h with
  | @preparing plan done w ht hp hw hc hq hb hs hlog hf he =>
    have hwrite : heldMessages [.write b.purpose b.deadline] = [] ∧
        b.due [.write b.purpose b.deadline] = [] := ⟨rfl, rfl⟩
    subst hs hf
    rw [flushing_of_preparing ht hp]
    refine ⟨done, w, hw, hc, ?_, hb, ?_, Nat.zero_le 1⟩
    · rw [heldMessages_append, hwrite.1, List.append_nil, hq]
    · rw [due, effectsOf_append, ← due, ← due, hwrite.2, List.append_nil, he, List.flatMap_nil,
        List.append_nil]
  | @written plan tail w result ht hp htail hw hc hb hlog hf he =>
    rw [flushing_of_written ht hp htail]
    refine ⟨b.queue, w, hw, hc, ?_, hb, he, hf⟩
    rw [heldMessages_of_relays hp, List.append_nil]

/-- When a flush is over, the writes that it made have stopped with the bytes that are left over. -/
theorem stops (h : b.Flush sent log failures trace l) (hn : l.flushing = []) :
    b.purpose.leadsTo l.tasks ∧ ∃ w result, l.writer = some w ∧
      FrameWriter.Stops (some b.deadline) log result w.pending := by
  cases h with
  | preparing ht hp =>
    rw [flushing_of_preparing ht hp] at hn
    exact absurd hn (List.append_ne_nil_of_right_ne_nil _ (List.cons_ne_nil _ _))
  | written ht hp htail hw _ _ hlog =>
    rw [flushing_of_written ht hp htail] at hn
    subst hn
    exact ⟨ht ▸ htail, _, _, hw, hlog⟩

/-- A task that precedes the write keeps the balance. -/
theorem step_preparing {w : Encoder} (hl : s.listeners.registered = b.listeners)
    (hr : l.registry = b.registry) (calls : SocketCalls)
    (ht : l.tasks = (task :: plan) ++ .write b.purpose b.deadline :: b.purpose.rest)
    (hp : ∀ t ∈ task :: plan, t.prepares = true) (hw : l.writer = some w)
    (hc : w.config = b.config) (hq : done ++ heldMessages (task :: plan) = b.queue)
    (hb : w.pending = b.encoded done) (he : trace ++ b.due (task :: plan) = b.reports) :
    b.Flush (l.step calls s).sent [] [] (trace ++ l.effects calls s) (l.step calls s).loop := by
  obtain ⟨htask, hplan⟩ := List.forall_mem_cons.1 hp
  have relays (hn : task.relays = true) :
      b.Flush (l.step calls s).sent [] [] (trace ++ l.effects calls s) (l.step calls s).loop := by
    obtain ⟨plan', ht', hp', heffects, -⟩ := Loop.step_relay calls b.config ht hn hl hr
    obtain ⟨hw', hs'⟩ := Loop.writer_relay calls s ht hn
    refine .preparing (ht'.trans (List.append_assoc _ _ _).symm)
      (List.forall_mem_append.2 ⟨fun t hm => Task.prepares_of_relays (hp' t hm), hplan⟩)
      (hw'.trans hw) hc ?_ hb hs' rfl rfl ?_
    · have hnone : heldMessages [task] = [] :=
        heldMessages_of_relays (List.forall_mem_singleton.2 hn)
      rw [← List.singleton_append, heldMessages_append, hnone] at hq
      rw [heldMessages_append, heldMessages_of_relays hp', hq]
    · rw [← he, due, due, effectsOf_append, effectsOf_cons, ← heffects]
      simp only [List.append_assoc]
  cases task with
  | encode messages =>
    cases messages with
    | nil =>
      have heffects : l.effects calls s = [] := by
        rw [Loop.effects_of_inbound (by rw [Loop.step_encoded ht]), Loop.step_encoded ht,
          Loop.asked, ht]
        rfl
      rw [heffects, List.append_nil, Loop.step_encoded ht]
      exact .preparing rfl hplan hw hc hq hb rfl rfl rfl he
    | cons m ms =>
      obtain ⟨plan', w', ht', hp', hw', hc', hb', hs', heffects, hdue⟩ :=
        Loop.step_refuse calls s b.listeners ht hw
      rw [hr, hc] at hb' hdue
      rw [heffects, List.append_nil]
      have ht'' : (l.step calls s).loop.tasks =
          (plan' ++ .encode ms :: plan) ++ .write b.purpose b.deadline :: b.purpose.rest := by
        rw [ht', List.append_assoc]
        rfl
      refine @Flush.preparing _ _ _ _ _ _ _ (done ++ [m]) _ ht'' (List.forall_mem_append.2
        ⟨fun t hm => Task.prepares_of_relays (hp' t hm), List.forall_mem_cons.2 ⟨rfl, hplan⟩⟩)
        hw' (hc'.trans hc) ?_ ?_ hs' rfl rfl ?_
      · rw [heldMessages_append, heldMessages_of_relays hp', ← hq, List.append_assoc]
        rfl
      · rw [hb', hb, encoded_append]
      · rw [← he, due, due, effectsOf_append, hdue, effectsOf_cons, effectsOf_cons, Task.effects,
          Task.effects, List.flatMap_cons]
        simp only [List.append_assoc]
  | _ => exact relays htask

/-- A step of a flush keeps the balance. -/
theorem step (h : b.Flush sent log failures trace l) (hl : s.listeners.registered = b.listeners)
    (hr : l.registry = b.registry) (calls : SocketCalls) (hn : l.flushing ≠ []) :
    b.Flush (sent ++ (l.step calls s).sent) (log ++ l.writeAttempts calls)
      (failures ++ (l.writeFailure? calls).toList) (trace ++ l.effects calls s)
      (l.step calls s).loop := by
  cases h with
  | @preparing plan done w ht hp hw hc hq hb hs hlog hf he =>
    subst hs hlog hf
    rw [List.nil_append, List.nil_append, List.nil_append]
    cases plan with
    | nil =>
      obtain ⟨plan, tail, ht', htail, hp', hw', hs', heffects, hdue⟩ :=
        Loop.step_flush calls s b.registry b.config b.listeners ht hw
      obtain ⟨hqueued, hconfig⟩ :=
        FrameWriter.queued_flushPending (some b.deadline) ⟨w, calls.output⟩
      have hdone : done = b.queue := (List.append_nil _).symm.trans hq
      have hreports : trace = b.reports := (List.append_nil _).symm.trans he
      have hattempts : l.writeAttempts calls =
          FrameWriter.attempts (some b.deadline) ⟨w, calls.output⟩ := by
        simp only [Loop.writeAttempts, Loop.toWrite, ht, hw, List.nil_append, Option.elim_some]
      obtain ⟨result, hstops, -⟩ :=
        FrameWriter.stops_flushPending (some b.deadline) ⟨w, calls.output⟩
      refine .written ht' hp' htail hw' (hconfig.trans hc) ?_ (hattempts ▸ hstops) ?_ ?_
      · rw [hs', ← hdone, ← hb]
        exact hqueued
      · cases l.writeFailure? calls <;> simp
      · rw [heffects, List.append_nil, hreports, due, hdue]
        cases l.writeFailure? calls <;> simp
    | cons task plan =>
      have hnone := Loop.toWrite_eq_none calls ht (hp task (.head _))
      rw [Loop.writeAttempts, Loop.writeFailure?, hnone]
      exact step_preparing hl hr calls ht hp hw hc hq hb he
  | @written plan tail w result ht hp htail hw hc hb hlog hf he =>
    cases plan with
    | nil =>
      exact absurd (flushing_of_written ht (List.forall_mem_nil _) htail) hn
    | cons task plan =>
      obtain ⟨htask, hplan⟩ := List.forall_mem_cons.1 hp
      obtain ⟨plan', ht', hp', heffects, -⟩ := Loop.step_relay calls b.config ht htask hl hr
      obtain ⟨hw', hs'⟩ := Loop.writer_relay calls s ht htask
      have hnone := Loop.toWrite_eq_none calls ht (Task.prepares_of_relays htask)
      rw [hs', Loop.writeAttempts, Loop.writeFailure?, hnone, Option.bind_none, Option.elim_none,
        Option.toList_none, List.append_nil, List.append_nil, List.append_nil]
      refine .written (ht'.trans (List.append_assoc _ _ _).symm)
        (List.forall_mem_append.2 ⟨hp', hplan⟩) htail (hw'.trans hw) hc hb hlog hf ?_
      rw [← he, due, due, effectsOf_append, effectsOf_cons, ← heffects]
      simp only [List.append_assoc]

end Flush

end

end Outbox

/-! ## The connection that sends -/

/-- A step of a flush leaves the queue of messages to be sent. -/
theorem Turn.outbound_eq {calls : SocketCalls} {s : Shared} {l : Loop} {st : Step} {task : Task}
    {rest : List Task} (t : Turn calls s l st) (ht : l.tasks = task :: rest)
    (hn : task.flushes = true) : st.shared.outbound = s.outbound := by
  cases t with
  | finish ht' | collect ht' =>
    cases ht.symm.trans ht'
    cases hn
  | _ => rfl

namespace Connection

/-- The tasks of the flush that the loop is at. -/
def flushing (c : Connection) : List Task := c.loop.elim [] Loop.flushing

/-- The loop is at a flush. -/
def isFlushing (c : Connection) : Bool := !c.flushing.isEmpty

/-- The messages that are still to be encoded. -/
def held (c : Connection) : List Message := heldMessages c.flushing

/-- The bytes that are still to be written. -/
def unsent (c : Connection) : Bytes := (c.loop.bind Loop.writer).elim [] Encoder.pending

/-- The errors that the write of a flush fails with in a move. -/
def writeFailures (c : Connection) : Move → List FrameError
  | .work calls => c.loop.elim [] fun l => (l.writeFailure? calls).toList
  | _ => []

/-- The writes of a flush that are made in a move, each with the moment at which it is over. -/
def writeAttempts (c : Connection) : Move → List (Moment × WriteOutcome)
  | .work calls => c.loop.elim [] (Loop.writeAttempts calls)
  | _ => []

/-- The flushes of the stream that are made in a move as part of a flush. -/
def flushAttempts (c : Connection) : Move → List (Timed FlushOutcome)
  | .work calls => c.loop.elim [] (Loop.flushAttempts calls)
  | _ => []

/-- The transitions that are asked for in a move, by a caller or by the loop. -/
def requests (c : Connection) (m : Move) : List ConnectionState :=
  if m.asks then [.closing] else (c.effects m).filterMap Effect.requested?

/-- A connection whose loop is at a flush, or has just ended it. -/
structure Flushes (b : Outbox) (config : ConnectionConfig) (sent : Bytes)
    (log : List (Moment × WriteOutcome)) (failures : List FrameError) (trace : List Effect)
    (c : Connection) : Prop where
  inSession : c.InSession b.registry config
  listeners_eq : c.shared.listeners.registered = b.listeners
  flush : ∃ l, c.loop = some l ∧ b.Flush sent log failures trace l

section
variable {b : Outbox} {config : ConnectionConfig} {sent : Bytes}
  {log : List (Moment × WriteOutcome)} {failures : List FrameError} {trace : List Effect}
  {c c' : Connection} {l : Loop} {m : Move} {moves : List Move}

theorem flushing_of_some (hl : c.loop = some l) : c.flushing = l.flushing := by
  rw [flushing, hl]
  rfl

/-- A loop that has a task of a flush next is at one. -/
theorem isFlushing_of_tasks {task : Task} {rest : List Task} (ht : c.tasks = task :: rest)
    (hn : task.flushes = true) : c.isFlushing = true := by
  cases hl : c.loop with
  | none =>
    rw [tasks, hl] at ht
    cases ht
  | some l =>
    rw [isFlushing, flushing_of_some hl, Loop.flushing, ← tasks_of_some hl, ht,
      List.takeWhile_cons_of_pos hn]
    rfl

/-- A loop that is at a flush has a task of it next. -/
theorem tasks_of_isFlushing (hl : c.loop = some l) (hf : c.isFlushing = true) :
    ∃ task rest, l.tasks = task :: rest ∧ task.flushes = true := by
  rw [isFlushing, flushing_of_some hl, Loop.flushing] at hf
  cases ht : l.tasks with
  | nil =>
    rw [ht] at hf
    cases hf
  | cons task rest =>
    refine ⟨task, rest, rfl, ?_⟩
    by_contra hn
    rw [ht, List.takeWhile_cons_of_neg hn] at hf
    cases hf

namespace Flushes

/-- Whatever is done to a connection at a flush, it goes on with that. Messages are queued behind
others, and the lifecycle is changed by what is asked for. -/
theorem next (h : c.Flushes b config sent log failures trace) (hf : c.isFlushing = true)
    (hn : c.next m = some c') :
    c'.Flushes b config (sent ++ c.writes m) (log ++ c.writeAttempts m)
        (failures ++ c.writeFailures m) (trace ++ c.effects m) ∧
      c'.shared.outbound.messages = c.shared.outbound.messages ++ c.queues m ∧
      c'.shared.lifecycle = (c.requests m).foldl Lifecycle.tryRequest c.shared.lifecycle := by
  obtain ⟨l, hl, hflush⟩ := h.flush
  obtain ⟨task, rest, ht, hflushes⟩ := tasks_of_isFlushing hl hf
  have hsession := h.inSession.next hn
  have hmove := beside_or_step h.inSession.begun hn
  obtain ⟨-, -, rfl⟩ := next_eq_some hn
  rcases hmove with ⟨hw, hm⟩ | ⟨calls, l', rfl, hl', hh⟩
  · have hloop : (c.move m).connection.loop = c.loop := by
      rcases hm.loop_eq with hloop | ⟨hi, -⟩
      · exact hloop
      · rw [isIdle_iff, tasks_of_some hl, ht] at hi
        cases hi
    have hnone : c.writes m = [] ∧ c.writeAttempts m = [] ∧ c.writeFailures m = [] := by
      cases m with
      | work calls => cases hl.symm.trans (hw calls rfl)
      | _ => exact ⟨rfl, rfl, rfl⟩
    rw [hnone.1, hnone.2.1, hnone.2.2, effects_of_no_step hw, List.append_nil, List.append_nil,
      List.append_nil, List.append_nil]
    refine ⟨⟨hsession, ?_, l, hloop.trans hl, hflush⟩, hm.outbound_eq, ?_⟩
    · rw [hm.listeners_eq, h.listeners_eq]
    · rw [hm.lifecycle_eq, requests, effects_of_no_step hw]
      cases m.asks <;> rfl
  · cases hl.symm.trans hl'
    have hm := move_work calls hl hh
    have hregistry := (h.inSession.underway l hl).registry_eq
    have hturn := l.step_turn calls c.shared
    have hwrites := writes_work hl hh
    have hfailures : c.writeFailures (.work calls) = (l.writeFailure? calls).toList := by
      rw [writeFailures, hl]
      rfl
    have hattempts : c.writeAttempts (.work calls) = l.writeAttempts calls := by
      rw [writeAttempts, hl]
      rfl
    have heffects : c.effects (.work calls) = l.effects calls c.shared := by
      rw [effects, hl]
      rfl
    have hflushing : l.flushing ≠ [] := by
      rw [isFlushing, flushing_of_some hl] at hf
      simpa using hf
    have hstep := hflush.step h.listeners_eq hregistry calls hflushing
    rw [hm] at hsession ⊢
    rw [hwrites, hattempts, hfailures, heffects, requests, heffects]
    refine ⟨⟨hsession, ?_, _, rfl, hstep⟩, ?_, ?_⟩
    · exact (congrArg Listeners.registered hturn.listeners_eq).trans h.listeners_eq
    · exact (congrArg MessageQueue.messages (hturn.outbound_eq ht hflushes)).trans
        (List.append_nil _).symm
    · refine l.lifecycle_step calls c.shared ht ?_
      rintro rfl
      cases hflushes

/-- So it does in whatever moves. -/
theorem sessionWhile (h : c.Flushes b config sent log failures trace)
    (hs : c.sessionWhile isFlushing moves = some c') :
    c'.Flushes b config (sent ++ c.along Connection.writes moves)
        (log ++ c.along writeAttempts moves) (failures ++ c.along writeFailures moves)
        (trace ++ c.along Connection.effects moves) ∧
      c'.shared.outbound.messages =
        c.shared.outbound.messages ++ c.along Connection.queues moves ∧
      c'.shared.lifecycle =
        (c.along requests moves).foldl Lifecycle.tryRequest c.shared.lifecycle := by
  induction moves generalizing c sent log failures trace with
  | nil =>
    cases hs
    simp only [along, List.append_nil]
    exact ⟨h, trivial, rfl⟩
  | cons m moves ih =>
    rw [Connection.sessionWhile] at hs
    split at hs
    · rename_i hf
      obtain ⟨c₁, hn, hs⟩ := Option.bind_eq_some_iff.1 hs
      obtain ⟨h₁, hq₁, hc₁⟩ := h.next hf hn
      obtain ⟨-, -, rfl⟩ := next_eq_some hn
      obtain ⟨h', hq', hc'⟩ := ih h₁ hs
      simp only [along, List.append_assoc] at h' ⊢
      refine ⟨h', ?_, ?_⟩
      · rw [hq', hq₁, List.append_assoc]
      · rw [hc', hc₁, List.foldl_append]
    · cases hs

/-- A flush begins with the whole queue. -/
theorem of_collect {registry : Registry} {calls : SocketCalls} {w : Encoder}
    {purpose : WritePurpose} {deadline : Moment} (h : c.InSession registry config)
    (hl : c.loop = some l) (hw : l.writer = some w)
    (ht : l.tasks = .collect :: .write purpose deadline :: purpose.rest)
    (hn : c.next (.work calls) = some c') :
    c'.Flushes ⟨registry, w.config, c.shared.listeners.registered, purpose, deadline, w.pending,
        c.shared.outbound.messages⟩ config [] [] [] [] ∧
      c'.shared.outbound.messages = [] ∧ c'.held = c.shared.outbound.messages ∧
      c'.shared.lifecycle = c.shared.lifecycle := by
  have hsession := h.next hn
  obtain ⟨hh, -, rfl⟩ := next_eq_some hn
  have hstep : l.step calls c.shared =
      { shared := { c.shared with outbound := .empty }
        loop := { l with
          tasks := .encode c.shared.outbound.messages :: .write purpose deadline :: purpose.rest }
        } := by
    simp only [Loop.step, ht, hw, Option.isSome_some, if_true]
    rfl
  rw [move_work calls hl hh, hstep] at hsession ⊢
  refine ⟨⟨hsession, rfl, _, rfl, ?_⟩, rfl, ?_, rfl⟩
  · refine @Outbox.Flush.preparing _ _ _ _ _ _ [.encode c.shared.outbound.messages] [] w rfl
      (by simp [Task.prepares]) hw rfl ?_ (List.append_nil _).symm rfl rfl rfl ?_
    · exact List.append_nil _
    · exact List.append_nil _
  · have hflushing : ∀ t ∈ [Task.encode c.shared.outbound.messages, .write purpose deadline],
        t.flushes = true := by
      simp [Task.flushes, Task.prepares]
    rw [held, flushing_of_some rfl, Loop.flushing_append rfl hflushing
      (WritePurpose.takeWhile_flushes (.inl rfl))]
    exact List.append_nil _

/-- A loop that is at a flush comes to the end of it. -/
theorem settles (h : c.Flushes b config sent log failures trace) (calls : Nat → SocketCalls) :
    ∃ n c', c.sessionWhile isFlushing ((List.range n).map fun i => .work (calls i)) = some c' ∧
      c'.isFlushing = false := by
  -- The loop is done when only what follows the flush is left.
  have done {c : Connection} {l : Loop} {tail : List Task} (hl : c.loop = some l)
      (ht : l.tasks = tail)
      (htail : b.purpose.leadsTo tail) : c.isFlushing = false := by
    have hnil := @Loop.flushing_append l [] tail ht (List.forall_mem_nil _)
      (WritePurpose.takeWhile_flushes htail)
    rw [isFlushing, flushing_of_some hl, hnil]
    rfl
  have reporting {tail : List Task} (c : Connection) (task : Task) (plan : List Task)
      (ht : c.tasks = (task :: plan) ++ tail) (hp : ∀ t ∈ task :: plan, t.relays = true) :
      c.isFlushing = true :=
    isFlushing_of_tasks ht (Task.flushes_of_prepares (Task.prepares_of_relays (hp task (.head _))))
  obtain ⟨l, hl, hflush⟩ := h.flush
  cases hflush with
  | written ht hp htail =>
    obtain ⟨n, c', l', hs, hl', ht'⟩ := h.inSession.settles_relays reporting hl ht hp calls
    exact ⟨n, c', hs, done hl' ht' htail⟩
  | preparing ht hp =>
    obtain ⟨n, c₁, l₁, hs, hl₁, ht₁⟩ := h.inSession.settles (fun _ => Task.isTimed_of_prepares)
      (fun calls s l task rest hr ht hn => Loop.step_prepares calls s b.listeners hr ht hn)
      (fun c task plan ht hp =>
        isFlushing_of_tasks ht (Task.flushes_of_prepares (hp task (.head _))))
      h.listeners_eq hl ht hp calls
    have h₁ := (h.sessionWhile hs).1
    obtain ⟨l', hl', hflush₁⟩ := h₁.flush
    cases hl₁.symm.trans hl'
    obtain ⟨_, w, hw, -⟩ := hflush₁.balance
    obtain ⟨plan, tail, ht₂, htail, hp₂, -⟩ :=
      Loop.step_flush (calls n) c₁.shared b.registry b.config b.listeners ht₁ hw
    have hh := halts_of_not_isTimed (calls n) hl₁ ht₁ rfl
    have hn := h₁.inSession.next_work hl₁ hh
    obtain ⟨n', c', l', hs', hl', ht'⟩ := (h₁.inSession.next hn).settles_relays reporting
      (by rw [move_work _ hl₁ hh]; rfl) ht₂ hp₂ fun i => calls (n + 1 + i)
    refine ⟨n + 1 + n', c', ?_, done hl' ht' htail⟩
    rw [List.range_add, List.range_succ, List.map_append, List.map_append, List.map_map,
      List.append_assoc, sessionWhile_append, hs, Option.bind_some, List.map_singleton,
      List.singleton_append, Connection.sessionWhile,
      if_pos (isFlushing_of_tasks ((tasks_of_some hl₁).trans ht₁) rfl), hn]
    exact hs'

end Flushes

/-! ### Failures -/

/-- The write of a flush fails just when a write or a flush of the stream fails for good. -/
theorem writeFailures_ne_nil_iff (c : Connection) (m : Move) :
    c.writeFailures m ≠ [] ↔ (∃ x ∈ c.writeAttempts m, x.2.isHard = true) ∨
      ∃ call ∈ c.flushAttempts m, call.outcome.isHard = true := by
  have hnone : ([] : List FrameError) ≠ [] ↔ (∃ x ∈ ([] : List (Moment × WriteOutcome)),
      x.2.isHard = true) ∨ ∃ call ∈ ([] : List (Timed FlushOutcome)),
        call.outcome.isHard = true := by
    simp
  cases m with
  | work calls =>
    cases hl : c.loop with
    | none =>
      rw [writeFailures, writeAttempts, flushAttempts, hl]
      exact hnone
    | some l =>
      simp only [writeFailures, writeAttempts, flushAttempts, hl, Option.elim_some,
        Loop.writeFailure?, Loop.writeAttempts, Loop.flushAttempts]
      cases l.toWrite calls with
      | none => exact hnone
      | some r =>
        obtain ⟨deadline, w⟩ := r
        refine Iff.trans ?_ (w.isSome_failure_iff (some deadline))
        simp only [Option.bind_some]
        cases w.failure? (some deadline) <;> simp
  | _ => exact hnone

/-- So it does in whatever moves. -/
theorem along_writeFailures_ne_nil_iff (c : Connection) (moves : List Move) :
    c.along writeFailures moves ≠ [] ↔
      (∃ x ∈ c.along writeAttempts moves, x.2.isHard = true) ∨
        ∃ call ∈ c.along flushAttempts moves, call.outcome.isHard = true := by
  induction moves generalizing c with
  | nil => simp [along]
  | cons m moves ih =>
    have hm := c.writeFailures_ne_nil_iff m
    have hrest := ih (c.move m).connection
    rw [along, along, along, ne_eq, List.append_eq_nil_iff, not_and_or]
    simp only [List.mem_append, or_and_right, exists_or]
    rw [← ne_eq, ← ne_eq, hm, hrest]
    exact or_or_or_comm

end

end Connection

/-- A frame is refused only if it is too long. -/
theorem FrameConfig.longest_lt_of_refusal {config : FrameConfig} {f : Frame} {e : FrameError}
    (h : config.refusal f = some e) : config.longest < f.payload.length := by
  unfold refusal at h
  rw [longest]
  split at h
  · omega
  · split at h
    · omega
    · cases h

/-- A message is refused because there is no codec for it, because its codec refuses it, or because
it is too long. None of that is fatal. -/
theorem Registry.refusal_cases {r : Registry} {config : FrameConfig} {m : Message}
    {e : ConnectionError} (h : r.refusal config m = some e) :
    e.fatal = false ∧
      (r.find? m.typeId = none ∧ e.kind = .unknownMessageType ∨
        ∃ codec, r.find? m.typeId = some codec ∧
          ((∃ cause, codec.encode m.body = .error cause ∧ e.kind = .parseFailed) ∨
            ∃ payload, codec.encode m.body = .ok payload ∧ config.longest < payload.length ∧
              e.kind = .invalidMessage)) := by
  unfold refusal encode at h
  cases hf : r.find? m.typeId with
  | none =>
    rw [hf] at h
    cases h
    exact ⟨rfl, .inl ⟨rfl, rfl⟩⟩
  | some codec =>
    rw [hf] at h
    dsimp only at h
    cases he : codec.encode m.body with
    | error cause =>
      rw [he] at h
      cases h
      exact ⟨rfl, .inr ⟨codec, rfl, .inl ⟨cause, he, rfl⟩⟩⟩
    | ok payload =>
      rw [he] at h
      obtain ⟨e', hr, rfl⟩ := Option.map_eq_some_iff.1 h
      exact ⟨rfl, .inr ⟨codec, rfl, .inr ⟨payload, he, FrameConfig.longest_lt_of_refusal hr, rfl⟩⟩⟩

/-- A message that is refused is only reported. -/
theorem requested_notMem_effects {r : Registry} {config : FrameConfig} {listeners : List Listener}
    {next : ConnectionState} (m : Message) : .requested next ∉ m.effects r config listeners := by
  rw [Message.effects]
  cases r.refusal config m <;> simp [Event.effects]

/-- A flush takes the whole queue at once and comes to its end, whatever is done to the connection
meanwhile. Of the messages in the queue, in their order, those that are encoded and not too long are
queued for writing behind the bytes that were left before, and nothing else is; the stream takes the
first of all these bytes, and the others are left over. Each other message is reported, in order,
with one error that is not fatal. Messages that callers queue meanwhile wait for the next flush. The
lifecycle is changed by what is asked for, by a caller who closes the connection or by the loop; the
loop asks only if the write fails, which it does only if a write or a flush of the stream fails for
good, and then it reports one fatal error and asks to close. When the connection is closing anyway,
such a failure is of no consequence. -/
theorem sent_in_order {registry : Registry} {config : ConnectionConfig} {c c₁ c' : Connection}
    {l : Loop} {w : Encoder} {purpose : WritePurpose} {deadline : Moment} {calls : SocketCalls}
    {moves : List Move} (h : c.InSession registry config) (hl : c.loop = some l)
    (hw : l.writer = some w)
    (ht : l.tasks = .collect :: .write purpose deadline :: purpose.rest)
    (hn : c.next (.work calls) = some c₁)
    (hs : c₁.sessionWhile Connection.isFlushing moves = some c') :
    let listeners := c.shared.listeners.registered
    let queue := c.shared.outbound.messages
    let failures := c₁.along Connection.writeFailures moves
    c₁.shared.outbound.messages = [] ∧ c₁.held = queue ∧
    c'.shared.outbound.messages = c₁.along Connection.queues moves ∧
    (∃ done, done ++ c'.held = queue ∧
      c₁.along Connection.writes moves ++ c'.unsent =
        w.pending ++ (done.filterMap (registry.outgoing w.config)).flatMap
          (frameBytes w.config.protocol)) ∧
    c₁.along Connection.effects moves ++ effectsOf registry w.config listeners c'.flushing =
      queue.flatMap (Message.effects registry w.config listeners) ++
        failures.flatMap (fun e => purpose.effects listeners e) ∧
    failures.length ≤ 1 ∧
    (failures = [] → ∀ next, .requested next ∉ c₁.along Connection.effects moves) ∧
    (failures ≠ [] ↔ (∃ x ∈ c₁.along Connection.writeAttempts moves, x.2.isHard = true) ∨
      ∃ call ∈ c₁.along Connection.flushAttempts moves, call.outcome.isHard = true) ∧
    c'.shared.lifecycle =
      (c₁.along Connection.requests moves).foldl Lifecycle.tryRequest c.shared.lifecycle ∧
    (∀ calls : Nat → SocketCalls, ∃ n c'',
      c'.sessionWhile Connection.isFlushing ((List.range n).map fun i => .work (calls i)) =
        some c'' ∧ c''.isFlushing = false) ∧
    (c'.isFlushing = false → c'.flushing = [] ∧ c'.held = []) ∧
    ∀ m, (registry.refusal w.config m = none ↔ (registry.outgoing w.config m).isSome = true) ∧
      ∀ e, registry.refusal w.config m = some e → e.fatal = false ∧
        (registry.find? m.typeId = none ∧ e.kind = .unknownMessageType ∨
          ∃ codec, registry.find? m.typeId = some codec ∧
            ((∃ cause, codec.encode m.body = .error cause ∧ e.kind = .parseFailed) ∨
              ∃ payload, codec.encode m.body = .ok payload ∧ w.config.longest < payload.length ∧
                e.kind = .invalidMessage)) := by
  obtain ⟨h₁, hempty, hheld, hlifecycle⟩ := Connection.Flushes.of_collect h hl hw ht hn
  obtain ⟨h', hqueue, hlifecycle'⟩ := h₁.sessionWhile hs
  obtain ⟨l', hl', hflush⟩ := h'.flush
  obtain ⟨done, w', hw', -, hdone, hbytes, hdue, hone⟩ := hflush.balance
  have hunsent : c'.unsent = w'.pending := by
    rw [Connection.unsent, hl', Option.bind_some, hw']
    rfl
  have hflushing := Connection.flushing_of_some hl'
  refine ⟨hempty, hheld, ?_, ⟨done, ?_, ?_⟩, ?_, hone, fun hnone next hmem => ?_,
    c₁.along_writeFailures_ne_nil_iff moves, ?_, h'.settles, ?_,
    fun m => ⟨Registry.refusal_eq_none_iff, fun e => Registry.refusal_cases⟩⟩
  · rw [hqueue, hempty, List.nil_append]
  · rw [Connection.held, hflushing]
    exact hdone
  · rw [hunsent]
    exact hbytes
  · rw [hflushing]
    exact hdue
  · rw [List.nil_append, List.nil_append] at hdue
    rw [hnone, List.flatMap_nil, List.append_nil] at hdue
    obtain ⟨m, -, hm⟩ := List.mem_flatMap.1 (hdue ▸ List.mem_append_left _ hmem)
    exact requested_notMem_effects m hm
  · rw [hlifecycle', hlifecycle]
  · intro hf
    have hnil : c'.flushing = [] := by simpa [Connection.isFlushing] using hf
    exact ⟨hnil, by rw [Connection.held, hnil]; rfl⟩

/-- A connection that sends two bytes in a message at most, and has just begun to connect. -/
def terse : Connection where
  config := { frame := { maxPayload := 2 } }
  registry := notes
  shared := { lifecycle := ⟨.initial, .connecting⟩ }
  loop := some (.new notes { frame := { maxPayload := 2 } } ⟨"localhost", 4000⟩ 0)

/-- Five messages are queued, of which one has no codec, one is too long and one is none that its
codec takes, and then the connection is made. -/
def laden : List Move :=
  [.send (.raw 1 [7]), .send (.raw 9 [0]), .send (.raw 1 [1, 2, 3]), .send ⟨1, .nothing⟩,
    .send (.raw 1 [])] ++ .replicate 7 (shortStep [])

/-- The messages are encoded, another one is queued, and the stream breaks in the middle of the
second frame. -/
def broken : List Move :=
  .replicate 6 (shortStep []) ++ [.send (.raw 1 [8])] ++ .replicate 6 (shortStep []) ++
    [.work {
      bind := .ok { ip := .v4 ⟨127, 0, 0, 1⟩, port := 4000 }
      writes := [⟨.accept 18, 0⟩, ⟨.fail (.plain .connectionReset), 0⟩] }] ++
    .replicate 3 (shortStep [])

/-- The deadline of the flush that a connected loop begins next. -/
def Loop.flushDue (l : Loop) : Option Moment :=
  match l.tasks with
  | [.collect, .write .exchange deadline, .announce, .act] => some deadline
  | _ => none

/-- A loop that begins a flush next has its tasks before it. -/
theorem Loop.tasks_of_flushDue {l : Loop} {deadline : Moment} (h : l.flushDue = some deadline) :
    l.tasks = .collect :: .write .exchange deadline :: WritePurpose.exchange.rest := by
  unfold flushDue at h
  split at h
  · cases h
    assumption
  · cases h

/-- Two frames are queued for writing, of which the stream takes the first and a part of the second.
Three messages are reported, and then the failure. Another message waits. -/
theorem sent_in_order_broken :
    let limits := terse.config.streamConfig
    (Connection.withRegistry notes { frame := { maxPayload := 2 } }).Starts terse ∧
      ∃ c c₁ c', terse.session laden = some c ∧ c.next (shortStep []) = some c₁ ∧
        c₁.sessionWhile Connection.isFlushing broken = some c' ∧ c'.isFlushing = false ∧
        c₁.along Connection.writes broken ++ c'.unsent =
          [(⟨1, [7]⟩ : Frame), ⟨1, []⟩].flatMap (frameBytes limits.protocol) ∧
        c'.unsent.length = 7 ∧
        (c.shared.outbound.messages.filterMap (notes.refusal limits)).map (·.kind) =
          [.unknownMessageType, .invalidMessage, .parseFailed] ∧
        c₁.along Connection.effects broken =
          c.shared.outbound.messages.flatMap (Message.effects notes limits []) ++
            (ConnectionError.ofFrame .sendFailed (.io (.plain .connectionReset))).effects []
              .closing ∧
        c'.shared.outbound.messages.filterMap (notes.outgoing limits) = [⟨1, [8]⟩] ∧
        c'.shared.lifecycle = ⟨.connected, .closing⟩ := by
  let limits := terse.config.streamConfig
  have hc : (Connection.withRegistry notes { frame := { maxPayload := 2 } }).Starts terse :=
    ⟨⟨"localhost", 4000⟩, 0, .inl rfl⟩
  have hrun : ((terse.session laden).bind fun c => c.loop.bind fun l => l.writer.bind fun w =>
      l.flushDue.bind fun deadline => (c.next (shortStep [])).bind fun c₁ =>
        (c₁.sessionWhile Connection.isFlushing broken).map fun c' => decide
          (c'.isFlushing = false ∧ c'.unsent.length = 7 ∧
            c'.shared.lifecycle = ⟨.connected, .closing⟩ ∧ w.pending = [] ∧ w.config = limits ∧
            c.shared.listeners.registered.length = 0 ∧
            c.shared.outbound.messages.filterMap (notes.outgoing limits) = [⟨1, [7]⟩, ⟨1, []⟩] ∧
            (c.shared.outbound.messages.filterMap (notes.refusal limits)).map (·.kind) =
              [.unknownMessageType, .invalidMessage, .parseFailed] ∧
            (c₁.along Connection.queues broken).filterMap (notes.outgoing limits) =
              [⟨1, [8]⟩] ∧
            c₁.along Connection.writeFailures broken = [.io (.plain .connectionReset)])) =
      some true := by
    decide +kernel
  obtain ⟨c, hs, hrun⟩ := Option.bind_eq_some_iff.1 hrun
  obtain ⟨l, hl, hrun⟩ := Option.bind_eq_some_iff.1 hrun
  obtain ⟨w, hw, hrun⟩ := Option.bind_eq_some_iff.1 hrun
  obtain ⟨deadline, hdue, hrun⟩ := Option.bind_eq_some_iff.1 hrun
  obtain ⟨c₁, hn, hrun⟩ := Option.bind_eq_some_iff.1 hrun
  obtain ⟨c', hwhile, hrun⟩ := Option.map_eq_some_iff.1 hrun
  obtain ⟨hover, hunsent, hlifecycle, hpending, hconfig, hlisteners, hframes, hrefused, hqueued,
    hfailures⟩ := of_decide_eq_true hrun
  obtain ⟨-, -, houtbound, ⟨done, hdone, hbytes⟩, heffects, -, -, -, -, -, hnil, -⟩ :=
    sent_in_order ((Connection.inSession_of_starts hc).session hs) hl hw
      (Loop.tasks_of_flushDue hdue) hn hwhile
  obtain ⟨hflushing, hheld⟩ := hnil hover
  rw [hheld, List.append_nil] at hdone
  rw [hdone, hpending, hconfig, List.nil_append] at hbytes
  rw [hflushing, hfailures, List.length_eq_zero_iff.1 hlisteners, hconfig, effectsOf_nil,
    List.append_nil] at heffects
  refine ⟨hc, c, c₁, c', hs, hn, hwhile, hover, ?_, hunsent, hrefused, ?_, ?_, hlifecycle⟩
  · exact hbytes.trans (congrArg (·.flatMap (frameBytes limits.protocol)) hframes)
  · exact heffects
  · rw [houtbound]
    exact hqueued
end PeerMessaging
