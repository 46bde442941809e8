import PeerMessaging.Proofs.Link.Handing
import PeerMessaging.Proofs.Link.Shutdown
import PeerMessaging.Proofs.Wire.Channel

/-!
# The exchange of frames over a channel

A connected loop goes through the same phases in every round (`Phase`, `Exchange`): it takes the
messages to be sent, writes, reads and hands on what it has read. As long as its stream is a pair of
channels and nothing malformed comes in, no step fails, and what each step does is one of a few
things (`Beat`). So it stays connected (`Loop.Engaged.beat`). What is left to write
(`Loop.backlog`) becomes less by just the bytes that the stream takes, keepalives apart
(`Beat.backlog_eq`). In a round in which nothing moves, nothing can have been read, and nothing is
left to write unless there is no room for it (`Beat.cleared`). And each step brings the end of the
round nearer (`Beat.lapAhead_lt`).
-/

namespace PeerMessaging

/-! ## Phases of a round -/

/-- Where in a round a connected loop is. -/
inductive Phase
  /-- The state has been announced. -/
  | beginning
  /-- The messages to be sent are about to be taken. -/
  | collecting
  /-- They are encoded and written. -/
  | writing
  /-- The stream is about to be read from. -/
  | reading
  /-- What was read is handed on, and then the next round begins. -/
  | handing
  deriving DecidableEq, Repr

/-- How many phases of the round come after this one. -/
def Phase.ahead : Phase → Nat
  | beginning => 4
  | collecting => 3
  | writing => 2
  | reading => 1
  | handing => 0

/-- What a connected loop has still to do in a phase. -/
inductive Exchange : Phase → List Task → Prop
  /-- Listeners are told of something first. -/
  | tell {phase : Phase} {task : Task} {rest : List Task} (hn : task.tells = true)
      (h : Exchange phase rest) : Exchange phase (task :: rest)
  | act : Exchange .beginning [.act]
  | collect {deadline : Moment} :
      Exchange .collecting (.collect :: .write .exchange deadline :: nextRound)
  | encode {messages : List Message} {rest : List Task} (h : Exchange .writing rest) :
      Exchange .writing (.encode messages :: rest)
  | write {deadline : Moment} : Exchange .writing (.write .exchange deadline :: nextRound)
  | receive : Exchange .reading (.receive :: .keepalive :: nextRound)
  | dispatch {items : List Item} {rest : List Task} (h : Exchange .handing rest) :
      Exchange .handing (.dispatch items :: rest)
  | keepalive : Exchange .handing (.keepalive :: nextRound)
  | round : Exchange .handing nextRound

/-- A loop is connected and exchanges frames. -/
structure Loop.Engaged (phase : Phase) (s : Shared) (l : Loop) : Prop where
  lifecycle_eq : s.lifecycle = ⟨.connected, .connected⟩
  exchange : Exchange phase l.tasks
  reader : l.reader.isSome = true
  writer : l.writer.isSome = true

/-- The socket calls are those of a stream which has room for so many bytes and holds these. -/
def SocketCalls.abide (calls : SocketCalls) (room : Nat) (inbox : Bytes) : Bool :=
  admits room calls.writes && settles calls.flushes && delivers inbox calls.reads

/-- The time of a keepalive has come, and the next step is to send it. -/
def Loop.isDue (calls : SocketCalls) (l : Loop) : Bool :=
  match l.tasks with
  | .keepalive :: _ => l.config.keepaliveInterval ≤ calls.now - l.lastKeepalive
  | _ => false

/-- What a step of the exchange may be, over a stream which has room for so many bytes and holds
these. -/
inductive Beat (calls : SocketCalls) (s : Shared) (l : Loop) (room : Nat) (inbox : Bytes) :
    Phase → Step → Phase → Prop
  /-- Listeners are told of something. -/
  | tell {phase : Phase} {task : Task} {rest : List Task} {lastError : Option ConnectionError}
      {raised : Option Event} {told : Option (Listener × Event)} (plan : List Task)
      (ht : l.tasks = task :: rest) (hn : task.tells = true) (hp : ∀ t ∈ plan, t.tells = true)
      (hc : costs s.listeners.length plan < task.cost s.listeners.length) :
      Beat calls s l room inbox phase
        { shared := { s with lastError }, loop := { l with tasks := plan ++ rest }, raised, told }
        phase
  /-- There is no new state to announce. -/
  | announce (ht : l.tasks = nextRound) :
      Beat calls s l room inbox .handing { shared := s, loop := { l with tasks := [.act] } }
        .beginning
  /-- A round is planned. -/
  | act {deadline : Moment} (ht : l.tasks = [.act]) :
      Beat calls s l room inbox .beginning
        { shared := s
          loop := { l with tasks := .collect :: .write .exchange deadline :: nextRound } }
        .collecting
  /-- The messages to be sent are taken. -/
  | collect {deadline : Moment}
      (ht : l.tasks = .collect :: .write .exchange deadline :: nextRound) :
      Beat calls s l room inbox .collecting
        { shared := { s with outbound := .empty }
          loop :=
            { l with
              tasks := .encode s.outbound.messages :: .write .exchange deadline :: nextRound } }
        .writing
  /-- A message is encoded, if it can be. -/
  | encode {m : Message} {ms : List Message} {rest : List Task} {w w' : Encoder} (plan : List Task)
      (ht : l.tasks = .encode (m :: ms) :: rest) (hw : l.writer = some w)
      (hconfig : w'.config = w.config)
      (hb : w'.pending = w.pending ++
        (l.registry.outgoing w.config m).toList.flatMap (frameBytes w.config.protocol))
      (hp : ∀ t ∈ plan, t.tells = true)
      (hc : costs s.listeners.length (plan ++ [.encode ms]) <
        (Task.encode (m :: ms)).cost s.listeners.length) :
      Beat calls s l room inbox .writing
        { shared := s
          loop := { l with writer := some w', tasks := plan ++ .encode ms :: rest } }
        .writing
  /-- The stream takes bytes, unless there are none or there is no room. -/
  | write {deadline : Moment} {w w' : Encoder} {sent : Bytes}
      (ht : l.tasks = .write .exchange deadline :: nextRound) (hw : l.writer = some w)
      (hconfig : w'.config = w.config) (hb : sent ++ w'.pending = w.pending)
      (hgo : sent = [] → 0 < room → w.pending = []) :
      Beat calls s l room inbox .writing
        { shared := s
          loop := { l with writer := some w', tasks := .receive :: .keepalive :: nextRound }
          sent }
        .reading
  /-- Bytes are read, unless there are none. -/
  | receive {d : Decoder} {items : List Item} {unread : List ReadOutcome}
      (ht : l.tasks = .receive :: .keepalive :: nextRound) (hr : l.isReading = true)
      (hgo : carried unread = carried calls.reads → inbox = []) :
      Beat calls s l room inbox .reading
        { shared := s
          loop :=
            { l with reader := some d, tasks := .dispatch items :: .keepalive :: nextRound }
          unread }
        .handing
  /-- An item is handed on. -/
  | dispatch {item : Item} {items : List Item} {rest : List Task} {inbound : MessageQueue}
      {raised : Option Event} (plan : List Task) (ht : l.tasks = .dispatch (item :: items) :: rest)
      (hp : ∀ t ∈ plan, t.tells = true)
      (hc : costs s.listeners.length (plan ++ [.dispatch items]) <
        (Task.dispatch (item :: items)).cost s.listeners.length) :
      Beat calls s l room inbox .handing
        { shared := { s with inbound }
          loop := { l with tasks := plan ++ .dispatch items :: rest }
          raised }
        .handing
  /-- A keepalive is sent, or begun, or queued for want of room. -/
  | keepalive {w w' : Encoder} {time : Moment} {sent : Bytes}
      (ht : l.tasks = .keepalive :: nextRound) (hdue : l.isDue calls = true)
      (hw : l.writer = some w) (hconfig : w'.config = w.config)
      (hb : sent.length + w'.pending.length = w.pending.length + keepaliveSize)
      (hgo : sent = [] → room = 0) :
      Beat calls s l room inbox .handing
        { shared := s
          loop := { l with writer := some w', lastKeepalive := time, tasks := nextRound }
          sent }
        .handing
  /-- There is nothing to do. -/
  | skip {phase : Phase} {task : Task} {rest : List Task} (ht : l.tasks = task :: rest)
      (hr : task.reads = false) (hm : task.messages = []) :
      Beat calls s l room inbox phase { shared := s, loop := { l with tasks := rest } } phase

section
variable {calls : SocketCalls} {s : Shared} {l : Loop} {room : Nat} {inbox : Bytes}
  {phase phase' : Phase} {st : Step} {task : Task} {plan rest tasks : List Task}

/-! ## Steps -/

namespace Exchange

/-- Listeners may be told of more things first. -/
theorem append (hp : ∀ t ∈ plan, t.tells = true) (h : Exchange phase rest) :
    Exchange phase (plan ++ rest) := by
  induction plan with
  | nil => exact h
  | cons task plan ih => exact .tell (hp _ (.head _)) (ih fun t ht => hp t (.tail _ ht))

/-- At the end of a round only the next one is left. -/
theorem phase_of_nextRound (h : Exchange phase nextRound) : phase = .handing := by
  generalize ht : nextRound = tasks at h
  cases h with
  | tell hn =>
    cases ht
    cases hn
  | round => rfl
  | _ => cases ht

end Exchange

/-- Writing does not fail, and moves something if there is something to write and room for it. -/
theorem SocketCalls.exists_flushPending (ha : calls.abide room inbox = true) (w : Encoder)
    (deadline : Option Moment) :
    ∃ b w', FrameWriter.flushPending deadline
        ⟨w, { writes := calls.writes, flushes := calls.flushes, now := calls.now }⟩ = (.ok b, w') ∧
      w'.output.accepted ++ w'.encoder.pending = w.pending ∧ w'.encoder.config = w.config ∧
      (w'.output.accepted = [] → 0 < room → w.pending = []) := by
  rw [abide, Bool.and_eq_true, Bool.and_eq_true] at ha
  let writer : FrameWriter :=
    ⟨w, { writes := calls.writes, flushes := calls.flushes, now := calls.now }⟩
  obtain ⟨⟨b, hok⟩, hgo⟩ :=
    FrameWriter.flushPending_of_admits (w := writer) deadline ha.1.1 ha.1.2
  obtain ⟨hq, hconfig⟩ := FrameWriter.queued_flushPending deadline writer
  exact ⟨b, _, Prod.ext hok rfl, hq, hconfig, hgo⟩

/-- Tasks in whose place another leads to no more cost less. -/
theorem costs_lt_of_replaces {k : Nat} (h : Replaces ⟨.closing, .closing⟩ k task plan)
    (ho : task.opens = 0) : costs k plan < task.cost k := by
  rcases h.lighter nofun with hlt | ⟨-, hlt⟩
  · rw [ho] at hlt
    cases hlt
  · exact hlt

namespace Loop.Engaged

/-- Listeners are told of something, and then the phase goes on. -/
theorem beat_tell (h : l.Engaged phase s) (ht : l.tasks = task :: rest)
    (hn : task.tells = true) (hx : Exchange phase rest) :
    Beat calls s l room inbox phase (l.step calls s) phase ∧
      (l.step calls s).loop.Engaged phase (l.step calls s).shared := by
  cases task with
  | notify event listeners =>
    cases listeners with
    | nil =>
      simp only [step, ht]
      exact ⟨.tell [] ht rfl (List.forall_mem_nil _) Nat.one_pos, h.lifecycle_eq, hx, h.reader,
        h.writer⟩
    | cons listener listeners =>
      simp only [step, ht]
      exact ⟨.tell [.notify event listeners] ht rfl (by simp [Task.tells]) (Nat.lt_succ_self _),
        h.lifecycle_eq, .tell rfl hx, h.reader, h.writer⟩
  | report e =>
    simp only [step, ht]
    exact ⟨.tell [.notify (.error e) s.listeners.registered] ht rfl (by simp [Task.tells])
        (Nat.lt_succ_self _), h.lifecycle_eq, .tell rfl hx, h.reader, h.writer⟩
  | _ => cases hn

/-- A message is encoded, and the others are encoded after it. -/
theorem beat_encode {m : Message} {ms : List Message} (h : l.Engaged .writing s)
    (ht : l.tasks = .encode (m :: ms) :: rest) (hx : Exchange .writing rest) :
    Beat calls s l room inbox .writing (l.step calls s) .writing ∧
      (l.step calls s).loop.Engaged .writing (l.step calls s).shared := by
  obtain ⟨w, hw⟩ := Option.isSome_iff_exists.1 h.writer
  have t := l.step_turn calls s
  have htasks := (l.step_encode ht calls s).2
  generalize l.step calls s = st at t htasks ⊢
  cases t with
  | @encode m' ms' rest' w₀ w' plan ht' hw' hconfig hb hp =>
    cases ht.symm.trans ht'
    cases hw.symm.trans hw'
    have hc : costs s.listeners.length (plan ++ [.encode ms]) <
        (Task.encode (m :: ms)).cost s.listeners.length := by
      rcases htasks with heq | ⟨-, e, -, -, heq⟩
      · obtain rfl : plan = [] := List.append_left_eq_self.1 heq
        exact costs_lt_of_replaces replaces_encode.1 rfl
      · have hplan : plan ++ .encode ms :: rest = [.report e] ++ .encode ms :: rest := heq
        obtain rfl : plan = [.report e] := List.append_cancel_right hplan
        exact costs_lt_of_replaces (replaces_encode.2 e) rfl
    refine ⟨.encode plan ht hw hconfig ?_ hp hc, h.lifecycle_eq, .append hp (.encode hx),
      h.reader, rfl⟩
    rw [hb]
    cases l.registry.outgoing w.config m <;> rfl
  | drop _ hn => cases hw.symm.trans hn
  | _ => simp_all [Task.tells, Task.messages]

/-- A write does not fail, and reading is next. -/
theorem beat_write {deadline : Moment} (h : l.Engaged .writing s)
    (ht : l.tasks = .write .exchange deadline :: nextRound)
    (ha : calls.abide room inbox = true) :
    Beat calls s l room inbox .writing (l.step calls s) .reading ∧
      (l.step calls s).loop.Engaged .reading (l.step calls s).shared := by
  obtain ⟨w, hw⟩ := Option.isSome_iff_exists.1 h.writer
  obtain ⟨b, w', hr, hq, hconfig, hgo⟩ := SocketCalls.exists_flushPending ha w (some deadline)
  have hstep : l.step calls s =
      { shared := s
        loop :=
          { l with writer := some w'.encoder, tasks := .receive :: .keepalive :: nextRound }
        sent := w'.output.accepted } := by
    simp only [step, ht, write, hw, hr]
    rfl
  rw [hstep]
  exact ⟨.write ht hw hconfig hq hgo, h.lifecycle_eq, .receive, h.reader, rfl⟩

/-- A read does not fail if the decoder takes whatever comes, and handing on is next. -/
theorem beat_receive (h : l.Engaged .reading s)
    (ht : l.tasks = .receive :: .keepalive :: nextRound) (ha : calls.abide room inbox = true)
    (hc : ∀ d, l.reader = some d → ∀ got, got <+: inbox → (d.push got).drain.2.1 = none) :
    Beat calls s l room inbox .reading (l.step calls s) .handing ∧
      (l.step calls s).loop.Engaged .handing (l.step calls s).shared := by
  obtain ⟨d, hd⟩ := Option.isSome_iff_exists.1 h.reader
  rw [SocketCalls.abide, Bool.and_eq_true] at ha
  have hreads : 0 < if l.writer.any Encoder.hasPending then receiveBurst else 1 := by
    split <;> decide
  obtain ⟨hnone, hgo⟩ := FrameReader.burst_of_delivers (r := ⟨d, ⟨calls.reads, 0⟩⟩) ha.2 (hc d hd)
    (if l.writer.any Encoder.hasPending then receiveBurst else 1)
  have hr : l.isReading = true := by simp only [isReading, ht, hd]
  simp only [step, ht, receive, hd]
  generalize FrameReader.burst _ _ = b at hnone hgo ⊢
  obtain ⟨items, failure, r⟩ := b
  dsimp only at hnone hgo ⊢
  subst hnone
  exact ⟨.receive ht hr (hgo hreads), h.lifecycle_eq, .dispatch .keepalive, rfl, h.writer⟩

/-- An item is handed on, and the others are handed on after it. -/
theorem beat_dispatch {item : Item} {items : List Item} (h : l.Engaged .handing s)
    (ht : l.tasks = .dispatch (item :: items) :: rest) (hx : Exchange .handing rest) :
    Beat calls s l room inbox .handing (l.step calls s) .handing ∧
      (l.step calls s).loop.Engaged .handing (l.step calls s).shared := by
  simp only [step, ht, dispatch]
  split
  · exact ⟨.dispatch [] ht (List.forall_mem_nil _)
        (costs_lt_of_replaces replaces_dispatch.1 rfl), h.lifecycle_eq,
      .dispatch hx, h.reader, h.writer⟩
  split
  · exact ⟨.dispatch [.notify .message s.listeners.registered] ht (by simp [Task.tells])
        (costs_lt_of_replaces (replaces_dispatch.2.2 _ (Nat.le_refl _)) rfl), h.lifecycle_eq,
      .tell rfl (.dispatch hx), h.reader, h.writer⟩
  · exact ⟨.dispatch [.report _] ht (by simp [Task.tells])
        (costs_lt_of_replaces (replaces_dispatch.2.1 _) rfl), h.lifecycle_eq,
      .tell rfl (.dispatch hx), h.reader, h.writer⟩

/-- A keepalive does not fail, and the next round is next. -/
theorem beat_keepalive (h : l.Engaged .handing s) (ht : l.tasks = .keepalive :: nextRound)
    (ha : calls.abide room inbox = true) :
    Beat calls s l room inbox .handing (l.step calls s) .handing ∧
      (l.step calls s).loop.Engaged .handing (l.step calls s).shared := by
  obtain ⟨w, hw⟩ := Option.isSome_iff_exists.1 h.writer
  obtain ⟨b, w', hr, hq, hconfig, hgo⟩ := SocketCalls.exists_flushPending ha w.enqueueKeepalive
    (some (calls.now + l.config.writeTimeout))
  by_cases hidle : s.lifecycle.desired ≠ .connected ∨
      calls.now - l.lastKeepalive < l.config.keepaliveInterval ∨ w.hasPending
  · have hstep : l.step calls s = { shared := s, loop := { l with tasks := nextRound } } := by
      simp only [step, ht, Loop.keepalive]
      split
      · rfl
      · rename_i hw'
        cases hw.symm.trans hw'
        rw [if_pos hidle]
    rw [hstep]
    exact ⟨.skip ht rfl rfl, h.lifecycle_eq, .round, h.reader, h.writer⟩
  have hstep : l.step calls s =
      { shared := s
        loop :=
          { l with
            writer := some w'.encoder
            lastKeepalive := w'.output.now
            tasks := nextRound }
        sent := w'.output.accepted } := by
    simp only [step, ht, Loop.keepalive, hw, if_neg hidle, hr]
  have hqueued : w'.output.accepted ++ w'.encoder.pending = w.pending ++ keepaliveBytes := hq
  rw [hstep]
  refine ⟨.keepalive ht ?_ hw hconfig ?_ fun hsent => ?_, h.lifecycle_eq, .round, h.reader, rfl⟩
  · rw [isDue, ht]
    exact decide_eq_true (Nat.le_of_not_lt fun hlt => hidle (.inr (.inl hlt)))
  · rw [← List.length_append, hqueued, List.length_append]
    rfl
  · rcases Nat.eq_zero_or_pos room with hroom | hroom
    · exact hroom
    · have hnil : w.pending ++ keepaliveBytes = [] := hgo hsent hroom
      cases (List.append_eq_nil_iff.1 hnil).2

/-- A step over a stream that is a pair of channels is one of the exchange, and the loop stays
connected, if the decoder takes whatever comes. -/
theorem beat (h : l.Engaged phase s) (ha : calls.abide room inbox = true)
    (hc : ∀ d, l.reader = some d → ∀ got, got <+: inbox → (d.push got).drain.2.1 = none) :
    ∃ phase', Beat calls s l room inbox phase (l.step calls s) phase' ∧
      (l.step calls s).loop.Engaged phase' (l.step calls s).shared := by
  have hx := h.exchange
  generalize ht : l.tasks = tasks at hx
  cases hx with
  | tell hn hx => exact ⟨_, h.beat_tell ht hn hx⟩
  | act =>
    simp only [step, ht, Loop.act, h.lifecycle_eq]
    exact ⟨_, .act ht, h.lifecycle_eq, .collect, h.reader, h.writer⟩
  | collect =>
    simp only [step, ht, h.writer, if_true]
    exact ⟨_, .collect ht, h.lifecycle_eq, .encode .write, h.reader, h.writer⟩
  | @encode messages rest hx =>
    cases messages with
    | nil =>
      simp only [step, ht]
      exact ⟨_, .skip ht rfl rfl, h.lifecycle_eq, hx, h.reader, h.writer⟩
    | cons m ms => exact ⟨_, h.beat_encode ht hx⟩
  | write => exact ⟨_, h.beat_write ht ha⟩
  | receive => exact ⟨_, h.beat_receive ht ha hc⟩
  | @dispatch items rest hx =>
    cases items with
    | nil =>
      simp only [step, ht]
      exact ⟨_, .skip ht rfl rfl, h.lifecycle_eq, hx, h.reader, h.writer⟩
    | cons item items => exact ⟨_, h.beat_dispatch ht hx⟩
  | keepalive => exact ⟨_, h.beat_keepalive ht ha⟩
  | round =>
    have hsame : s.lifecycle.current = s.lifecycle.desired := by rw [h.lifecycle_eq]
    rw [step_announce calls ht, if_pos hsame]
    exact ⟨_, .announce ht, h.lifecycle_eq, .act, h.reader, h.writer⟩

end Loop.Engaged

/-! ## What is left to write -/

/-- How many bytes the frames have that messages are sent as. -/
def Registry.weight (r : Registry) (config : FrameConfig) (messages : List Message) : Nat :=
  ((messages.filterMap (r.outgoing config)).flatMap (frameBytes config.protocol)).length

/-- How many bytes are left to write: those that are pending, and those of the messages that are
still to be encoded. -/
def Loop.backlog (s : Shared) (l : Loop) : Nat :=
  l.writer.elim 0 fun w =>
    w.pending.length +
      l.registry.weight w.config (heldMessages l.tasks ++ s.outbound.messages)

/-- What is left to write depends on the writer and on the messages. -/
theorem Loop.backlog_congr {s' : Shared} {l' : Loop} (hw : l'.writer = l.writer)
    (hr : l'.registry = l.registry)
    (hm : heldMessages l'.tasks ++ s'.outbound.messages =
      heldMessages l.tasks ++ s.outbound.messages) : l'.backlog s' = l.backlog s := by
  rw [backlog, backlog, hw, hr, hm]

namespace Registry

variable {r : Registry} {config : FrameConfig} {messages : List Message}

theorem weight_cons (m : Message) :
    r.weight config (m :: messages) =
      ((r.outgoing config m).toList.flatMap (frameBytes config.protocol)).length +
        r.weight config messages := by
  cases ho : r.outgoing config m with
  | none =>
    rw [weight, List.filterMap_cons_none ho]
    exact (Nat.zero_add _).symm
  | some f =>
    rw [weight, List.filterMap_cons_some ho, List.flatMap_cons, List.length_append]
    simp [weight]

/-- Only messages that are not sent weigh nothing. -/
theorem filterMap_of_weight (h : r.weight config messages = 0) :
    messages.filterMap (r.outgoing config) = [] := by
  cases hf : messages.filterMap (r.outgoing config) with
  | nil => rfl
  | cons f frames =>
    rw [weight, hf, List.flatMap_cons, List.length_append] at h
    cases (Nat.add_eq_zero_iff.1 h).1

end Registry

/-- With nothing left to write, all that has been queued has been sent. -/
theorem Sending.eq_of_backlog {registry : Registry} {config : FrameConfig} {queued : List Message}
    {sent : Bytes} (h : Sending registry config queued sent s l) (hr : l.registry = registry)
    (hw : l.writer.isSome = true) (hb : l.backlog s = 0) :
    ∃ items : List Item,
      items.filterMap Item.frame? = queued.filterMap (registry.outgoing config) ∧
        sent = items.flatMap (·.bytes config.protocol) := by
  cases h with
  | before hn | behind hn =>
    rw [hn] at hw
    cases hw
  | @during w items done hw hc hi hq hsent =>
    rw [Loop.backlog, hw, hr] at hb
    obtain ⟨hp, hweight⟩ := Nat.add_eq_zero_iff.1 hb
    rw [hc] at hweight
    rw [List.eq_nil_of_length_eq_zero hp, List.append_nil] at hsent
    refine ⟨items, ?_, hsent⟩
    rw [hi, ← hq, List.filterMap_append, Registry.filterMap_of_weight hweight, List.append_nil]

namespace Beat

/-- What the stream takes is not left to write any more, and nothing comes to it but a keepalive
that is due. That is sent at once unless there is no room. -/
theorem backlog_eq (h : Beat calls s l room inbox phase st phase') :
    ∃ beats, st.sent.length + st.loop.backlog st.shared = l.backlog s + beats ∧
      (beats ≠ 0 → l.isDue calls = true ∧ (st.sent = [] → room = 0)) := by
  have kept (hs : st.sent = []) (heq : st.loop.backlog st.shared = l.backlog s) :
      ∃ beats, st.sent.length + st.loop.backlog st.shared = l.backlog s + beats ∧
        (beats ≠ 0 → l.isDue calls = true ∧ (st.sent = [] → room = 0)) := by
    refine ⟨0, ?_, fun hn => absurd rfl hn⟩
    rw [hs, heq]
    exact Nat.zero_add _
  cases h with
  | tell plan ht hn hp =>
    refine kept rfl (Loop.backlog_congr rfl rfl (congrArg (· ++ _) ?_))
    exact heldMessages_plan ht (isPlain_of_tells hp) (Task.held_of_tells hn).1
  | announce ht | act ht | receive ht =>
    refine kept rfl (Loop.backlog_congr rfl rfl (congrArg (· ++ _) ?_))
    rw [ht]
    rfl
  | collect ht =>
    refine kept rfl (Loop.backlog_congr rfl rfl ?_)
    rw [ht]
    exact (List.append_nil _).trans (List.append_nil _)
  | @encode m ms rest w w' plan ht hw hconfig hb hp =>
    refine kept rfl ?_
    have hm : heldMessages (plan ++ .encode ms :: rest) = ms ++ heldMessages rest := by
      rw [heldMessages_append, (held_of_isPlain (isPlain_of_tells hp)).1]
      rfl
    have hm' : heldMessages l.tasks = m :: (ms ++ heldMessages rest) := by
      rw [ht]
      rfl
    rw [Loop.backlog, Loop.backlog, hw, hm']
    simp only [Option.elim_some, hm, hconfig, hb, List.cons_append, Registry.weight_cons,
      List.length_append, Nat.add_assoc]
  | @write deadline w w' sent ht hw hconfig hb =>
    refine ⟨0, ?_, fun hn => absurd rfl hn⟩
    have hm : heldMessages l.tasks = [] := by
      rw [ht]
      rfl
    rw [Loop.backlog, Loop.backlog, hw, hm, Option.elim_some, Option.elim_some, hconfig, ← hb,
      List.length_append, Nat.add_assoc, Nat.add_zero, Nat.add_assoc]
    rfl
  | @dispatch item items rest inbound raised plan ht hp =>
    refine kept rfl (Loop.backlog_congr rfl rfl (congrArg (· ++ _) ?_))
    rw [ht, heldMessages_append, (held_of_isPlain (isPlain_of_tells hp)).1]
    rfl
  | @keepalive w w' time sent ht hdue hw hconfig hb hgo =>
    refine ⟨keepaliveSize, ?_, fun _ => ⟨hdue, hgo⟩⟩
    have hm : heldMessages l.tasks = heldMessages nextRound := by
      rw [ht]
      rfl
    rw [Loop.backlog, Loop.backlog, hw, hm, Option.elim_some, Option.elim_some, hconfig,
      ← Nat.add_assoc, hb, Nat.add_right_comm]
  | skip ht _ hm =>
    refine kept rfl (Loop.backlog_congr rfl rfl (congrArg (· ++ _) ?_))
    rw [ht, heldMessages, heldMessages, List.flatMap_cons, hm, List.nil_append]

/-- If there is room and nothing is taken, as much is left to write as before. -/
theorem backlog_of_still (h : Beat calls s l room inbox phase st phase') (hs : st.sent = [])
    (hr : 0 < room) : st.loop.backlog st.shared = l.backlog s := by
  obtain ⟨beats, heq, hdue⟩ := h.backlog_eq
  rw [hs] at heq
  rcases Nat.eq_zero_or_pos beats with rfl | hb
  · exact (Nat.zero_add _).symm.trans heq
  · exact absurd ((hdue (Nat.ne_of_gt hb)).2 hs) (Nat.ne_of_gt hr)

end Beat

/-! ## A round in which nothing moves -/

/-- What is known if nothing has moved since a round began and no more than so many phases of it are
ahead: no messages are to be sent, nothing is left to write unless there is no room, and there is
nothing to read. -/
structure Loop.Cleared (room : Nat) (inbox : Bytes) (ahead : Nat) (s : Shared) (l : Loop) :
    Prop where
  collected : ahead ≤ 2 → s.outbound.messages = []
  written : ahead ≤ 1 → 0 < room → l.backlog s = 0
  read : ahead = 0 → inbox = []

/-- A step in which nothing moves leaves what is known, and more is known if it leads to another
phase. -/
theorem Beat.cleared (h : Beat calls s l room inbox phase st phase') (hs : st.sent = [])
    (hu : carried (l.unread calls st) = carried calls.reads) {ahead : Nat}
    (ha : ahead ≤ phase.ahead) (hc : l.Cleared room inbox ahead s) :
    st.loop.Cleared room inbox (min ahead phase'.ahead) st.shared := by
  have hstill := h.backlog_of_still hs
  have written (hle : ahead ≤ 1) (hr : 0 < room) : st.loop.backlog st.shared = 0 :=
    (hstill hr).trans (hc.written hle hr)
  have kept (ho : st.shared.outbound = s.outbound) :
      st.loop.Cleared room inbox ahead st.shared :=
    ⟨fun hle => ho ▸ hc.collected hle, written, hc.read⟩
  cases h with
  | tell | encode | dispatch | keepalive | skip =>
    rw [Nat.min_eq_left ha]
    exact kept rfl
  | announce =>
    rw [Nat.min_eq_left (Nat.le_trans ha (Nat.zero_le _))]
    exact kept rfl
  | act =>
    refine ⟨fun hle => hc.collected ?_, fun hle => written ?_, fun heq => hc.read ?_⟩ <;>
      simp only [Phase.ahead] at * <;> omega
  | collect =>
    refine ⟨fun _ => MessageQueue.messages_empty, fun hle => written ?_, fun heq => hc.read ?_⟩ <;>
      simp only [Phase.ahead] at * <;> omega
  | write ht hw hconfig hb hgo =>
    have ho := hc.collected ha
    refine ⟨fun _ => ho, fun _ hr => ?_, fun heq => hc.read ?_⟩
    · rw [hstill hr, Loop.backlog, hw, Option.elim_some, hgo hs hr, ho, ht]
      rfl
    · simp only [Phase.ahead] at *
      omega
  | receive ht hr hgo =>
    rw [Loop.unread, hr] at hu
    exact ⟨fun _ => hc.collected (Nat.le_trans ha (by decide)), fun _ => written ha,
      fun _ => hgo hu⟩

/-! ## The end of a round -/

/-- What a connected loop has still to do in a round: what its tasks cost comes after what they can
lead to. -/
def lapAhead (s : Shared) (tasks : List Task) : Nat ×ₗ Nat :=
  toLex ((if tasks.any Task.announces then 0 else 4) + opens tasks,
    costs s.listeners.length tasks)

/-- What the tasks can lead to are the phases ahead. -/
theorem Exchange.leads_eq (h : Exchange phase tasks) :
    (if tasks.any Task.announces then 0 else 4) + opens tasks = phase.ahead := by
  induction h with
  | @tell phase task rest hn h ih =>
    have ho : task.opens = 0 ∧ task.announces = false := by
      cases task <;> first | exact ⟨rfl, rfl⟩ | cases hn
    rw [List.any_cons, ho.2, Bool.false_or, opens, ho.1, Nat.zero_add, ih]
  | @encode messages rest h ih | @dispatch items rest h ih =>
    rw [← ih, opens]
    simp [Task.announces, Task.opens]
  | act | collect | write | receive | keepalive | round => rfl

/-- A step brings the end of the round nearer. -/
theorem Beat.lapAhead_lt (h : Beat calls s l room inbox phase st phase')
    (hx : Exchange phase l.tasks) (hx' : Exchange phase' st.loop.tasks)
    (hn : l.tasks ≠ nextRound) : lapAhead st.shared st.loop.tasks < lapAhead s l.tasks := by
  unfold lapAhead
  rw [hx.leads_eq, hx'.leads_eq]
  have later (hlt : phase'.ahead < phase.ahead) {k k' : Nat} :
      toLex (phase'.ahead, k') < toLex (phase.ahead, k) := Prod.Lex.toLex_lt_toLex.2 (.inl hlt)
  have cheaper {ahead k k' : Nat} (hlt : k' < k) : toLex (ahead, k') < toLex (ahead, k) :=
    Prod.Lex.toLex_lt_toLex.2 (.inr ⟨rfl, hlt⟩)
  cases h with
  | tell plan ht _ _ hc =>
    refine cheaper ?_
    rw [ht, costs_append, costs]
    exact Nat.add_lt_add_right hc _
  | announce ht => exact absurd ht hn
  | act | collect | write | receive => exact later (by decide)
  | encode plan ht _ _ _ _ hc | dispatch plan ht _ hc =>
    refine cheaper ?_
    rw [ht]
    simp only [costs_append, costs] at hc ⊢
    omega
  | keepalive ht =>
    refine cheaper ?_
    rw [ht]
    exact Nat.lt_add_of_pos_left Nat.one_pos
  | @skip _ task rest ht =>
    refine cheaper ?_
    rw [ht]
    exact Nat.lt_add_of_pos_left (task.cost_pos _)

end

end PeerMessaging
