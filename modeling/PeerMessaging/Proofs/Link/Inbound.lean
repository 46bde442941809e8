import PeerMessaging.Proofs.Link.Delivery
import PeerMessaging.Proofs.Link.Receiving
import PeerMessaging.Proofs.Link.Trace
import PeerMessaging.Proofs.Wire.Bursts
import PeerMessaging.Proofs.Wire.Lockstep

/-!
# What a connection makes of what it reads

A connected loop reads in every round, hands on the items that the reads complete, one after
another, and reports the failure that ended them, if any, last (`Intake`). What it brings about in
doing so is what the items of the bytes that have been read are to bring about, in their order
(`Connection.TakesIn`), however the bytes were split over reads and rounds and whatever is done to
the connection meanwhile (`received_in_order`).
-/

namespace PeerMessaging

/-! ## Where a loop reads -/

namespace Task

/-- The task comes after what has been read in a round is dealt with. -/
def isKeepalive : Task → Bool
  | keepalive => true
  | _ => false

/-- The task has nothing to do with reading. -/
def isApart : Task → Bool
  | notify .message _ => false
  | notify .. | report _ | advance _ | collect | encode _ | write .closing _ | release => true
  | _ => false

end Task

/-- Where a loop may be, as far as reading is concerned. -/
inductive Intake : List Task → Prop
  /-- It does not read, and will not before the next round begins or a write ends. -/
  | apart {plan tail : List Task} (hp : ∀ t ∈ plan, t.isApart = true)
      (ht : tail = [] ∨ tail = [.act] ∨ tail = nextRound ∨
        ∃ deadline, tail = .write .exchange deadline :: nextRound) : Intake (plan ++ tail)
  /-- It reads next. -/
  | reading : Intake (.receive :: .keepalive :: nextRound)
  /-- It deals with what it has read. -/
  | handing {plan : List Task} (hp : ∀ t ∈ plan, t.relays = true) :
      Intake (plan ++ .keepalive :: nextRound)

/-- The loop reads, or deals with what it has read. -/
def Loop.isReceiving (l : Loop) : Bool := l.tasks.tail.any Task.isKeepalive

/-- The most reads that the next step may make. -/
def Loop.burstSize (l : Loop) : Nat :=
  if l.writer.any Encoder.hasPending then receiveBurst else 1

/-- What the reads are answered that the next step makes. -/
def Loop.answers (calls : SocketCalls) (l : Loop) : List ReadAnswer :=
  match l.tasks, l.reader with
  | .receive :: _, some d =>
    let stream : InputStream := ⟨calls.reads, 0⟩
    stream.answers (FrameReader.burst ⟨d, stream⟩ l.burstSize).2.2.input.reads
  | _, _ => []

section
variable {calls : SocketCalls} {s : Shared} {l : Loop} {task : Task} {plan rest tail : List Task}

/-- A read brings about nothing before what it has brought is dealt with. -/
theorem Loop.effects_of_receive (ht : l.tasks = .receive :: rest) : l.effects calls s = [] := by
  have hquiet : (l.step calls s).shared = s ∧ (l.step calls s).raised = none ∧
      (l.step calls s).told = none := by
    simp only [step, ht, receive]
    split <;> exact ⟨rfl, rfl, rfl⟩
  rw [effects_of_inbound (by rw [hquiet.1]), hquiet.2.1, hquiet.2.2, asked, ht]
  rfl

/-- Only a step that reads has answers. -/
theorem Loop.answers_of_not_reading (h : l.isReading = false) : l.answers calls = [] := by
  unfold answers
  split
  · rename_i ht hr
    rw [isReading, ht, hr] at h
    cases h
  · rfl

/-- The reads of a step are answered from what the stream has, and the rest is left. -/
theorem Loop.exists_answers (calls : SocketCalls) (s : Shared) (h : l.isReading = true) :
    ∃ n, l.answers calls = InputStream.answers ⟨calls.reads, 0⟩ n ∧
      (l.tick calls s).unread = (InputStream.after ⟨calls.reads, 0⟩ n).outcomes := by
  unfold isReading at h
  split at h
  · rename_i d ht hr
    rw [tick_of_not_overruns (l.overruns_of_not_isTimed calls s ht rfl)]
    obtain ⟨reads, hg, -⟩ := FrameReader.burstGathers ⟨d, ⟨calls.reads, 0⟩⟩ l.burstSize
    refine ⟨reads, ?_, ?_⟩
    · simp only [answers, ht, hr]
      rw [hg.input_eq, InputStream.reads_after, Nat.zero_add]
    · simp only [step, ht, receive, hr, burstSize] at hg ⊢
      rw [hg.input_eq]
  · cases h

/-! ## Steps -/

/-- A loop that does not read deals with nothing that it has read. -/
theorem isReceiving_of_apart (ht : l.tasks = plan ++ tail) (hp : ∀ t ∈ plan, t.isApart = true)
    (hk : ∀ t ∈ tail, t.isKeepalive = false) : l.isReceiving = false := by
  rw [Loop.isReceiving, List.any_eq_false, ht]
  intro t hm
  rcases List.mem_append.1 (List.mem_of_mem_tail hm) with hm | hm
  · have ha := hp t hm
    cases t <;> simp_all [Task.isApart, Task.isKeepalive]
  · simp [hk t hm]

/-- No keepalive is behind what has nothing to do with reading. -/
theorem isKeepalive_of_tail (ht : tail = [] ∨ tail = [.act] ∨ tail = nextRound ∨
    ∃ deadline, tail = .write .exchange deadline :: nextRound) :
    ∀ t ∈ tail, t.isKeepalive = false := by
  rcases ht with rfl | rfl | rfl | ⟨deadline, rfl⟩ <;> simp [nextRound, Task.isKeepalive]

/-- A loop that deals with what it has read is done when its plan is. -/
theorem isReceiving_of_handing (ht : l.tasks = plan ++ .keepalive :: nextRound) :
    l.isReceiving = !plan.isEmpty := by
  rw [Loop.isReceiving, ht]
  cases plan with
  | nil => rfl
  | cons task plan => simp [Task.isKeepalive]

/-- A task that has nothing to do with reading is replaced by others like it. -/
theorem Loop.step_apart (calls : SocketCalls) (s : Shared) (ht : l.tasks = task :: rest)
    (hn : task.isApart = true) :
    ∃ plan, (l.step calls s).loop.tasks = plan ++ rest ∧ ∀ t ∈ plan, t.isApart = true := by
  cases task with
  | notify event listeners =>
    cases listeners with
    | nil => exact ⟨[], by simp only [step, ht, List.nil_append], List.forall_mem_nil _⟩
    | cons listener listeners =>
      refine ⟨[.notify event listeners], by simp only [step, ht, tasks_first], ?_⟩
      rw [List.forall_mem_singleton]
      cases event <;> exact hn
  | report e =>
    refine ⟨[.notify (.error e) s.listeners.registered], ?_, by simp [Task.isApart]⟩
    simp only [step, ht, raise, tasks_first]
  | advance | release =>
    refine ⟨[], ?_, List.forall_mem_nil _⟩
    simp only [step, ht, release, List.nil_append]
  | collect =>
    simp only [step, ht]
    split
    · exact ⟨[.encode _], rfl, by simp [Task.isApart]⟩
    · exact ⟨[], rfl, List.forall_mem_nil _⟩
  | encode messages =>
    cases messages with
    | nil => exact ⟨[], by simp only [step, ht, List.nil_append], List.forall_mem_nil _⟩
    | cons m ms =>
      rcases (l.step_encode ht calls s).2 with h | ⟨w, e, -, -, h⟩
      · exact ⟨[.encode ms], h, by simp [Task.isApart]⟩
      · exact ⟨[.report e, .encode ms], h, by simp [Task.isApart]⟩
  | write purpose deadline =>
    cases purpose with
    | exchange => cases hn
    | closing =>
      refine ⟨[], ?_, List.forall_mem_nil _⟩
      simp only [step, ht, write]
      split <;> rfl
  | _ => cases hn

/-- What is planned after a fatal error has nothing to do with reading. -/
theorem isApart_failing (e : ConnectionError) (next : ConnectionState) :
    ∀ t ∈ failing e next, t.isApart = true := by
  simp [failing, Task.isApart]

/-- With a new stream, or without it, a round is planned in which nothing is read. -/
theorem Loop.attach_apart (kind : ErrorKind) (hl : l.tasks = nextRound) :
    ∃ plan, (l.attach kind calls s).loop.tasks = plan ++ nextRound ∧
      ∀ t ∈ plan, t.isApart = true := by
  rw [← hl]
  unfold attach
  dsimp only
  split
  · exact ⟨[.advance .connected], rfl, by simp [Task.isApart]⟩
  · exact ⟨_, rfl, isApart_failing _ _⟩

/-- Whatever a state asks for, nothing is read before a write. -/
theorem Loop.step_act (calls : SocketCalls) (s : Shared) (ht : l.tasks = [.act]) :
    ∃ plan tail, (l.step calls s).loop.tasks = plan ++ tail ∧ (∀ t ∈ plan, t.isApart = true) ∧
      (tail = [] ∨ tail = nextRound ∨
        ∃ deadline, tail = .write .exchange deadline :: nextRound) := by
  have planned {st : Step} (h : ∃ plan, st.loop.tasks = plan ++ nextRound ∧
      ∀ t ∈ plan, t.isApart = true) : ∃ plan tail, st.loop.tasks = plan ++ tail ∧
        (∀ t ∈ plan, t.isApart = true) ∧ (tail = [] ∨ tail = nextRound ∨
          ∃ deadline, tail = .write .exchange deadline :: nextRound) := by
    obtain ⟨plan, h, hp⟩ := h
    exact ⟨plan, nextRound, h, hp, .inr (.inl rfl)⟩
  simp only [step, ht, act]
  split
  · exact planned ⟨[], rfl, List.forall_mem_nil _⟩
  · split
    · exact planned (attach_apart _ rfl)
    · exact planned ⟨_, rfl, isApart_failing _ _⟩
  · split
    · exact planned ⟨[.advance .listening], rfl, by simp [Task.isApart]⟩
    · exact planned ⟨_, rfl, isApart_failing _ _⟩
  · split
    · exact planned ⟨_, rfl, isApart_failing _ _⟩
    · split
      · exact planned ⟨[], rfl, List.forall_mem_nil _⟩
      · exact planned (attach_apart _ rfl)
      · exact planned ⟨_, rfl, isApart_failing _ _⟩
  · exact ⟨[.collect], _, rfl, by simp [Task.isApart], .inr (.inr ⟨_, rfl⟩)⟩
  · exact planned ⟨[.collect, .write .closing _, .release, .advance .closed], rfl,
      by simp [Task.isApart]⟩
  · exact ⟨[], [], rfl, List.forall_mem_nil _, .inl rfl⟩
  · exact ⟨[], [], rfl, List.forall_mem_nil _, .inl rfl⟩

/-- After a read the loop deals with what it has read. -/
theorem Loop.step_receive (calls : SocketCalls) (s : Shared) (ht : l.tasks = .receive :: rest) :
    ∃ plan, (l.step calls s).loop.tasks = plan ++ rest ∧ ∀ t ∈ plan, t.relays = true := by
  simp only [step, ht, receive]
  split
  · exact ⟨[], rfl, List.forall_mem_nil _⟩
  · generalize FrameReader.burst _ _ = b
    obtain ⟨items, failure, r⟩ := b
    refine ⟨.dispatch items ::
      (failure.elim [] fun e => failing (.ofReceive e) (stateAfter e)), rfl, ?_⟩
    cases failure <;> simp [failing, Task.relays]

/-- After a write the loop reads, unless the write has failed. -/
theorem Loop.step_write {deadline : Moment} (calls : SocketCalls) (s : Shared)
    (ht : l.tasks = .write .exchange deadline :: nextRound) :
    (l.step calls s).loop.tasks = .receive :: .keepalive :: nextRound ∨
      ∃ e, (l.step calls s).loop.tasks = failing e .closing ++ nextRound := by
  simp only [step, ht, write]
  split
  · exact .inl rfl
  · rename_i w hw
    generalize FrameWriter.flushPending _ _ = r
    obtain ⟨e | b, w'⟩ := r
    · exact .inr ⟨_, rfl⟩
    · exact .inl rfl

/-- After a keepalive the next round begins, and first its failure is reported. -/
theorem Loop.step_keepalive (calls : SocketCalls) (s : Shared)
    (ht : l.tasks = .keepalive :: nextRound) :
    ∃ plan, (l.step calls s).loop.tasks = plan ++ nextRound ∧ ∀ t ∈ plan, t.isApart = true := by
  simp only [step, ht, keepalive]
  split
  · exact ⟨[], rfl, List.forall_mem_nil _⟩
  split
  · exact ⟨[], rfl, List.forall_mem_nil _⟩
  generalize FrameWriter.flushPending _ _ = r
  obtain ⟨e | b, w'⟩ := r
  · exact ⟨_, rfl, isApart_failing _ _⟩
  · exact ⟨[], rfl, List.forall_mem_nil _⟩

/-- A loop that reads or deals with what it has read is at the one or at the other. -/
theorem Intake.of_isReceiving (h : Intake l.tasks) (hr : l.isReceiving = true) :
    l.tasks = .receive :: .keepalive :: nextRound ∨
      ∃ task plan, l.tasks = (task :: plan) ++ .keepalive :: nextRound ∧
        ∀ t ∈ task :: plan, t.relays = true := by
  generalize ht : l.tasks = tasks at h
  cases h with
  | apart hp htail =>
    cases hr.symm.trans (isReceiving_of_apart ht hp (isKeepalive_of_tail htail))
  | reading => exact .inl rfl
  | @handing plan hp =>
    cases plan with
    | nil => cases hr.symm.trans (isReceiving_of_handing ht)
    | cons task plan => exact .inr ⟨task, plan, rfl, hp⟩

/-- A loop that does neither has no message to queue or to announce. -/
theorem Intake.isOfMessage_eq (h : Intake l.tasks) (hr : l.isReceiving = false) :
    ∀ effect ∈ l.effects calls s, effect.isOfMessage = false := by
  intro effect he
  rw [← Bool.not_eq_true]
  intro hm
  obtain ⟨rest, hhead⟩ := Loop.tasks_of_isOfMessage he hm
  generalize ht : l.tasks = tasks at h hhead
  cases h with
  | reading => rcases hhead with ⟨_, hh⟩ | ⟨_, hh⟩ <;> cases hh
  | @handing plan hp =>
    have hnil : plan = [] := by
      rw [isReceiving_of_handing ht] at hr
      simpa using hr
    subst hnil
    rcases hhead with ⟨_, hh⟩ | ⟨_, hh⟩ <;> cases hh
  | @apart plan tail hp htail =>
    cases plan with
    | nil =>
      rcases htail with rfl | rfl | rfl | ⟨_, rfl⟩ <;>
        rcases hhead with ⟨_, hh⟩ | ⟨_, hh⟩ <;> cases hh
    | cons task plan =>
      have htask := hp task (.head _)
      rcases hhead with ⟨_, hh⟩ | ⟨_, hh⟩ <;> obtain ⟨rfl, -⟩ := List.cons.inj hh <;> cases htask

end

/-! ## What has been read -/

/-- What a stream has brought so far: the answers of its reads, and the items and the failure that
a decoder makes of them. -/
inductive Reception (config : FrameConfig) (answers : List ReadAnswer) (items : List Item)
    (failure : Option FrameError) (s : Shared) (l : Loop) : Prop
  /-- There is no stream yet. -/
  | before (hr : l.reader = none) (ha : answers = []) (hi : items = []) (hf : failure = none)
  /-- There is a stream, or there was one. -/
  | since {d : Decoder} (hr : l.reader = some d ∨ l.reader = none)
      (hg : (Decoder.new config).Gathers answers items failure d) (hs : Settled s l)

section
variable {registry : Registry} {config : ConnectionConfig} {calls : SocketCalls} {s s' : Shared}
  {l : Loop} {answers : List ReadAnswer} {items : List Item} {failure : Option FrameError}

namespace Reception

/-- A new decoder has been brought nothing. -/
theorem gathers_new (config : FrameConfig) :
    (Decoder.new config).Gathers [] [] none (Decoder.new config) := by
  have h := Decoder.Gathers.of_drain (Decoder.new config)
  rwa [Decoder.drain_new] at h

/-- Whether there is a stream or not, the items and the failure are those of the answers. -/
theorem gathers {config : FrameConfig} (h : Reception config answers items failure s l) :
    ∃ d, (Decoder.new config).Gathers answers items failure d := by
  cases h with
  | before _ ha hi hf =>
    subst ha hi hf
    exact ⟨_, gathers_new config⟩
  | since _ hg => exact ⟨_, hg⟩

/-- What callers do to the connection leaves what has been read. -/
theorem of_shared {config : FrameConfig} (h : Reception config answers items failure s l)
    (hc : s'.lifecycle.current = s.lifecycle.current)
    (hd : s.lifecycle.desired.stage ≤ s'.lifecycle.desired.stage) :
    Reception config answers items failure s' l := by
  cases h with
  | before hr ha hi hf => exact .before hr ha hi hf
  | since hr hg hs => exact .since hr hg (hs.of_shared hc hd)

/-- A step that does not read leaves what has been read. -/
theorem step (hu : Underway registry config s l)
    (h : Reception config.streamConfig answers items failure s l) (calls : SocketCalls)
    (hr : l.isReading = false) :
    Reception config.streamConfig answers items failure (l.step calls s).shared
      (l.step calls s).loop := by
  have t := l.step_turn calls s
  have settled (hs : Settled s l) := hs.turn hu.orderly t
  have kept (hd : (l.step calls s).loop.reader = l.reader) :
      Reception config.streamConfig answers items failure (l.step calls s).shared
        (l.step calls s).loop := by
    cases h with
    | before hn ha hi hf => exact .before (hd.trans hn) ha hi hf
    | since hor hg hs => exact .since (hd ▸ hor) hg (settled hs)
  cases t.inflow hu.orderly with
  | keep _ hd => exact kept hd
  | pass _ _ hd => exact kept hd
  | take _ hreading => cases hr.symm.trans hreading
  | attach ht hc hd hl ht' =>
    cases h with
    | since _ _ hs => exact (hs.not_attach ht hc).elim
    | before _ ha hi hf =>
      subst ha hi hf
      rw [hu.config_eq] at hd
      exact .since (.inl hd) (gathers_new _) (hu.settled_of_attach ht hc hl ht')
  | cease _ hd =>
    cases h with
    | before _ ha hi hf => exact .before hd ha hi hf
    | since _ hg hs => exact .since (.inr hd) hg (settled hs)

/-- A step that reads adds what its reads are answered. -/
theorem step_receive {d : Decoder} {rest : List Task} (hu : Underway registry config s l)
    (h : Reception config.streamConfig answers items none s l) (calls : SocketCalls)
    (ht : l.tasks = .receive :: rest) (hd : l.reader = some d) :
    ∃ more failure, (l.step calls s).loop.tasks = .dispatch more ::
        ((failure.elim [] fun e => failing (.ofReceive e) (stateAfter e)) ++ rest) ∧
      Reception config.streamConfig (answers ++ l.answers calls) (items ++ more) failure
        (l.step calls s).shared (l.step calls s).loop := by
  have hsettled (hs : Settled s l) := hs.turn hu.orderly (l.step_turn calls s)
  obtain ⟨reads, hg, -⟩ := FrameReader.burstGathers ⟨d, ⟨calls.reads, 0⟩⟩ l.burstSize
  have hanswers : l.answers calls = (⟨calls.reads, 0⟩ : InputStream).answers reads := by
    simp only [Loop.answers, ht, hd]
    rw [hg.input_eq, InputStream.reads_after, Nat.zero_add]
  generalize hburst : FrameReader.burst ⟨d, ⟨calls.reads, 0⟩⟩ l.burstSize = b at hg
  obtain ⟨more, failure, r⟩ := b
  have hstep : l.step calls s =
      { shared := s
        loop := { l with
          reader := some r.decoder
          tasks := .dispatch more ::
            ((failure.elim [] fun e => failing (.ofReceive e) (stateAfter e)) ++ rest) }
        unread := r.input.outcomes } := by
    rw [Loop.burstSize] at hburst
    simp only [Loop.step, ht, Loop.receive, hd, hburst]
    rfl
  refine ⟨more, failure, by rw [hstep], ?_⟩
  cases h with
  | before hn =>
    cases hn.symm.trans hd
  | since hor hgathers hs =>
    obtain hr | hr := hor
    · cases hr.symm.trans hd
      refine .since (d := r.decoder) (.inl (by rw [hstep])) ?_ (hsettled hs)
      rw [hanswers]
      exact hgathers.trans hg.decoder
    · cases hr.symm.trans hd

end Reception

end

/-! ## The connection that reads -/

namespace Connection

/-- The loop reads, or deals with what it has read. -/
def isReceiving (c : Connection) : Bool := c.loop.any Loop.isReceiving

/-- What the reads of a move are answered. -/
def answers (c : Connection) : Move → List ReadAnswer
  | .work calls => c.loop.elim [] (Loop.answers calls)
  | _ => []

/-- What the loop brings about in a move while it reads or deals with what it has read. -/
def receipts (c : Connection) (m : Move) : List Effect := if c.isReceiving then c.effects m else []

/-- What is still to be brought about because of what has been read. -/
def inHand (registry : Registry) (config : FrameConfig) (listeners : List Listener)
    (c : Connection) : List Effect :=
  if c.isReceiving then effectsOf registry config listeners c.tasks else []

/-- A connection that has been brought these answers, which come to these items and this failure,
and has brought about this trace because of them. -/
structure TakesIn (registry : Registry) (config : ConnectionConfig) (listeners : List Listener)
    (answers : List ReadAnswer) (items : List Item) (failure : Option FrameError)
    (trace : List Effect) (c : Connection) : Prop where
  inSession : c.InSession registry config
  listeners_eq : c.shared.listeners.registered = listeners
  intake : Intake c.tasks
  gathers : ∃ d, (Decoder.new config.streamConfig).Gathers answers items failure d
  reception : ∀ l, c.loop = some l →
    Reception config.streamConfig answers items failure c.shared l
  balance : trace ++ c.inHand registry config.streamConfig listeners =
    items.flatMap (Item.effects registry listeners) ++
      failure.elim [] (FrameError.effects listeners)
  /-- After a failure nothing is read any more. -/
  course : ∃ verdict asked, c.OnCourse verdict asked ∧ (failure ≠ none → verdict ≠ none ∨
    c.isReceiving = true ∧ ∃ e, .report (.ofReceive e) ∈ c.tasks)

section
variable {registry : Registry} {config : ConnectionConfig} {listeners : List Listener}
  {answers : List ReadAnswer} {items : List Item} {failure : Option FrameError}
  {trace : List Effect} {c c' : Connection} {m : Move} {l : Loop} {calls : SocketCalls}
  {plan rest tail : List Task} {task : Task}

/-- What a stream has for a move is what the reads of the move bring, and what is left of it. -/
theorem offered_eq_brought (c : Connection) (m : Move) :
    m.offered = brought (c.answers m) ++ c.leaves m := by
  cases m with
  | work calls =>
    cases hl : c.loop with
    | none =>
      rw [answers, leaves, hl]
      rfl
    | some l =>
      rw [answers, leaves, hl, Option.elim_some, Option.elim_some, Move.offered]
      cases hr : l.isReading with
      | false =>
        rw [Loop.answers_of_not_reading hr, Loop.unread_of_not_reading hr]
        rfl
      | true =>
        obtain ⟨n, ha, hu⟩ := l.exists_answers calls c.shared hr
        rw [Loop.unread, hr, ha, if_pos rfl, hu]
        exact InputStream.carried_eq_brought ⟨calls.reads, 0⟩ n
  | _ => rfl

theorem isReceiving_of_some (hl : c.loop = some l) : c.isReceiving = l.isReceiving := by
  rw [isReceiving, hl]
  rfl

/-- What a plan is still to bring about is in hand. -/
theorem inHand_of_handing (hl : c.loop = some l) (ht : l.tasks = plan ++ .keepalive :: nextRound) :
    c.inHand registry config.streamConfig listeners =
      effectsOf registry config.streamConfig listeners plan := by
  have hround : effectsOf registry config.streamConfig listeners (.keepalive :: nextRound) = [] :=
    rfl
  rw [inHand, isReceiving_of_some hl, isReceiving_of_handing ht, tasks_of_some hl, ht,
    effectsOf_append, hround, List.append_nil]
  cases plan <;> rfl

/-- A loop that does not deal with what it has read has nothing in hand. -/
theorem inHand_of_not_receiving (h : c.isReceiving = false) :
    c.inHand registry config.streamConfig listeners = [] := by
  rw [inHand, h]
  rfl

/-- A connection that has just been started has read nothing. -/
theorem TakesIn.of_starts {c₀ : Connection} (h : c₀.Starts c) :
    c.TakesIn c.registry c.config c.shared.listeners.registered [] [] none [] := by
  obtain ⟨-, endpoint, now, hl⟩ := loop_of_starts h
  refine ⟨inSession_of_starts h, rfl, ?_, ⟨_, Reception.gathers_new _⟩, fun l hl' => ?_, ?_,
    none, false, onCourse_of_starts h, fun hn => absurd rfl hn⟩
  · rw [tasks_of_some hl]
    exact @Intake.apart [] nextRound (List.forall_mem_nil _) (.inr (.inr (.inl rfl)))
  · cases hl.symm.trans hl'
    exact .before rfl rfl rfl rfl
  · rw [inHand_of_not_receiving (by rw [isReceiving_of_some hl]; rfl)]
    rfl

namespace TakesIn

/-- A loop that reads next has met with no failure. -/
theorem failure_eq_none (h : c.TakesIn registry config listeners answers items failure trace)
    (ht : c.tasks = .receive :: .keepalive :: nextRound) : failure = none := by
  obtain ⟨verdict, asked, hc, hdue⟩ := h.course
  have hagenda := hc.agenda
  rw [ht] at hagenda hdue
  have hv : verdict = none := by
    cases hagenda with
    | round hr => rcases hr with hr | hr <;> cases hr
    | receive _ _ he => exact he.verdict_eq
  cases failure with
  | none => rfl
  | some e =>
    rcases hdue nofun with hn | ⟨-, e, hm⟩
    · exact absurd hv hn
    · simp [nextRound] at hm

/-- A move beside the loop leaves what has been read and what is still to be brought about. -/
theorem beside (h : c.TakesIn registry config listeners answers items failure trace)
    (hm : c.Beside m) (hd : (c.move m).connection.desired ≠ .initial) :
    (c.move m).connection.TakesIn registry config listeners answers items failure trace := by
  obtain ⟨htasks, hstream⟩ := tasks_of_loop_eq hm.loop_eq
  have hsession := h.inSession.stride (move_stride h.inSession.begun hd)
  have hreceiving : (c.move m).connection.isReceiving = c.isReceiving := by
    rcases hm.loop_eq with hloop | ⟨hi, hloop⟩
    · rw [isReceiving, isReceiving, hloop]
    · have hnil := isIdle_iff.1 hi
      rw [isReceiving, hloop, isReceiving]
      cases hl : c.loop with
      | none => rfl
      | some l =>
        rw [tasks_of_some hl] at hnil
        simp [Loop.isReceiving, hnil]
  refine ⟨hsession, ?_, ?_, h.gathers, fun l hl => ?_, ?_, ?_⟩
  · rw [hm.listeners_eq, h.listeners_eq]
  · rw [htasks]
    exact h.intake
  · have hl' : c.loop = some l := by
      rcases hm.loop_eq with hloop | ⟨-, hloop⟩
      · rw [← hloop, hl]
      · cases hloop.symm.trans hl
    refine (h.reception l hl').of_shared ?_ ?_ <;> rw [hm.lifecycle_eq] <;> split
    · exact Lifecycle.current_tryRequest _ _
    · rfl
    · exact Lifecycle.stage_le_tryRequest _ nofun
    · exact Nat.le_refl _
  · rw [inHand, hreceiving, htasks]
    exact h.balance
  · obtain ⟨verdict, asked, hc, hdue⟩ := h.course
    refine ⟨verdict, _, hc.beside hm hd, ?_⟩
    rw [hreceiving, htasks]
    exact hdue

/-- A step that does not read leaves what has been read, if it brings about what it takes from what
was in hand. -/
theorem unread (h : c.TakesIn registry config listeners answers items failure trace)
    (hl : c.loop = some l) (hh : c.halts (.work calls) = false)
    (hd : (c.move (.work calls)).connection.desired ≠ .initial)
    (hr : l.isReading = false) (hi : Intake (l.step calls c.shared).loop.tasks)
    (hb : c.receipts (.work calls) ++
        (c.move (.work calls)).connection.inHand registry config.streamConfig listeners =
      c.inHand registry config.streamConfig listeners)
    (hdue : ∀ e, c.isReceiving = true → .report (.ofReceive e) ∈ l.tasks →
      (l.step calls c.shared).raised = some (.error (.ofReceive e)) ∨
        (l.step calls c.shared).loop.isReceiving = true ∧
          .report (.ofReceive e) ∈ (l.step calls c.shared).loop.tasks) :
    (c.move (.work calls)).connection.TakesIn registry config listeners
      (answers ++ c.answers (.work calls)) items failure
      (trace ++ c.receipts (.work calls)) := by
  have hm := move_work calls hl hh
  have hanswers : c.answers (.work calls) = [] := by
    rw [Connection.answers, hl]
    exact Loop.answers_of_not_reading hr
  obtain ⟨verdict, asked, hc, hold⟩ := h.course
  have hcourse := (hc.work hl hh hd).1
  have hsession := h.inSession.stride (move_stride h.inSession.begun hd)
  rw [hanswers, List.append_nil]
  refine ⟨hsession, ?_, ?_, h.gathers, fun l' hl' => ?_, ?_, _, _, hcourse, fun hf => ?_⟩
  · rw [hm]
    exact (congrArg Listeners.registered (l.step_turn calls c.shared).listeners_eq).trans
      h.listeners_eq
  · rw [hm]
    exact hi
  · rw [hm] at hl' ⊢
    cases hl'
    exact (h.reception l hl).step (h.inSession.underway l hl) calls hr
  · rw [List.append_assoc, hb, h.balance]
  · rcases hold hf with hv | ⟨hreceiving, e, hmem⟩
    · refine .inl fun hn => hv (Option.or_eq_none_iff.1 hn).1
    · rw [tasks_of_some hl] at hmem
      rcases hdue e hreceiving hmem with hraised | ⟨hreceiving', hmem'⟩
      · -- The failure is reported by this step.
        refine .inl fun hn => ?_
        have hnone := (Option.or_eq_none_iff.1 hn).2
        have hfatal : (c.move (.work calls)).fatal? = some (.ofReceive e) := by
          rw [Outcome.fatal?, hm, hraised]
          rfl
        rw [hfatal] at hnone
        cases hnone
      · refine .inr ⟨?_, e, ?_⟩ <;> rw [hm]
        · exact hreceiving'
        · exact hmem'

/-- A step that has nothing to do with reading, and leads to nothing that has been read, leaves
what has been read. -/
theorem idle (h : c.TakesIn registry config listeners answers items failure trace)
    (hl : c.loop = some l) (hh : c.halts (.work calls) = false)
    (hd : (c.move (.work calls)).connection.desired ≠ .initial)
    (hr : l.isReading = false) (hi : Intake (l.step calls c.shared).loop.tasks)
    (hn : l.isReceiving = false)
    (he : (l.step calls c.shared).loop.isReceiving = false ∨
      (l.step calls c.shared).loop.tasks = .receive :: .keepalive :: nextRound) :
    (c.move (.work calls)).connection.TakesIn registry config listeners
      (answers ++ c.answers (.work calls)) items failure
      (trace ++ c.receipts (.work calls)) := by
  have hreceiving : c.isReceiving = false := (isReceiving_of_some hl).trans hn
  refine h.unread hl hh hd hr hi ?_ fun e hreceiving' => ?_
  · rw [receipts, hreceiving, inHand_of_not_receiving hreceiving, if_neg Bool.false_ne_true,
      List.nil_append, inHand, move_work calls hl hh]
    rcases he with he | he
    · rw [isReceiving_of_some rfl, he]
      rfl
    · rw [tasks_of_some rfl, he, ite_eq_right_iff]
      exact fun _ => rfl
  · cases hreceiving.symm.trans hreceiving'

/-- A step of a loop that does not read. -/
theorem work_apart (h : c.TakesIn registry config listeners answers items failure trace)
    (hl : c.loop = some l) (hh : c.halts (.work calls) = false)
    (hd : (c.move (.work calls)).connection.desired ≠ .initial)
    (ht : l.tasks = plan ++ tail) (hp : ∀ t ∈ plan, t.isApart = true)
    (htail : tail = [] ∨ tail = [.act] ∨ tail = nextRound ∨
      ∃ deadline, tail = .write .exchange deadline :: nextRound) :
    (c.move (.work calls)).connection.TakesIn registry config listeners
      (answers ++ c.answers (.work calls)) items failure
      (trace ++ c.receipts (.work calls)) := by
  have hn : l.isReceiving = false := isReceiving_of_apart ht hp (isKeepalive_of_tail htail)
  -- A step that leads to no reading either.
  have stays (plan' tail' : List Task) (hr : l.isReading = false)
      (ht' : (l.step calls c.shared).loop.tasks = plan' ++ tail')
      (hp' : ∀ t ∈ plan', t.isApart = true) (htail' : tail' = [] ∨ tail' = [.act] ∨
        tail' = nextRound ∨ ∃ deadline, tail' = .write .exchange deadline :: nextRound) :
      (c.move (.work calls)).connection.TakesIn registry config listeners
        (answers ++ c.answers (.work calls)) items failure
        (trace ++ c.receipts (.work calls)) :=
    h.idle hl hh hd hr (ht' ▸ .apart hp' htail') hn
      (.inl (isReceiving_of_apart ht' hp' (isKeepalive_of_tail htail')))
  cases plan with
  | cons task plan =>
    obtain ⟨htask, hplan⟩ := List.forall_mem_cons.1 hp
    obtain ⟨plan', ht', hp'⟩ := Loop.step_apart calls c.shared ht htask
    refine stays _ _ (Loop.isReading_of_tasks ht ?_) (ht'.trans (List.append_assoc _ _ _).symm)
      (List.forall_mem_append.2 ⟨hp', hplan⟩) htail
    cases task <;> first | rfl | cases htask
  | nil =>
    rw [List.nil_append] at ht
    rcases htail with rfl | rfl | rfl | ⟨deadline, rfl⟩
    · have hstep : l.step calls c.shared = { shared := c.shared, loop := l } :=
        Loop.step_of_hasEnded (List.isEmpty_iff.2 ht)
      have hr : l.isReading = false := by simp only [Loop.isReading, ht]
      exact stays [] [] hr (by rw [hstep]; exact ht) (List.forall_mem_nil _) (.inl rfl)
    · obtain ⟨plan', tail', ht', hp', htail'⟩ := Loop.step_act calls c.shared ht
      exact stays _ _ (Loop.isReading_of_tasks ht rfl) ht' hp' (htail'.imp_right .inr)
    · have hr := Loop.isReading_of_tasks ht rfl
      have hstep := Loop.step_announce (s := c.shared) calls ht
      split at hstep
      · exact stays [] [.act] hr (by rw [hstep]; rfl) (List.forall_mem_nil _) (.inr (.inl rfl))
      · exact stays [.notify (.state _) _] [.act] hr (by rw [hstep]; rfl)
          (by simp [Task.isApart]) (.inr (.inl rfl))
    · have hr := Loop.isReading_of_tasks ht rfl
      rcases Loop.step_write calls c.shared ht with ht' | ⟨e, ht'⟩
      · exact h.idle hl hh hd hr (ht' ▸ .reading) hn (.inr ht')
      · exact stays _ _ hr ht' (isApart_failing _ _) (.inr (.inr (.inl rfl)))

/-- A step of a loop that deals with what it has read. -/
theorem work_handing (h : c.TakesIn registry config listeners answers items failure trace)
    (hl : c.loop = some l) (hh : c.halts (.work calls) = false)
    (hd : (c.move (.work calls)).connection.desired ≠ .initial)
    (ht : l.tasks = plan ++ .keepalive :: nextRound) (hp : ∀ t ∈ plan, t.relays = true) :
    (c.move (.work calls)).connection.TakesIn registry config listeners
      (answers ++ c.answers (.work calls)) items failure
      (trace ++ c.receipts (.work calls)) := by
  cases plan with
  | nil =>
    obtain ⟨plan', ht', hp'⟩ := Loop.step_keepalive calls c.shared ht
    refine h.idle hl hh hd (Loop.isReading_of_tasks ht rfl) ?_ (isReceiving_of_handing ht)
      (.inl (isReceiving_of_apart ht' hp' (isKeepalive_of_tail (.inr (.inr (.inl rfl))))))
    rw [ht']
    exact .apart hp' (.inr (.inr (.inl rfl)))
  | cons task plan =>
    obtain ⟨htask, hplan⟩ := List.forall_mem_cons.1 hp
    obtain ⟨plan', ht', hp', heffects, -⟩ := Loop.step_relay calls
      config.streamConfig ht htask h.listeners_eq
      (h.inSession.underway l hl).registry_eq
    have hm := move_work calls hl hh
    have hreceiving : c.isReceiving = true :=
      (isReceiving_of_some hl).trans (isReceiving_of_handing ht)
    have ht'' : (l.step calls c.shared).loop.tasks =
        (plan' ++ plan) ++ .keepalive :: nextRound := by
      rw [ht', List.append_assoc]
      rfl
    have hr : l.isReading = false := by
      refine Loop.isReading_of_tasks ht ?_
      cases task <;> first | rfl | cases htask
    refine h.unread hl hh hd hr ?_ ?_ fun e _ hmem => ?_
    · rw [ht'']
      exact .handing (List.forall_mem_append.2 ⟨hp', hplan⟩)
    · rw [inHand_of_handing hl ht, hm, inHand_of_handing rfl ht'', effectsOf_append,
        effectsOf_cons, ← heffects, receipts, if_pos hreceiving, Connection.effects, hl]
      exact (List.append_assoc _ _ _).symm
    · rw [ht] at hmem
      rcases List.mem_cons.1 hmem with rfl | hmem
      · refine .inl ?_
        simp only [Loop.step, ht]
        rfl
      · refine .inr ⟨?_, by rw [ht']; exact List.mem_append_right _ hmem⟩
        have hne : plan ≠ [] := by
          rintro rfl
          simp [nextRound] at hmem
        rw [isReceiving_of_handing ht'']
        simp [hne]

/-- A step that reads, or would if there were a stream. -/
theorem work_reading (h : c.TakesIn registry config listeners answers items failure trace)
    (hl : c.loop = some l) (hh : c.halts (.work calls) = false)
    (hd : (c.move (.work calls)).connection.desired ≠ .initial)
    (ht : l.tasks = .receive :: .keepalive :: nextRound) :
    ∃ items failure, (c.move (.work calls)).connection.TakesIn registry config listeners
      (answers ++ c.answers (.work calls)) items failure
      (trace ++ c.receipts (.work calls)) := by
  obtain rfl := h.failure_eq_none ((tasks_of_some hl).trans ht)
  have hm := move_work calls hl hh
  have hu := h.inSession.underway l hl
  have hreceiving : c.isReceiving = true := by
    rw [isReceiving_of_some hl, Loop.isReceiving, ht]
    rfl
  have hnone : c.inHand registry config.streamConfig listeners = [] := by
    rw [inHand, hreceiving, tasks_of_some hl, ht]
    rfl
  have hreceipts : c.receipts (.work calls) = [] := by
    rw [receipts, if_pos hreceiving, Connection.effects, hl]
    exact Loop.effects_of_receive ht
  cases hreader : l.reader with
  | none =>
    have hstep : l.step calls c.shared =
        { shared := c.shared, loop := { l with tasks := .keepalive :: nextRound } } := by
      simp only [Loop.step, ht, Loop.receive, hreader]
    have hr : l.isReading = false := by simp only [Loop.isReading, ht, hreader]
    refine ⟨items, none, h.unread hl hh hd hr ?_ ?_ fun e _ hmem => ?_⟩
    · rw [hstep]
      exact @Intake.handing [] (List.forall_mem_nil _)
    · have ht' : (l.step calls c.shared).loop.tasks = [] ++ .keepalive :: nextRound := by
        rw [hstep]
        rfl
      rw [hnone, hreceipts, hm, inHand_of_handing rfl ht']
      rfl
    · rw [ht] at hmem
      simp [nextRound] at hmem
  | some d =>
    obtain ⟨more, failure, ht', hreception⟩ :=
      (h.reception l hl).step_receive hu calls ht hreader
    have hanswers : c.answers (.work calls) = l.answers calls := by
      rw [Connection.answers, hl]
      rfl
    obtain ⟨verdict, asked, hc, -⟩ := h.course
    have hplan : (l.step calls c.shared).loop.tasks = (.dispatch more ::
        (failure.elim [] fun e => failing (.ofReceive e) (stateAfter e))) ++
          .keepalive :: nextRound := ht'
    have hsession := h.inSession.stride (move_stride h.inSession.begun hd)
    refine ⟨items ++ more, failure, hsession, ?_, ?_, ?_, fun l' hl' => ?_, ?_, _, _,
      (hc.work hl hh hd).1, fun hf => .inr ?_⟩
    · rw [hm]
      exact (congrArg Listeners.registered (l.step_turn calls c.shared).listeners_eq).trans
        h.listeners_eq
    · rw [hm]
      change Intake (l.step calls c.shared).loop.tasks
      rw [hplan]
      refine .handing (List.forall_mem_cons.2 ⟨rfl, ?_⟩)
      cases failure <;> simp [failing, Task.relays]
    · rw [hanswers]
      exact hreception.gathers
    · rw [hm] at hl' ⊢
      cases hl'
      rw [hanswers]
      exact hreception
    · have hbalance := h.balance
      have hfailure : effectsOf registry config.streamConfig listeners
          (failure.elim [] fun e => failing (.ofReceive e) (stateAfter e)) =
            failure.elim [] (FrameError.effects listeners) := by
        cases failure with
        | none => rfl
        | some e => exact effectsOf_failing _ _
      rw [hnone, List.append_nil] at hbalance
      rw [hreceipts, hm, inHand_of_handing rfl hplan, hbalance, List.append_nil, effectsOf_cons,
        hfailure, List.flatMap_append, Option.elim_none, List.append_nil]
      exact (List.append_assoc _ _ _).symm
    · obtain ⟨e, rfl⟩ := Option.ne_none_iff_exists'.1 hf
      rw [hm]
      refine ⟨?_, e, ?_⟩
      · exact (isReceiving_of_some rfl).trans (isReceiving_of_handing hplan)
      · change _ ∈ (l.step calls c.shared).loop.tasks
        rw [hplan]
        simp [failing]

/-- Whatever is done to the connection, what it brings about is what the reads bring. -/
theorem next (h : c.TakesIn registry config listeners answers items failure trace)
    (hn : c.next m = some c') :
    ∃ items failure, c'.TakesIn registry config listeners (answers ++ c.answers m) items failure
      (trace ++ c.receipts m) := by
  have hmove := beside_or_step h.inSession.begun hn
  obtain ⟨-, hd, rfl⟩ := next_eq_some hn
  rcases hmove with ⟨hw, hm⟩ | ⟨calls, l, rfl, hl, hh⟩
  · have hanswers : c.answers m = [] := by
      cases m with
      | work calls => rw [Connection.answers, hw calls rfl, Option.elim_none]
      | _ => rfl
    have hreceipts : c.receipts m = [] := by
      rw [receipts, effects_of_no_step hw, ite_self]
    rw [hanswers, hreceipts, List.append_nil, List.append_nil]
    exact ⟨items, failure, h.beside hm hd⟩
  · have hintake := h.intake
    rw [tasks_of_some hl] at hintake
    generalize ht : l.tasks = tasks at hintake
    cases hintake with
    | apart hp htail => exact ⟨items, failure, h.work_apart hl hh hd ht hp htail⟩
    | handing hp => exact ⟨items, failure, h.work_handing hl hh hd ht hp⟩
    | reading => exact h.work_reading hl hh hd ht

/-- What a session brings about is what its reads bring. -/
theorem session {moves : List Move}
    (h : c.TakesIn registry config listeners answers items failure trace)
    (hs : c.session moves = some c') :
    ∃ items failure, c'.TakesIn registry config listeners
      (answers ++ c.along Connection.answers moves) items failure
      (trace ++ c.along receipts moves) := by
  induction moves generalizing c answers items failure trace with
  | nil =>
    cases hs
    rw [along, along, List.append_nil, List.append_nil]
    exact ⟨items, failure, h⟩
  | cons m moves ih =>
    obtain ⟨c₁, hn, hs⟩ := Option.bind_eq_some_iff.1 hs
    obtain ⟨items₁, failure₁, h₁⟩ := h.next hn
    obtain ⟨-, -, rfl⟩ := next_eq_some hn
    obtain ⟨items', failure', h'⟩ := ih h₁ hs
    rw [List.append_assoc, List.append_assoc] at h'
    exact ⟨items', failure', h'⟩

/-! ### The end of it -/

/-- A loop that deals with what it has read comes to the end of that. -/
theorem settles_of_handing (h : c.TakesIn registry config listeners answers items failure trace)
    (hl : c.loop = some l) (ht : l.tasks = plan ++ .keepalive :: nextRound)
    (hp : ∀ t ∈ plan, t.relays = true) (calls : Nat → SocketCalls) :
    ∃ n c', c.session ((List.range n).map fun i => .work (calls i)) = some c' ∧
      c'.isReceiving = false := by
  obtain ⟨n, c', l', hs, hl', ht'⟩ :=
    h.inSession.settles_relays (p := fun _ => true) (fun _ _ _ _ _ => rfl) hl ht hp calls
  exact ⟨n, c', session_of_sessionWhile hs,
    (isReceiving_of_some hl').trans (@isReceiving_of_handing _ [] ht')⟩

/-- A loop that reads comes to the end of what it has read. -/
theorem settles (h : c.TakesIn registry config listeners answers items failure trace)
    (calls : Nat → SocketCalls) :
    ∃ n c', c.session ((List.range n).map fun i => .work (calls i)) = some c' ∧
      c'.isReceiving = false := by
  cases hc : c.isReceiving with
  | false => exact ⟨0, c, rfl, hc⟩
  | true =>
    obtain ⟨l, hl, hr⟩ := (Option.any_eq_true _ _).1 hc
    have hintake := h.intake
    rw [tasks_of_some hl] at hintake
    rcases hintake.of_isReceiving hr with ht | ⟨task, plan, ht, hp⟩
    · obtain ⟨plan, ht', hp⟩ := Loop.step_receive (calls 0) c.shared ht
      have hh := halts_of_not_isTimed (calls 0) hl ht rfl
      have hn := h.inSession.next_work hl hh
      obtain ⟨items', failure', h'⟩ := h.work_reading hl hh (next_eq_some hn).2.1 ht
      obtain ⟨n, c', hs, hr'⟩ := h'.settles_of_handing (by rw [move_work _ hl hh]; rfl) ht' hp
        (fun i => calls (i + 1))
      refine ⟨n + 1, c', ?_, hr'⟩
      rw [List.range_succ_eq_map, List.map_cons, List.map_map, Connection.session, hn,
        Option.bind_some]
      exact hs
    · exact h.settles_of_handing hl ht hp calls

/-- While the loop reads or deals with what it has read, it changes the lifecycle by what it asks
for, and callers by asking to close. -/
theorem lifecycle_next (h : c.TakesIn registry config listeners answers items failure trace)
    (hn : c.next m = some c') (hr : c.isReceiving = true) :
    c'.shared.lifecycle = ((c.effects m).filterMap Effect.requested?).foldl Lifecycle.tryRequest
      (if m.asks then c.shared.lifecycle.tryRequest .closing else c.shared.lifecycle) := by
  have hmove := beside_or_step h.inSession.begun hn
  obtain ⟨-, -, rfl⟩ := next_eq_some hn
  rcases hmove with ⟨hw, hm⟩ | ⟨calls, l, rfl, hl, hh⟩
  · rw [hm.lifecycle_eq, effects_of_no_step hw]
    rfl
  · have hintake := h.intake
    rw [tasks_of_some hl] at hintake
    rw [move_work calls hl hh, Connection.effects, hl]
    rcases hintake.of_isReceiving ((isReceiving_of_some hl).symm.trans hr) with
      ht | ⟨task, plan, ht, hp⟩
    · exact l.lifecycle_step calls c.shared ht fun hn => by cases hn
    · refine l.lifecycle_step calls c.shared ht ?_
      rintro rfl
      cases hp _ (.head _)

/-- Otherwise no message is queued or announced. -/
theorem isOfMessage_eq (h : c.TakesIn registry config listeners answers items failure trace)
    (hr : c.isReceiving = false) : ∀ effect ∈ c.effects m, effect.isOfMessage = false := by
  intro effect he
  cases m with
  | work calls =>
    have hintake := h.intake
    cases hl : c.loop with
    | none =>
      rw [Connection.effects, hl] at he
      cases he
    | some l =>
      rw [tasks_of_some hl] at hintake
      rw [Connection.effects, hl] at he
      exact hintake.isOfMessage_eq ((isReceiving_of_some hl).symm.trans hr) effect he
  | _ => cases he

end TakesIn

end

end Connection

/-- A frame that there is no codec for, or that its codec refuses, is an error that is not fatal. -/
theorem Registry.error_of_decode {r : Registry} {f : Frame} {e : RegistryError}
    (h : r.decode f = .error e) :
    (ConnectionError.ofRegistry e).fatal = false ∧
      (r.find? f.typeId = none ∧ (ConnectionError.ofRegistry e).kind = .unknownMessageType ∨
        ∃ codec cause, r.find? f.typeId = some codec ∧ codec.decode f.payload = .error cause ∧
          (ConnectionError.ofRegistry e).kind = .parseFailed) := by
  refine ⟨rfl, ?_⟩
  unfold decode at h
  split at h
  · rename_i hf
    cases h
    exact .inl ⟨hf, rfl⟩
  · rename_i codec hf
    split at h
    · rename_i cause hd
      cases h
      exact .inr ⟨codec, cause, hf, hd, rfl⟩
    · cases h

/-- What a connection brings about because of what it reads is, in their order, what the items
bring about that the bytes are decoded to, and then what the failure brings about that ended them,
if one did: whatever the stream answers, however its bytes are split over reads and over rounds,
and whatever is done to the connection meanwhile. For a frame that is decoded that is a message in
the queue, and then one notice of it to every listener; for any other data frame one error that is
not fatal, and for a keepalive nothing. What a stream has for a move is brought by a read, or left.
Only what the loop has in hand while it deals with a read is still to come; the loop always comes to
the end of that, and has nothing in hand then. Messages are queued and announced at no other time.
The lifecycle is changed meanwhile by what is asked for, by the loop or by a caller who closes the
connection, and the loop asks only because of the failure. -/
theorem received_in_order {c₀ c c' : Connection} (h : c₀.Starts c) {moves : List Move}
    (hs : c.session moves = some c') :
    let listeners := c.shared.listeners.registered
    let answers := c.along Connection.answers moves
    let decoded := decodeAll c.config.streamConfig (brought answers)
    c.along Connection.receipts moves ++
        c'.inHand c.registry c.config.streamConfig listeners =
      decoded.items.flatMap (Item.effects c.registry listeners) ++
        (decoded.error.or (readFailure? answers)).elim [] (FrameError.effects listeners) ∧
    (c'.isReceiving = false → c'.inHand c.registry c.config.streamConfig listeners = []) ∧
    (∀ calls : Nat → SocketCalls, ∃ n c'',
      c'.session ((List.range n).map fun i => .work (calls i)) = some c'' ∧
        c''.isReceiving = false) ∧
    (∀ m c'', c'.next m = some c'' → m.offered = brought (c'.answers m) ++ c'.leaves m ∧
      c'.takes m ++ c''.shared.inbound.messages =
        c'.shared.inbound.messages ++ (c'.effects m).filterMap Effect.pushed? ∧
      (c'.isReceiving = false → ∀ effect ∈ c'.effects m, effect.isOfMessage = false) ∧
      (c'.isReceiving = true → c''.shared.lifecycle =
        ((c'.effects m).filterMap Effect.requested?).foldl Lifecycle.tryRequest
          (if m.asks then c'.shared.lifecycle.tryRequest .closing else c'.shared.lifecycle))) ∧
    ∀ f e, c.registry.decode f = .error e →
      (ConnectionError.ofRegistry e).fatal = false ∧
        (c.registry.find? f.typeId = none ∧
            (ConnectionError.ofRegistry e).kind = .unknownMessageType ∨
          ∃ codec cause, c.registry.find? f.typeId = some codec ∧
            codec.decode f.payload = .error cause ∧
            (ConnectionError.ofRegistry e).kind = .parseFailed) := by
  obtain ⟨items, failure, h'⟩ := (Connection.TakesIn.of_starts h).session hs
  rw [List.nil_append, List.nil_append] at h'
  refine ⟨?_, fun hr => Connection.inHand_of_not_receiving hr, h'.settles, fun m c'' hn =>
    ⟨c'.offered_eq_brought m, Connection.inbound_next h'.inSession.begun hn,
      fun hr => h'.isOfMessage_eq hr,
      fun hr => h'.lifecycle_next hn hr⟩, fun f e he => Registry.error_of_decode he⟩
  obtain ⟨d, hg⟩ := h'.gathers
  have hidle := Decoder.Holds.drain_idle
    (d := (Decoder.new c.config.streamConfig).push (brought (c.along Connection.answers moves)))
    rfl rfl
  have hitems := hidle.1.symm.trans hg.items_eq
  have herror := hg.failure_eq
  rw [hidle.2.1] at herror
  rw [h'.balance]
  rw [← hitems, ← herror]
  rfl

/-- A connection with a listener that has just begun to connect. -/
def overheard : Connection :=
  { caller with shared := { caller.shared with listeners := ⟨[⟨1, .everything⟩]⟩ } }

/-- The moves of a session that gets a message, a frame without a codec, cut in the middle, and a
keepalive, and finds that the peer has hung up in the next frame. -/
def mixed : List Move :=
  .replicate 12 (shortStep []) ++
    [shortStep [0x2B, 0xAD, 0, 1, 0, 0, 0, 1, 0, 0, 0, 1, 7, 0x2B, 0xAD, 0, 1, 0, 0]] ++
    .replicate 10 (shortStep []) ++ [shortStep [0, 0, 0, 0, 0, 9, 0, 0, 0, 0, 0x2B]] ++
    .replicate 12 (shortStep []) ++
    [.work { bind := .ok { ip := .v4 ⟨127, 0, 0, 1⟩, port := 4000 }, reads := [.eof] }] ++
    .replicate 5 (shortStep [])

/-- The listener hears of the message, of the frame and then of the end, which leads on. -/
theorem received_in_order_mixed :
    (∃ c₀ : Connection, c₀.Starts overheard) ∧
      ∃ c', overheard.session mixed = some c' ∧ c'.isReceiving = false ∧
        overheard.along Connection.receipts mixed =
          [Item.frame ⟨1, [7]⟩, .frame ⟨9, []⟩, .keepalive].flatMap
              (Item.effects notes [⟨1, .everything⟩]) ++
            FrameError.effects [⟨1, .everything⟩] .connectionClosed := by
  let c₀ : Connection :=
    { Connection.withRegistry notes {} with shared := { listeners := ⟨[⟨1, .everything⟩]⟩ } }
  have hc : c₀.Starts overheard := ⟨⟨"localhost", 4000⟩, 0, .inl rfl⟩
  have hrun : (overheard.session mixed).map (·.isReceiving) = some false := by decide +kernel
  have hread : (fun answers => (decodeAll overheard.config.streamConfig (brought answers),
      readFailure? answers)) (overheard.along Connection.answers mixed) =
      (⟨[.frame ⟨1, [7]⟩, .frame ⟨9, []⟩, .keepalive], none, [0x2B]⟩, some .connectionClosed) := by
    decide +kernel
  obtain ⟨hdecoded, hfailure⟩ := Prod.mk.inj hread
  obtain ⟨c', hs, hr⟩ := Option.map_eq_some_iff.1 hrun
  refine ⟨⟨c₀, hc⟩, c', hs, hr, ?_⟩
  obtain ⟨hall, hdone, -⟩ := received_in_order hc hs
  rw [hdone hr, List.append_nil, hdecoded, hfailure] at hall
  exact hall

end PeerMessaging
