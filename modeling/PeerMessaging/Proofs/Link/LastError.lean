import PeerMessaging.Proofs.Link.Verdict

/-!
# The last error of a connection

Every error that is reported is kept as the last one, fatal or not, until it is forgotten or the
connection is reset (`Connection.lastError_lasting`). After a fatal error the loop reports nothing
but messages that it finds cannot be sent, while it closes: messages that were in the queue then, or
have been put there since. They alone take the place of the fatal error (`fatal_error_stays_last`).
Why a message cannot be sent is its `Registry.refusal`.
-/

namespace PeerMessaging

/-- The error that an event tells of. -/
def Event.error? : Event → Option ConnectionError
  | error e => some e
  | _ => none

/-- That a message cannot be sent is not fatal. -/
theorem Registry.fatal_refusal {r : Registry} {config : FrameConfig} {m : Message}
    {e : ConnectionError} (h : r.refusal config m = some e) : e.fatal = false := by
  unfold refusal at h
  split at h
  · cases h
    rfl
  · obtain ⟨_, -, rfl⟩ := Option.map_eq_some_iff.1 h
    rfl

/-- The task reports nothing and holds no message. -/
def Task.isMute : Task → Bool
  | report _ | encode _ => false
  | _ => true

/-- All that the loop can still report is that a message which is known cannot be sent. -/
structure Backlog (r : Registry) (config : FrameConfig) (known : Message → Prop) (s : Shared)
    (tasks : List Task) : Prop where
  outbound : ∀ m ∈ s.outbound.messages, known m
  held : ∀ ms, Task.encode ms ∈ tasks → ∀ m ∈ ms, known m
  reports : ∀ e, Task.report e ∈ tasks → ∃ m, known m ∧ r.refusal config m = some e

section
variable {verdict : ConnectionState} {asked attached : Bool} {calls : SocketCalls} {s s' : Shared}
  {l : Loop} {st : Step} {task : Task} {plan tail : List Task} {r : Registry}
  {config : FrameConfig} {known : Message → Prop}

/-! ## The last error in a step -/

/-- A step keeps the error that it tells of as the last one. -/
theorem Loop.lastError_step (calls : SocketCalls) (s : Shared) (l : Loop) :
    (l.step calls s).shared.lastError =
      ((l.step calls s).raised.bind Event.error?).or s.lastError := by
  cases hr : (l.step calls s).raised.bind Event.error? with
  | some e =>
    obtain ⟨event, hraised, he⟩ := Option.bind_eq_some_iff.1 hr
    cases event with
    | error e' =>
      cases he
      obtain ⟨tail, ht⟩ := tasks_of_error hraised
      simp only [step, ht, raise, Option.some_or]
    | _ => cases he
  | none =>
    rw [Option.none_or]
    cases ht : l.tasks with
    | nil => rw [step_of_hasEnded (List.isEmpty_iff.2 ht)]
    | cons task tail =>
      cases task with
      | report e => simp [step, ht, raise, Event.error?] at hr
      | notify event listeners => cases listeners <;> simp only [step, ht]
      | _ =>
        have t := l.step_turn calls s
        generalize l.step calls s = st at t
        cases t with
        | tell _ ht' hn =>
          cases ht.symm.trans ht'
          cases hn
        | _ => rfl

/-! ## What can still be reported -/

namespace Backlog

/-- Mute tasks in place of a task leave what can still be reported, or make it less. -/
theorem of_plan (plan : List Task) (h : Backlog r config known s (task :: tail))
    (hs : ∀ m ∈ s'.outbound.messages, known m) (hp : ∀ t ∈ plan, t.isMute = true) :
    Backlog r config known s' (plan ++ tail) where
  outbound := hs
  held ms hm := by
    rcases List.mem_append.1 hm with hm | hm
    · cases hp _ hm
    · exact h.held ms (.tail _ hm)
  reports e he := by
    rcases List.mem_append.1 he with he | he
    · cases hp _ he
    · exact h.reports e (.tail _ he)

/-- So does a task that is done. -/
theorem of_done (h : Backlog r config known s (task :: tail))
    (hs : ∀ m ∈ s'.outbound.messages, known m) : Backlog r config known s' tail :=
  h.of_plan [] hs (List.forall_mem_nil _)

/-- When there is nothing but mute tasks, only what is in the queue can still be reported. -/
theorem of_mute (plan : List Task) (hs : ∀ m ∈ s.outbound.messages, known m)
    (hp : ∀ t ∈ plan, t.isMute = true) : Backlog r config known s plan where
  outbound := hs
  held _ hm := by cases hp _ hm
  reports _ he := by cases hp _ he

/-- Messages that are known may be held. -/
theorem encode {ms : List Message} (h : Backlog r config known s (task :: tail))
    (hs : ∀ m ∈ s'.outbound.messages, known m) (hms : ∀ m ∈ ms, known m) :
    Backlog r config known s' (.encode ms :: tail) where
  outbound := hs
  held ms' hm := by
    rcases List.mem_cons.1 hm with heq | hm
    · cases heq
      exact hms
    · exact h.held ms' (.tail _ hm)
  reports e he := by
    rcases List.mem_cons.1 he with heq | he
    · cases heq
    · exact h.reports e (.tail _ he)

/-- The refusal of a message that is known may be reported. -/
theorem report {m : Message} {e : ConnectionError} (h : Backlog r config known s plan)
    (hm : known m) (hr : r.refusal config m = some e) :
    Backlog r config known s (.report e :: plan) where
  outbound := h.outbound
  held ms hms := by
    rcases List.mem_cons.1 hms with heq | hms
    · cases heq
    · exact h.held ms hms
  reports e' he := by
    rcases List.mem_cons.1 he with heq | he
    · cases heq
      exact ⟨m, hm, hr⟩
    · exact h.reports e' he

end Backlog

namespace Agenda

/-- A message that is queued for writing or dropped leaves the others to be dealt with, and is
reported with its refusal if it has one. -/
theorem backlog_encode {m : Message} {ms : List Message} (ht : l.tasks = .encode (m :: ms) :: tail)
    (hb : Backlog l.registry config known s (.encode (m :: ms) :: tail))
    (hw : ∀ w, l.writer = some w → w.config = config) :
    Backlog l.registry config known (l.step calls s).shared (l.step calls s).loop.tasks := by
  have hknown : ∀ m' ∈ m :: ms, known m' := hb.held _ (.head _)
  have kept : Backlog l.registry config known s (.encode ms :: tail) :=
    hb.encode hb.outbound fun m' hm => hknown m' (.tail _ hm)
  obtain ⟨hshared, htasks⟩ := l.step_encode ht calls s
  rw [hshared]
  rcases htasks with h | ⟨w, e, hwriter, hr, h⟩ <;> rw [h]
  · exact kept
  · rw [hw w hwriter] at hr
    exact kept.report (hknown m (.head _)) hr

/-- What the current state asks for after a verdict is to shut down or to end. -/
theorem backlog_act (hp : Possible (some verdict) asked attached s.lifecycle.current)
    (hs : ∀ m ∈ s.outbound.messages, known m) (calls : SocketCalls) :
    Backlog r config known (l.act calls s).shared (l.act calls s).loop.tasks := by
  unfold Loop.act
  cases hc : s.lifecycle.current with
  | initial =>
    rw [hc] at hp
    cases hp
  | connecting | opening | listening | connected =>
    rw [hc] at hp
    cases hp.1
  | closing =>
    exact .of_mute ([.collect, .write .closing _, .release, .advance .closed] ++ nextRound) hs
      (by simp [nextRound, Task.isMute])
  | closed | error => exact .of_mute [] (List.forall_mem_nil _) (List.forall_mem_nil _)

/-- After a verdict a step leaves no more to report than messages that are known. -/
theorem backlog_step
    (h : Agenda (some verdict) asked l.reader.isSome s.lifecycle l.tasks)
    (hb : Backlog l.registry config known s l.tasks)
    (hw : ∀ w, l.writer = some w → w.config = config) (calls : SocketCalls) :
    Backlog l.registry config known (l.step calls s).shared (l.step calls s).loop.tasks := by
  generalize ht : l.tasks = tasks at h hb
  cases h with
  | ended =>
    rw [Loop.step_of_hasEnded (List.isEmpty_iff.2 ht), ht]
    exact hb
  | round hround hp =>
    rcases hround with rfl | rfl
    · simp only [Loop.step, ht, nextRound]
      split
      · exact hb.of_plan [.notify _ s.listeners.registered] hb.outbound
          (by simp [Task.isMute])
      · exact hb.of_done hb.outbound
    · simp only [Loop.step, ht, Loop.keepalive_of_ne hp.ne_connected]
      exact hb.of_done hb.outbound
  | act hp hd =>
    simp only [Loop.step, ht]
    exact backlog_act hp hb.outbound calls
  | write _ _ he | receive _ _ he | fail _ _ he => cases he.verdict_eq
  | dispatch hv => cases hv
  | advance | release =>
    simp only [Loop.step, ht]
    exact hb.of_done hb.outbound
  | @mishap e =>
    simp only [Loop.step, ht]
    exact hb.of_plan [.notify (.error e) s.listeners.registered] hb.outbound
      (by simp [Task.isMute])
  | @aside event listeners =>
    cases listeners with
    | nil =>
      simp only [Loop.step, ht]
      exact hb.of_done hb.outbound
    | cons listener listeners =>
      simp only [Loop.step, ht]
      exact hb.of_plan [.notify event listeners] hb.outbound (by simp [Task.isMute])
  | @collect tail =>
    simp only [Loop.step, ht]
    split
    · exact hb.encode (List.forall_mem_nil _) hb.outbound
    · exact hb.of_done hb.outbound
  | @encode messages tail =>
    cases messages with
    | nil =>
      simp only [Loop.step, ht]
      exact hb.of_done hb.outbound
    | cons m ms => exact backlog_encode ht hb hw
  | flush =>
    simp only [Loop.step, ht, Loop.write]
    split <;> exact hb.of_done hb.outbound

end Agenda

/-! ## The settings of the stream -/

/-- What is written goes out with the settings of the connection. -/
def Loop.IsConfigured (l : Loop) : Prop :=
  ∀ w, l.writer = some w → w.config = l.config.streamConfig

/-- A step leaves the settings of the stream, or takes over one with those of the connection. -/
theorem Turn.isConfigured (t : Turn calls s l st) (h : l.IsConfigured) : st.loop.IsConfigured := by
  intro w hw
  cases t with
  | attach =>
    cases hw
    rfl
  | encode _ _ hw' hc | flush _ _ _ _ _ _ _ hw' hc =>
    cases hw
    rw [hc]
    exact h _ hw'
  | finish | release => cases hw
  | _ => exact h w hw

end

namespace Connection

/-- The errors reported in a history. -/
def errors (history : List Outcome) : List ConnectionError :=
  (events history).filterMap Event.error?

/-- The connection has the message in its queue, or is given it in the moves. -/
def MaySend (c : Connection) (moves : List Move) (m : Message) : Prop :=
  m ∈ c.shared.outbound.messages ∨ .send m ∈ moves

/-- What comes of moves, one after another, as long as the connection is not reset by one of them.
-/
def lasting (c : Connection) : List Move → Option Connection
  | [] => some c
  | m :: moves =>
    if (c.move m).connection.desired = .initial then none
    else (c.move m).connection.lasting moves

/-- A connection with these codecs and settings has not been reset since it was started: its session
goes on, with a verdict if it has been decided, or its loop has been ended at once. -/
structure Lasts (registry : Registry) (config : ConnectionConfig) (decided : Bool)
    (c : Connection) : Prop where
  inSession : c.InSession registry config
  isConfigured : ∀ l, c.loop = some l → l.IsConfigured
  onCourse : (∃ verdict asked, (decided = true → verdict ≠ none) ∧ c.OnCourse verdict asked) ∨
    c.tasks = []

/-- There has been a fatal error, and the messages that may still have to be reported are known. -/
structure Waning (registry : Registry) (config : ConnectionConfig) (known : Message → Prop)
    (c : Connection) : Prop where
  lasts : c.Lasts registry config true
  backlog : Backlog registry config.streamConfig known c.shared c.tasks

section
variable {c c' : Connection} {m : Move} {moves : List Move} {registry : Registry}
  {config : ConnectionConfig} {decided : Bool} {known : Message → Prop} {e : ConnectionError}

/-- The errors of a history are those of its moves, one after another. -/
theorem errors_cons (o : Outcome) (history : List Outcome) :
    errors (o :: history) = (o.raised.bind Event.error?).toList ++ errors history :=
  filterMap_events_cons Event.error? o history

/-- A connection that is not reset by the moves is not reset by the first, nor by the others. -/
theorem lasting_cons (h : c.lasting (m :: moves) = some c') :
    (c.move m).connection.desired ≠ .initial ∧
      (c.move m).connection.lasting moves = some c' := by
  rw [lasting] at h
  split at h
  · cases h
  · exact ⟨‹_›, h⟩

/-- A move by which a connection is not reset is one of its session, or ends its loop at once. -/
theorem next_or_halts (hd : (c.move m).connection.desired ≠ .initial) :
    c.next m = some (c.move m).connection ∨ c.halts m = true := by
  cases hh : c.halts m with
  | true => exact .inr rfl
  | false =>
    refine .inl ?_
    rw [next, hh, if_neg]
    exact not_or.2 ⟨nofun, hd⟩

/-! ## The last error of a connection -/

/-- The error that is reported in a move is the last one, and any other stays so unless it is
forgotten. -/
theorem lastError_move (hb : 1 ≤ c.desired.stage)
    (hd : (c.move m).connection.desired ≠ .initial) (hm : m.clears = false) :
    (c.move m).connection.lastError = ((c.move m).raised.bind Event.error?).or c.lastError := by
  rcases next_or_halts hd with hn | hh
  · rcases beside_or_work hb hn with hbeside | ⟨calls, l, rfl, hl, hh⟩
    · rw [hbeside.raised_eq, lastError, hbeside.lastError_eq, hm]
      rfl
    · rw [move_work calls hl hh]
      exact l.lastError_step calls c.shared
  · rw [(move_of_halts hh).1]
    rfl

/-- The error that is reported last in a history is the last one, and if there is none the one from
before. -/
theorem lastError_lasting (hb : 1 ≤ c.desired.stage) (hs : c.lasting moves = some c')
    (hm : .clearError ∉ moves) :
    c'.lastError = (errors (c.play moves)).getLast?.or c.lastError := by
  induction moves generalizing c with
  | nil =>
    cases hs
    rfl
  | cons m moves ih =>
    obtain ⟨hd, hs⟩ := lasting_cons hs
    obtain ⟨hne, hmoves⟩ := not_or.1 (mt List.mem_cons.2 hm)
    have hclears : m.clears = false := by
      cases m with
      | clearError => exact absurd rfl hne
      | _ => rfl
    rw [ih (ConnectionState.one_le_stage hd) hs hmoves, lastError_move hb hd hclears, play,
      errors_cons, List.getLast?_append, ← Option.or_assoc]
    cases (c.move m).raised.bind Event.error? <;> rfl

/-- A fatal error is the last one when it has been reported. -/
theorem lastError_of_fatal (hb : 1 ≤ c.desired.stage)
    (hd : (c.move m).connection.desired ≠ .initial) (he : (c.move m).fatal? = some e) :
    (c.move m).connection.lastError = some e := by
  obtain ⟨event, hraised, hfatal⟩ := Option.bind_eq_some_iff.1 he
  have hclears : m.clears = false := by
    cases m with
    | clearError => cases hraised
    | _ => rfl
  rw [lastError_move hb hd hclears, hraised]
  cases event with
  | error e' =>
    rw [Event.fatal?] at hfatal
    split at hfatal <;> cases hfatal
    rfl
  | _ => cases hfatal

/-! ## As long as a connection is not reset -/

/-- A loop with nothing left to do reports nothing, and nothing is left to it after a move either.
-/
theorem tasks_move_of_nil (hb : 1 ≤ c.desired.stage)
    (hd : (c.move m).connection.desired ≠ .initial) (ht : c.tasks = []) :
    (c.move m).connection.tasks = [] ∧ (c.move m).raised = none := by
  rcases next_or_halts hd with hn | hh
  · rcases beside_or_work hb hn with hm | ⟨calls, l, rfl, hl, hh⟩
    · exact ⟨(tasks_of_loop_eq hm.loop_eq).1.trans ht, hm.raised_eq⟩
    · rw [tasks_of_some hl] at ht
      rw [move_work calls hl hh, Loop.step_of_hasEnded (List.isEmpty_iff.2 ht)]
      exact ⟨ht, rfl⟩
  · exact ⟨tasks_of_halts hh, congrArg Outcome.raised (move_of_halts hh).1⟩

namespace Lasts

/-- A connection that has just been started lasts. -/
theorem of_starts (h : c.Starts c') : c'.Lasts c'.registry c'.config false := by
  refine ⟨inSession_of_starts h, fun l hl => ?_, .inl ⟨none, false, nofun, onCourse_of_starts h⟩⟩
  obtain ⟨-, endpoint, now, hl'⟩ := loop_of_starts h
  cases hl.symm.trans hl'
  nofun

/-- It lasts as long as it is not reset. -/
theorem move (h : c.Lasts registry config decided)
    (hd : (c.move m).connection.desired ≠ .initial) :
    (c.move m).connection.Lasts registry config decided := by
  have hb := h.inSession.begun
  refine ⟨h.inSession.stride (move_stride hb hd), ?_, ?_⟩
  · intro l' hl'
    rcases next_or_halts hd with hn | hh
    · rcases beside_or_work hb hn with hm | ⟨calls, l, rfl, hl, hh⟩
      · rcases hm.loop_eq with heq | ⟨-, hnone⟩
        · exact h.isConfigured l' (heq ▸ hl')
        · rw [hnone] at hl'
          cases hl'
      · rw [move_work calls hl hh] at hl'
        cases hl'
        exact (l.step_turn calls c.shared).isConfigured (h.isConfigured l hl)
    · rw [(move_of_halts hh).1] at hl'
      obtain ⟨l, -, rfl⟩ := Option.map_eq_some_iff.1 hl'
      nofun
  · rcases h.onCourse with ⟨verdict, asked, hv, hcourse⟩ | ht
    · rcases next_or_halts hd with hn | hh
      · refine .inl ⟨_, _, fun hdecided => ?_, (hcourse.next hn).1⟩
        cases verdict with
        | none => exact absurd rfl (hv hdecided)
        | some v => nofun
      · exact .inr (tasks_of_halts hh)
    · exact .inr (tasks_move_of_nil hb hd ht).1

/-- So it does in a history. -/
theorem lasting (h : c.Lasts registry config decided) (hs : c.lasting moves = some c') :
    c'.Lasts registry config decided := by
  induction moves generalizing c with
  | nil =>
    cases hs
    exact h
  | cons m moves ih =>
    obtain ⟨hd, hs⟩ := lasting_cons hs
    exact ih (h.move hd) hs

/-- A fatal error is one of a session, which has had no verdict before. -/
theorem onCourse_of_fatal (h : c.Lasts registry config decided)
    (hd : (c.move m).connection.desired ≠ .initial) (he : (c.move m).fatal? = some e) :
    ∃ asked, c.OnCourse none asked := by
  rcases h.onCourse with ⟨verdict, asked, -, hcourse⟩ | ht
  · rcases next_or_halts hd with hn | hh
    · cases verdict with
      | none => exact ⟨asked, hcourse⟩
      | some v =>
        have hfatal := ((hcourse.next hn).2 (Option.some_ne_none v)).fatal_eq
        rw [he] at hfatal
        cases hfatal
    · rw [(move_of_halts hh).1] at he
      cases he
  · rw [Outcome.fatal?, (tasks_move_of_nil h.inSession.begun hd ht).2] at he
    cases he

end Lasts

/-! ## What can still be reported of a connection -/

namespace Waning

/-- The fatal error is told of and leads on; nothing but the queue is left to be reported then. -/
theorem of_fatal (h : c.Lasts registry config decided)
    (hd : (c.move m).connection.desired ≠ .initial) (he : (c.move m).fatal? = some e)
    (hk : ∀ msg ∈ (c.move m).connection.shared.outbound.messages, known msg) :
    (c.move m).connection.Waning registry config known := by
  obtain ⟨asked, hcourse⟩ := h.onCourse_of_fatal hd he
  have hn : c.next m = some (c.move m).connection := by
    rcases next_or_halts hd with hn | hh
    · exact hn
    · rw [(move_of_halts hh).1] at he
      cases he
  have hlasts := h.move hd
  refine ⟨⟨hlasts.inSession, hlasts.isConfigured, .inl ⟨_, _, ?_, (hcourse.next hn).1⟩⟩, ?_⟩
  · rw [he]
    nofun
  rcases beside_or_work hcourse.begun hn with hm | ⟨calls, l, rfl, hl, hh⟩
  · rw [Outcome.fatal?, hm.raised_eq] at he
    cases he
  · have hagenda := hcourse.agenda
    rw [hasStream, tasks_of_some hl, hl] at hagenda
    rw [move_work calls hl hh] at he hk ⊢
    obtain ⟨event, hraised, hfatal⟩ := Option.bind_eq_some_iff.1 he
    cases event with
    | error e' =>
      obtain ⟨tail, ht⟩ := Loop.tasks_of_error hraised
      rw [ht] at hagenda
      have hplan : ∀ t ∈ .notify (.error e') c.shared.listeners.registered :: tail,
          t.isMute = true := by
        cases hagenda with
        | round hround => rcases hround with hround | hround <;> cases hround
        | fail _ hround =>
          rcases hround with rfl | rfl <;> simp [nextRound, Task.isMute]
        | mishap hf =>
          rw [Event.fatal?, hf] at hfatal
          cases hfatal
      have hstep : (l.step calls c.shared).loop.tasks =
          .notify (.error e') c.shared.listeners.registered :: tail := by
        simp only [Loop.step, ht, Loop.raise]
        rfl
      rw [tasks, after, Option.elim, hstep]
      exact .of_mute _ hk hplan
    | _ => cases hfatal

/-- After a fatal error nothing is reported in a move but that a message which is known cannot be
sent. -/
theorem move (h : c.Waning registry config known) (hk : ∀ msg ∈ c.queues m, known msg)
    (hd : (c.move m).connection.desired ≠ .initial) :
    (c.move m).connection.Waning registry config known ∧
      ∀ e, (c.move m).raised = some (.error e) →
        ∃ msg, known msg ∧ registry.refusal config.streamConfig msg = some e := by
  have hb := h.lasts.inSession.begun
  have hlasts := h.lasts.move hd
  rcases next_or_halts hd with hn | hh
  case inr =>
    refine ⟨⟨hlasts, ?_⟩, fun e he => ?_⟩
    · rw [tasks_of_halts hh, (move_of_halts hh).1]
      exact .of_mute _ h.backlog.outbound nofun
    · rw [(move_of_halts hh).1] at he
      cases he
  rcases beside_or_work hb hn with hm | ⟨calls, l, rfl, hl, hh⟩
  · refine ⟨⟨hlasts, ?_⟩, fun e he => ?_⟩
    · rw [(tasks_of_loop_eq hm.loop_eq).1]
      refine ⟨?_, h.backlog.held, h.backlog.reports⟩
      rw [hm.outbound_eq]
      exact List.forall_mem_append.2 ⟨h.backlog.outbound, hk⟩
    · rw [hm.raised_eq] at he
      cases he
  · have hbacklog := h.backlog
    rw [tasks_of_some hl] at hbacklog
    have hunderway := h.lasts.inSession.underway l hl
    have hwriter := h.lasts.isConfigured l hl
    rw [Loop.IsConfigured, hunderway.config_eq] at hwriter
    refine ⟨⟨hlasts, ?_⟩, fun e he => ?_⟩
    · rw [move_work calls hl hh]
      rcases h.lasts.onCourse with ⟨verdict, asked, hv, hcourse⟩ | ht
      · obtain ⟨v, rfl⟩ := Option.ne_none_iff_exists'.1 (hv rfl)
        have hagenda := hcourse.agenda
        rw [hasStream, tasks_of_some hl, hl] at hagenda
        rw [← hunderway.registry_eq] at hbacklog ⊢
        exact Agenda.backlog_step hagenda hbacklog hwriter calls
      · rw [tasks_of_some hl] at ht
        rw [Loop.step_of_hasEnded (List.isEmpty_iff.2 ht)]
        exact hbacklog
    · rw [move_work calls hl hh] at he
      obtain ⟨tail, ht⟩ := Loop.tasks_of_error he
      exact hbacklog.reports e (by rw [ht]; exact .head _)

/-- Nor is anything else reported in a history. -/
theorem refused_of_lasting (h : c.Waning registry config known)
    (hk : ∀ msg, .send msg ∈ moves → known msg) (hs : c.lasting moves = some c') :
    ∀ e ∈ errors (c.play moves),
      ∃ msg, known msg ∧ registry.refusal config.streamConfig msg = some e := by
  induction moves generalizing c with
  | nil => exact fun e he => absurd he List.not_mem_nil
  | cons m moves ih =>
    obtain ⟨hd, hs⟩ := lasting_cons hs
    have hqueues : ∀ msg ∈ c.queues m, known msg := by
      cases m with
      | send m =>
        intro msg hmsg
        rw [queues] at hmsg
        split at hmsg
        · cases hmsg
        · cases List.mem_singleton.1 hmsg
          exact hk _ (.head _)
      | _ => exact fun msg hmsg => absurd hmsg List.not_mem_nil
    obtain ⟨hmove, hraised⟩ := h.move hqueues hd
    have hrest := ih hmove (fun msg hmsg => hk msg (.tail _ hmsg)) hs
    intro e he
    rw [play, errors_cons, List.mem_append, Option.mem_toList] at he
    rcases he with he | he
    · obtain ⟨event, hevent, he⟩ := Option.bind_eq_some_iff.1 he
      cases event with
      | error e' =>
        cases he
        exact hraised e hevent
      | _ => cases he
    · exact hrest e he

end Waning

end

end Connection

/-- After a fatal error the last error is the one reported last, until it is forgotten or the
connection is reset: the fatal error, unless it turns out that a message which was in the queue then
or has been put there since cannot be sent. Each error that is reported after it is the refusal of
such a message, and none of them is fatal. -/
theorem fatal_error_stays_last {c₀ c c₁ c₂ c₃ : Connection} (hc : c₀.Starts c)
    {before after : List Move} (hb : c.lasting before = some c₁) {m : Move}
    (hm : c₁.lasting [m] = some c₂) {e : ConnectionError} (he : (c₁.move m).fatal? = some e)
    (hs : c₂.lasting after = some c₃) (hclear : .clearError ∉ after) :
    c₃.lastError = some ((Connection.errors (c₂.play after)).getLastD e) ∧
      (∀ e' ∈ Connection.errors (c₂.play after), e'.fatal = false ∧
        ∃ msg, c₂.MaySend after msg ∧
          c.registry.refusal c.config.streamConfig msg = some e') ∧
      ((∀ msg, c₂.MaySend after msg →
          (c.registry.outgoing c.config.streamConfig msg).isSome = true) →
        c₃.lastError = some e) := by
  obtain ⟨hd, heq⟩ := Connection.lasting_cons hm
  cases heq
  have hlasts := (Connection.Lasts.of_starts hc).lasting hb
  have hlast : (c₁.move m).connection.lastError = some e :=
    Connection.lastError_of_fatal hlasts.inSession.begun hd he
  have hwaning : (c₁.move m).connection.Waning c.registry c.config
      ((c₁.move m).connection.MaySend after) := .of_fatal hlasts hd he fun _ => .inl
  have hlater := hwaning.refused_of_lasting (fun _ => .inr) hs
  have hstays : c₃.lastError =
      some ((Connection.errors ((c₁.move m).connection.play after)).getLastD e) := by
    rw [Connection.lastError_lasting hwaning.lasts.inSession.begun hs hclear, hlast,
      List.getLastD_eq_getLast?]
    cases (Connection.errors ((c₁.move m).connection.play after)).getLast? <;> rfl
  refine ⟨hstays, fun e' he' => ?_, fun hall => ?_⟩
  · obtain ⟨msg, hmsg, hr⟩ := hlater e' he'
    exact ⟨Registry.fatal_refusal hr, msg, hmsg, hr⟩
  · have hnone : Connection.errors ((c₁.move m).connection.play after) = [] := by
      refine List.eq_nil_iff_forall_not_mem.2 fun e' he' => ?_
      obtain ⟨msg, hmsg, hr⟩ := hlater e' he'
      rw [Registry.refusal_eq_none_iff.2 (hall msg hmsg)] at hr
      cases hr
    rw [hstays, hnone]
    rfl

/-- The moves of a session that is connected until the peer hangs up, up to the report of that. -/
def hungUpOn : List Move :=
  .replicate 10 (shortStep []) ++
    [.work { bind := .ok { ip := .v4 ⟨127, 0, 0, 1⟩, port := 4000 }, reads := [.eof] },
      shortStep []]

/-- A message that has a codec, queued when the peer has hung up, leaves the last error. -/
theorem fatal_error_stays_last_note :
    (Connection.withRegistry notes {}).Starts caller ∧
      ∃ c₁ c₂ c₃ e, caller.lasting hungUpOn = some c₁ ∧ c₁.lasting [shortStep []] = some c₂ ∧
        (c₁.move (shortStep [])).fatal? = some e ∧
        c₂.lasting (.send (.raw 1 [7]) :: .replicate 20 (shortStep [])) = some c₃ ∧
        c₃.isIdle = true ∧ c₃.lastError = some e := by
  have hc : (Connection.withRegistry notes {}).Starts caller :=
    ⟨⟨"localhost", 4000⟩, 0, .inl rfl⟩
  have hrun : ((caller.lasting hungUpOn).bind fun c₁ => (c₁.lasting [shortStep []]).bind fun c₂ =>
      (c₂.lasting (.send (.raw 1 [7]) :: .replicate 20 (shortStep []))).map fun c₃ =>
        ((c₁.move (shortStep [])).fatal?.map (·.kind), c₂.shared.outbound.messages.isEmpty,
          c₃.isIdle)) =
      some (some .connectionReset, true, true) := by
    decide +kernel
  obtain ⟨c₁, hb, hrun⟩ := Option.bind_eq_some_iff.1 hrun
  obtain ⟨c₂, hm, hrun⟩ := Option.bind_eq_some_iff.1 hrun
  obtain ⟨c₃, hs, hrun⟩ := Option.map_eq_some_iff.1 hrun
  obtain ⟨hkind, hrun⟩ := Prod.mk.inj hrun
  obtain ⟨hempty, hidle⟩ := Prod.mk.inj hrun
  obtain ⟨e, he, -⟩ := Option.map_eq_some_iff.1 hkind
  have hclear : .clearError ∉ Move.send (.raw 1 [7]) :: .replicate 20 (shortStep []) := by
    simp [shortStep]
  refine ⟨hc, c₁, c₂, c₃, e, hb, hm, he, hs, hidle, ?_⟩
  refine (fatal_error_stays_last hc hb hm he hs hclear).2.2 fun msg hmsg => ?_
  rcases hmsg with hmsg | hmsg
  · rw [List.isEmpty_iff.1 hempty] at hmsg
    cases hmsg
  · obtain rfl : msg = .raw 1 [7] := by simpa [shortStep] using hmsg
    decide +kernel

/-- A message without a codec takes the place of the fatal error. -/
theorem fatal_error_replaced :
    (Connection.withRegistry notes {}).Starts caller ∧
      ∃ c₁ c₂ c₃ e e', caller.lasting hungUpOn = some c₁ ∧ c₁.lasting [shortStep []] = some c₂ ∧
        (c₁.move (shortStep [])).fatal? = some e ∧ c₂.lastError = some e ∧
        c₂.lasting (.send (.raw 9 [0]) :: .replicate 20 (shortStep [])) = some c₃ ∧
        .clearError ∉ Move.send (.raw 9 [0]) :: .replicate 20 (shortStep []) ∧
        c₃.lastError = some e' ∧ e'.fatal = false ∧ e' ≠ e := by
  have hrun : ((caller.lasting hungUpOn).bind fun c₁ => (c₁.lasting [shortStep []]).bind fun c₂ =>
      (c₂.lasting (.send (.raw 9 [0]) :: .replicate 20 (shortStep []))).bind fun c₃ =>
        (c₁.move (shortStep [])).fatal?.bind fun e => c₃.lastError.map fun e' =>
          (decide (c₂.lastError = some e), e'.fatal, decide (e' ≠ e))) =
      some (true, false, true) := by
    decide +kernel
  obtain ⟨c₁, hb, hrun⟩ := Option.bind_eq_some_iff.1 hrun
  obtain ⟨c₂, hm, hrun⟩ := Option.bind_eq_some_iff.1 hrun
  obtain ⟨c₃, hs, hrun⟩ := Option.bind_eq_some_iff.1 hrun
  obtain ⟨e, he, hrun⟩ := Option.bind_eq_some_iff.1 hrun
  obtain ⟨e', he', hrun⟩ := Option.map_eq_some_iff.1 hrun
  obtain ⟨hlast, hrun⟩ := Prod.mk.inj hrun
  obtain ⟨hfatal, hne⟩ := Prod.mk.inj hrun
  exact ⟨⟨⟨"localhost", 4000⟩, 0, .inl rfl⟩, c₁, c₂, c₃, e, e', hb, hm, he,
    of_decide_eq_true hlast, hs, by simp [shortStep], he', hfatal, of_decide_eq_true hne⟩

end PeerMessaging
