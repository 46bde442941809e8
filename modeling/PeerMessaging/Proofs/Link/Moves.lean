import PeerMessaging.Link.History
import PeerMessaging.Proofs.Link.Session

/-!
# The moves of a session

A session begins when a connection is started and lasts until the connection is reset. A move of it
makes a step of the loop, puts a message into one queue, takes one from the other, asks for a
transition or lets go of the loop (`Connection.move_stride`), and the session goes on
(`Connection.InSession.stride`).
-/

namespace PeerMessaging

/-- The task may set itself a deadline. -/
def Task.isTimed : Task → Bool
  | act | keepalive => true
  | _ => false

/-- No other needs one that the clock cannot show. -/
theorem Loop.overruns_of_not_isTimed {l : Loop} {task : Task} {rest : List Task}
    (calls : SocketCalls) (s : Shared) (ht : l.tasks = task :: rest) (hn : task.isTimed = false) :
    l.overruns calls s = false := by
  have hnone : l.allowance calls s = none := by
    unfold allowance
    rw [ht]
    cases task <;> first | rfl | cases hn
  rw [overruns, hnone]
  rfl

/-! ## What goes in and out -/

/-- The move starts the connection, if it is in place. -/
def Move.starts : Move → Bool
  | connect .. | listen .. => true
  | _ => false

/-- The bytes that the stream has for a move. -/
def Move.offered : Move → Bytes
  | work calls => carried calls.reads
  | _ => []

namespace Connection

/-- The messages that a move queues to be sent. -/
def queues (c : Connection) : Move → List Message
  | .send m => if c.desired.isTerminal then [] else [m]
  | _ => []

/-- The bytes that the stream takes in a move. -/
def writes (c : Connection) : Move → Bytes
  | .work calls => (c.work calls).elim [] (·.sent)
  | _ => []

/-- The bytes that the stream has for a move and that are not read. -/
def leaves (c : Connection) : Move → Bytes
  | .work calls => carried (c.loop.elim calls.reads fun l => l.unread calls (l.tick calls c.shared))
  | _ => []

/-- The messages that a move takes from those received. -/
def takes (c : Connection) : Move → List Message
  | .takeNext => c.takeNext.1.toList
  | _ => []

/-- What is told by the events of a history is told by those of its moves, one after another. -/
theorem filterMap_events_cons {α : Type} (f : Event → Option α) (o : Outcome)
    (history : List Outcome) :
    (events (o :: history)).filterMap f =
      (o.raised.bind f).toList ++ (events history).filterMap f := by
  unfold events
  cases hr : o.raised with
  | none => rw [List.filterMap_cons_none hr]; rfl
  | some event =>
    rw [List.filterMap_cons_some hr]
    cases hf : f event with
    | none => rw [List.filterMap_cons_none hf, Option.bind_some, hf]; rfl
    | some x => rw [List.filterMap_cons_some hf, Option.bind_some, hf]; rfl

/-! ## Moves -/

/-- The move ends the loop at once: a listener fails, or a step needs a deadline that the clock
cannot show. -/
def halts (c : Connection) : Move → Bool
  | .work calls => c.loop.any (·.overruns calls c.shared)
  | .abandon => true
  | _ => false

/-- The move neither queues nor takes a message, and nothing is sent or read in it. -/
structure Quiet (c : Connection) (m : Move) : Prop where
  queues_eq : c.queues m = []
  writes_eq : c.writes m = []
  leaves_eq : c.leaves m = m.offered
  takes_eq : c.takes m = []

/-- A connection that has just been started. -/
def Starts (c c' : Connection) : Prop :=
  ∃ endpoint now, c.connect endpoint now = (.ok (), c') ∨ c.listen endpoint now = (.ok (), c')

/-- The connection with a new loop in its first state. One that had not ended is let go. -/
def started (c : Connection) (first : ConnectionState) (endpoint : Endpoint) (now : Moment) :
    Connection :=
  { c with
    shared := { c.shared with lifecycle := ⟨c.state, first⟩ }
    loop := some (.new c.registry c.config endpoint now)
    awaited := false
    strays := c.strays ++ c.loop.toList.filter (!·.hasEnded) }

/-- A session with these codecs and settings goes on. -/
structure InSession (registry : Registry) (config : ConnectionConfig) (c : Connection) : Prop where
  begun : 1 ≤ c.desired.stage
  underway : ∀ l, c.loop = some l → Underway registry config c.shared l

/-- What a move of a session may be. -/
inductive Stride (c : Connection) : Move → Connection → Prop
  /-- The loop makes a step. -/
  | work {calls : SocketCalls} {l : Loop} (hl : c.loop = some l)
      (hh : c.halts (.work calls) = false) :
      Stride c (.work calls) (c.after (l.step calls c.shared))
  | send (m : Message) : Stride c (.send m) (c.send m)
  | takeNext : Stride c .takeNext c.takeNext.2
  /-- At most a transition is asked for. -/
  | stay {m : Move} {lifecycle : Lifecycle} {lastError : Option ConnectionError} {awaited : Bool}
      (hq : c.Quiet m) (hc : lifecycle.current = c.shared.lifecycle.current)
      (hd : c.desired.stage ≤ lifecycle.desired.stage) :
      Stride c m { c with shared := { c.shared with lifecycle, lastError }, awaited }
  /-- The loop ends, or is let go of. -/
  | stop {m : Move} {loop : Option Loop} {awaited : Bool} (hq : c.Quiet m)
      (hl : loop = none ∨ loop = c.loop.map Loop.abandon) :
      Stride c m { c with loop, awaited }

section
variable {c c' : Connection} {m : Move} {registry : Registry} {config : ConnectionConfig}

/-! ## Steps of the loop -/

/-- A loop that is not ended at once makes its step. -/
theorem tick_of_not_halts {calls : SocketCalls} {l : Loop} (hl : c.loop = some l)
    (hh : c.halts (.work calls) = false) : l.tick calls c.shared = l.step calls c.shared := by
  rw [halts, hl] at hh
  exact Loop.tick_of_not_overruns hh

theorem work_of_not_halts {calls : SocketCalls} {l : Loop} (hl : c.loop = some l)
    (hh : c.halts (.work calls) = false) : c.work calls = some (l.step calls c.shared) := by
  rw [work, hl, Option.map_some, tick_of_not_halts hl hh]

/-- A step of the loop is what comes of it. -/
theorem move_work {l : Loop} (calls : SocketCalls) (hl : c.loop = some l)
    (hh : c.halts (.work calls) = false) :
    c.move (.work calls) =
      { connection := c.after (l.step calls c.shared)
        raised := (l.step calls c.shared).raised
        told := (l.step calls c.shared).told.toList } := by
  rw [move, work_of_not_halts hl hh]

/-- In a step the stream takes what the loop sends. -/
theorem writes_work {calls : SocketCalls} {l : Loop} (hl : c.loop = some l)
    (hh : c.halts (.work calls) = false) :
    c.writes (.work calls) = (l.step calls c.shared).sent := by
  rw [writes, work_of_not_halts hl hh, Option.elim_some]

/-- In a step the stream keeps what the loop does not read. -/
theorem leaves_work {calls : SocketCalls} {l : Loop} (hl : c.loop = some l)
    (hh : c.halts (.work calls) = false) :
    c.leaves (.work calls) = carried (l.unread calls (l.step calls c.shared)) := by
  rw [leaves, hl, Option.elim_some, tick_of_not_halts hl hh]

/-- A move that ends the loop at once does nothing else. -/
theorem move_of_halts (hh : c.halts m = true) :
    c.move m = { connection := { c with loop := c.loop.map Loop.abandon } } ∧ c.Quiet m := by
  cases m with
  | abandon => exact ⟨rfl, ⟨rfl, rfl, rfl, rfl⟩⟩
  | work calls =>
    cases hl : c.loop with
    | none =>
      rw [halts, hl] at hh
      cases hh
    | some l =>
      rw [halts, hl] at hh
      have ht := Loop.tick_of_overruns hh
      have hw : c.work calls = some (l.tick calls c.shared) := by rw [work, hl, Option.map_some]
      refine ⟨?_, rfl, ?_, ?_, rfl⟩
      · rw [move, hw, ht]
        rfl
      · rw [writes, hw, ht]
        rfl
      · rw [leaves, hl, Option.elim_some, ht, Loop.unread, ite_self]
        rfl
  | _ => cases hh

/-- A step that sets no deadline is not ended at once. -/
theorem halts_of_not_isTimed {l : Loop} {task : Task} {rest : List Task} (calls : SocketCalls)
    (hl : c.loop = some l) (ht : l.tasks = task :: rest) (hn : task.isTimed = false) :
    c.halts (.work calls) = false := by
  rw [halts, hl, Option.any_some]
  exact l.overruns_of_not_isTimed calls c.shared ht hn

/-- A reset is refused or has to wait, and changes nothing then, or it is made. -/
theorem move_reset_cases (c : Connection) (onLoop : Bool) :
    (∃ refusal, c.move (.reset onLoop) = { connection := c, refusal }) ∨
      ∃ raised c', (c.isIdle || c.awaited) = true ∧ c.reset onLoop = (.ok raised, c') ∧
        c.move (.reset onLoop) = { connection := c', raised, told := c'.toTell raised } := by
  cases hs : c.requireStopped onLoop with
  | error e => exact .inl ⟨some e, by simp only [move, hs]⟩
  | ok =>
    by_cases hi : (c.isIdle || c.awaited) = true
    · obtain ⟨raised, c', hr⟩ := exists_reset_eq_ok hs
      exact .inr ⟨raised, c', hi, hr, by simp only [move, hs, if_pos hi, hr]⟩
    · exact .inl ⟨none, by simp only [move, hs, if_neg hi]⟩

/-! ## The beginning of a session -/

/-- A connection is started if its first state is permitted, and otherwise left as it is. -/
theorem start_cases (c : Connection) (operation : String) (first : ConnectionState)
    (endpoint : Endpoint) (now : Moment) :
    c.desired.permits first = true ∧
        c.start operation first endpoint now = (.ok (), c.started first endpoint now) ∨
      ∃ e, c.start operation first endpoint now = (.error e, c) := by
  unfold start
  split
  · exact .inr ⟨_, rfl⟩
  · rename_i lifecycle hr
    obtain ⟨hp, rfl⟩ := Lifecycle.request_eq_ok_iff.1 hr
    exact .inl ⟨hp, rfl⟩

/-- A connection that has just been started is about to connect, or to open a listening socket. -/
theorem exists_started (h : c.Starts c') :
    ∃ first endpoint now, (first = .connecting ∨ first = .opening) ∧
      c.desired.permits first = true ∧ c' = c.started first endpoint now := by
  have of_start {operation : String} {first : ConnectionState} {endpoint : Endpoint} {now : Moment}
      (hf : first = .connecting ∨ first = .opening)
      (h : c.start operation first endpoint now = (.ok (), c')) :
      ∃ first endpoint now, (first = .connecting ∨ first = .opening) ∧
        c.desired.permits first = true ∧ c' = c.started first endpoint now := by
    rcases c.start_cases operation first endpoint now with ⟨hp, hs⟩ | ⟨e, hs⟩ <;>
      cases hs.symm.trans h
    exact ⟨first, endpoint, now, hf, hp, rfl⟩
  obtain ⟨endpoint, now, h | h⟩ := h
  · exact of_start (.inl rfl) h
  · exact of_start (.inr rfl) h

/-- Whoever starts a connection does so, or is refused. -/
theorem move_start_cases (c : Connection) (hm : m.starts = true) :
    (∃ c', c.Starts c' ∧ c.move m = { connection := c' }) ∨
      ∃ e, c.move m = { connection := c, refusal := some e } := by
  cases m with
  | connect endpoint now =>
    rcases c.start_cases "connect" .connecting endpoint now with ⟨-, hs⟩ | ⟨e, hs⟩
    · exact .inl ⟨_, ⟨endpoint, now, .inl hs⟩, congrArg answered hs⟩
    · exact .inr ⟨e, congrArg answered hs⟩
  | listen endpoint now =>
    rcases c.start_cases "listen" .opening endpoint now with ⟨-, hs⟩ | ⟨e, hs⟩
    · exact .inl ⟨_, ⟨endpoint, now, .inr hs⟩, congrArg answered hs⟩
    · exact .inr ⟨e, congrArg answered hs⟩
  | _ => cases hm

/-- A connection that has just been started runs a new loop. -/
theorem loop_of_starts (h : c.Starts c') :
    1 ≤ c'.desired.stage ∧
      ∃ endpoint now, c'.loop = some (.new c'.registry c'.config endpoint now) := by
  obtain ⟨first, endpoint, now, hf, -, rfl⟩ := exists_started h
  refine ⟨?_, endpoint, now, rfl⟩
  change 1 ≤ first.stage
  rcases hf with rfl | rfl <;> decide

/-- With a connection that has just been started a session begins. -/
theorem inSession_of_starts (h : c.Starts c') : c'.InSession c'.registry c'.config := by
  obtain ⟨hb, endpoint, now, hl⟩ := loop_of_starts h
  refine ⟨hb, fun l hl' => ?_⟩
  cases hl.symm.trans hl'
  have hplain : ∀ t ∈ nextRound, t.isPlain = true := by decide
  refine ⟨rfl, rfl, .of_isPlain hplain, fun task rest ht hn => ?_⟩
  cases ht
  exact absurd rfl hn

/-! ## Its moves -/

/-- A call that is for a connection not yet started is refused in a session. -/
theorem requireInitial_of_begun (hb : 1 ≤ c.desired.stage) (operation : String) :
    c.requireInitial operation = .error (.invalidState operation c.desired) := by
  have hn : ¬ c.desired = .initial := by
    intro h
    rw [h] at hb
    cases hb
  rw [requireInitial, if_neg hn]

/-- A connection is not started again in a session. -/
theorem start_of_begun (hb : 1 ≤ c.desired.stage) (operation : String) {first : ConnectionState}
    (hf : first = .connecting ∨ first = .opening) (endpoint : Endpoint) (now : Moment) :
    c.start operation first endpoint now = (.error (.invalidState operation c.desired), c) := by
  have hp : c.shared.lifecycle.desired.permits first = false := by
    have hd : 1 ≤ c.shared.lifecycle.desired.stage := hb
    rcases hf with rfl | rfl <;> cases h : c.shared.lifecycle.desired <;>
      simp_all [ConnectionState.permits, ConnectionState.stage]
  rw [start, Lifecycle.request, hp]
  rfl

/-- A move that changes nothing is one of a session. -/
theorem Stride.refl (hq : c.Quiet m) : c.Stride m c := .stay hq rfl (Nat.le_refl _)

/-- A move of a session is one of these. -/
theorem move_stride (hb : 1 ≤ c.desired.stage) (hm : (c.move m).connection.desired ≠ .initial) :
    c.Stride m (c.move m).connection := by
  cases m with
  | register | registerNamed | addListener | removeListener =>
    simp only [move, register, registerNamed, addListener, removeListener, whileInitial,
      requireInitial_of_begun hb]
    exact .refl ⟨rfl, rfl, rfl, rfl⟩
  | connect =>
    simp only [move, connect, start_of_begun hb _ (.inl rfl)]
    exact .refl ⟨rfl, rfl, rfl, rfl⟩
  | listen =>
    simp only [move, listen, start_of_begun hb _ (.inr rfl)]
    exact .refl ⟨rfl, rfl, rfl, rfl⟩
  | requestClose =>
    exact .stay ⟨rfl, rfl, rfl, rfl⟩ (c.shared.lifecycle.current_tryRequest _)
      (c.shared.lifecycle.stage_le_tryRequest nofun)
  | await => exact .stay ⟨rfl, rfl, rfl, rfl⟩ rfl (Nat.le_refl _)
  | join =>
    simp only [move]
    split
    · exact .stop ⟨rfl, rfl, rfl, rfl⟩ (.inl rfl)
    · exact .refl ⟨rfl, rfl, rfl, rfl⟩
  | reset onLoop =>
    have hq : c.Quiet (.reset onLoop) := ⟨rfl, rfl, rfl, rfl⟩
    rcases c.move_reset_cases onLoop with ⟨refusal, ho⟩ | ⟨raised, c', -, hr, ho⟩
    · rw [ho]
      exact .refl hq
    · rw [ho] at hm
      exact absurd (congrArg desired (reset_eq_ok hr).2.2) hm
  | send m => exact .send m
  | takeNext => exact .takeNext
  | clearError => exact .stay ⟨rfl, rfl, rfl, rfl⟩ rfl (Nat.le_refl _)
  | work calls =>
    cases hl : c.loop with
    | none =>
      have hw : c.work calls = none := by rw [work, hl]; rfl
      simp only [move, hw]
      refine .refl ⟨rfl, ?_, ?_, rfl⟩
      · rw [writes, hw]
        rfl
      · rw [leaves, hl]
        rfl
    | some l =>
      cases hh : c.halts (.work calls) with
      | true =>
        obtain ⟨hm, hq⟩ := move_of_halts hh
        rw [hm]
        exact .stop hq (.inr rfl)
      | false =>
        rw [move_work calls hl hh]
        exact .work hl hh
  | abandon => exact .stop ⟨rfl, rfl, rfl, rfl⟩ (.inr rfl)

/-- A session goes on in a move. -/
theorem InSession.stride (h : c.InSession registry config) (t : c.Stride m c') :
    c'.InSession registry config := by
  cases t with
  | @work calls l hl hh =>
    have hu := h.underway l hl
    have t := Loop.step_turn calls c.shared l
    refine ⟨Nat.le_trans h.begun (t.stage_desired_le hu.orderly), fun l' hl' => ?_⟩
    cases hl'
    exact hu.turn t
  | send m =>
    unfold send
    split
    · exact h
    · exact ⟨h.begun, fun l hl => (h.underway l hl).of_shared rfl (Nat.le_refl _)⟩
  | takeNext => exact ⟨h.begun, fun l hl => (h.underway l hl).of_shared rfl (Nat.le_refl _)⟩
  | stay hq hc hd =>
    exact ⟨Nat.le_trans h.begun hd, fun l hl => (h.underway l hl).of_shared hc hd⟩
  | stop hq hloop =>
    refine ⟨h.begun, fun l hl => ?_⟩
    rcases hloop with rfl | rfl
    · cases hl
    · obtain ⟨l, hl', rfl⟩ := Option.map_eq_some_iff.1 hl
      exact (h.underway l hl').abandon

end

end Connection

end PeerMessaging
