import PeerMessaging.Proofs.Link.Delivery
import PeerMessaging.Proofs.Link.Ending

/-!
# The verdict of a session

A session (`Connection.session`) meets with at most one fatal error. From then on no message is
handed on and nobody is told of one, and the loop ends after so many steps, in the state that the
error decides on (`fatal_error_ends_session`). A session without a fatal error goes on until it has
been asked to close, and other errors do not change its state. One loop makes the steps of a
session, as in every history: a loop that was left running when another was started does nothing.
-/

namespace PeerMessaging

/-- The fatal error that is raised in a move. -/
def Outcome.fatal? (o : Outcome) : Option ConnectionError := o.raised.bind Event.fatal?

namespace Move

/-- The move asks for the connection to be closed. -/
def asks : Move → Bool
  | requestClose => true
  | _ => false

/-- The move is a step of the loop. -/
def works : Move → Bool
  | work _ => true
  | _ => false

/-- The move queues a message, if it can be sent. -/
def sends : Move → Bool
  | send _ => true
  | _ => false

/-- The move forgets the last error. -/
def clears : Move → Bool
  | clearError => true
  | _ => false

/-- The move is a call that can be made at any time. -/
def isCall : Move → Bool
  | requestClose | await | join | send _ | takeNext | clearError => true
  | _ => false

end Move

section
variable {moves : List Move}

/-- A session that has been asked to close has been asked by a move. -/
theorem requestClose_mem_of_any (h : moves.any Move.asks = true) : .requestClose ∈ moves := by
  obtain ⟨m, hm, ha⟩ := List.any_eq_true.1 h
  cases m with
  | requestClose => exact hm
  | _ => cases ha

/-- Without such a move it has not been asked. -/
theorem any_asks_of_not_mem (h : .requestClose ∉ moves) : moves.any Move.asks = false := by
  cases ha : moves.any Move.asks with
  | true => exact absurd (requestClose_mem_of_any ha) h
  | false => rfl

end

/-- Something has been started in every state but the first. -/
theorem ConnectionState.one_le_stage {s : ConnectionState} (h : s ≠ .initial) : 1 ≤ s.stage := by
  cases s with
  | initial => exact absurd rfl h
  | _ => decide

namespace Connection

/-! ## Sessions -/

/-- What comes of a move of a session. There is none if the session would be over by it: if the
connection is reset, or the loop is ended at once. -/
def next (c : Connection) (m : Move) : Option Connection :=
  if c.halts m = true ∨ (c.move m).connection.desired = .initial then none
  else some (c.move m).connection

/-- What comes of the moves of a session, one after another. -/
def session (c : Connection) : List Move → Option Connection
  | [] => some c
  | m :: moves => (c.next m).bind (session · moves)

/-- The connection has a stream to its peer. -/
def hasStream (c : Connection) : Bool := c.loop.any (·.reader.isSome)

/-- The tasks of the loop, as long as there is one. -/
def tasks (c : Connection) : List Task := c.loop.elim [] Loop.tasks

/-- The steps that the loop makes at most after a verdict, if no message is queued meanwhile. -/
def left (c : Connection) : Nat := stepsLeft c.shared c.tasks

/-- Nothing of the session is heard in a move: no fatal error is raised, no message is put into the
queue of those received, and nobody is told of one. -/
structure Silent (c : Connection) (m : Move) : Prop where
  fatal_eq : (c.move m).fatal? = none
  raised_ne : (c.move m).raised ≠ some .message
  told_ne : ∀ listener, (listener, .message) ∉ (c.move m).told
  inbound_eq : c.takes m ++ (c.move m).connection.shared.inbound.messages =
    c.shared.inbound.messages

/-- A session goes on, with this verdict. -/
structure OnCourse (verdict : Option ConnectionState) (asked : Bool) (c : Connection) : Prop where
  begun : 1 ≤ c.desired.stage
  agenda : Agenda verdict asked c.hasStream c.shared.lifecycle c.tasks

/-- A move beside the loop raises nothing and leaves the loop as it is, unless that has ended. All
that it may ask for is to close, and all that it may do about the last error is to forget it. -/
structure Beside (c : Connection) (m : Move) : Prop where
  raised_eq : (c.move m).raised = none
  told_eq : (c.move m).told = []
  inbound_eq : c.takes m ++ (c.move m).connection.shared.inbound.messages =
    c.shared.inbound.messages
  lifecycle_eq : (c.move m).connection.shared.lifecycle =
    if m.asks then c.shared.lifecycle.tryRequest .closing else c.shared.lifecycle
  loop_eq : (c.move m).connection.loop = c.loop ∨
    c.isIdle = true ∧ (c.move m).connection.loop = none
  listeners_eq : (c.move m).connection.shared.listeners = c.shared.listeners
  outbound_eq : (c.move m).connection.shared.outbound.messages =
    c.shared.outbound.messages ++ c.queues m
  lastError_eq : (c.move m).connection.shared.lastError =
    if m.clears then none else c.shared.lastError

section
variable {c c' : Connection} {m : Move} {verdict : Option ConnectionState} {asked : Bool}
  {registry : Registry} {config : ConnectionConfig}

theorem next_eq_some (h : c.next m = some c') :
    c.halts m = false ∧ c'.desired ≠ .initial ∧ c' = (c.move m).connection := by
  unfold next at h
  split at h
  · cases h
  · rename_i hn
    cases h
    obtain ⟨ha, hd⟩ := not_or.1 hn
    exact ⟨by simpa using ha, hd, rfl⟩

/-- A session goes on in a move of it. -/
theorem InSession.next (h : c.InSession registry config) (hn : c.next m = some c') :
    c'.InSession registry config := by
  obtain ⟨-, hd, rfl⟩ := next_eq_some hn
  exact h.stride (move_stride h.begun hd)

/-- So it does in whatever moves of it. -/
theorem InSession.session {moves : List Move} (h : c.InSession registry config)
    (hs : c.session moves = some c') :
    c'.InSession registry config := by
  induction moves generalizing c with
  | nil =>
    cases hs
    exact h
  | cons m moves ih =>
    obtain ⟨c₁, hn, hs⟩ := Option.bind_eq_some_iff.1 hs
    exact ih (h.next hn) hs

/-- A move queues a message at most if it is one for that. -/
theorem length_queues_le (c : Connection) (m : Move) :
    (c.queues m).length ≤ if m.sends then 1 else 0 := by
  cases m with
  | send m =>
    change (if c.desired.isTerminal then [] else [m]).length ≤ 1
    split <;> simp
  | _ => exact Nat.le_refl _

/-- So no other makes the queue longer. -/
theorem Beside.outbound_le (hm : c.Beside m) :
    (c.move m).connection.shared.outbound.messages.length ≤
      c.shared.outbound.messages.length + if m.sends then 1 else 0 := by
  rw [hm.outbound_eq, List.length_append]
  exact Nat.add_le_add_left (c.length_queues_le m) _

/-- A call that is refused, or of no consequence, changes nothing. -/
theorem Beside.of_eq (refusal : Option PeerError)
    (ho : c.move m = { connection := c, refusal }) (ht : c.takes m = []) (ha : m.asks = false)
    (hq : c.queues m = []) (hc : m.clears = false) : c.Beside m := by
  refine ⟨?_, ?_, ?_, ?_, .inl ?_, ?_, ?_, ?_⟩ <;> rw [ho]
  · rw [ht]
    rfl
  · rw [ha]
    rfl
  · rw [hq, List.append_nil]
  · rw [hc]
    rfl

/-- A call that can be made at any time is a move beside the loop. -/
theorem beside_of_isCall (h : m.isCall = true) : c.Beside m := by
  have kept : c.shared.outbound.messages = c.shared.outbound.messages ++ [] :=
    (List.append_nil _).symm
  cases m with
  | requestClose => exact ⟨rfl, rfl, rfl, rfl, .inl rfl, rfl, kept, rfl⟩
  | await => exact ⟨rfl, rfl, rfl, rfl, .inl rfl, rfl, kept, rfl⟩
  | join =>
    cases hi : c.isIdle with
    | true =>
      have ho : c.move .join = { connection := c.join } := by rw [move, if_pos hi]
      refine ⟨?_, ?_, ?_, ?_, .inr ⟨hi, ?_⟩, ?_, ?_, ?_⟩ <;> rw [ho]
      · rfl
      · rfl
      · rfl
      · rfl
      · exact kept
      · rfl
    | false =>
      refine .of_eq none ?_ rfl rfl rfl rfl
      rw [move, hi]
      rfl
  | send m =>
    cases ht : c.desired.isTerminal with
    | true =>
      refine .of_eq none ?_ rfl rfl ?_ rfl
      · simp only [move, send, ht, if_true]
      · simp only [queues, ht, if_true]
    | false =>
      let shared := { c.shared with outbound := c.shared.outbound.push m }
      have ho : c.move (.send m) = { connection := { c with shared } } := by
        simp only [move, send, ht, Bool.false_eq_true, if_false]
        rfl
      refine ⟨rfl, rfl, ?_, ?_, .inl ?_, ?_, ?_, ?_⟩ <;> rw [ho]
      · rfl
      · rfl
      · simp [shared, queues, ht]
      · rfl
  | takeNext =>
    exact ⟨rfl, rfl, c.shared.inbound.messages_pop, rfl, .inl rfl, rfl, kept, rfl⟩
  | clearError => exact ⟨rfl, rfl, rfl, rfl, .inl rfl, rfl, kept, rfl⟩
  | _ => cases h

/-- A move is one beside the loop unless it is a step of it. -/
theorem beside_of_next (hb : 1 ≤ c.desired.stage) (hn : c.next m = some c')
    (hw : m.works = true → c.loop = none) : c.Beside m := by
  obtain ⟨ha, hd, rfl⟩ := next_eq_some hn
  have refused (operation : String)
      (ho : c.move m =
        { connection := c, refusal := some (.invalidState operation c.desired) })
      (ht : c.takes m = []) (ha : m.asks = false) (hq : c.queues m = [])
      (hc : m.clears = false) : c.Beside m := .of_eq _ ho ht ha hq hc
  cases m with
  | register | registerNamed =>
    refine refused "register a codec" ?_ rfl rfl rfl rfl
    simp only [move, register, registerNamed, whileInitial, requireInitial_of_begun hb]
    rfl
  | addListener =>
    refine refused "add a listener" ?_ rfl rfl rfl rfl
    simp only [move, addListener, whileInitial, requireInitial_of_begun hb]
    rfl
  | removeListener =>
    refine refused "remove a listener" ?_ rfl rfl rfl rfl
    simp only [move, removeListener, whileInitial, requireInitial_of_begun hb]
    rfl
  | connect =>
    refine refused "connect" ?_ rfl rfl rfl rfl
    simp only [move, connect, start_of_begun hb _ (.inl rfl)]
    rfl
  | listen =>
    refine refused "listen" ?_ rfl rfl rfl rfl
    simp only [move, listen, start_of_begun hb _ (.inr rfl)]
    rfl
  | requestClose | await | join | send | takeNext | clearError => exact beside_of_isCall rfl
  | reset onLoop =>
    have hq (refusal : Option PeerError)
        (ho : c.move (.reset onLoop) = { connection := c, refusal }) : c.Beside (.reset onLoop) :=
      .of_eq _ ho rfl rfl rfl rfl
    rcases c.move_reset_cases onLoop with ⟨refusal, ho⟩ | ⟨raised, c', -, hr, ho⟩
    · exact hq refusal ho
    · rw [ho] at hd
      exact absurd (congrArg desired (reset_eq_ok hr).2.2) hd
  | work calls =>
    refine .of_eq none ?_ rfl rfl rfl rfl
    simp only [move, work, hw rfl, Option.map_none]
  | abandon => cases ha

/-- Nothing is raised in a request to close. -/
theorem asks_of_raised {event : Event} (he : (c.move m).raised = some event) : m.asks = false := by
  cases m with
  | requestClose => cases he
  | _ => rfl

/-- A move of a session is a step of the loop, or beside it. -/
theorem beside_or_work (hb : 1 ≤ c.desired.stage) (hn : c.next m = some c') :
    c.Beside m ∨
      ∃ calls l, m = .work calls ∧ c.loop = some l ∧ c.halts (.work calls) = false := by
  cases m with
  | work calls =>
    cases hl : c.loop with
    | none => exact .inl (beside_of_next hb hn fun _ => hl)
    | some l => exact .inr ⟨calls, l, rfl, rfl, (next_eq_some hn).1⟩
  | _ => exact .inl (beside_of_next hb hn fun hw => absurd hw Bool.false_ne_true)

/-! ## A move of a session -/

theorem isIdle_iff : c.isIdle = true ↔ c.tasks = [] := by
  unfold isIdle tasks
  cases c.loop with
  | none => simp
  | some l => simp [Loop.hasEnded]

theorem tasks_of_some {l : Loop} (hl : c.loop = some l) : c.tasks = l.tasks := by
  rw [tasks, hl]
  rfl

/-- A loop that is ended at once has nothing left to do. -/
theorem tasks_of_halts (hh : c.halts m = true) : (c.move m).connection.tasks = [] := by
  rw [(move_of_halts hh).1, tasks]
  cases c.loop <;> rfl

/-- A connection that has just been started connects, or opens a listening socket. -/
theorem desired_of_starts (h : c.Starts c') :
    c'.desired = .connecting ∨ c'.desired = .opening := by
  obtain ⟨first, endpoint, now, hf, -, rfl⟩ := exists_started h
  exact hf

/-- A session begins without a verdict and without having been asked to close. -/
theorem onCourse_of_starts (h : c.Starts c') : c'.OnCourse none false := by
  obtain ⟨hb, endpoint, now, hl⟩ := loop_of_starts h
  refine ⟨hb, ?_⟩
  rw [hasStream, tasks, hl]
  refine .round (.inl rfl) ?_
  change Possible none false false c'.desired
  rcases desired_of_starts h with hd | hd <;> rw [hd] <;> exact ⟨rfl, rfl⟩

/-- A connection whose loop is let go of after it has ended has the same tasks as before. -/
theorem tasks_of_loop_eq (h : c'.loop = c.loop ∨ c.isIdle = true ∧ c'.loop = none) :
    c'.tasks = c.tasks ∧ (c.tasks = [] ∨ c'.hasStream = c.hasStream) := by
  rcases h with h | ⟨hi, h⟩
  · rw [tasks, tasks, hasStream, hasStream, h]
    exact ⟨rfl, .inr rfl⟩
  · have ht := isIdle_iff.1 hi
    rw [ht, tasks, h]
    exact ⟨rfl, .inl rfl⟩

namespace OnCourse

/-- A move beside the loop leaves the verdict. -/
theorem beside (h : c.OnCourse verdict asked) (hm : c.Beside m)
    (hd : (c.move m).connection.desired ≠ .initial) :
    (c.move m).connection.OnCourse verdict (asked || m.asks) := by
  obtain ⟨htasks, hstream⟩ := tasks_of_loop_eq hm.loop_eq
  refine ⟨ConnectionState.one_le_stage hd, ?_⟩
  have hagenda :
      Agenda verdict asked (c.move m).connection.hasStream c.shared.lifecycle c.tasks := by
    have ha := h.agenda
    rcases hstream with hnil | hs
    · rw [hnil] at ha ⊢
      exact ha.of_nil
    · rwa [hs]
  rw [hm.lifecycle_eq, htasks]
  cases m.asks with
  | true =>
    rw [Bool.or_true]
    exact hagenda.ask
  | false =>
    rw [Bool.or_false]
    exact hagenda

/-- A step of the loop leaves the verdict, or comes to one if there was none. -/
theorem work {l : Loop} {calls : SocketCalls} (h : c.OnCourse verdict asked)
    (hl : c.loop = some l) (hh : c.halts (.work calls) = false)
    (hd : (c.move (.work calls)).connection.desired ≠ .initial) :
    (c.move (.work calls)).connection.OnCourse
        (verdict.or ((c.move (.work calls)).fatal?.map (·.ending c.hasStream))) asked ∧
      (verdict ≠ none → c.Silent (.work calls)) := by
  have hagenda := h.agenda
  rw [hasStream, tasks, hl] at hagenda
  have hkeeps : Keeps verdict asked l.reader.isSome c.shared (l.step calls c.shared) := hagenda.step
  have hm := move_work calls hl hh
  have hs : c.hasStream = l.reader.isSome := by rw [hasStream, hl]; rfl
  refine ⟨⟨ConnectionState.one_le_stage hd, ?_⟩, fun hv => ?_⟩
  · rw [hm, hs]
    exact hkeeps.agenda
  · obtain ⟨hfatal, hraised, htold, hinbound⟩ := hkeeps.silent hv
    refine ⟨?_, ?_, fun listener ht => ?_, ?_⟩ <;> rw [hm] at *
    · exact hfatal
    · exact hraised
    · exact htold listener (Option.mem_toList.1 ht)
    · exact congrArg MessageQueue.messages hinbound

/-- A move of a session leaves the verdict, or comes to one if there was none. -/
theorem next (h : c.OnCourse verdict asked) (hn : c.next m = some c') :
    c'.OnCourse (verdict.or ((c.move m).fatal?.map (·.ending c.hasStream))) (asked || m.asks) ∧
      (verdict ≠ none → c.Silent m) := by
  have hmove := beside_or_work h.begun hn
  obtain ⟨-, hd, rfl⟩ := next_eq_some hn
  rcases hmove with hm | ⟨calls, l, rfl, hl, hh⟩
  · have hf : (c.move m).fatal? = none := by rw [Outcome.fatal?, hm.raised_eq]; rfl
    rw [hf, Option.map_none, Option.or_none]
    refine ⟨h.beside hm hd, fun _ => ⟨hf, ?_, ?_, hm.inbound_eq⟩⟩
    · rw [hm.raised_eq]
      nofun
    · rw [hm.told_eq]
      exact fun _ => List.not_mem_nil
  · have hasks : (Move.work calls).asks = false := rfl
    rw [hasks, Bool.or_false]
    exact h.work hl hh hd

/-- A session that is connected stays so in a move after which there is no verdict yet and in which
it is not asked to close. -/
theorem lifecycle_next (h : c.OnCourse none false)
    (hc : c.shared.lifecycle = ⟨.connected, .connected⟩) (hn : c.next m = some c')
    (hf : (c.move m).fatal? = none) (ha : m.asks = false) :
    c'.OnCourse none false ∧ c'.shared.lifecycle = ⟨.connected, .connected⟩ := by
  obtain ⟨h', -⟩ := h.next hn
  rw [hf, ha] at h'
  refine ⟨h', ?_⟩
  have hmove := beside_or_work h.begun hn
  obtain ⟨-, -, rfl⟩ := next_eq_some hn
  rcases hmove with hm | ⟨calls, l, rfl, hl, hh⟩
  · rw [hm.lifecycle_eq, ha, if_neg Bool.false_ne_true]
    exact hc
  · rw [move_work calls hl hh] at h' ⊢
    exact h'.agenda.lifecycle_step hc

/-- An error that is not fatal leaves the lifecycle as it is, and is told of only while the session
is steady. -/
theorem of_error {e : ConnectionError} (h : c.OnCourse verdict asked) (hn : c.next m = some c')
    (he : (c.move m).raised = some (.error e)) (hf : e.fatal = false) :
    c'.shared.lifecycle = c.shared.lifecycle ∧ Steady verdict asked c.shared.lifecycle := by
  have hmove := beside_or_work h.begun hn
  obtain ⟨-, -, rfl⟩ := next_eq_some hn
  rcases hmove with hm | ⟨calls, l, rfl, hl, hh⟩
  · rw [hm.raised_eq] at he
    cases he
  · have hagenda := h.agenda
    rw [hasStream, tasks, hl] at hagenda
    rw [move_work calls hl hh] at he ⊢
    exact ⟨Loop.lifecycle_of_error he, hagenda.steady_of_error he hf⟩

/-! ## The moves of a session, one after another -/

/-- A verdict stands. -/
theorem session_of_some {v : ConnectionState} {moves : List Move}
    (h : c.OnCourse (some v) asked) (hs : c.session moves = some c') :
    ∃ asked', c'.OnCourse (some v) asked' := by
  induction moves generalizing c asked with
  | nil =>
    cases hs
    exact ⟨asked, h⟩
  | cons m moves ih =>
    obtain ⟨c₁, hn, hs⟩ := Option.bind_eq_some_iff.1 hs
    have h₁ := (h.next hn).1
    rw [Option.some_or] at h₁
    exact ih h₁ hs

/-- A session comes to a verdict with its first fatal error. -/
theorem session {moves : List Move} (h : c.OnCourse none asked)
    (hs : c.session moves = some c') :
    (∀ o ∈ c.play moves, o.fatal? = none) ∧ c'.OnCourse none (asked || moves.any Move.asks) ∨
      (∃ o ∈ c.play moves, o.fatal? ≠ none) ∧ ∃ v asked', c'.OnCourse (some v) asked' := by
  induction moves generalizing c asked with
  | nil =>
    cases hs
    refine .inl ⟨fun _ ho => absurd ho List.not_mem_nil, ?_⟩
    rw [List.any_nil, Bool.or_false]
    exact h
  | cons m moves ih =>
    obtain ⟨c₁, hn, hs⟩ := Option.bind_eq_some_iff.1 hs
    obtain ⟨h₁, -⟩ := h.next hn
    obtain ⟨-, -, rfl⟩ := next_eq_some hn
    cases hf : (c.move m).fatal? with
    | some e =>
      rw [hf] at h₁
      obtain ⟨asked', h'⟩ := session_of_some h₁ hs
      exact .inr ⟨⟨_, .head _, by rw [hf]; nofun⟩, _, asked', h'⟩
    | none =>
      rw [hf] at h₁
      rcases ih h₁ hs with ⟨hfatal, h'⟩ | ⟨⟨o, ho, hfatal⟩, h'⟩
      · rw [Bool.or_assoc] at h'
        exact .inl ⟨List.forall_mem_cons.2 ⟨hf, hfatal⟩, h'⟩
      · exact .inr ⟨⟨o, .tail _ ho, hfatal⟩, h'⟩

/-- A session that is connected stays so as long as there is no verdict and it is not asked to
close. -/
theorem lifecycle_session {moves : List Move} (h : c.OnCourse none false)
    (hc : c.shared.lifecycle = ⟨.connected, .connected⟩) (hs : c.session moves = some c')
    (hf : ∀ o ∈ c.play moves, o.fatal? = none) (ha : moves.any Move.asks = false) :
    c'.shared.lifecycle = ⟨.connected, .connected⟩ := by
  induction moves generalizing c with
  | nil =>
    cases hs
    exact hc
  | cons m moves ih =>
    obtain ⟨c₁, hn, hs⟩ := Option.bind_eq_some_iff.1 hs
    obtain ⟨hfatal, hrest⟩ := List.forall_mem_cons.1 hf
    rw [List.any_cons, Bool.or_eq_false_iff] at ha
    obtain ⟨h₁, hc₁⟩ := h.lifecycle_next hc hn hfatal ha.1
    obtain ⟨-, -, rfl⟩ := next_eq_some hn
    exact ih h₁ hc₁ hs hrest ha.2

/-- After an error that is not fatal the lifecycle stays as it is, as long as there is no verdict
and the session is not asked to close. -/
theorem lifecycle_of_error {e : ConnectionError} {c'' : Connection} {after : List Move}
    (h : c.OnCourse none false) (hn : c.next m = some c')
    (he : (c.move m).raised = some (.error e)) (hf : e.fatal = false)
    (hs : c'.session after = some c'') (hafter : ∀ o ∈ c'.play after, o.fatal? = none)
    (hnot : .requestClose ∉ after) : c''.shared.lifecycle = c.shared.lifecycle := by
  obtain ⟨-, hsteady⟩ := h.of_error hn he hf
  have hconnected : c.shared.lifecycle = ⟨.connected, .connected⟩ := hsteady rfl rfl
  have hfatal : (c.move m).fatal? = none := by
    rw [Outcome.fatal?, he, Option.bind_some, Event.fatal?, hf, if_neg Bool.false_ne_true]
  obtain ⟨h', hc'⟩ := h.lifecycle_next hconnected hn hfatal (asks_of_raised he)
  rw [hconnected]
  exact h'.lifecycle_session hc' hs hafter (any_asks_of_not_mem hnot)

/-- A loop that has ended is in the state of the verdict; without one it was asked to close, and is
closed. -/
theorem state_of_isIdle (h : c.OnCourse verdict asked) (hi : c.isIdle = true) :
    verdict = some c.state ∨ verdict = none ∧ asked = true ∧ c.state = .closed := by
  have hagenda := h.agenda
  rw [isIdle_iff.1 hi] at hagenda
  obtain ⟨hc, hp⟩ := hagenda.ended_of_nil
  rw [state]
  generalize c.shared.lifecycle.current = state at hc hp
  cases state with
  | closed => exact hp.imp_right fun h => ⟨h.1, h.2, rfl⟩
  | error => exact .inl hp
  | _ => cases hc

/-! ## The end of a session -/

/-- No move beside the loop puts off its end but one that queues a message. -/
theorem left_le_of_beside (hm : c.Beside m) :
    (c.move m).connection.left ≤
      c.left + if m.sends then c.shared.listeners.length + 3 else 0 := by
  have hdesired : c.shared.lifecycle.desired.stage ≤
      (c.move m).connection.shared.lifecycle.desired.stage := by
    rw [hm.lifecycle_eq]
    split
    · exact c.shared.lifecycle.stage_le_tryRequest nofun
    · exact Nat.le_refl _
  have hplan : unplanned c.shared.listeners.length
        (c.move m).connection.shared.lifecycle.desired c.tasks ≤
      unplanned c.shared.listeners.length c.shared.lifecycle.desired c.tasks :=
    unplanned_le hdesired
  have hout := Nat.mul_le_mul_right (c.shared.listeners.length + 3) hm.outbound_le
  rw [left, left, stepsLeft, stepsLeft, hm.listeners_eq, (tasks_of_loop_eq hm.loop_eq).1]
  rw [Nat.add_mul] at hout
  cases hs : m.sends with
  | true =>
    rw [hs, if_pos rfl, Nat.one_mul] at hout
    rw [if_pos rfl]
    omega
  | false =>
    rw [hs, if_neg Bool.false_ne_true, Nat.zero_mul] at hout
    rw [if_neg Bool.false_ne_true]
    omega

/-- After a verdict a step of the loop brings its end nearer. -/
theorem left_lt {v : ConnectionState} {calls : SocketCalls} (h : c.OnCourse (some v) asked)
    (hh : c.halts (.work calls) = false) (hi : c.isIdle = false) :
    (c.move (.work calls)).connection.shared.listeners = c.shared.listeners ∧
      (c.move (.work calls)).connection.left < c.left := by
  cases hl : c.loop with
  | none =>
    rw [isIdle, hl] at hi
    cases hi
  | some l =>
    have hagenda := h.agenda
    rw [hasStream, tasks, hl] at hagenda
    have hended : l.hasEnded = false := by
      rw [isIdle, hl] at hi
      exact hi
    have hm : (c.move (.work calls)).connection = c.after (l.step calls c.shared) := by
      rw [move_work calls hl hh]
    have hleft : c.left = stepsLeft c.shared l.tasks := by rw [left, tasks, hl]; rfl
    rw [hm, hleft]
    exact ⟨(l.step_turn calls c.shared).listeners_eq, hagenda.stepsLeft_lt hended⟩

/-- A loop that has ended stays so. -/
theorem isIdle_of_next (hb : 1 ≤ c.desired.stage) (hn : c.next m = some c')
    (hi : c.isIdle = true) : c'.isIdle = true := by
  have hmove := beside_or_work hb hn
  obtain ⟨-, -, rfl⟩ := next_eq_some hn
  rcases hmove with hm | ⟨calls, l, rfl, hl, hh⟩
  · rw [isIdle_iff, (tasks_of_loop_eq hm.loop_eq).1]
    exact isIdle_iff.1 hi
  · have hended : l.hasEnded = true := by
      rw [isIdle, hl] at hi
      exact hi
    rw [move_work calls hl hh, Loop.step_of_hasEnded hended]
    exact hended

/-- A loop that has ended stays so in a session. -/
theorem isIdle_of_session {moves : List Move} (hb : 1 ≤ c.desired.stage)
    (hs : c.session moves = some c') (hi : c.isIdle = true) : c'.isIdle = true := by
  induction moves generalizing c with
  | nil =>
    cases hs
    exact hi
  | cons m moves ih =>
    obtain ⟨c₁, hn, hs⟩ := Option.bind_eq_some_iff.1 hs
    obtain ⟨-, hd, -⟩ := next_eq_some hn
    exact ih (ConnectionState.one_le_stage hd) hs (isIdle_of_next hb hn hi)

/-- After a verdict a move leaves fewer steps if it is one, and more only if it queues a message. -/
theorem left_le {v : ConnectionState} (h : c.OnCourse (some v) asked) (hn : c.next m = some c')
    (hi : c.isIdle = false) :
    c'.shared.listeners = c.shared.listeners ∧
      c'.left + (if m.works then 1 else 0) ≤
        c.left + if m.sends then c.shared.listeners.length + 3 else 0 := by
  cases hw : m.works with
  | false =>
    have hm := beside_of_next h.begun hn (by rw [hw]; nofun)
    obtain ⟨-, -, rfl⟩ := next_eq_some hn
    exact ⟨hm.listeners_eq, left_le_of_beside hm⟩
  | true =>
    obtain ⟨hh, -, rfl⟩ := next_eq_some hn
    cases m with
    | work calls =>
      obtain ⟨hl, hlt⟩ := h.left_lt hh hi
      exact ⟨hl, hlt⟩
    | _ => cases hw

/-- After a verdict the loop ends when it has made so many steps, whatever else is done. -/
theorem isIdle_or_left_le {v : ConnectionState} {moves : List Move}
    (h : c.OnCourse (some v) asked) (hs : c.session moves = some c') :
    c'.isIdle = true ∨ moves.countP Move.works + c'.left ≤
      c.left + moves.countP Move.sends * (c.shared.listeners.length + 3) := by
  induction moves generalizing c asked with
  | nil =>
    cases hs
    exact .inr (by simp)
  | cons m moves ih =>
    obtain ⟨c₁, hn, hs⟩ := Option.bind_eq_some_iff.1 hs
    have h₁ := (h.next hn).1
    rw [Option.some_or] at h₁
    cases hi : c.isIdle with
    | true =>
      have hi₁ := isIdle_of_next h.begun hn hi
      exact .inl (isIdle_of_session h₁.begun hs hi₁)
    | false =>
      obtain ⟨hl, hm⟩ := h.left_le hn hi
      refine (ih h₁ hs).imp_right fun hle => ?_
      rw [hl] at hle
      rw [List.countP_cons, List.countP_cons, Nat.add_mul]
      generalize m.works = works at hm ⊢
      generalize m.sends = sends at hm ⊢
      cases works <;> cases sends <;>
        simp only [Bool.false_eq_true, if_true, if_false, Nat.one_mul, Nat.zero_mul] at hm ⊢ <;>
        omega

/-- Without a verdict a session does not come to an end unless it has been asked to close, and is
then closed. -/
theorem undecided {moves : List Move} (h : c.OnCourse none (moves.any Move.asks)) :
    (.requestClose ∉ moves → c.desired.stage ≤ ConnectionState.connected.stage) ∧
      (c.isIdle = true → .requestClose ∈ moves ∧ c.state = .closed) := by
  refine ⟨fun hn => ?_, fun hi => ?_⟩
  · rw [any_asks_of_not_mem hn] at h
    exact h.agenda.stage_desired_le
  · rcases h.state_of_isIdle hi with hv | ⟨-, ha, hs⟩
    · cases hv
    · exact ⟨requestClose_mem_of_any ha, hs⟩

/-- After a verdict there is silence, and the loop ends after so many steps, in the state of the
verdict. -/
theorem decided {v : ConnectionState} (h : c.OnCourse (some v) asked) :
    ∃ steps, ∀ after c', c.session after = some c' →
      (∀ m c'', c'.next m = some c'' → c'.Silent m) ∧
      (c'.isIdle = true → c'.state = v) ∧
      (steps + after.countP Move.sends * (c.shared.listeners.length + 3) ≤
        after.countP Move.works → c'.isIdle = true) := by
  refine ⟨c.left + 1, fun after c' hs => ?_⟩
  obtain ⟨asked', h'⟩ := h.session_of_some hs
  refine ⟨fun m c'' hn => (h'.next hn).2 (Option.some_ne_none v), fun hi => ?_, fun hle => ?_⟩
  · rcases h'.state_of_isIdle hi with hv | ⟨hv, -⟩
    · exact (Option.some.inj hv).symm
    · cases hv
  · rcases h.isIdle_or_left_le hs with hi | hle'
    · exact hi
    · omega

end OnCourse

end

end Connection

/-- There is at most one fatal error in a session, and silence after it. Before it the session is
not about to close unless it has been asked to, and has ended only as closed. An error that is not
fatal changes nothing about the lifecycle, and nothing about it changes afterwards until there is a
fatal error or the session is asked to close. After a fatal error no message is handed on and nobody
is told of one, whatever the loop and its callers do. The loop ends when it has made so many steps,
and a few more for each message that is queued meanwhile, and then it is in the state that the error
decides on: it has failed if there was no stream yet or the peer broke the protocol, and is closed
otherwise. -/
theorem fatal_error_ends_session {c₀ c c₁ : Connection} (hc : c₀.Starts c) {before : List Move}
    (hb : c.session before = some c₁) :
    (∀ cause, (ConnectionError.ofReceive cause).isViolation = cause.isProtocolViolation) ∧
    ((∀ o ∈ c.play before, o.fatal? = none) →
      (.requestClose ∉ before → c₁.desired.stage ≤ ConnectionState.connected.stage) ∧
      (c₁.isIdle = true → .requestClose ∈ before ∧ c₁.state = .closed)) ∧
    ∀ m c₂, c₁.next m = some c₂ →
      (∀ e, (c₁.move m).raised = some (.error e) → e.fatal = false →
        c₂.shared.lifecycle = c₁.shared.lifecycle ∧
        ((∀ o ∈ c.play before, o.fatal? = none) → .requestClose ∉ before →
          ∀ after c₃, c₂.session after = some c₃ →
            (∀ o ∈ c₂.play after, o.fatal? = none) → .requestClose ∉ after →
              c₃.shared.lifecycle = c₁.shared.lifecycle)) ∧
      ∀ e, (c₁.move m).fatal? = some e →
        (∀ o ∈ c.play before, o.fatal? = none) ∧
        ∃ steps, ∀ after c₃, c₂.session after = some c₃ →
          (∀ m' c₄, c₃.next m' = some c₄ → c₃.Silent m') ∧
          (c₃.isIdle = true → c₃.state = e.ending c₁.hasStream) ∧
          (steps + after.countP Move.sends * (c₂.shared.listeners.length + 3) ≤
            after.countP Move.works → c₃.isIdle = true) := by
  have h := (Connection.onCourse_of_starts hc).session hb
  have undecided (hfatal : ∀ o ∈ c.play before, o.fatal? = none) :
      c₁.OnCourse none (before.any Move.asks) := by
    rcases h with ⟨-, h⟩ | ⟨⟨o, ho, hf⟩, -⟩
    · rwa [Bool.false_or] at h
    · exact absurd (hfatal o ho) hf
  refine ⟨ConnectionError.isViolation_ofReceive, fun hfatal => (undecided hfatal).undecided, ?_⟩
  intro m c₂ hn
  constructor
  · intro e he hf
    obtain ⟨verdict, asked, h₁⟩ : ∃ verdict asked, c₁.OnCourse verdict asked := by
      rcases h with ⟨-, h⟩ | ⟨-, v, asked, h⟩
      · exact ⟨_, _, h⟩
      · exact ⟨_, _, h⟩
    refine ⟨(h₁.of_error hn he hf).1, fun hfatal hbefore after c₃ hs hafter hnot => ?_⟩
    have h₁ := undecided hfatal
    rw [any_asks_of_not_mem hbefore] at h₁
    exact h₁.lifecycle_of_error hn he hf hs hafter hnot
  · intro e he
    rcases h with ⟨hfatal, h⟩ | ⟨-, v, asked, h⟩
    · refine ⟨hfatal, ?_⟩
      have h₂ := (h.next hn).1
      rw [he] at h₂
      exact h₂.decided
    · have hsilent := ((h.next hn).2 (Option.some_ne_none v)).fatal_eq
      rw [he] at hsilent
      cases hsilent

/-- The moves of a session that gets a frame and then the word of another protocol, up to the report
of that. -/
def garbled : List Move :=
  .replicate 10 (shortStep []) ++
    [shortStep [0x2B, 0xAD, 0, 1, 0, 0, 0, 1, 0, 0, 0, 1, 7, 0x2B, 0xAE, 0, 1]] ++
    .replicate 3 (shortStep [])

/-- The message of the frame is in the queue, the session ends as failed after six steps, and there
is silence. -/
theorem fatal_error_ends_session_garbled :
    (Connection.withRegistry notes {}).Starts caller ∧
      ∃ c₁ c₂ c₃ e, caller.session garbled = some c₁ ∧
        c₁.shared.inbound.messages.filterMap (notes.outgoing {}) = [⟨1, [7]⟩] ∧
        c₁.next (shortStep []) = some c₂ ∧ (c₁.move (shortStep [])).fatal? = some e ∧
        c₂.session (.replicate 6 (shortStep [])) = some c₃ ∧ c₃.isIdle = true ∧
        c₃.state = .error := by
  have hc : (Connection.withRegistry notes {}).Starts caller :=
    ⟨⟨"localhost", 4000⟩, 0, .inl rfl⟩
  have hrun : ((caller.session garbled).bind fun c₁ => (c₁.next (shortStep [])).bind fun c₂ =>
      (c₂.session (.replicate 6 (shortStep []))).map fun c₃ =>
        ((c₁.move (shortStep [])).fatal?.map (·.kind), c₁.hasStream, c₃.isIdle,
          c₁.shared.inbound.messages.filterMap (notes.outgoing {}))) =
      some (some .unknownProtocol, true, true, [⟨1, [7]⟩]) := by
    decide +kernel
  obtain ⟨c₁, hb, hrun⟩ := Option.bind_eq_some_iff.1 hrun
  obtain ⟨c₂, hn, hrun⟩ := Option.bind_eq_some_iff.1 hrun
  obtain ⟨c₃, hs, hrun⟩ := Option.map_eq_some_iff.1 hrun
  obtain ⟨hkind, hrun⟩ := Prod.mk.inj hrun
  obtain ⟨hstream, hrun⟩ := Prod.mk.inj hrun
  obtain ⟨hidle, hmessages⟩ := Prod.mk.inj hrun
  obtain ⟨e, he, hkind⟩ := Option.map_eq_some_iff.1 hkind
  obtain ⟨-, -, hmoves⟩ := fatal_error_ends_session hc hb
  obtain ⟨-, steps, hafter⟩ := (hmoves _ c₂ hn).2 e he
  obtain ⟨-, hstate, -⟩ := hafter _ c₃ hs
  refine ⟨hc, c₁, c₂, c₃, e, hb, hmessages, hn, he, hs, hidle, ?_⟩
  rw [hstate hidle, hstream, ConnectionError.ending, ConnectionError.isViolation, hkind]
  rfl

end PeerMessaging
