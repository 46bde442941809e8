import PeerMessaging.Proofs.Link.Deeds

/-!
# What listeners are told of the lifecycle

A state that is announced may follow the one before, or a connection is closed before anything has
been announced (`ConnectionState.Precedes`): what is pending is always due (`Lifecycle.Due`). A
listener hears the states one after another as they are announced (`Connection.Hears`). Both hold of
every move but a reset, which is more than one thing (`Chore`), and as long as no listener fails
when an end is pending (`Connection.failsAtEnd`). A loop that ends at any other time before its
session leaves a connection that announces nothing more (`Connection.Stranded`).
-/

namespace PeerMessaging

namespace ConnectionState

/-- The second state may be announced next after the first: it is one that may follow, or a
connection is closed before anything has been announced. -/
def Precedes (a b : ConnectionState) : Prop := a.permits b = true ∨ a = .initial ∧ b = .closing

instance : DecidableRel Precedes := fun a b =>
  inferInstanceAs (Decidable (a.permits b = true ∨ a = .initial ∧ b = .closing))

end ConnectionState

open ConnectionState (Precedes)

namespace Lifecycle

/-- The pending state may be announced next, if it is not current already. -/
def Due (c : Lifecycle) : Prop := c.desired = c.current ∨ Precedes c.current c.desired

section
variable {c : Lifecycle} {next : ConnectionState}

/-- A transition that may follow the current state leaves one due that may. -/
theorem Due.advance (h : c.Due) (hp : c.current.permits next = true) :
    (c.tryRequest next).Due := by
  rw [tryRequest_eq]
  split
  · exact .inr (.inl hp)
  · exact h

/-- So does a request to close, whatever is due. -/
theorem Due.ask (h : c.Due) : (c.tryRequest .closing).Due := by
  rw [tryRequest_eq]
  split
  · rename_i hp
    obtain ⟨current, desired⟩ := c
    refine .inr ?_
    rcases h with hd | h
    · have hd : desired = current := hd
      subst hd
      exact .inl hp
    · revert h hp
      cases current <;> cases desired <;> decide
  · exact h

/-- When what is pending has been applied, nothing is due. -/
theorem due_apply (c : Lifecycle) : c.apply.2.Due := by
  rw [apply_snd]
  exact .inl rfl

end

end Lifecycle

/-! ## In step -/

/-- The move is a reset. -/
def Move.resets : Move → Bool
  | reset _ => true
  | _ => false

namespace Connection

/-- A listener fails when an end is pending, so that the loop ends before it has told of it. -/
def failsAtEnd (c : Connection) : Move → Bool
  | .abandon => c.desired.isTerminal && !c.isIdle
  | _ => false

/-- The loop has ended before the session has. -/
structure Stranded (c : Connection) : Prop where
  tasks_eq : c.tasks = []
  begun : c.desired ≠ .initial
  isTerminal_eq : c.desired.isTerminal = false

/-- The connection has not been started, or its loop goes in rounds or has ended after one. When a
round has begun closing may be pending, and no other state but that of the round. -/
structure InStep (c : Connection) : Prop where
  due : c.shared.lifecycle.Due
  course : c.shared.lifecycle = .new ∧ c.tasks = [] ∨
    c.desired ≠ .initial ∧ Round c.shared.lifecycle c.tasks
  begun : c.tasks.any Task.announces = false → c.desired = c.state ∨ c.desired = .closing

section
variable {c c' : Connection} {m : Move} {l : Loop}

/-- Without a loop a connection that is neither started nor reset does nothing of itself. -/
theorem move_of_no_tasks (ht : c.tasks = []) (hr : m.resets = false)
    (hs : ¬ c.Starts (c.move m).connection) :
    (c.move m).connection.tasks = [] ∧ (c.move m).connection.strays = c.strays ∧
      ((c.move m).connection.shared.lifecycle = c.shared.lifecycle ∨
        (c.move m).connection.shared.lifecycle = c.shared.lifecycle.tryRequest .closing) ∧
      (c.move m).raised = none ∧ (c.move m).told = [] := by
  have hstrays := (c.strays_move m).resolve_right hs
  cases c.move_deed m with
  | prepare hm =>
    refine ⟨?_, hstrays, .inl hm.lifecycle_eq, hm.raised_eq, hm.told_eq⟩
    rw [tasks, hm.loop_eq]
    exact ht
  | beside hm =>
    refine ⟨?_, hstrays, ?_, hm.raised_eq, hm.told_eq⟩
    · rw [(tasks_of_loop_eq hm.loop_eq).1, ht]
    · rw [hm.lifecycle_eq]
      split
      · exact .inr rfl
      · exact .inl rfl
  | start _ _ _ _ _ _ hc => exact absurd hc hs
  | reset => cases hr
  | work hl hh =>
    have hnil := (tasks_of_some hl).symm.trans ht
    rw [move_work _ hl hh, Loop.step_of_hasEnded (List.isEmpty_iff.2 hnil)]
    exact ⟨hnil, rfl, .inl rfl, rfl, rfl⟩
  | halt hh =>
    refine ⟨tasks_of_halts hh, hstrays, ?_⟩
    rw [(move_of_halts hh).1]
    exact ⟨.inl rfl, rfl, rfl⟩

/-- Such a connection announces nothing more, whatever is called. -/
theorem Stranded.move (h : c.Stranded) (hr : m.resets = false) :
    (c.move m).connection.Stranded ∧ (c.move m).connection.strays = c.strays ∧
      (c.move m).raised = none ∧ (c.move m).told = [] := by
  have hs : ¬ c.Starts (c.move m).connection := fun hs => h.begun (desired_eq_of_starts hs)
  obtain ⟨ht, hstrays, hl, hraised, htold⟩ := move_of_no_tasks h.tasks_eq hr hs
  refine ⟨?_, hstrays, hraised, htold⟩
  rcases hl with hl | hl
  · exact ⟨ht, by rw [desired, hl]; exact h.begun, by rw [desired, hl]; exact h.isTerminal_eq⟩
  · rw [Lifecycle.tryRequest_eq] at hl
    split at hl
    · exact ⟨ht, by rw [desired, hl]; rintro ⟨⟩, by rw [desired, hl]; rfl⟩
    · exact ⟨ht, by rw [desired, hl]; exact h.begun, by rw [desired, hl]; exact h.isTerminal_eq⟩

namespace InStep

/-- Only a connection that has not been started can be. -/
theorem new_of_initial (h : c.InStep) (hd : c.desired = .initial) :
    c.shared.lifecycle = .new ∧ c.tasks = [] :=
  h.course.resolve_right fun ⟨hn, _⟩ => hn hd

/-- A loop that has ended leaves a connection in a terminal state, unless it has been made as good
as new. -/
theorem of_isIdle (h : c.InStep) (hi : c.tasks = []) :
    c.shared.lifecycle = .new ∨ c.state.isTerminal = true := by
  rcases h.course with ⟨hl, -⟩ | ⟨-, hround⟩
  · exact .inl hl
  · rw [hi] at hround
    exact .inr hround.ended_of_nil.1

/-- A step of the loop keeps in step. -/
theorem work {calls : SocketCalls} (h : c.InStep) (hl : c.loop = some l)
    (hh : c.halts (.work calls) = false) : (c.move (.work calls)).connection.InStep := by
  have htasks := tasks_of_some hl
  have hbegun := h.begun
  rw [move_work calls hl hh]
  rcases h.course with ⟨hnew, hnil⟩ | ⟨hn, hround⟩
  · rw [htasks] at hnil
    rw [Loop.step_of_hasEnded (List.isEmpty_iff.2 hnil)]
    exact ⟨h.due, .inl ⟨hnew, hnil⟩, fun _ => hbegun (by rw [htasks, hnil]; rfl)⟩
  · rw [htasks] at hround hbegun
    refine ⟨?_, .inr ⟨?_, hround.step calls⟩, hround.begun_step hbegun⟩
    · rcases hround.lifecycle_step calls with heq | heq | ⟨next, hp, -, heq⟩
      · exact heq ▸ h.due
      · exact heq ▸ c.shared.lifecycle.due_apply
      · exact heq ▸ h.due.advance hp
    · exact hround.desired_step_ne hn calls

/-- A request to close keeps in step. -/
theorem beside (h : c.InStep) (hm : c.Beside m) : (c.move m).connection.InStep := by
  have htasks := (tasks_of_loop_eq hm.loop_eq).1
  have hl := hm.lifecycle_eq
  cases ha : m.asks with
  | false =>
    rw [ha, if_neg Bool.false_ne_true] at hl
    refine ⟨hl ▸ h.due, ?_, ?_⟩
    · rw [desired, hl, htasks]
      exact h.course
    · rw [desired, state, hl, htasks]
      exact h.begun
  | true =>
    rw [ha, if_pos rfl] at hl
    refine ⟨hl ▸ h.due.ask, ?_, ?_⟩
    · rw [desired, hl, htasks]
      rcases h.course with ⟨hnew, hnil⟩ | ⟨hn, hround⟩
      · rw [hnew]
        exact .inl ⟨rfl, hnil⟩
      · refine .inr ⟨?_, hround.ask⟩
        rw [Lifecycle.tryRequest_eq]
        split
        · intro hi
          cases hi
        · exact hn
    · rw [desired, state, hl, htasks, Lifecycle.current_tryRequest, Lifecycle.tryRequest_eq]
      split
      · exact fun _ => .inr rfl
      · exact h.begun

/-- No move gets out of step but a reset and one that ends the loop at once. -/
theorem move (h : c.InStep) (hh : c.halts m = false) (hr : m.resets = false) :
    (c.move m).connection.InStep := by
  cases c.move_deed m with
  | prepare hm =>
    refine ⟨hm.lifecycle_eq ▸ h.due, ?_, ?_⟩
    · rw [desired, hm.lifecycle_eq, tasks, hm.loop_eq]
      exact h.course
    · rw [desired, state, hm.lifecycle_eq, tasks, hm.loop_eq]
      exact h.begun
  | beside hm => exact h.beside hm
  | @start m first hp hf hs ht =>
    obtain ⟨hnew, -⟩ := h.new_of_initial (ConnectionState.eq_initial_of_permits hp hf)
    have hl : (c.move m).connection.shared.lifecycle = ⟨.initial, first⟩ := by
      rw [hs, state, hnew]
      rfl
    refine ⟨?_, .inr ⟨?_, ?_⟩, fun hannounces => ?_⟩
    · rw [hl]
      rcases hf with rfl | rfl <;> exact .inr (.inl rfl)
    · rw [desired, hl]
      rcases hf with rfl | rfl <;> decide
    · rw [ht]
      exact .beginning _
    · rw [ht] at hannounces
      cases hannounces
  | reset => cases hr
  | work hl hh => exact h.work hl hh
  | halt hh' => cases hh.symm.trans hh'

/-- A loop that has a deadline to set is not about to end. -/
theorem isTerminal_of_halts (h : c.InStep) (hh : c.halts m = true) (hf : c.failsAtEnd m = false)
    (hn : c.tasks ≠ []) : c.desired.isTerminal = false := by
  cases m with
  | abandon =>
    have hi : c.isIdle = false := Bool.eq_false_iff.2 fun hi => hn (isIdle_iff.1 hi)
    simpa [failsAtEnd, hi] using hf
  | work calls =>
    obtain ⟨l, hl, ho⟩ := (Option.any_eq_true _ _).1 hh
    have htasks := tasks_of_some hl
    -- It acts on a state that is none of the ends, or it exchanges frames.
    have acting {rest : List Task} (ht : l.tasks = .act :: rest)
        (hs : c.state.isTerminal = false) : c.desired.isTerminal = false := by
      have hround := (h.course.resolve_left fun hnew => hn hnew.2).2
      rw [htasks, ht] at hround
      have hrest := hround.tail_of_act
      subst hrest
      rcases h.begun (by rw [htasks, ht]; rfl) with hd | hd <;> rw [hd]
      · exact hs
      · rfl
    unfold Loop.overruns Loop.allowance at ho
    split at ho
    · exact acting ‹_› (by rw [state, ‹c.shared.lifecycle.current = _›]; rfl)
    · exact acting ‹_› (by rw [state, ‹c.shared.lifecycle.current = _›]; rfl)
    · cases hw : l.writer with
      | none =>
        rw [hw] at ho
        cases ho
      | some encoder =>
        have hd : c.desired = .connected := by
          by_contra hd
          have hrests : l.Rests calls c.shared encoder := .inl hd
          simp [hw, hrests] at ho
        rw [hd]
        rfl
    · cases ho
  | _ => cases hh

/-- A loop that is ended at once, but not by a listener when an end is pending, leaves a connection
that announces nothing more, unless it had ended already. -/
theorem halt (h : c.InStep) (hh : c.halts m = true) (hf : c.failsAtEnd m = false) :
    (c.move m).connection.InStep ∧ c.tasks = [] ∨ (c.move m).connection.Stranded := by
  have hnil := tasks_of_halts hh
  have hshared : (c.move m).connection.shared = c.shared := by rw [(move_of_halts hh).1]
  cases ht : c.tasks with
  | nil =>
    refine .inl ⟨⟨hshared ▸ h.due, ?_, ?_⟩, rfl⟩
    · rw [desired, hshared, hnil]
      exact ht ▸ h.course
    · rw [desired, state, hshared, hnil]
      exact ht ▸ h.begun
  | cons task rest =>
    have hn : c.tasks ≠ [] := ht ▸ List.cons_ne_nil _ _
    refine .inr ⟨hnil, ?_, ?_⟩ <;> rw [desired, hshared]
    · exact (h.course.resolve_left fun hnew => hn hnew.2).1
    · exact h.isTerminal_of_halts hh hf hn

/-- A step of the loop announces the pending state if it is due, and nothing else. -/
theorem announce_work {calls : SocketCalls} (h : c.InStep) (hl : c.loop = some l)
    (hh : c.halts (.work calls) = false) :
    match (c.move (.work calls)).raised.bind Event.state? with
    | some s => Precedes c.state s ∧ (c.move (.work calls)).connection.state = s
    | none => (c.move (.work calls)).connection.state = c.state := by
  rw [move_work calls hl hh]
  cases ht : l.tasks with
  | nil =>
    rw [Loop.step_of_hasEnded (List.isEmpty_iff.2 ht)]
    rfl
  | cons task rest =>
    have hraised : (l.step calls c.shared).raised.bind Event.state? = _ :=
      (Loop.step_states calls ht).1
    have hlifecycle : (l.step calls c.shared).shared.lifecycle = _ :=
      (l.step_turn calls c.shared).lifecycle_eq ht
    dsimp only [after, state]
    rw [hraised, hlifecycle]
    cases task with
    | announce =>
      rw [Task.raises, Task.moves, Lifecycle.apply_snd, Lifecycle.apply_fst]
      split
      · rename_i hsome
        split at hsome
        · cases hsome
        · rename_i hne
          cases hsome
          exact ⟨h.due.resolve_left (Ne.symm hne), rfl⟩
      · rename_i hnone
        split at hnone
        · rename_i heq
          exact heq.symm
        · cases hnone
    | advance next => exact c.shared.lifecycle.current_tryRequest next
    | _ => rfl

/-- A state that is announced is one that may be announced next after the state before, and no other
state comes between. -/
theorem announce (h : c.InStep) (hh : c.halts m = false) (hr : m.resets = false) :
    match (c.move m).raised.bind Event.state? with
    | some s => Precedes c.state s ∧ (c.move m).connection.state = s
    | none => (c.move m).connection.state = c.state := by
  have unannounced (hr : (c.move m).raised = none)
      (hs : (c.move m).connection.state = c.state) :
      match (c.move m).raised.bind Event.state? with
      | some s => Precedes c.state s ∧ (c.move m).connection.state = s
      | none => (c.move m).connection.state = c.state := by
    rw [hr]
    exact hs
  cases c.move_deed m with
  | prepare hm => exact unannounced hm.raised_eq (congrArg Lifecycle.current hm.lifecycle_eq)
  | beside hm =>
    refine unannounced hm.raised_eq ?_
    rw [state, hm.lifecycle_eq]
    split
    · exact c.shared.lifecycle.current_tryRequest _
    · rfl
  | start _ _ hs _ hr => exact unannounced hr (by rw [state, hs])
  | reset => cases hr
  | work hl hh => exact h.announce_work hl hh
  | halt hh' => cases hh.symm.trans hh'

end InStep

end

end Connection

/-! ## What a listener hears -/

/-- The states that a listener is told of, of those known by a number. -/
def Outcome.heard (o : Outcome) (id : Nat) : List ConnectionState :=
  (o.told.filter (·.1.id = id)).filterMap (·.2.state?)

/-- How often a listener is still to be told of the state that is being told of. -/
def stillToHear (id : Nat) : List Task → Nat
  | .notify (.state _) rest :: _ => rest.countP (·.id = id)
  | _ => 0

namespace Connection

/-- The states that a listener hears in a history. -/
def delivered (id : Nat) (history : List Outcome) : List ConnectionState :=
  history.flatMap (·.heard id)

/-- How often a listener is registered. -/
def registrations (c : Connection) (id : Nat) : Nat :=
  c.shared.listeners.registered.countP (·.id = id)

/-- A listener has heard of this state last: it is the current one, or the current one is about to
be told, or the listener is not registered. -/
structure Hears (id : Nat) (last : ConnectionState) (c : Connection) : Prop where
  le : stillToHear id c.tasks ≤ c.registrations id
  pending : stillToHear id c.tasks ≠ 0 → Precedes last c.state
  settled : stillToHear id c.tasks = 0 →
    last = if c.registrations id = 0 then .initial else c.state

section
variable {c c' : Connection} {m : Move} {l : Loop} {id : Nat} {last : ConnectionState}

/-- While something else is told or done, nobody is to hear of a state. -/
theorem stillToHear_plan {plan : List Task} {state : ConnectionState}
    (hp : ∀ t ∈ plan, t.suits state = true) : stillToHear id (plan ++ nextRound) = 0 := by
  unfold stillToHear
  split
  · rename_i s rest tail ht
    cases plan with
    | nil => cases ht
    | cons task plan =>
      cases ht
      cases hp _ (.head _)
  · rfl

/-- A step of the loop leaves who is registered. -/
theorem registrations_after (c : Connection) (l : Loop) (calls : SocketCalls) :
    (c.after (l.step calls c.shared)).registrations id = c.registrations id :=
  congrArg (·.registered.countP (·.id = id)) (l.step_turn calls c.shared).listeners_eq

/-- A listener hears of a state in a step if it is the one that is told. -/
theorem heard_work {calls : SocketCalls} {task : Task} {rest : List Task} (hl : c.loop = some l)
    (hh : c.halts (.work calls) = false) (ht : l.tasks = task :: rest) :
    (c.move (.work calls)).heard id =
      ((task.tellsOf.filter (·.1.id = id)).map (·.2)).toList := by
  rw [move_work calls hl hh, ← (Loop.step_states calls ht).2]
  unfold Outcome.heard
  dsimp only
  cases (l.step calls c.shared).told with
  | none => rfl
  | some told =>
    obtain ⟨listener, event⟩ := told
    by_cases hid : listener.id = id <;> cases event <;> simp [Event.state?, Option.filter, hid]

namespace Hears

/-- A listener hears nothing new when nothing changes that it hears of. -/
theorem of_eq (hh : c.Hears id last) (hr : c'.registrations id = c.registrations id)
    (ht : stillToHear id c'.tasks = stillToHear id c.tasks) (hs : c'.state = c.state) :
    c'.Hears id last := by
  refine ⟨?_, ?_, ?_⟩ <;> rw [ht]
  · rw [hr]
    exact hh.le
  · rw [hs]
    exact hh.pending
  · rw [hr, hs]
    exact hh.settled

/-- When nobody is to hear of the current state any more, a listener has heard of it. -/
theorem of_settled (hr : c.registrations id ≠ 0) (ht : stillToHear id c.tasks = 0) :
    c.Hears id c.state := by
  refine ⟨?_, ?_, ?_⟩ <;> rw [ht]
  · exact Nat.zero_le _
  · exact fun h => absurd rfl h
  · exact fun _ => (if_neg hr).symm

/-- In the first state a listener has heard of no other last. -/
theorem of_initial (hs : c.state = .initial) (ht : stillToHear id c.tasks = 0) :
    c.Hears id .initial := by
  refine ⟨?_, ?_, ?_⟩ <;> rw [ht]
  · exact Nat.zero_le _
  · exact fun h => absurd rfl h
  · intro _
    split
    · rfl
    · exact hs.symm

theorem eq_initial (hh : c.Hears id last) (hs : c.state = .initial)
    (ht : stillToHear id c.tasks = 0) : last = .initial := by
  have hlast := hh.settled ht
  rwa [hs, ite_self] at hlast

/-- Before the start a listener hears nothing, whoever is registered and removed. -/
theorem prepare (hh : c.Hears id last) (h : c.InStep) (hm : c.Prepares m) :
    (c.move m).connection.Hears id last := by
  have htasks : (c.move m).connection.tasks = c.tasks := by rw [tasks, hm.loop_eq]; rfl
  have hstate : (c.move m).connection.state = c.state := congrArg Lifecycle.current hm.lifecycle_eq
  rcases hm.listeners_eq with hlisteners | ⟨hd, -⟩
  · refine hh.of_eq ?_ (by rw [htasks]) hstate
    rw [registrations, hlisteners]
    rfl
  · obtain ⟨hnew, hnil⟩ := h.new_of_initial hd
    have hinitial : c.state = .initial := congrArg Lifecycle.current hnew
    obtain rfl := hh.eq_initial hinitial (by rw [hnil]; rfl)
    exact of_initial (hstate.trans hinitial) (by rw [htasks, hnil]; rfl)

/-- A listener that is told of a state while the current one is announced hears of it. -/
theorem tell {listener : Listener} {listeners : List Listener} (hh : c.Hears id last)
    (ht : c.tasks = [.notify (.state c.state) (listener :: listeners), .act])
    (ht' : c'.tasks = [.notify (.state c.state) listeners, .act])
    (hr : c'.registrations id = c.registrations id) (hs : c'.state = c.state)
    (hone : c.registrations id ≤ 1) :
    if listener.id = id then Precedes last c.state ∧ c'.Hears id c.state else c'.Hears id last := by
  have hstill : stillToHear id c.tasks = (listener :: listeners).countP (·.id = id) := by
    rw [ht]
    rfl
  have hstill' : stillToHear id c'.tasks = listeners.countP (·.id = id) := by rw [ht']; rfl
  split
  · rename_i hid
    have hcount : (listener :: listeners).countP (·.id = id) =
        listeners.countP (·.id = id) + 1 := List.countP_cons_of_pos (by simp [hid])
    have hle := hh.le
    refine ⟨hh.pending (by omega), ?_⟩
    rw [← hs]
    exact of_settled (by omega) (by omega)
  · rename_i hid
    have hcount : (listener :: listeners).countP (·.id = id) = listeners.countP (·.id = id) :=
      List.countP_cons_of_neg (by simp [hid])
    exact hh.of_eq hr (by omega) hs

/-- When the pending state becomes the current one every registered listener is to hear of it. -/
theorem announce (hh : c.Hears id last) (hzero : stillToHear id c.tasks = 0)
    (hp : Precedes c.state c'.state)
    (ht' : stillToHear id c'.tasks = c.registrations id)
    (hr : c'.registrations id = c.registrations id) : c'.Hears id last := by
  have hlast := hh.settled hzero
  refine ⟨?_, ?_, ?_⟩ <;> rw [ht']
  · exact Nat.le_of_eq hr.symm
  · intro hn
    rw [hlast, if_neg hn]
    exact hp
  · intro hn
    rw [hlast, hr, if_pos hn, if_pos hn]

/-- While listeners are told of the current state one of them hears of it in each step. -/
theorem work_told {calls : SocketCalls} {listeners : List Listener} (hh : c.Hears id last)
    (hl : c.loop = some l) (hw : c.halts (.work calls) = false)
    (ht : l.tasks = [.notify (.state c.state) listeners, .act]) (hone : c.registrations id ≤ 1) :
    (c.move (.work calls)).heard id = [] ∧ (c.after (l.step calls c.shared)).Hears id last ∨
      ∃ s, (c.move (.work calls)).heard id = [s] ∧ Precedes last s ∧
        (c.after (l.step calls c.shared)).Hears id s := by
  have htasks : c.tasks = [.notify (.state c.state) listeners, .act] := (tasks_of_some hl).trans ht
  have hreg : (c.after (l.step calls c.shared)).registrations id = c.registrations id :=
    registrations_after c l calls
  have hheard : (c.move (.work calls)).heard id = _ := heard_work hl hw ht
  cases listeners with
  | nil =>
    refine .inl ⟨hheard, hh.of_eq hreg ?_ ?_⟩
    · rw [htasks, tasks, after]
      simp only [Loop.step, ht]
      rfl
    · rw [state, after]
      simp only [Loop.step, ht]
      rfl
  | cons listener listeners =>
    have ht' : (c.after (l.step calls c.shared)).tasks =
        [.notify (.state c.state) listeners, .act] := by
      rw [tasks, after]
      simp only [Loop.step, ht]
      rfl
    have hs : (c.after (l.step calls c.shared)).state = c.state := by
      rw [state, after]
      simp only [Loop.step, ht]
      rfl
    have htell := hh.tell htasks ht' hreg hs hone
    split at htell
    · rename_i hid
      refine .inr ⟨c.state, ?_, htell⟩
      rw [hheard]
      simp [Task.tellsOf, Option.filter, hid]
    · rename_i hid
      refine .inl ⟨?_, htell⟩
      rw [hheard]
      simp [Task.tellsOf, Option.filter, hid]

/-- When a round begins every registered listener is to hear of its state, if that is new. -/
theorem work_announce (hh : c.Hears id last) (h : c.InStep) (hl : c.loop = some l)
    (ht : l.tasks = nextRound) (calls : SocketCalls) :
    (c.after (l.step calls c.shared)).Hears id last := by
  have hzero : stillToHear id c.tasks = 0 := by rw [tasks_of_some hl, ht]; rfl
  rw [Loop.step_announce calls ht]
  split
  · exact hh.of_eq rfl hzero.symm rfl
  · rename_i hne
    exact hh.announce hzero (h.due.resolve_left (Ne.symm hne)) rfl rfl

/-- A step of the loop lets a listener hear of one state at most, which may be told next. -/
theorem work {calls : SocketCalls} (hh : c.Hears id last) (h : c.InStep) (hl : c.loop = some l)
    (hw : c.halts (.work calls) = false) (hone : c.registrations id ≤ 1) :
    (c.move (.work calls)).heard id = [] ∧ (c.move (.work calls)).connection.Hears id last ∨
      ∃ s, (c.move (.work calls)).heard id = [s] ∧ Precedes last s ∧
        (c.move (.work calls)).connection.Hears id s := by
  have hc' : (c.move (.work calls)).connection = c.after (l.step calls c.shared) := by
    rw [move_work calls hl hw]
  have htasks := tasks_of_some hl
  -- A step that tells nobody of a state, and changes none, leaves what has been heard.
  have unheard {task : Task} {rest : List Task} (ht : l.tasks = task :: rest)
      (hn : task.tellsOf = none) : (c.move (.work calls)).heard id = [] := by
    rw [heard_work hl hw ht, hn]
    rfl
  have unchanged (hzero : stillToHear id l.tasks = 0)
      (hzero' : stillToHear id (l.step calls c.shared).loop.tasks = 0)
      (hs : (l.step calls c.shared).shared.lifecycle.current = c.state) :
      (c.after (l.step calls c.shared)).Hears id last := by
    refine hh.of_eq (registrations_after c l calls) ?_ hs
    rw [htasks, hzero]
    exact hzero'
  have ended (hnil : l.tasks = []) :
      (c.move (.work calls)).heard id = [] ∧ (c.after (l.step calls c.shared)).Hears id last := by
    have hstep : l.step calls c.shared = { shared := c.shared, loop := l } :=
      Loop.step_of_hasEnded (List.isEmpty_iff.2 hnil)
    refine ⟨?_, unchanged (by rw [hnil]; rfl) ?_ ?_⟩
    · rw [move_work calls hl hw, hstep]
      rfl
    · rw [hstep, hnil]
      rfl
    · rw [hstep]
      rfl
  rw [hc']
  rcases h.course with ⟨-, hnil⟩ | ⟨-, hround⟩
  · exact .inl (ended (htasks.symm.trans hnil))
  rw [htasks] at hround
  generalize ht : l.tasks = tasks at hround
  cases hround with
  | told => exact hh.work_told hl hw ht hone
  | act =>
    have hlifecycle := (l.step_turn calls c.shared).lifecycle_eq ht
    refine .inl ⟨unheard ht rfl, unchanged (by rw [ht]; rfl) ?_ (congrArg _ hlifecycle)⟩
    cases hc : c.shared.lifecycle.current.isTerminal with
    | true => rw [Loop.act_of_isTerminal calls ht hc]; rfl
    | false =>
      obtain ⟨plan, ht', hm⟩ := Loop.act_plan calls ht hc
      rw [ht']
      exact stillToHear_plan hm.suits
  | @plan plan hp =>
    cases plan with
    | nil => exact .inl ⟨unheard ht rfl, hh.work_announce h hl ht calls⟩
    | cons task plan =>
      obtain ⟨plan', ht', hr⟩ := l.step_replaces calls ht (hp _ (.head _))
      have htail : (l.step calls c.shared).loop.tasks = (plan' ++ plan) ++ nextRound :=
        ht'.trans (List.append_assoc ..).symm
      have hlifecycle := (l.step_turn calls c.shared).lifecycle_eq ht
      refine .inl ⟨unheard ht ?_, unchanged ?_ ?_ ?_⟩
      · exact Task.tellsOf_of_suits (hp _ (.head _))
      · rw [ht]
        exact stillToHear_plan hp
      · rw [htail]
        exact stillToHear_plan
          (List.forall_mem_append.2 ⟨hr.suits, fun t ht => hp t (.tail _ ht)⟩)
      · rw [hlifecycle]
        exact Task.current_moves (hp _ (.head _))
  | ended => exact .inl (ended ht)

/-- A move lets a listener hear of one state at most, which may be told next, as long as it is not
registered twice. -/
theorem move (hh : c.Hears id last) (h : c.InStep) (hn : c.halts m = false)
    (hr : m.resets = false) (hone : (c.move m).connection.registrations id ≤ 1) :
    (c.move m).heard id = [] ∧ (c.move m).connection.Hears id last ∨
      ∃ s, (c.move m).heard id = [s] ∧ Precedes last s ∧ (c.move m).connection.Hears id s := by
  have unheard (ht : (c.move m).told = []) : (c.move m).heard id = [] := by
    rw [Outcome.heard, ht]
    rfl
  cases c.move_deed m with
  | prepare hm => exact .inl ⟨unheard hm.told_eq, hh.prepare h hm⟩
  | beside hm =>
    refine .inl ⟨unheard hm.told_eq, hh.of_eq ?_ ?_ ?_⟩
    · rw [registrations, hm.listeners_eq]
      rfl
    · rw [(tasks_of_loop_eq hm.loop_eq).1]
    · rw [state, hm.lifecycle_eq]
      split
      · exact c.shared.lifecycle.current_tryRequest _
      · rfl
  | start hp hf hs ht hr htold =>
    obtain ⟨-, hnil⟩ := h.new_of_initial (ConnectionState.eq_initial_of_permits hp hf)
    refine .inl ⟨unheard htold, hh.of_eq ?_ ?_ ?_⟩
    · rw [registrations, hs]
      rfl
    · rw [ht, hnil]
      rfl
    · rw [state, hs]
  | reset => cases hr
  | @work calls l hl hw =>
    refine hh.work h hl hw ?_
    rw [move_work calls hl hw] at hone
    exact le_of_eq_of_le (registrations_after c l calls).symm hone
  | halt hw => cases hn.symm.trans hw

end Hears

end

end Connection

end PeerMessaging
