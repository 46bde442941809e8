import PeerMessaging.Proofs.Link.Rounds
import PeerMessaging.Proofs.Link.Verdict

/-!
# What a move may be

Unlike a move of a session, a move of any history may also register a codec or a listener, start the
connection or make it as good as new. `Connection.Deed` says what that comes to as far as the
lifecycle, the loop and the listeners are concerned.
-/

namespace PeerMessaging

/-! ## Steps -/

section
variable {calls : SocketCalls} {s : Shared} {l : Loop} {task : Task} {rest : List Task}

/-- The state that is raised by a task, if it raises one. -/
def Task.raises (c : Lifecycle) : Task → Option ConnectionState
  | announce => c.apply.1
  | _ => none

/-- Whom a task tells of a state, if it tells anybody. -/
def Task.tellsOf : Task → Option (Listener × ConnectionState)
  | notify (.state state) (listener :: _) => some (listener, state)
  | _ => none

/-- A task that is fit for a round tells nobody of a state. -/
theorem Task.tellsOf_of_suits {state : ConnectionState} {task : Task}
    (h : task.suits state = true) : task.tellsOf = none := by
  unfold tellsOf
  split
  · cases h
  · rfl

/-- The state that an event tells of. -/
def Event.state? : Event → Option ConnectionState
  | state s => some s
  | _ => none

/-- A state is raised by an announcement, and told of by a task for that. -/
theorem Loop.step_states (calls : SocketCalls) (ht : l.tasks = task :: rest) :
    (l.step calls s).raised.bind Event.state? = task.raises s.lifecycle ∧
      ((l.step calls s).told.bind fun told => told.2.state?.map (told.1, ·)) = task.tellsOf := by
  cases task with
  | announce =>
    rw [step_announce calls ht, Task.raises, Lifecycle.apply_fst]
    split <;> exact ⟨rfl, rfl⟩
  | notify event listeners =>
    cases listeners with
    | nil => cases event <;> simp [step, ht, Task.raises, Task.tellsOf]
    | cons listener listeners =>
      cases event <;> simp [step, ht, Task.raises, Task.tellsOf, Event.state?]
  | report e => simp [step, ht, raise, Task.raises, Task.tellsOf, Event.state?]
  | dispatch items =>
    cases items with
    | nil => simp [step, ht, Task.raises, Task.tellsOf]
    | cons item items =>
      simp only [step, ht, dispatch]
      split
      · exact ⟨rfl, rfl⟩
      · split <;> exact ⟨rfl, rfl⟩
  | _ =>
    have t := l.step_turn calls s
    generalize l.step calls s = st at t
    cases t with
    | tell _ ht' hn =>
      cases ht.symm.trans ht'
      cases hn
    | announce _ ht' | dispatch _ ht' => cases ht.symm.trans ht'
    | _ => exact ⟨rfl, rfl⟩

end

/-! ## Moves -/

/-- The move is one that is made before a connection is started. -/
def Move.isPreparation : Move → Bool
  | register .. | registerNamed _ | addListener _ | removeListener _ => true
  | _ => false

namespace Connection

/-- A preparation may change who listens, and nothing else that counts. -/
structure Prepares (c : Connection) (m : Move) : Prop where
  raised_eq : (c.move m).raised = none
  told_eq : (c.move m).told = []
  lifecycle_eq : (c.move m).connection.shared.lifecycle = c.shared.lifecycle
  loop_eq : (c.move m).connection.loop = c.loop
  strays_eq : (c.move m).connection.strays = c.strays
  listeners_eq : (c.move m).connection.shared.listeners = c.shared.listeners ∨
    c.desired = .initial ∧
      ((∃ listener, (c.move m).connection.shared.listeners = c.shared.listeners.add listener) ∨
        ∃ id, (c.move m).connection.shared.listeners = (c.shared.listeners.remove id).2)

section
variable {c c' : Connection} {m : Move} {l : Loop}

/-- What is in place only as long as nothing has been started is refused before it is done. -/
theorem whileInitial_cases {α : Type} (c : Connection) (operation : String)
    (called : Except PeerError α × Connection) :
    c.desired = .initial ∧ c.whileInitial operation called = called ∨
      c.desired ≠ .initial ∧
        c.whileInitial operation called = (.error (.invalidState operation c.desired), c) := by
  unfold whileInitial requireInitial
  by_cases hd : c.desired = .initial
  · rw [if_pos hd]
    exact .inl ⟨hd, rfl⟩
  · rw [if_neg hd]
    exact .inr ⟨hd, rfl⟩

/-- A codec is registered or refused. -/
theorem answered_whileInitial {α : Type} (c : Connection) (operation : String)
    (result : Except PeerError α) (registry : Registry) :
    ∃ registry' refusal, answered (c.whileInitial operation (result, { c with registry })) =
      { connection := { c with registry := registry' }, refusal } := by
  rcases c.whileInitial_cases operation (result, { c with registry }) with ⟨-, hc⟩ | ⟨-, hc⟩ <;>
    rw [hc]
  · cases result with
    | ok => exact ⟨registry, none, rfl⟩
    | error e => exact ⟨registry, some e, rfl⟩
  · exact ⟨c.registry, some _, rfl⟩

/-- Codecs and listeners are registered without anything else that counts. -/
theorem prepares_of_isPreparation (h : m.isPreparation = true) : c.Prepares m := by
  have registered (h : ∃ registry refusal,
      c.move m = { connection := { c with registry }, refusal }) : c.Prepares m := by
    obtain ⟨registry, refusal, ho⟩ := h
    refine ⟨?_, ?_, ?_, ?_, ?_, .inl ?_⟩ <;> rw [ho]
  cases m with
  | register typeId codec => exact registered (c.answered_whileInitial _ _ _)
  | registerNamed codec => exact registered (c.answered_whileInitial _ _ _)
  | addListener listener =>
    rcases c.whileInitial_cases (α := Unit) "add a listener" (.ok (), { c with shared :=
        { c.shared with listeners := c.shared.listeners.add listener } }) with ⟨hd, hc⟩ | ⟨-, hc⟩
    · have ho : c.move (.addListener listener) = _ := congrArg answered hc
      refine ⟨?_, ?_, ?_, ?_, ?_, .inr ⟨hd, .inl ⟨listener, ?_⟩⟩⟩ <;> rw [ho] <;> rfl
    · exact registered ⟨c.registry, some _, congrArg answered hc⟩
  | removeListener id =>
    rcases c.whileInitial_cases "remove a listener" (.ok (c.shared.listeners.remove id).1,
        { c with shared := { c.shared with listeners := (c.shared.listeners.remove id).2 } })
      with ⟨hd, hc⟩ | ⟨-, hc⟩
    · have ho : c.move (.removeListener id) = _ := congrArg answered hc
      refine ⟨?_, ?_, ?_, ?_, ?_, .inr ⟨hd, .inr ⟨id, ?_⟩⟩⟩ <;> rw [ho] <;> rfl
    · exact registered ⟨c.registry, some _, congrArg answered hc⟩
  | _ => cases h

/-- Only a connection in its first state is started. -/
theorem desired_eq_of_starts (h : c.Starts c') : c.desired = .initial := by
  obtain ⟨first, endpoint, now, hf, hp, -⟩ := exists_started h
  exact ConnectionState.eq_initial_of_permits hp hf

/-- A start is what lets go of a loop that has not ended. -/
theorem strays_of_starts (h : c.Starts c') :
    c'.strays = c.strays ++ c.loop.toList.filter (!·.hasEnded) := by
  obtain ⟨first, endpoint, now, -, -, rfl⟩ := exists_started h
  rfl

/-- No other move does. -/
theorem strays_move (c : Connection) (m : Move) :
    (c.move m).connection.strays = c.strays ∨ c.Starts (c.move m).connection := by
  have started (hm : m.starts = true) :
      (c.move m).connection.strays = c.strays ∨ c.Starts (c.move m).connection := by
    rcases c.move_start_cases hm with ⟨c', hc, ho⟩ | ⟨e, ho⟩ <;> rw [ho]
    · exact .inr hc
    · exact .inl rfl
  cases m with
  | connect | listen => exact started rfl
  | register | registerNamed | addListener | removeListener =>
    exact .inl (prepares_of_isPreparation rfl).strays_eq
  | join =>
    refine .inl ?_
    simp only [move]
    split <;> rfl
  | reset onLoop =>
    rcases c.move_reset_cases onLoop with ⟨refusal, ho⟩ | ⟨raised, c', -, hr, ho⟩ <;> rw [ho]
    · exact .inl rfl
    · obtain ⟨-, -, rfl⟩ := reset_eq_ok hr
      exact .inl c.letGo_strays
  | send m =>
    refine .inl ?_
    simp only [move, send]
    split <;> rfl
  | work calls =>
    refine .inl ?_
    simp only [move]
    split <;> rfl
  | requestClose | await | takeNext | clearError | abandon => exact .inl rfl

/-- What a move may be, whatever there has been before. -/
inductive Deed (c : Connection) : Move → Prop
  /-- A codec or a listener is registered. -/
  | prepare {m : Move} (h : c.Prepares m) : Deed c m
  /-- Nothing is done that counts but that closing may be asked for. -/
  | beside {m : Move} (h : c.Beside m) : Deed c m
  /-- The connection is started. -/
  | start {m : Move} {first : ConnectionState} (hp : c.desired.permits first = true)
      (hf : first = .connecting ∨ first = .opening)
      (hs : (c.move m).connection.shared = { c.shared with lifecycle := ⟨c.state, first⟩ })
      (ht : (c.move m).connection.tasks = nextRound)
      (hr : (c.move m).raised = none) (htold : (c.move m).told = [])
      (hc : c.Starts (c.move m).connection) : Deed c m
  /-- The connection is made as good as new, and its listeners are told. -/
  | reset {onLoop : Bool} (hi : c.isIdle = true ∨ c.awaited = true)
      (hp : c.desired.permits .initial = true)
      (hs : (c.move (.reset onLoop)).connection.shared =
        { lifecycle := .new, listeners := c.shared.listeners })
      (hl : (c.move (.reset onLoop)).connection.loop = if c.awaited then c.loop else none)
      (hr : (c.move (.reset onLoop)).raised =
        (if c.state = .initial then none else some .initial).map .state)
      (ht : (c.move (.reset onLoop)).told =
        (c.move (.reset onLoop)).connection.toTell (c.move (.reset onLoop)).raised) :
      Deed c (.reset onLoop)
  /-- The loop makes a step. -/
  | work {calls : SocketCalls} {l : Loop} (hl : c.loop = some l)
      (hh : c.halts (.work calls) = false) : Deed c (.work calls)
  /-- The loop is ended at once. -/
  | halt {m : Move} (hh : c.halts m = true) : Deed c m

/-- A move is one of these. -/
theorem move_deed (c : Connection) (m : Move) : c.Deed m := by
  have started (hm : m.starts = true) : c.Deed m := by
    rcases c.move_start_cases hm with ⟨c', hc, ho⟩ | ⟨e, ho⟩
    · obtain ⟨first, endpoint, now, hf, hp, rfl⟩ := exists_started hc
      refine .start hp hf ?_ ?_ ?_ ?_ ?_ <;> rw [ho]
      · rfl
      · rfl
      · exact hc
    · cases m with
      | connect | listen => exact .beside (.of_eq _ ho rfl rfl rfl rfl)
      | _ => cases hm
  cases m with
  | register | registerNamed | addListener | removeListener =>
    exact .prepare (prepares_of_isPreparation rfl)
  | requestClose | await | join | send | takeNext | clearError =>
    exact .beside (beside_of_isCall rfl)
  | connect | listen => exact started rfl
  | reset onLoop =>
    rcases c.move_reset_cases onLoop with ⟨refusal, ho⟩ | ⟨raised, c', hi, hr, ho⟩
    · exact .beside (.of_eq _ ho rfl rfl rfl rfl)
    · obtain ⟨hp, hraised, rfl⟩ := reset_eq_ok hr
      refine .reset (Bool.or_eq_true_iff.1 hi) hp ?_ ?_ ?_ ?_ <;> rw [ho]
      · exact c.letGo_loop
      · exact hraised
  | work calls =>
    cases hl : c.loop with
    | none =>
      refine .beside (.of_eq none ?_ rfl rfl rfl rfl)
      simp only [move, Connection.work, hl, Option.map_none]
    | some l =>
      cases hh : c.halts (.work calls) with
      | true => exact .halt hh
      | false => exact .work hl hh
  | abandon => exact .halt rfl

end

end Connection

end PeerMessaging
