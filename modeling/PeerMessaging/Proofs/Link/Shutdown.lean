import Mathlib.Data.Prod.Lex
import Mathlib.Order.OrderIsoNat
import PeerMessaging.Proofs.Link.Rounds
import PeerMessaging.Proofs.Link.Verdict

/-!
# Shutting down

A loop that is about to close, or to end, does so whatever else happens: it finishes the round that
it is in, shuts down in the next unless it has done that already, and finds in the one after that
that it has come to an end (`requested_shutdown_completes`). How many rounds it can still begin is
`roundsAhead`. Together with what its tasks can still lead to, and with what they cost, that is less
after each step (`Round.step_ahead`). Its deadlines must be times that the clock can tell
(`Socket.Fits`): otherwise it does not come to an end (`shutdown_beyond_clock`).
-/

namespace PeerMessaging

/-! ## What is ahead -/

/-- The rounds that a loop about to stop can still begin: one to shut down and one to end. -/
def roundsAhead (c : Lifecycle) (tasks : List Task) : Nat :=
  if tasks.any Task.announces then
    if c.desired.isTerminal || tasks.any Task.shuts then 1 else 2
  else if c.current.isTerminal then 0
  else if c.current = .closing then 1
  else 2

/-- The state of this round is still to be acted on. -/
def actsAhead (tasks : List Task) : Nat :=
  if tasks.isEmpty || tasks.any Task.announces then 0 else 1

/-- How often a loop about to stop can still come to more tasks: thrice in what is planned in a
round. -/
def leadsAhead (c : Lifecycle) (tasks : List Task) : Nat :=
  4 * (roundsAhead c tasks + actsAhead tasks) + opens tasks

/-- What a loop about to stop has still to do: what tasks cost comes after what they can lead to. -/
def workAhead (s : Shared) (tasks : List Task) : Nat ×ₗ Nat :=
  toLex (leadsAhead s.lifecycle tasks, costs s.listeners.length tasks)

section
variable {calls : SocketCalls} {s s' : Shared} {l : Loop} {task : Task}
  {rest plan tasks : List Task}
  {c : Lifecycle}

theorem opens_append : opens (plan ++ rest) = opens plan + opens rest := by
  induction plan with
  | nil => exact (Nat.zero_add _).symm
  | cons task plan ih => rw [List.cons_append, opens, opens, ih, Nat.add_assoc]

/-- After what has been planned a loop begins a round in which it ends, and one before that unless
an end is pending or a shutdown has been planned. -/
theorem roundsAhead_plan :
    roundsAhead c (plan ++ nextRound) =
      if c.desired.isTerminal || plan.any Task.shuts then 1 else 2 := by
  have ha : (plan ++ nextRound).any Task.announces = true := by simp [nextRound, Task.announces]
  have hs : (plan ++ nextRound).any Task.shuts = plan.any Task.shuts := by
    simp [nextRound, Task.shuts]
  rw [roundsAhead, if_pos ha, hs]

/-- In the act of a round the rounds ahead are those after the current state. -/
theorem roundsAhead_act :
    roundsAhead c [.act] =
      if c.current.isTerminal then 0 else if c.current = .closing then 1 else 2 := rfl

theorem roundsAhead_le_two (c : Lifecycle) (tasks : List Task) : roundsAhead c tasks ≤ 2 := by
  unfold roundsAhead
  repeat' split
  all_goals omega

theorem leadsAhead_plan :
    leadsAhead c (plan ++ nextRound) = 4 * roundsAhead c (plan ++ nextRound) + opens plan := by
  have ha : (plan ++ nextRound).any Task.announces = true := by simp [nextRound, Task.announces]
  have hacts : actsAhead (plan ++ nextRound) = 0 := by
    rw [actsAhead, ha, Bool.or_true, if_pos rfl]
  rw [leadsAhead, hacts, opens_append]
  rfl

theorem leadsAhead_act : leadsAhead c [.act] = 4 * (roundsAhead c [.act] + 1) := rfl

/-- There is less ahead if it leads to less. -/
theorem workAhead_lt_of_leads {tasks' : List Task}
    (h : leadsAhead s'.lifecycle tasks' < leadsAhead s.lifecycle tasks) :
    workAhead s' tasks' < workAhead s tasks := Prod.Lex.toLex_lt_toLex.2 (.inl h)

/-- There is less ahead if it leads to no more and costs less. -/
theorem workAhead_lt_of_costs {tasks' : List Task}
    (hl : leadsAhead s'.lifecycle tasks' ≤ leadsAhead s.lifecycle tasks)
    (hc : costs s'.listeners.length tasks' < costs s.listeners.length tasks) :
    workAhead s' tasks' < workAhead s tasks := by
  rcases Nat.lt_or_eq_of_le hl with hlt | heq
  · exact workAhead_lt_of_leads hlt
  · exact Prod.Lex.toLex_lt_toLex.2 (.inr ⟨heq, hc⟩)

/-- A task that ends a shutdown leaves an end pending, and so does every task when one was. -/
theorem Task.isTerminal_moves (hs : task.suits c.current = true)
    (hd : c.desired.isEnding = true) (h : c.desired.isTerminal = true ∨ task.shuts = true) :
    (task.moves c).desired.isTerminal = true := by
  cases task with
  | announce => cases hs
  | advance next =>
    rw [moves, Lifecycle.tryRequest_eq]
    obtain ⟨-, hn⟩ : c.current.permits next = true ∧ next ≠ .initial := by
      simpa [suits] using hs
    split
    · rename_i hp
      generalize c.desired = desired at hp hd h
      cases desired <;> cases next <;> simp_all [ConnectionState.permits,
        ConnectionState.isTerminal, shuts]
    · rename_i hp
      generalize c.desired = desired at hp hd h
      cases desired <;> cases next <;> simp_all [ConnectionState.permits,
        ConnectionState.isTerminal, shuts, ConnectionState.isEnding]
  | _ => simpa [moves, shuts] using h

namespace Round

/-- With an announcement there is one round less ahead: that of a shutdown or that of the end. -/
theorem roundsAhead_announce (ht : l.tasks = nextRound)
    (hd : s.lifecycle.desired.isEnding = true) (calls : SocketCalls) :
    let st := l.step calls s
    roundsAhead st.shared.lifecycle st.loop.tasks + 1 = roundsAhead s.lifecycle l.tasks ∧
      (s.lifecycle.desired = .closing ∧ roundsAhead s.lifecycle l.tasks = 2 ∨
        s.lifecycle.desired.isTerminal = true ∧ roundsAhead s.lifecycle l.tasks = 1) ∧
      workAhead st.shared st.loop.tasks < workAhead s l.tasks := by
  have hbefore : roundsAhead s.lifecycle nextRound =
      if s.lifecycle.desired.isTerminal then 1 else 2 := by
    rw [← List.nil_append nextRound, roundsAhead_plan]
    simp
  have hleads : leadsAhead s.lifecycle nextRound = 4 * roundsAhead s.lifecycle nextRound := by
    rw [← List.nil_append nextRound, leadsAhead_plan]
    rfl
  have hafter : roundsAhead ⟨s.lifecycle.desired, s.lifecycle.desired⟩ [.act] + 1 =
      roundsAhead s.lifecycle nextRound := by
    rw [hbefore, roundsAhead_act]
    generalize s.lifecycle.desired = desired at hd
    cases desired <;> first | rfl | cases hd
  have hends : s.lifecycle.desired = .closing ∧ roundsAhead s.lifecycle nextRound = 2 ∨
      s.lifecycle.desired.isTerminal = true ∧ roundsAhead s.lifecycle nextRound = 1 := by
    rw [hbefore]
    generalize s.lifecycle.desired = desired at hd
    cases desired <;> first | exact .inl ⟨rfl, rfl⟩ | exact .inr ⟨rfl, rfl⟩ | cases hd
  dsimp only
  rw [Loop.step_announce calls ht, ht]
  split
  · rename_i hsame
    have hl : s.lifecycle = ⟨s.lifecycle.desired, s.lifecycle.desired⟩ :=
      congrArg (Lifecycle.mk · s.lifecycle.desired) hsame
    rw [← hl] at hafter
    refine ⟨hafter, hends, workAhead_lt_of_costs ?_ (Nat.lt_add_of_pos_left (Nat.succ_pos _))⟩
    rw [hleads, ← hafter]
    exact Nat.le_of_eq leadsAhead_act
  · refine ⟨hafter, hends, workAhead_lt_of_costs ?_ ?_⟩
    · rw [hleads, ← hafter]
      exact Nat.le_of_eq leadsAhead_act
    · exact Nat.add_lt_add_right (Nat.lt_succ_self _) _

/-- With what is planned in a round there are no more rounds ahead, and there is less to do after a
step. -/
theorem roundsAhead_step_le {plan : List Task} (ht : l.tasks = task :: (plan ++ nextRound))
    (hs : task.suits s.lifecycle.current = true) (hd : s.lifecycle.desired.isEnding = true)
    (calls : SocketCalls) :
    let st := l.step calls s
    roundsAhead st.shared.lifecycle st.loop.tasks ≤ roundsAhead s.lifecycle l.tasks ∧
      workAhead st.shared st.loop.tasks < workAhead s l.tasks := by
  obtain ⟨plan', ht', hr⟩ := l.step_replaces calls ht hs
  have htasks : l.tasks = (task :: plan) ++ nextRound := ht
  have htasks' : (l.step calls s).loop.tasks = (plan' ++ plan) ++ nextRound := by
    rw [ht', List.append_assoc]
  have hle : roundsAhead (l.step calls s).shared.lifecycle (l.step calls s).loop.tasks ≤
      roundsAhead s.lifecycle l.tasks := by
    rw [htasks', htasks, roundsAhead_plan, roundsAhead_plan,
      (l.step_turn calls s).lifecycle_eq ht, List.any_append, hr.shuts_eq, List.any_cons]
    by_cases h : s.lifecycle.desired.isTerminal = true ∨ task.shuts = true
    · rw [Task.isTerminal_moves hs hd h, Bool.true_or, if_pos rfl]
      split <;> omega
    · obtain ⟨hterminal, hshuts⟩ := not_or.1 h
      rw [Bool.not_eq_true] at hterminal hshuts
      rw [hterminal, hshuts]
      cases (task.moves s.lifecycle).desired.isTerminal <;> cases plan.any Task.shuts <;> decide
  have hleads : leadsAhead (l.step calls s).shared.lifecycle (l.step calls s).loop.tasks =
      4 * roundsAhead (l.step calls s).shared.lifecycle (l.step calls s).loop.tasks +
        (opens plan' + opens plan) := by
    rw [htasks', leadsAhead_plan, opens_append]
  have hleads₀ : leadsAhead s.lifecycle l.tasks =
      4 * roundsAhead s.lifecycle l.tasks + (task.opens + opens plan) := by
    rw [htasks, leadsAhead_plan]
    rfl
  refine ⟨hle, ?_⟩
  have hconnected : s.lifecycle.desired ≠ .connected := by
    intro h
    rw [h] at hd
    cases hd
  rcases hr.lighter hconnected with hlt | ⟨heq, hlt⟩
  · refine workAhead_lt_of_leads ?_
    omega
  · refine workAhead_lt_of_costs (by omega) ?_
    rw [(l.step_turn calls s).listeners_eq, ht', ht, costs_append, costs]
    omega

/-- With what a state asks for there are no more rounds ahead, and there is less to do. -/
theorem roundsAhead_act_le (ht : l.tasks = [.act]) (calls : SocketCalls) :
    let st := l.step calls s
    roundsAhead st.shared.lifecycle st.loop.tasks ≤ roundsAhead s.lifecycle l.tasks ∧
      workAhead st.shared st.loop.tasks < workAhead s l.tasks := by
  have hl : (l.step calls s).shared.lifecycle = s.lifecycle :=
    (l.step_turn calls s).lifecycle_eq ht
  cases hc : s.lifecycle.current.isTerminal with
  | true =>
    have hahead (tasks : List Task) (hn : tasks.any Task.announces = false) :
        roundsAhead s.lifecycle tasks = 0 := by
      rw [roundsAhead, hn, if_neg Bool.false_ne_true, if_pos hc]
    rw [Loop.act_of_isTerminal calls ht hc, ht]
    refine ⟨Nat.le_of_eq ((hahead [] rfl).trans (hahead [.act] rfl).symm), workAhead_lt_of_leads ?_⟩
    dsimp only
    rw [leadsAhead_act, leadsAhead, hahead [] rfl, hahead [.act] rfl]
    decide
  | false =>
    obtain ⟨plan, ht', hm⟩ := Loop.act_plan calls ht hc
    have hle : roundsAhead s.lifecycle (plan ++ nextRound) ≤ roundsAhead s.lifecycle [.act] := by
      rw [roundsAhead_act, hc, if_neg Bool.false_ne_true]
      split
      · rename_i hclosing
        rw [roundsAhead_plan, hm.shuts_of_closing hclosing, Bool.or_true, if_pos rfl]
      · exact roundsAhead_le_two _ _
    dsimp only
    rw [ht', ht, hl]
    refine ⟨hle, workAhead_lt_of_leads ?_⟩
    have hopens := hm.opens_le
    rw [hl, leadsAhead_plan, leadsAhead_act]
    omega

/-- While listeners are told of the current state there are as many rounds ahead, and less to do
with each that has been told. -/
theorem roundsAhead_told_le {event : Event} {listeners : List Listener}
    (ht : l.tasks = [.notify event listeners, .act]) (calls : SocketCalls) :
    let st := l.step calls s
    roundsAhead st.shared.lifecycle st.loop.tasks ≤ roundsAhead s.lifecycle l.tasks ∧
      workAhead st.shared st.loop.tasks < workAhead s l.tasks := by
  cases listeners with
  | nil =>
    simp only [Loop.step, ht]
    exact ⟨Nat.le_refl _, workAhead_lt_of_costs (Nat.le_refl _)
      (Nat.lt_add_of_pos_left (Nat.succ_pos _))⟩
  | cons listener listeners =>
    simp only [Loop.step, ht]
    exact ⟨Nat.le_refl _, workAhead_lt_of_costs (Nat.le_refl _)
      (Nat.add_lt_add_right (Nat.lt_succ_self _) _)⟩

/-- A step of a loop that is about to stop leaves less to do. No more rounds are ahead, and one less
if it has begun a round: that of a shutdown or that of the end. -/
theorem step_ahead (h : Round s.lifecycle l.tasks) (hd : s.lifecycle.desired.isEnding = true)
    (hn : l.tasks ≠ []) (calls : SocketCalls) :
    let st := l.step calls s
    workAhead st.shared st.loop.tasks < workAhead s l.tasks ∧
      roundsAhead st.shared.lifecycle st.loop.tasks ≤ roundsAhead s.lifecycle l.tasks ∧
      ∀ rest, l.tasks = .announce :: rest →
        roundsAhead st.shared.lifecycle st.loop.tasks + 1 = roundsAhead s.lifecycle l.tasks ∧
        (s.lifecycle.desired = .closing ∧ roundsAhead s.lifecycle l.tasks = 2 ∨
          s.lifecycle.desired.isTerminal = true ∧ roundsAhead s.lifecycle l.tasks = 1) := by
  generalize ht : l.tasks = tasks at h hn
  cases h with
  | told =>
    obtain ⟨hle, hlt⟩ := roundsAhead_told_le ht calls
    rw [ht] at hle hlt
    exact ⟨hlt, hle, nofun⟩
  | act =>
    obtain ⟨hle, hlt⟩ := roundsAhead_act_le ht calls
    rw [ht] at hle hlt
    exact ⟨hlt, hle, nofun⟩
  | @plan plan hp =>
    cases plan with
    | nil =>
      obtain ⟨heq, hends, hlt⟩ := roundsAhead_announce ht hd calls
      rw [ht] at heq hends hlt
      exact ⟨hlt, Nat.le.intro heq, fun _ _ => ⟨heq, hends⟩⟩
    | cons task plan =>
      obtain ⟨hle, hlt⟩ := roundsAhead_step_le ht (hp _ (.head _)) hd calls
      rw [ht] at hle hlt
      refine ⟨hlt, hle, fun rest hrest => ?_⟩
      cases hrest
      cases hp _ (.head _)
  | ended => exact absurd rfl hn

end Round

end

/-! ## Sessions in rounds -/

/-- The clock can show the deadlines that a loop which is about to stop counts from this moment:
those of an exchange of frames and of the last flush. -/
def ConnectionConfig.Fits (config : ConnectionConfig) (now : Moment) : Prop :=
  now + config.readTimeout ≤ Moment.last ∧ now + config.flushTimeout ≤ Moment.last

instance (config : ConnectionConfig) (now : Moment) : Decidable (config.Fits now) :=
  inferInstanceAs (Decidable (_ ∧ _))

namespace Connection

/-- The state of the round that begins in a move. -/
def roundBegun (c : Connection) (m : Move) : Option ConnectionState :=
  match m, c.tasks with
  | .work _, .announce :: _ => some c.desired
  | _, _ => none

/-- The connection after the first moves of an endless history. -/
def run (c : Connection) (moves : ℕ → Move) : ℕ → Connection
  | 0 => c
  | n + 1 => ((c.run moves n).move (moves n)).connection

/-- The sockets have been let go of, and so have the messages to be sent. -/
structure Released (c : Connection) : Prop where
  outbound_eq : c.shared.outbound.messages = []
  sockets_eq : ∀ l, c.loop = some l → l.listener = none ∧ l.reader = none ∧ l.writer = none

/-- A session has come to its end: its loop has ended, in a terminal state, with nothing pending and
everything let go of. -/
structure Finished (c : Connection) : Prop where
  isIdle : c.isIdle = true
  isTerminal : c.state.isTerminal = true
  desired_eq : c.desired = c.state
  released : c.Released

/-- A session goes in rounds, and lets go of everything at its end. -/
structure InRounds (c : Connection) : Prop where
  begun : 1 ≤ c.desired.stage
  round : Round c.shared.lifecycle c.tasks
  released : c.tasks = [] → c.Released

section
variable {c c' : Connection} {m : Move} {l : Loop} {registry : Registry}
  {config : ConnectionConfig}

/-- Everything that was let go of stays so beside a loop that has ended. -/
theorem Released.beside (h : c.Released) (hm : c.Beside m) (ht : c.desired.isTerminal = true) :
    (c.move m).connection.Released := by
  refine ⟨?_, fun l hl => ?_⟩
  case refine_2 =>
    rcases hm.loop_eq with heq | ⟨-, hnone⟩
    · exact h.sockets_eq l (heq ▸ hl)
    · rw [hnone] at hl
      cases hl
  cases hs : m.sends with
  | false =>
    have hle := hm.outbound_le
    rw [hs, h.outbound_eq] at hle
    exact List.eq_nil_of_length_eq_zero (Nat.le_zero.1 hle)
  | true =>
    -- A message is dropped once the connection has stopped.
    cases m with
    | send message =>
      have hsend : (c.move (.send message)).connection = c := if_pos ht
      rw [hsend]
      exact h.outbound_eq
    | _ => cases hs

namespace InRounds

/-- A loop that has ended has done so for good. -/
theorem finished (h : c.InRounds) (hi : c.isIdle = true) : c.Finished := by
  have ht := isIdle_iff.1 hi
  have hround := h.round
  rw [ht] at hround
  obtain ⟨hc, hd⟩ := hround.ended_of_nil
  exact ⟨hi, hc, hd, h.released ht⟩

/-- A session goes in rounds beside the loop. -/
theorem beside (h : c.InRounds) (hm : c.Beside m)
    (hd : (c.move m).connection.desired ≠ .initial) : (c.move m).connection.InRounds := by
  have htasks := (tasks_of_loop_eq hm.loop_eq).1
  refine ⟨ConnectionState.one_le_stage hd, ?_, fun ht => ?_⟩
  · rw [htasks, hm.lifecycle_eq]
    split
    · exact h.round.ask
    · exact h.round
  · rw [htasks] at ht
    have hf := h.finished (isIdle_iff.2 ht)
    refine (h.released ht).beside hm ?_
    rw [hf.desired_eq]
    exact hf.isTerminal

/-- A session goes in rounds in a step of the loop. -/
theorem work {calls : SocketCalls} (h : c.InRounds) (hl : c.loop = some l)
    (hh : c.halts (.work calls) = false)
    (hd : (c.move (.work calls)).connection.desired ≠ .initial) :
    (c.move (.work calls)).connection.InRounds := by
  have hround := h.round
  rw [tasks_of_some hl] at hround
  refine ⟨ConnectionState.one_le_stage hd, ?_, ?_⟩ <;> rw [move_work calls hl hh]
  · exact hround.step calls
  · intro ht
    rcases hround.of_step_nil ht with ht | ⟨ht, hc⟩
    · have hended : l.hasEnded = true := List.isEmpty_iff.2 ht
      obtain ⟨ho, hsockets⟩ := h.released ((tasks_of_some hl).trans ht)
      rw [Loop.step_of_hasEnded hended]
      refine ⟨ho, fun l' hl' => ?_⟩
      cases hl'
      exact hsockets l hl
    · rw [Loop.act_of_isTerminal calls ht hc]
      refine ⟨MessageQueue.messages_empty, fun l' hl' => ?_⟩
      cases hl'
      exact ⟨rfl, rfl, rfl⟩

/-- A session goes in rounds. -/
theorem next (h : c.InRounds) (hn : c.next m = some c') : c'.InRounds := by
  have hmove := beside_or_work h.begun hn
  obtain ⟨-, hd, rfl⟩ := next_eq_some hn
  rcases hmove with hm | ⟨calls, l, rfl, hl, hh⟩
  · exact h.beside hm hd
  · exact h.work hl hh hd

theorem session {moves : List Move} (h : c.InRounds) (hs : c.session moves = some c') :
    c'.InRounds := by
  induction moves generalizing c with
  | nil =>
    cases hs
    exact h
  | cons m moves ih =>
    obtain ⟨c₁, hn, hs⟩ := Option.bind_eq_some_iff.1 hs
    exact ih (h.next hn) hs

end InRounds

/-! ## The way to the end -/

/-- What the loop has still to do, if it is about to stop. -/
def ahead (c : Connection) : ℕ ×ₗ ℕ := workAhead c.shared c.tasks

/-- The rounds that the loop can still begin, if it is about to stop. -/
def roundsLeft (c : Connection) : ℕ := roundsAhead c.shared.lifecycle c.tasks

/-- A move does not put off the end of a loop that is about to stop, and a step of the loop brings
it nearer. A round that begins is that of the shutdown or that of the end. -/
structure Nears (c : Connection) (m : Move) (c' : Connection) : Prop where
  isEnding : c'.desired.isEnding = true
  ahead_le : c'.ahead ≤ c.ahead
  ahead_lt : m.works = true → c.isIdle = false → c'.ahead < c.ahead
  roundsLeft_le : c'.roundsLeft ≤ c.roundsLeft
  begun : ∀ state, c.roundBegun m = some state → c'.roundsLeft + 1 = c.roundsLeft ∧
    (state = .closing ∧ c.roundsLeft = 2 ∨ state.isTerminal = true ∧ c.roundsLeft = 1)

/-- A move after which there is as much to do as before, and which begins no round, is one. -/
theorem Nears.of_eq (hd : c.desired.isEnding = true)
    (hl : c'.shared.lifecycle = c.shared.lifecycle)
    (hs : c'.shared.listeners = c.shared.listeners) (ht : c'.tasks = c.tasks)
    (hw : m.works = true → c.isIdle = true) : c.Nears m c' := by
  have hahead : c'.ahead = c.ahead := by rw [ahead, ahead, workAhead, workAhead, hl, hs, ht]
  have hrounds : c'.roundsLeft = c.roundsLeft := by rw [roundsLeft, roundsLeft, hl, ht]
  refine ⟨?_, hahead.le, fun hworks hi => ?_, hrounds.le, fun state hb => ?_⟩
  · rw [desired, hl]
    exact hd
  · rw [hw hworks] at hi
    cases hi
  · unfold roundBegun at hb
    split at hb
    · rename_i ht
      rw [isIdle_iff.1 (hw rfl)] at ht
      cases ht
    · cases hb

namespace InRounds

/-- A step of the loop brings its end nearer. -/
theorem nears_work {calls : SocketCalls} (h : c.InRounds) (hd : c.desired.isEnding = true)
    (hl : c.loop = some l) (hh : c.halts (.work calls) = false) :
    c.Nears (.work calls) (c.move (.work calls)).connection := by
  have hround := h.round
  have htasks := tasks_of_some hl
  rw [htasks] at hround
  have hm : (c.move (.work calls)).connection = c.after (l.step calls c.shared) := by
    rw [move_work calls hl hh]
  rw [hm]
  by_cases hn : l.tasks = []
  · rw [Loop.step_of_hasEnded (List.isEmpty_iff.2 hn)]
    refine .of_eq hd rfl rfl htasks.symm fun _ => ?_
    rw [isIdle_iff, htasks, hn]
  · obtain ⟨hlt, hle, hbegun⟩ := hround.step_ahead hd hn calls
    rw [← htasks] at hlt hle hbegun
    refine ⟨hround.isEnding_step hd calls, hlt.le, fun _ _ => hlt, hle, fun state hb => ?_⟩
    unfold roundBegun at hb
    split at hb
    · rename_i ht
      cases hb
      exact hbegun _ ht
    · cases hb

/-- A move beside the loop changes nothing about what it has still to do. -/
theorem nears_beside (hd : c.desired.isEnding = true) (hm : c.Beside m)
    (hw : m.works = true → c.isIdle = true) : c.Nears m (c.move m).connection := by
  refine .of_eq hd ?_ hm.listeners_eq (tasks_of_loop_eq hm.loop_eq).1 hw
  rw [hm.lifecycle_eq]
  split
  · have hp : c.shared.lifecycle.desired.permits .closing = false :=
      ConnectionState.not_permits_closing_of_isEnding hd
    rw [Lifecycle.tryRequest_eq, hp, if_neg Bool.false_ne_true]
  · rfl

/-- A move of a session brings the end of a loop that is about to stop nearer. -/
theorem nears (h : c.InRounds) (hd : c.desired.isEnding = true) (hn : c.next m = some c') :
    c.Nears m c' := by
  have hbeside := beside_of_next h.begun hn
  obtain ⟨hh, -, rfl⟩ := next_eq_some hn
  cases hl : c.loop with
  | none => exact nears_beside hd (hbeside fun _ => hl) fun _ => by rw [isIdle, hl]; rfl
  | some l =>
    cases hw : m.works with
    | false =>
      have hn (hworks : m.works = true) : False := Bool.false_ne_true (hw.symm.trans hworks)
      exact nears_beside hd (hbeside fun hworks => (hn hworks).elim) fun hworks => (hn hworks).elim
    | true =>
      cases m with
      | work calls => exact h.nears_work hd hl hh
      | _ => cases hw

/-- A loop that is about to stop comes to its end in an endless history in which it goes on and on
making steps. -/
theorem exists_finished {moves : ℕ → Move} (h : c.InRounds) (hd : c.desired.isEnding = true)
    (hnext : ∀ n, (∀ k ≤ n, (c.run moves k).isIdle = false) →
      (c.run moves n).next (moves n) = some (c.run moves (n + 1)))
    (hworks : ∀ n, ∃ k, n ≤ k ∧ (moves k).works = true) : ∃ n, (c.run moves n).Finished := by
  by_contra hnever
  -- As long as the loop has not ended the session goes on.
  have hgoes (n : ℕ) (h : (c.run moves n).InRounds) : (c.run moves n).isIdle = false :=
    Bool.eq_false_of_not_eq_true fun hi => hnever ⟨n, h.finished hi⟩
  have hrun (n : ℕ) : ((c.run moves n).InRounds ∧ (c.run moves n).desired.isEnding = true) ∧
      ∀ k ≤ n, (c.run moves k).isIdle = false := by
    induction n with
    | zero =>
      refine ⟨⟨h, hd⟩, fun k hk => ?_⟩
      rw [Nat.le_zero.1 hk]
      exact hgoes 0 h
    | succ n ih =>
      obtain ⟨⟨hn, hdn⟩, hbusy⟩ := ih
      have hs := hnext n hbusy
      have hn' := hn.next hs
      refine ⟨⟨hn', (hn.nears hdn hs).isEnding⟩, fun k hk => ?_⟩
      rcases Nat.le_succ_iff.1 hk with hk | rfl
      · exact hbusy k hk
      · exact hgoes _ hn'
  have hnears (n : ℕ) : (c.run moves n).Nears (moves n) (c.run moves (n + 1)) :=
    (hrun n).1.1.nears (hrun n).1.2 (hnext n (hrun n).2)
  have hanti : Antitone fun n => (c.run moves n).ahead :=
    antitone_nat_of_succ_le fun n => (hnears n).ahead_le
  obtain ⟨n, hconst⟩ := WellFoundedLT.antitone_chain_condition hanti
  obtain ⟨k, hk, hw⟩ := hworks n
  have hlt := (hnears k).ahead_lt hw (hgoes k (hrun k).1.1)
  have heq : (c.run moves (k + 1)).ahead = (c.run moves k).ahead :=
    (hconst (k + 1) (hk.trans k.le_succ)).symm.trans (hconst k hk)
  exact hlt.ne heq

/-- A step of a loop that is about to stop does not end the session. -/
theorem next_work {calls : SocketCalls} (h : c.InRounds) (hd : c.desired.isEnding = true)
    (hh : c.halts (.work calls) = false) :
    c.next (.work calls) = some (c.move (.work calls)).connection := by
  have hending : (c.move (.work calls)).connection.desired.isEnding = true := by
    cases hl : c.loop with
    | none =>
      have hw : c.work calls = none := by rw [Connection.work, hl]; rfl
      simp only [move, hw]
      exact hd
    | some l => exact (h.nears_work hd hl hh).isEnding
  rw [Connection.next, hh, if_neg]
  refine not_or.2 ⟨Bool.false_ne_true, fun hi => ?_⟩
  rw [hi] at hending
  cases hending

end InRounds

/-- A request to close, and waiting for the loop, are of no consequence before a connection is
started and when it is about to stop. -/
theorem move_close_eq (hd : c.desired = .initial ∨ c.desired.isEnding = true) :
    c.requestClose = c ∧
      ∀ m ∈ [Move.requestClose, .await, .join],
        (c.move m).connection.shared = c.shared ∧ (c.move m).connection.tasks = c.tasks ∧
          (c.move m).raised = none ∧ (c.move m).told = [] := by
  have hp : c.shared.lifecycle.desired.permits .closing = false := by
    rcases hd with hd | hd
    · exact congrArg (·.permits .closing) hd
    · exact ConnectionState.not_permits_closing_of_isEnding hd
  have hl : c.shared.lifecycle.tryRequest .closing = c.shared.lifecycle := by
    rw [Lifecycle.tryRequest_eq, hp, if_neg Bool.false_ne_true]
  have hclose : c.requestClose = c := by rw [requestClose, hl]
  refine ⟨hclose, fun m hm => ?_⟩
  have hcases : m = .requestClose ∨ m = .await ∨ m = .join := by simpa using hm
  rcases hcases with rfl | rfl | rfl
  · have hmove : c.move .requestClose = { connection := c } :=
      congrArg (fun connection => ({ connection } : Outcome)) hclose
    rw [hmove]
    exact ⟨rfl, rfl, rfl, rfl⟩
  · exact ⟨rfl, rfl, rfl, rfl⟩
  · rw [move]
    split
    · rename_i hi
      exact ⟨rfl, (isIdle_iff.1 hi).symm, rfl, rfl⟩
    · exact ⟨rfl, rfl, rfl, rfl⟩

end

end Connection

/-- A session that has a message to send, and is asked to close in the middle of an exchange of
frames. -/
def hungUp : List Move :=
  .replicate 10 (shortStep []) ++ [.send (.raw 1 [7]), .requestClose]

/-- A connection whose loop has ended while it closes never comes to another state. -/
theorem Connection.closing_of_isIdle {c : Connection} (hi : c.isIdle = true)
    (hc : c.shared.lifecycle = ⟨.closing, .closing⟩) (m : Move) :
    (c.move m).connection.isIdle = true ∧
      (c.move m).connection.shared.lifecycle = ⟨.closing, .closing⟩ := by
  have hd : c.desired = .closing := congrArg Lifecycle.desired hc
  have hb : 1 ≤ c.desired.stage := by rw [hd]; decide
  cases m with
  | register | registerNamed | addListener | removeListener =>
    simp only [move, register, registerNamed, addListener, removeListener, whileInitial,
      requireInitial_of_begun hb]
    exact ⟨hi, hc⟩
  | connect =>
    simp only [move, connect, start_of_begun hb _ (.inl rfl)]
    exact ⟨hi, hc⟩
  | listen =>
    simp only [move, listen, start_of_begun hb _ (.inr rfl)]
    exact ⟨hi, hc⟩
  | requestClose => exact ⟨hi, congrArg (Lifecycle.tryRequest · .closing) hc⟩
  | join =>
    simp only [move, hi, if_true]
    exact ⟨rfl, hc⟩
  | reset onLoop =>
    have hs : c.requireStopped onLoop = .error (.invalidState "reset" .closing) := by
      rw [requireStopped, hd]
      rfl
    simp only [move, hs]
    exact ⟨hi, hc⟩
  | send m =>
    have hs : c.desired.isTerminal = false := congrArg ConnectionState.isTerminal hd
    simp only [move, send, hs, Bool.false_eq_true, if_false]
    exact ⟨hi, hc⟩
  | work calls =>
    cases hl : c.loop with
    | none =>
      simp only [move, work, hl, Option.map_none]
      exact ⟨hi, hc⟩
    | some l =>
      have he : l.hasEnded = true := by simpa [isIdle, hl] using hi
      have ht : l.tick calls c.shared = { shared := c.shared, loop := l } := by
        have hnil : l.tasks = [] := List.isEmpty_iff.1 he
        rw [Loop.tick_of_not_overruns (by rw [Loop.overruns, Loop.allowance, hnil]; rfl),
          Loop.step_of_hasEnded he]
      simp only [move, work, hl, Option.map_some, ht]
      exact ⟨he, hc⟩
  | abandon =>
    refine ⟨?_, hc⟩
    simp only [move, isIdle]
    cases c.loop <;> rfl
  | await | takeNext | clearError => exact ⟨hi, hc⟩

/-- Settings that let the last flush go on for longer than the clock can show. -/
def endlessFlush : ConnectionConfig := { flushTimeout := 2 ^ 64 * 1000000000 - 1 }

/-- A connection with these settings that has just begun to connect. -/
def lingering : Connection where
  config := endlessFlush
  registry := notes
  shared := { lifecycle := ⟨.initial, .connecting⟩ }
  loop := some (.new notes endlessFlush ⟨"localhost", 4000⟩ 0)

/-- It does not shut down: the loop ends while it closes, with the message still to be sent, and
whatever is done to the connection then, it is in no other state again. -/
theorem shutdown_beyond_clock :
    (Connection.withRegistry notes endlessFlush).Starts lingering ∧
      ∃ c₁, lingering.session hungUp = some c₁ ∧ c₁.desired = .closing ∧
        let c₂ := c₁.run (fun _ => shortStep []) 7
        c₂.isIdle = true ∧ c₂.shared.outbound.messages ≠ [] ∧
          ∀ moves n, (c₂.run moves n).state = .closing ∧ ¬ (c₂.run moves n).Finished := by
  have hrun : (lingering.session hungUp).map (fun c₁ =>
      let c₂ := c₁.run (fun _ => shortStep []) 7
      (c₁.desired, c₂.isIdle, c₂.shared.outbound.messages.length, c₂.shared.lifecycle)) =
      some (.closing, true, 1, ⟨.closing, .closing⟩) := by
    decide +kernel
  obtain ⟨c₁, hs, hrun⟩ := Option.map_eq_some_iff.1 hrun
  simp only [Prod.mk.injEq] at hrun
  obtain ⟨hd, hi, hlength, hlifecycle⟩ := hrun
  refine ⟨⟨⟨"localhost", 4000⟩, 0, .inl rfl⟩, c₁, hs, hd, hi, fun hnil => ?_, fun moves n => ?_⟩
  · rw [hnil] at hlength
    cases hlength
  · have hstays : ((c₁.run (fun _ => shortStep []) 7).run moves n).isIdle = true ∧
        ((c₁.run (fun _ => shortStep []) 7).run moves n).shared.lifecycle =
          ⟨.closing, .closing⟩ := by
      induction n with
      | zero => exact ⟨hi, hlifecycle⟩
      | succ n ih => exact Connection.closing_of_isIdle ih.1 ih.2 (moves n)
    have hc : ((c₁.run (fun _ => shortStep []) 7).run moves n).state = .closing :=
      congrArg Lifecycle.current hstays.2
    refine ⟨hc, fun hf => ?_⟩
    have ht := hf.isTerminal
    rw [hc] at ht
    cases ht

end PeerMessaging
