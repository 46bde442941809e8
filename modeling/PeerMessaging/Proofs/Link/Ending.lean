import PeerMessaging.Proofs.Link.Agenda

/-!
# How long a session goes on after its verdict

After a fatal error a loop has only to tell its listeners, to write what it can of the messages that
are queued, and to let go of the stream. `stepsLeft` is a bound on the steps that are left for that,
and each step lessens it (`Agenda.stepsLeft_lt`).
-/

namespace PeerMessaging

/-! ## Counting steps -/

namespace Task

/-- The steps that a task takes when there are so many listeners. -/
def cost (listeners : Nat) : Task → Nat
  | notify _ rest => rest.length + 1
  | announce | report _ => listeners + 2
  | collect => 2
  | encode messages => messages.length * (listeners + 3) + 1
  | dispatch items => items.length * (listeners + 3) + 1
  | _ => 1

/-- The task ends a shutdown. -/
def shuts : Task → Bool
  | advance .closed => true
  | _ => false

end Task

/-- The steps that tasks take when there are so many listeners. -/
def costs (listeners : Nat) : List Task → Nat
  | [] => 0
  | task :: rest => task.cost listeners + costs listeners rest

/-- The steps of a shutdown and the round behind it, as long as it has not been planned. -/
def unplanned (listeners : Nat) (state : ConnectionState) (tasks : List Task) : Nat :=
  if state.isTerminal || tasks.any Task.shuts then 0 else listeners + 8

/-- The steps that a loop with these tasks makes at most after a verdict. -/
def stepsLeft (s : Shared) (tasks : List Task) : Nat :=
  costs s.listeners.length tasks + s.outbound.messages.length * (s.listeners.length + 3) +
    unplanned s.listeners.length s.lifecycle.desired tasks

section
variable {k : Nat} {verdict : ConnectionState} {asked : Bool} {calls : SocketCalls} {s s' : Shared}
  {l : Loop} {st : Step} {task : Task} {tasks plan tail : List Task}

theorem costs_append : costs k (plan ++ tail) = costs k plan + costs k tail := by
  induction plan with
  | nil => exact (Nat.zero_add _).symm
  | cons task plan ih => rw [List.cons_append, costs, costs, ih, Nat.add_assoc]

/-- What is last in a session stays last. -/
theorem ConnectionState.isTerminal_of_stage_le {a b : ConnectionState} (h : a.stage ≤ b.stage)
    (ha : a.isTerminal = true) : b.isTerminal = true := by
  cases a <;> cases ha <;> cases b <;> first | rfl | exact absurd h (by decide)

/-- The further a session has come, the less there is to plan. -/
theorem unplanned_le {a b : ConnectionState} (h : a.stage ≤ b.stage) :
    unplanned k b tasks ≤ unplanned k a tasks := by
  unfold unplanned
  cases ha : a.isTerminal with
  | true =>
    have hb : b.isTerminal = true := ConnectionState.isTerminal_of_stage_le h ha
    simp only [hb, Bool.true_or, if_true, Nat.le_refl]
  | false => cases b.isTerminal <;> cases tasks.any Task.shuts <;> simp

/-- Only a task that ends a shutdown shows that it has been planned. -/
theorem unplanned_cons {state : ConnectionState} (hs : task.shuts = false) :
    unplanned k state (task :: tail) = unplanned k state tail := by
  rw [unplanned, List.any_cons, hs, Bool.false_or, unplanned]

/-- The listeners stay the same in a step. -/
theorem Turn.listeners_eq (t : Turn calls s l st) : st.shared.listeners = s.listeners := by
  cases t <;> rfl

/-- A task that is replaced by others that take fewer steps lessens the steps that are left, unless
a shutdown was planned only with it. -/
theorem stepsLeft_lt_of_plan (plan : List Task) (hl : s'.listeners = s.listeners)
    (ho : s'.outbound = s.outbound) (hd : s'.lifecycle.desired = s.lifecycle.desired)
    (hs : plan.any Task.shuts = task.shuts)
    (hc : costs s.listeners.length plan < task.cost s.listeners.length) :
    stepsLeft s' (plan ++ tail) < stepsLeft s (task :: tail) := by
  unfold stepsLeft unplanned
  rw [hl, ho, hd, costs_append, costs, List.any_append, List.any_cons, hs]
  omega

/-- A task that is done lessens the steps that are left. -/
theorem stepsLeft_lt_of_done (hl : s'.listeners = s.listeners) (ho : s'.outbound = s.outbound)
    (hd : s'.lifecycle.desired = s.lifecycle.desired) (hs : task.shuts = false)
    (hc : 0 < task.cost s.listeners.length) :
    stepsLeft s' tail < stepsLeft s (task :: tail) :=
  stepsLeft_lt_of_plan [] hl ho hd hs.symm hc

/-- A message is queued for writing, or it is reported with its refusal. -/
theorem Loop.tasks_encode (l : Loop) (m : Message) (w : Encoder) :
    (l.encode m w).tasks = l.tasks ∨
      ∃ e, (l.encode m w).tasks = .report e :: l.tasks ∧
        l.registry.refusal w.config m = some e := by
  unfold Loop.encode
  split
  · rename_i e he
    refine .inr ⟨_, rfl, ?_⟩
    rw [Registry.refusal, he]
  · rename_i f hf
    dsimp only
    split
    · exact .inl rfl
    · rename_i e he
      refine .inr ⟨_, rfl, ?_⟩
      rw [Registry.refusal, hf]
      exact congrArg (Option.map _) (Encoder.enqueue_eq_error_iff.1 he)

/-- A message that is due is dealt with, whether there is a stream or not: the others are due after
it, and first the report of its refusal if it has one. -/
theorem Loop.step_encode {m : Message} {ms : List Message}
    (ht : l.tasks = .encode (m :: ms) :: tail) (calls : SocketCalls) (s : Shared) :
    (l.step calls s).shared = s ∧
      ((l.step calls s).loop.tasks = .encode ms :: tail ∨
        ∃ w e, l.writer = some w ∧ l.registry.refusal w.config m = some e ∧
          (l.step calls s).loop.tasks = .report e :: .encode ms :: tail) := by
  let rest : Loop := { l with tasks := .encode ms :: tail }
  have hstep : l.step calls s = { shared := s, loop := l.writer.elim rest (rest.encode m) } := by
    simp only [Loop.step, ht]
    rfl
  rw [hstep]
  refine ⟨rfl, ?_⟩
  cases hwriter : l.writer with
  | none => exact .inl rfl
  | some w =>
    rcases rest.tasks_encode m w with h | ⟨e, h, hr⟩
    · exact .inl h
    · exact .inr ⟨w, e, rfl, hr, h⟩

/-- A connection that is about to leave the exchange of frames sends no keepalive. -/
theorem Loop.keepalive_of_ne (hd : s.lifecycle.desired ≠ .connected) :
    l.keepalive calls s = { shared := s, loop := l } := by
  unfold keepalive
  split
  · rfl
  · rw [if_pos (.inl hd)]

namespace Agenda

/-- A transition that was asked for lessens the steps that are left. -/
theorem stepsLeft_lt_advance {attached : Bool} {next : ConnectionState}
    (hp : Possible (some verdict) asked attached next)
    (hd : s.lifecycle.desired.permits next = true ∨ s.lifecycle.desired = next ∨
      s.lifecycle.desired = .closing ∧ Possible (some verdict) asked attached .closing) :
    stepsLeft { s with lifecycle := s.lifecycle.tryRequest next } tail <
      stepsLeft s (.advance next :: tail) := by
  have goes (hn : next ≠ .initial) (hs : (Task.advance next).shuts = false) :
      stepsLeft { s with lifecycle := s.lifecycle.tryRequest next } tail <
        stepsLeft s (.advance next :: tail) := by
    have hle : unplanned s.listeners.length (s.lifecycle.tryRequest next).desired tail ≤
        unplanned s.listeners.length s.lifecycle.desired tail :=
      unplanned_le (s.lifecycle.stage_le_tryRequest hn)
    have hc : (Task.advance next).cost s.listeners.length = 1 := rfl
    unfold stepsLeft
    rw [costs, unplanned_cons hs, hc]
    dsimp only
    omega
  cases next with
  | initial => cases hp
  | connecting | opening | listening | connected => cases hp.1
  | closing | error => exact goes nofun rfl
  | closed =>
    -- The shutdown that ends by this has been planned, and what is left of it is the next round.
    have hclosed : (s.lifecycle.tryRequest .closed).desired = .closed := by
      rw [Lifecycle.tryRequest_eq]
      split
      · rfl
      · rename_i hn
        rcases hd with hd | hd | ⟨hd, -⟩
        · exact absurd hd hn
        · exact hd
        · exact absurd (by rw [hd]; rfl) hn
    have hc : (Task.advance .closed).cost s.listeners.length = 1 := rfl
    have hu : unplanned s.listeners.length .closed tail = 0 := rfl
    unfold stepsLeft
    rw [costs, hclosed, hu, hc]
    dsimp only
    omega

/-- Planning a shutdown lessens the steps that are left, and so does ending the loop. -/
theorem stepsLeft_lt_act
    (hp : Possible (some verdict) asked l.reader.isSome s.lifecycle.current)
    (hd : s.lifecycle.desired = s.lifecycle.current ∨
      s.lifecycle.desired = .closing ∧ Possible (some verdict) asked l.reader.isSome .closing) :
    stepsLeft (l.act calls s).shared (l.act calls s).loop.tasks < stepsLeft s [.act] := by
  have hact : costs s.listeners.length [.act] = 1 := rfl
  cases hc : s.lifecycle.current with
  | initial =>
    rw [hc] at hp
    cases hp
  | connecting | opening | listening | connected =>
    rw [hc] at hp
    cases hp.1
  | closing =>
    rw [hc] at hd
    have hd : s.lifecycle.desired = .closing := hd.elim id And.left
    have hplan : costs s.listeners.length ([.collect, .write .closing (calls.now +
        l.config.flushTimeout), .release, .advance .closed] ++ nextRound) =
          s.listeners.length + 8 := by
      simp only [costs, nextRound, List.cons_append, List.nil_append, Task.cost]
      omega
    simp only [Loop.act, hc, stepsLeft, Loop.tasks_first, hplan, hact, hd]
    simp [unplanned, Task.shuts, ConnectionState.isTerminal]
    omega
  | closed | error =>
    have hu : unplanned s.listeners.length s.lifecycle.desired [.act] =
        unplanned s.listeners.length s.lifecycle.desired [] := unplanned_cons rfl
    have hnil : costs s.listeners.length [] = 0 := rfl
    simp only [Loop.act, hc, stepsLeft, hact, hu, hnil, MessageQueue.clear,
      MessageQueue.messages_empty, List.length_nil]
    omega

/-- Announcing the pending state lessens the steps that are left. -/
theorem stepsLeft_lt_announce (ht : l.tasks = nextRound) :
    stepsLeft (l.step calls s).shared (l.step calls s).loop.tasks < stepsLeft s l.tasks := by
  have hdesired := congrArg Lifecycle.desired s.lifecycle.apply_snd
  simp only [Loop.step, ht, nextRound]
  split <;> rename_i ha <;> rw [ha] at hdesired
  · refine stepsLeft_lt_of_plan [.notify _ s.listeners.registered] rfl rfl hdesired rfl ?_
    exact Nat.lt_succ_self _
  · exact stepsLeft_lt_of_done rfl rfl rfl rfl (Nat.succ_pos _)

/-- After a verdict no keepalive is sent. -/
theorem stepsLeft_lt_keepalive {attached : Bool} (ht : l.tasks = .keepalive :: nextRound)
    (hp : Possible (some verdict) asked attached s.lifecycle.desired) :
    stepsLeft (l.step calls s).shared (l.step calls s).loop.tasks < stepsLeft s l.tasks := by
  simp only [Loop.step, ht, Loop.keepalive_of_ne hp.ne_connected]
  exact stepsLeft_lt_of_done rfl rfl rfl rfl Nat.one_pos

/-- A message that is queued for writing, dropped or reported lessens the steps that are left. -/
theorem stepsLeft_lt_encode {m : Message} {ms : List Message}
    (ht : l.tasks = .encode (m :: ms) :: tail) :
    stepsLeft (l.step calls s).shared (l.step calls s).loop.tasks < stepsLeft s l.tasks := by
  have hcost : (Task.encode (m :: ms)).cost s.listeners.length =
      (Task.encode ms).cost s.listeners.length + (s.listeners.length + 3) := by
    rw [Task.cost, Task.cost, List.length_cons, Nat.succ_mul]
    omega
  have kept : stepsLeft s (.encode ms :: tail) < stepsLeft s (.encode (m :: ms) :: tail) := by
    refine stepsLeft_lt_of_plan [.encode ms] rfl rfl rfl rfl ?_
    rw [costs, hcost]
    exact Nat.add_lt_add_left (Nat.succ_pos _) _
  have reported (e : ConnectionError) :
      stepsLeft s (.report e :: .encode ms :: tail) < stepsLeft s (.encode (m :: ms) :: tail) := by
    refine stepsLeft_lt_of_plan [.report e, .encode ms] rfl rfl rfl rfl ?_
    have hreport : (Task.report e).cost s.listeners.length = s.listeners.length + 2 := rfl
    have hnil : costs s.listeners.length [] = 0 := rfl
    rw [costs, costs, hcost, hreport, hnil]
    omega
  obtain ⟨hshared, htasks⟩ := l.step_encode ht calls s
  rw [hshared, ht]
  rcases htasks with h | ⟨-, e, -, -, h⟩ <;> rw [h]
  · exact kept
  · exact reported e

/-- A step after a verdict lessens the steps that are left. -/
theorem stepsLeft_lt (h : Agenda (some verdict) asked l.reader.isSome s.lifecycle l.tasks)
    (hn : l.hasEnded = false) :
    stepsLeft (l.step calls s).shared (l.step calls s).loop.tasks < stepsLeft s l.tasks := by
  generalize ht : l.tasks = tasks at h
  cases h with
  | ended hc hp =>
    rw [Loop.hasEnded, ht] at hn
    cases hn
  | round hround hp =>
    rcases hround with rfl | rfl
    · exact ht ▸ stepsLeft_lt_announce ht
    · exact ht ▸ stepsLeft_lt_keepalive ht hp
  | act hp hd =>
    simp only [Loop.step, ht]
    exact stepsLeft_lt_act hp hd
  | advance hround hp hd =>
    simp only [Loop.step, ht]
    exact stepsLeft_lt_advance hp hd
  | write _ _ he | receive _ _ he | fail _ _ he => cases he.verdict_eq
  | release hd hp =>
    simp only [Loop.step, ht]
    exact stepsLeft_lt_of_done rfl rfl rfl rfl Nat.one_pos
  | @mishap e =>
    simp only [Loop.step, ht]
    refine stepsLeft_lt_of_plan [.notify (.error e) s.listeners.registered] rfl rfl rfl rfl ?_
    exact Nat.lt_succ_self _
  | @aside event listeners =>
    cases listeners with
    | nil =>
      simp only [Loop.step, ht]
      exact stepsLeft_lt_of_done rfl rfl rfl rfl Nat.one_pos
    | cons listener listeners =>
      simp only [Loop.step, ht]
      refine stepsLeft_lt_of_plan [.notify event listeners] rfl rfl rfl rfl ?_
      exact Nat.lt_succ_self _
  | collect =>
    simp only [Loop.step, ht]
    split
    · simp only [stepsLeft, Loop.tasks_first, List.cons_append, List.nil_append, costs,
        Task.cost, MessageQueue.drain, MessageQueue.messages_empty, List.length_nil]
      rw [unplanned_cons rfl, unplanned_cons rfl]
      omega
    · exact stepsLeft_lt_of_done rfl rfl rfl rfl Nat.two_pos
  | @encode messages tail =>
    cases messages with
    | nil =>
      simp only [Loop.step, ht]
      refine stepsLeft_lt_of_done rfl rfl rfl rfl ?_
      exact Nat.succ_pos _
    | cons m ms => exact ht ▸ stepsLeft_lt_encode ht
  | flush =>
    simp only [Loop.step, ht, Loop.write]
    split
    · exact stepsLeft_lt_of_done rfl rfl rfl rfl Nat.one_pos
    · exact stepsLeft_lt_of_done rfl rfl rfl rfl Nat.one_pos
  | dispatch hv => cases hv

end Agenda

end

end PeerMessaging
