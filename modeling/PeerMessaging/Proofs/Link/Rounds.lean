import PeerMessaging.Proofs.Link.Ending
import PeerMessaging.Proofs.Link.Walk

/-!
# The rounds of a loop

A loop goes in rounds. In a round the pending state is announced and acted on, and what that plans
is fit for the state that was announced (`Task.suits`), whatever is asked for meanwhile. `Round`
says where in a round a loop may be. A task is replaced by others that are fit for the same state,
and that are less to do unless the loop goes on to exchange frames (`Loop.step_replaces`), so a step
leads on in the round, or to the next (`Round.step`).
-/

namespace PeerMessaging

namespace Task

/-- The task is fit for a round in this state: a transition that is asked for in it is one that may
follow the state, and frames are exchanged only in the state for that. -/
def suits (state : ConnectionState) : Task → Bool
  | announce | act | notify (.state _) _ => false
  | advance next => state.permits next && next ≠ .initial
  | write .exchange _ | receive | keepalive => state = .connected
  | _ => true

/-- What a task makes of the lifecycle. -/
def moves : Task → Lifecycle → Lifecycle
  | announce, c => c.apply.2
  | advance next, c => c.tryRequest next
  | _, c => c

/-- The task begins a round. -/
def announces : Task → Bool
  | announce => true
  | _ => false

/-- How often a task can still lead to others that cost more than it does. -/
def opens : Task → Nat
  | write .exchange _ => 2
  | collect | receive => 1
  | _ => 0

theorem cost_pos (listeners : Nat) (task : Task) : 0 < task.cost listeners := by
  cases task <;> simp [cost]

/-- Only an announcement changes the current state. -/
theorem current_moves {state : ConnectionState} {task : Task} {c : Lifecycle}
    (h : task.suits state = true) : (task.moves c).current = c.current := by
  cases task with
  | announce => cases h
  | advance next => exact c.current_tryRequest next
  | _ => rfl

end Task

/-- How often tasks can still lead to others that cost more than they do. -/
def opens : List Task → Nat
  | [] => 0
  | task :: rest => task.opens + opens rest

/-- Where in a round a loop may be. -/
inductive Round (c : Lifecycle) : List Task → Prop
  /-- The current state has just been announced, and the listeners are told of it. An end is not
  replaced by anything. -/
  | told {listeners : List Listener} (hd : c.current.isTerminal = true → c.desired = c.current) :
      Round c [.notify (.state c.current) listeners, .act]
  /-- The current state is acted on. -/
  | act (hd : c.current.isTerminal = true → c.desired = c.current) : Round c [.act]
  /-- What has been planned is done, and the next round begins after it. -/
  | plan {plan : List Task} (hp : ∀ t ∈ plan, t.suits c.current = true) :
      Round c (plan ++ nextRound)
  /-- The loop has ended. -/
  | ended (hc : c.current.isTerminal = true) (hd : c.desired = c.current) : Round c []

/-- A round begins with the announcement of the pending state. -/
theorem Round.beginning (c : Lifecycle) : Round c nextRound := @Round.plan c [] nofun

/-- The tasks that a task is replaced by when it is carried out, with so many listeners: they are
fit for the same state, none of them ends a shutdown, and they are less to do if the loop is about
to leave the exchange of frames. -/
structure Replaces (c : Lifecycle) (k : Nat) (task : Task) (plan : List Task) : Prop where
  suits : ∀ t ∈ plan, t.suits c.current = true
  shuts_eq : plan.any Task.shuts = false
  lighter : c.desired ≠ .connected →
    opens plan < task.opens ∨ opens plan = task.opens ∧ costs k plan < task.cost k

/-- The tasks are what a state asks for: they are fit for it and lead to others thrice at most, and
a shutdown is planned in the state for that. -/
structure Meets (state : ConnectionState) (plan : List Task) : Prop where
  suits : ∀ t ∈ plan, t.suits state = true
  opens_le : opens plan ≤ 3
  shuts_of_closing : state = .closing → plan.any Task.shuts = true

section
variable {calls : SocketCalls} {s : Shared} {l : Loop} {st : Step} {task : Task}
  {rest tasks : List Task} {c : Lifecycle} {k : Nat}

/-- A step changes the lifecycle just as its task does. -/
theorem Turn.lifecycle_eq (t : Turn calls s l st) (ht : l.tasks = task :: rest) :
    st.shared.lifecycle = task.moves s.lifecycle := by
  cases t with
  | idle ht' => cases ht.symm.trans ht'
  | tell _ ht' hn =>
    cases ht.symm.trans ht'
    cases task <;> first | rfl | cases hn
  | skip _ ht' _ he | flush _ _ ht' _ he =>
    cases ht.symm.trans ht'
    cases task <;> first | rfl | cases he
  | announce _ ht' | advance ht' | plan _ ht' | attach ht' | finish ht' | collect ht' | encode _ ht'
  | drop ht' | receive _ ht' | dispatch _ ht' | release ht' =>
    cases ht.symm.trans ht'
    rfl

/-! ## What a task is replaced by -/

namespace Replaces

/-- A task may be done without anything in its place. -/
theorem nothing : Replaces c k task [] where
  suits := nofun
  shuts_eq := rfl
  lighter _ := by
    rcases Nat.eq_zero_or_pos task.opens with ho | ho
    · exact .inr ⟨ho.symm, task.cost_pos k⟩
    · exact .inl ho

/-- Tasks that lead to no others replace one that does. -/
theorem of_opens {plan : List Task} (hs : ∀ t ∈ plan, t.suits c.current = true)
    (hn : plan.any Task.shuts = false) (ho : opens plan < task.opens) : Replaces c k task plan :=
  ⟨hs, hn, fun _ => .inl ho⟩

/-- Tasks that cost less replace one that costs more. -/
theorem of_costs {plan : List Task} (hs : ∀ t ∈ plan, t.suits c.current = true)
    (hn : plan.any Task.shuts = false) (ho : opens plan = task.opens)
    (hc : costs k plan < task.cost k) : Replaces c k task plan :=
  ⟨hs, hn, fun _ => .inr ⟨ho, hc⟩⟩

end Replaces

namespace Loop

/-- A message that is encoded leaves the others to be encoded, and is reported first if it cannot
be. -/
theorem replaces_encode {m : Message} {ms : List Message} :
    Replaces c k (.encode (m :: ms)) [.encode ms] ∧
      ∀ e, Replaces c k (.encode (m :: ms)) [.report e, .encode ms] := by
  have hcost : (Task.encode (m :: ms)).cost k = (Task.encode ms).cost k + (k + 3) := by
    simp only [Task.cost, List.length_cons, Nat.succ_mul]
    omega
  refine ⟨.of_costs (by simp [Task.suits]) rfl rfl ?_, fun e =>
    .of_costs (by simp [Task.suits]) rfl rfl ?_⟩
  · simp only [costs, hcost]
    omega
  · have hreport : (Task.report e).cost k = k + 2 := rfl
    simp only [costs, hcost, hreport]
    omega

/-- An item that is handed on leaves the others, and listeners are told of it first, or of its
error. -/
theorem replaces_dispatch {item : Item} {items : List Item} :
    Replaces c k (.dispatch (item :: items)) [.dispatch items] ∧
      (∀ e, Replaces c k (.dispatch (item :: items)) [.report e, .dispatch items]) ∧
      ∀ listeners : List Listener, listeners.length ≤ k →
        Replaces c k (.dispatch (item :: items)) [.notify .message listeners, .dispatch items] := by
  have hcost : (Task.dispatch (item :: items)).cost k =
      (Task.dispatch items).cost k + (k + 3) := by
    simp only [Task.cost, List.length_cons, Nat.succ_mul]
    omega
  refine ⟨.of_costs (by simp [Task.suits]) rfl rfl ?_, fun e =>
    .of_costs (by simp [Task.suits]) rfl rfl ?_, fun listeners hle =>
    .of_costs (by simp [Task.suits]) rfl rfl ?_⟩
  · simp only [costs, hcost]
    omega
  · have hreport : (Task.report e).cost k = k + 2 := rfl
    simp only [costs, hcost, hreport]
    omega
  · have hnotify : (Task.notify .message listeners).cost k = listeners.length + 1 := rfl
    simp only [costs, hcost, hnotify]
    omega

/-- A fatal error leads on to a state that may follow. -/
theorem suits_failing {state next : ConnectionState} (e : ConnectionError)
    (hp : state.permits next = true) (hn : next = .closing ∨ next = .error) :
    (∀ t ∈ failing e next, t.suits state = true) ∧ (failing e next).any Task.shuts = false := by
  rcases hn with rfl | rfl <;> simp [failing, Task.suits, Task.shuts, hp]

/-- What was read is handed on, and may be followed by a fatal error. -/
theorem replaces_receive (hc : c.current = .connected) (items : List Item)
    (failure : Option FrameError) :
    Replaces c k .receive
      (.dispatch items :: failure.elim [] fun e => failing (.ofReceive e) (stateAfter e)) := by
  cases failure with
  | none => exact .of_opens (by simp [Task.suits]) rfl Nat.one_pos
  | some e =>
    have hn : stateAfter e = .closing ∨ stateAfter e = .error := by
      unfold stateAfter
      split
      · exact .inr rfl
      · exact .inl rfl
    have hp : c.current.permits (stateAfter e) = true := by
      rw [hc]
      rcases hn with hn | hn <;> rw [hn] <;> rfl
    obtain ⟨hs, hshuts⟩ := suits_failing (.ofReceive e) hp hn
    exact .of_opens (List.forall_mem_cons.2 ⟨rfl, hs⟩) hshuts Nat.one_pos

/-- A write in the exchange of frames leads on to reading, or is a fatal error; one while closing is
done with. -/
theorem write_replaces {purpose : WritePurpose} {deadline : Moment}
    (ht : l.tasks = .write purpose deadline :: rest)
    (hs : (Task.write purpose deadline).suits s.lifecycle.current = true) :
    ∃ plan, (l.step calls s).loop.tasks = plan ++ rest ∧
      Replaces s.lifecycle k (.write purpose deadline) plan := by
  simp only [step, ht, write]
  cases purpose with
  | closing => split <;> exact ⟨[], rfl, .nothing⟩
  | exchange =>
    have hc : s.lifecycle.current = .connected := by simpa [Task.suits] using hs
    have hreads : Replaces s.lifecycle k (.write .exchange deadline) [.receive, .keepalive] :=
      .of_opens (by simp [Task.suits, hc]) rfl (Nat.lt_succ_self 1)
    split
    · exact ⟨_, rfl, hreads⟩
    · dsimp only
      split
      · rename_i h
        cases h
      · exact ⟨_, rfl, hreads⟩
      · have hp : s.lifecycle.current.permits .closing = true := by rw [hc]; rfl
        obtain ⟨hs, hshuts⟩ := suits_failing (.ofFrame .sendFailed _) hp (.inl rfl)
        exact ⟨_, rfl, .of_opens hs hshuts Nat.two_pos⟩

/-- A keepalive is done with, or is a fatal error; there is none when the loop is about to leave the
exchange of frames. -/
theorem keepalive_replaces (ht : l.tasks = .keepalive :: rest)
    (hs : Task.keepalive.suits s.lifecycle.current = true) :
    ∃ plan, (l.step calls s).loop.tasks = plan ++ rest ∧
      Replaces s.lifecycle k .keepalive plan := by
  have hc : s.lifecycle.current = .connected := by simpa [Task.suits] using hs
  simp only [step, ht, keepalive]
  split
  · exact ⟨[], rfl, .nothing⟩
  split
  · exact ⟨[], rfl, .nothing⟩
  rename_i hn
  dsimp only
  split
  · exact ⟨[], rfl, .nothing⟩
  · have hp : s.lifecycle.current.permits .closing = true := by rw [hc]; rfl
    obtain ⟨hs, hshuts⟩ := suits_failing (.ofFrame .connectionReset _) hp (.inl rfl)
    exact ⟨_, rfl, hs, hshuts, fun hd => absurd (.inl hd) hn⟩

/-- A task that is fit for a round is replaced by others that are. -/
theorem step_replaces (calls : SocketCalls) (ht : l.tasks = task :: rest)
    (hs : task.suits s.lifecycle.current = true) :
    ∃ plan, (l.step calls s).loop.tasks = plan ++ rest ∧
      Replaces s.lifecycle s.listeners.length task plan := by
  cases task with
  | announce | act => cases hs
  | notify event listeners =>
    cases listeners with
    | nil =>
      simp only [step, ht]
      exact ⟨[], rfl, .nothing⟩
    | cons listener listeners =>
      have hs' : (Task.notify event listeners).suits s.lifecycle.current = true := by
        cases event <;> exact hs
      simp only [step, ht]
      exact ⟨[.notify event listeners], rfl,
        .of_costs (List.forall_mem_singleton.2 hs') rfl rfl (Nat.lt_succ_self _)⟩
  | report e =>
    simp only [step, ht]
    exact ⟨[.notify (.error e) s.listeners.registered], rfl,
      .of_costs (List.forall_mem_singleton.2 rfl) rfl rfl (Nat.lt_succ_self _)⟩
  | advance next =>
    simp only [step, ht]
    exact ⟨[], rfl, .nothing⟩
  | collect =>
    simp only [step, ht]
    split
    · exact ⟨[.encode s.outbound.messages], rfl,
        .of_opens (List.forall_mem_singleton.2 rfl) rfl Nat.one_pos⟩
    · exact ⟨[], rfl, .nothing⟩
  | encode messages =>
    cases messages with
    | nil =>
      simp only [step, ht]
      exact ⟨[], rfl, .nothing⟩
    | cons m ms =>
      rcases (l.step_encode ht calls s).2 with h | ⟨-, e, -, -, h⟩
      · exact ⟨[.encode ms], h, replaces_encode.1⟩
      · exact ⟨[.report e, .encode ms], h, replaces_encode.2 e⟩
  | write purpose deadline => exact write_replaces ht hs
  | receive =>
    have hc : s.lifecycle.current = .connected := by simpa [Task.suits] using hs
    simp only [step, ht, receive]
    split
    · exact ⟨[], rfl, .nothing⟩
    · exact ⟨_, rfl, replaces_receive hc _ _⟩
  | dispatch items =>
    cases items with
    | nil =>
      simp only [step, ht]
      exact ⟨[], rfl, .nothing⟩
    | cons item items =>
      simp only [step, ht, dispatch]
      split
      · exact ⟨[.dispatch items], rfl, replaces_dispatch.1⟩
      · split
        · exact ⟨[.notify .message s.listeners.registered, .dispatch items], rfl,
            replaces_dispatch.2.2 _ (Nat.le_refl _)⟩
        · exact ⟨[.report _, .dispatch items], rfl, replaces_dispatch.2.1 _⟩
  | keepalive => exact keepalive_replaces ht hs
  | release =>
    simp only [step, ht]
    exact ⟨[], rfl, .nothing⟩

/-! ## What a state asks for -/

/-- Before there is a stream, a fatal error is what a state may lead to. -/
theorem meets_failing {state : ConnectionState} (e : ConnectionError)
    (hp : state.permits .error = true) (hn : state ≠ .closing) :
    Meets state (failing e .error) where
  suits := (suits_failing e hp (.inr rfl)).1
  opens_le := Nat.zero_le _
  shuts_of_closing h := absurd h hn

/-- As long as it does not close, a state may ask for nothing. -/
theorem meets_nil {state : ConnectionState} (hn : state ≠ .closing) : Meets state [] where
  suits := List.forall_mem_nil _
  opens_le := Nat.zero_le _
  shuts_of_closing h := absurd h hn

/-- A stream is taken over, or it is a fatal error. -/
theorem attach_plan {kind : ErrorKind} {state : ConnectionState} (hl : l.tasks = nextRound)
    (hs : state = .connecting ∨ state = .listening) :
    ∃ plan, (l.attach kind calls s).loop.tasks = plan ++ nextRound ∧ Meets state plan := by
  rw [← hl]
  unfold attach
  dsimp only
  split
  · refine ⟨[.advance .connected], rfl, ?_⟩
    rcases hs with rfl | rfl <;> exact ⟨by decide, by decide, nofun⟩
  · refine ⟨failing _ .error, rfl, ?_⟩
    rcases hs with rfl | rfl <;> exact meets_failing _ rfl nofun

/-- What a state asks for is planned in a round, unless it is an end. -/
theorem act_plan (calls : SocketCalls) (ht : l.tasks = .act :: rest)
    (hc : s.lifecycle.current.isTerminal = false) :
    ∃ plan, (l.step calls s).loop.tasks = plan ++ nextRound ∧
      Meets s.lifecycle.current plan := by
  simp only [step, ht, act]
  cases hs : s.lifecycle.current with
  | initial => exact ⟨[], rfl, meets_nil (by decide)⟩
  | connecting =>
    dsimp only
    split
    · exact attach_plan rfl (.inl rfl)
    · exact ⟨_, rfl, meets_failing _ rfl (by decide)⟩
  | opening =>
    dsimp only
    split
    · exact ⟨[.advance .listening], rfl, by decide, Nat.zero_le _, (absurd · (by decide))⟩
    · exact ⟨_, rfl, meets_failing _ rfl (by decide)⟩
  | listening =>
    dsimp only
    split
    · exact ⟨_, rfl, meets_failing _ rfl (by decide)⟩
    · split
      · exact ⟨[], rfl, meets_nil (by decide)⟩
      · exact attach_plan rfl (.inr rfl)
      · exact ⟨_, rfl, meets_failing _ rfl (by decide)⟩
  | connected =>
    exact ⟨[.collect, .write .exchange _], rfl, by simp [Task.suits], Nat.le_refl _,
      (absurd · (by decide))⟩
  | closing =>
    refine ⟨[.collect, .write .closing _, .release, .advance .closed], rfl, ?_, ?_, fun _ => rfl⟩
    · simp [Task.suits, ConnectionState.permits]
    · exact Nat.le_add_left 1 2
  | closed | error =>
    rw [hs] at hc
    cases hc

/-- In an end the loop ends: it lets go of the sockets, and of the messages still to be sent. -/
theorem act_of_isTerminal (calls : SocketCalls) (ht : l.tasks = .act :: rest)
    (hc : s.lifecycle.current.isTerminal = true) :
    l.step calls s =
      { shared := { s with outbound := .empty }, loop := { l.release with tasks := [] } } := by
  simp only [step, ht, act]
  cases hs : s.lifecycle.current with
  | closed | error => rfl
  | _ =>
    rw [hs] at hc
    cases hc

/-- An announcement tells the listeners of the pending state, unless it is the current one. -/
theorem step_announce (calls : SocketCalls) (ht : l.tasks = .announce :: rest) :
    l.step calls s =
      if s.lifecycle.current = s.lifecycle.desired then
        { shared := s, loop := { l with tasks := rest } }
      else
        raise { s with lifecycle := ⟨s.lifecycle.desired, s.lifecycle.desired⟩ }
          { l with tasks := rest } (.state s.lifecycle.desired) := by
  by_cases hsame : s.lifecycle.current = s.lifecycle.desired
  · have happly : s.lifecycle.apply = (none, s.lifecycle) := if_pos hsame
    simp only [step, ht, happly, if_pos hsame]
  · have happly : s.lifecycle.apply =
        (some s.lifecycle.desired, ⟨s.lifecycle.desired, s.lifecycle.desired⟩) := if_neg hsame
    simp only [step, ht, happly, if_neg hsame]

end Loop

/-! ## Steps -/

namespace Round

/-- A request to close leaves a round. -/
theorem ask (h : Round c tasks) : Round (c.tryRequest .closing) tasks := by
  have hcurrent : (c.tryRequest .closing).current = c.current := c.current_tryRequest _
  -- An end is not replaced by closing.
  have final (hd : c.current.isTerminal = true → c.desired = c.current)
      (hc : c.current.isTerminal = true) : (c.tryRequest .closing).desired = c.current := by
    have hp : c.desired.permits .closing = false := by
      rw [hd hc]
      exact ConnectionState.not_permits_closing_of_isEnding
        (ConnectionState.isEnding_of_isTerminal hc)
    rw [Lifecycle.tryRequest_eq, hp]
    exact hd hc
  cases h with
  | told hd =>
    rw [← hcurrent]
    refine .told ?_
    rw [hcurrent]
    exact final hd
  | act hd =>
    refine .act ?_
    rw [hcurrent]
    exact final hd
  | plan hp =>
    refine .plan ?_
    rw [hcurrent]
    exact hp
  | ended hc hd =>
    refine .ended ?_ ?_ <;> rw [hcurrent]
    · exact hc
    · exact final (fun _ => hd) hc

/-- An announcement begins a round. -/
theorem step_announce (calls : SocketCalls) (ht : l.tasks = nextRound) :
    Round (l.step calls s).shared.lifecycle (l.step calls s).loop.tasks := by
  rw [Loop.step_announce calls ht]
  split
  · rename_i hsame
    exact .act fun _ => hsame.symm
  · exact .told fun _ => rfl

/-- What is left of a plan after its first task is still fit for the round. -/
theorem step_plan {plan : List Task} (calls : SocketCalls)
    (ht : l.tasks = task :: (plan ++ nextRound))
    (hp : ∀ t ∈ task :: plan, t.suits s.lifecycle.current = true) :
    Round (l.step calls s).shared.lifecycle (l.step calls s).loop.tasks := by
  have hs : task.suits s.lifecycle.current = true := hp _ (.head _)
  obtain ⟨plan', ht', hr⟩ := l.step_replaces calls ht hs
  have hcurrent : (l.step calls s).shared.lifecycle.current = s.lifecycle.current := by
    rw [(l.step_turn calls s).lifecycle_eq ht, Task.current_moves hs]
  rw [ht', ← List.append_assoc]
  refine .plan ?_
  rw [hcurrent]
  exact List.forall_mem_append.2 ⟨hr.suits, fun t ht => hp t (.tail _ ht)⟩

/-- A step leads on in a round, or to the next. -/
theorem step (h : Round s.lifecycle l.tasks) (calls : SocketCalls) :
    Round (l.step calls s).shared.lifecycle (l.step calls s).loop.tasks := by
  generalize ht : l.tasks = tasks at h
  cases h with
  | @told listeners hd =>
    cases listeners with
    | nil =>
      simp only [Loop.step, ht]
      exact .act hd
    | cons listener listeners =>
      simp only [Loop.step, ht]
      exact .told hd
  | act hd =>
    cases hc : s.lifecycle.current.isTerminal with
    | true =>
      rw [Loop.act_of_isTerminal calls ht hc]
      exact .ended hc (hd hc)
    | false =>
      obtain ⟨plan, htasks, hm⟩ := Loop.act_plan calls ht hc
      have hl : (l.step calls s).shared.lifecycle = s.lifecycle :=
        (l.step_turn calls s).lifecycle_eq ht
      rw [htasks]
      refine .plan ?_
      rw [hl]
      exact hm.suits
  | @plan plan hp =>
    cases plan with
    | nil => exact step_announce calls ht
    | cons task plan => exact step_plan calls ht hp
  | ended hc hd =>
    have hended : l.hasEnded = true := List.isEmpty_iff.2 ht
    rw [Loop.step_of_hasEnded hended, ht]
    exact .ended hc hd

/-- A transition that is asked for in a round may follow the current state, and does not lead back
to the beginning. -/
theorem permits_of_advance {next : ConnectionState} (h : Round c (.advance next :: rest)) :
    c.current.permits next = true ∧ next ≠ .initial := by
  generalize ht : Task.advance next :: rest = tasks at h
  cases h with
  | told | act | ended => cases ht
  | @plan plan hp =>
    cases plan with
    | nil => cases ht
    | cons task plan =>
      cases ht
      simpa [Task.suits] using hp _ (.head _)

/-- A loop that acts on a state has nothing else to do in the round. -/
theorem tail_of_act (h : Round c (.act :: rest)) : rest = [] := by
  generalize ht : Task.act :: rest = tasks at h
  cases h with
  | told | ended => cases ht
  | act =>
    cases ht
    rfl
  | @plan plan hp =>
    cases plan with
    | nil => cases ht
    | cons task plan =>
      cases ht
      cases hp _ (.head _)

/-- A loop that has ended has done so in a terminal state, with nothing else pending. -/
theorem ended_of_nil (h : Round c []) : c.current.isTerminal = true ∧ c.desired = c.current := by
  generalize ht : ([] : List Task) = tasks at h
  cases h with
  | told | act => cases ht
  | @plan plan => cases plan <;> cases ht
  | ended hc hd => exact ⟨hc, hd⟩

/-- A loop that ends in a step has come to act on an end. -/
theorem of_step_nil (h : Round s.lifecycle l.tasks) (hn : (l.step calls s).loop.tasks = []) :
    l.tasks = [] ∨ l.tasks = [.act] ∧ s.lifecycle.current.isTerminal = true := by
  generalize ht : l.tasks = tasks at h
  cases h with
  | @told listeners =>
    cases listeners <;> simp [Loop.step, ht] at hn
  | act =>
    cases hc : s.lifecycle.current.isTerminal with
    | true => exact .inr ⟨rfl, rfl⟩
    | false =>
      obtain ⟨plan, ht', -⟩ := Loop.act_plan calls ht hc
      rw [ht'] at hn
      cases (List.append_eq_nil_iff.1 hn).2
  | @plan plan hp =>
    cases plan with
    | nil =>
      rw [Loop.step_announce calls ht] at hn
      split at hn <;> cases hn
    | cons task plan =>
      obtain ⟨plan', ht', -⟩ := l.step_replaces calls ht (hp _ (.head _))
      rw [ht'] at hn
      cases (List.append_eq_nil_iff.1 (List.append_eq_nil_iff.1 hn).2).2
  | ended => exact .inl rfl

/-- In a step what is pending is applied, or a transition is asked for that may follow the current
state, or the lifecycle stays as it is. -/
theorem lifecycle_step (h : Round s.lifecycle l.tasks) (calls : SocketCalls) :
    (l.step calls s).shared.lifecycle = s.lifecycle ∨
      (l.step calls s).shared.lifecycle = s.lifecycle.apply.2 ∨
      ∃ next, s.lifecycle.current.permits next = true ∧ next ≠ .initial ∧
        (l.step calls s).shared.lifecycle = s.lifecycle.tryRequest next := by
  cases ht : l.tasks with
  | nil =>
    rw [Loop.step_of_hasEnded (List.isEmpty_iff.2 ht)]
    exact .inl rfl
  | cons task rest =>
    rw [ht] at h
    rw [(l.step_turn calls s).lifecycle_eq ht]
    cases task with
    | announce => exact .inr (.inl rfl)
    | advance next =>
      obtain ⟨hp, hn⟩ := h.permits_of_advance
      exact .inr (.inr ⟨next, hp, hn, rfl⟩)
    | _ => exact .inl rfl

/-- A step does not lead back to the beginning. -/
theorem desired_step_ne (h : Round s.lifecycle l.tasks) (hd : s.lifecycle.desired ≠ .initial)
    (calls : SocketCalls) : (l.step calls s).shared.lifecycle.desired ≠ .initial := by
  rcases h.lifecycle_step calls with heq | heq | ⟨next, -, hnext, heq⟩
  · rwa [heq]
  · rwa [heq, Lifecycle.apply_snd]
  · rw [heq, Lifecycle.tryRequest_eq]
    split
    · exact hnext
    · exact hd

/-- As long as the next round has not begun nothing is pending but the state of this one, unless
somebody has asked to close. -/
theorem begun_step (h : Round s.lifecycle l.tasks)
    (hb : l.tasks.any Task.announces = false →
      s.lifecycle.desired = s.lifecycle.current ∨ s.lifecycle.desired = .closing)
    (hn : (l.step calls s).loop.tasks.any Task.announces = false) :
    (l.step calls s).shared.lifecycle.desired = (l.step calls s).shared.lifecycle.current ∨
      (l.step calls s).shared.lifecycle.desired = .closing := by
  -- A plan ends with the next round.
  have planned {plan : List Task} (ht : (l.step calls s).loop.tasks = plan ++ nextRound) :
      False := by
    rw [ht] at hn
    simp [nextRound, Task.announces] at hn
  generalize ht : l.tasks = tasks at h hb
  cases h with
  | @told listeners =>
    have hl : (l.step calls s).shared.lifecycle = s.lifecycle :=
      (l.step_turn calls s).lifecycle_eq ht
    rw [hl]
    exact hb rfl
  | act =>
    have hl : (l.step calls s).shared.lifecycle = s.lifecycle :=
      (l.step_turn calls s).lifecycle_eq ht
    rw [hl]
    exact hb rfl
  | @plan plan hp =>
    cases plan with
    | nil =>
      rw [Loop.step_announce calls ht]
      split
      · exact .inl (Eq.symm ‹_›)
      · exact .inl rfl
    | cons task plan =>
      obtain ⟨plan', ht', -⟩ := l.step_replaces calls ht (hp _ (.head _))
      exact (planned (ht'.trans (List.append_assoc ..).symm)).elim
  | ended hc hd =>
    rw [Loop.step_of_hasEnded (List.isEmpty_iff.2 ht)]
    exact .inl hd

/-- A loop about to stop is so after a step. -/
theorem isEnding_step (h : Round s.lifecycle l.tasks) (hd : s.lifecycle.desired.isEnding = true)
    (calls : SocketCalls) : (l.step calls s).shared.lifecycle.desired.isEnding = true := by
  rcases h.lifecycle_step calls with heq | heq | ⟨next, -, hn, heq⟩
  · rwa [heq]
  · rwa [heq, Lifecycle.apply_snd]
  · rw [heq, Lifecycle.tryRequest_eq]
    split
    · exact ConnectionState.isEnding_of_permits hd ‹_› hn
    · exact hd

end Round

end

end PeerMessaging
