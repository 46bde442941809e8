import PeerMessaging.Proofs.Link.Rounds
import PeerMessaging.Proofs.Link.Verdict

/-!
# What steps of the loop bring about

A step of the loop may put a message into the queue of those received, raise an event, tell a
listener of one, or ask for a transition (`Effect`). `Loop.effects` reads that off a step. Some
tasks only carry out what has been decided before them, one effect in each step; `Task.effects` is
everything that such a task brings about until it is done, and a step moves a part of it from the
tasks into the trace (`Loop.step_relay`, `Loop.step_refuse`). In a session such tasks always come to
their end (`Connection.InSession.settles_relays`).
-/

namespace PeerMessaging

/-! ## Effects -/

/-- What a step of the loop may bring about. -/
inductive Effect
  /-- A message is put into the queue of those received. -/
  | pushed (message : Message)
  /-- An event is raised. -/
  | raised (event : Event)
  /-- A listener is told of an event. -/
  | told (listener : Listener) (event : Event)
  /-- A transition is asked for, which may be refused. -/
  | requested (next : ConnectionState)

namespace Effect

/-- The message that is put into the queue. -/
def pushed? : Effect → Option Message
  | pushed m => some m
  | _ => none

/-- The effect is that a message is queued or announced. -/
def isOfMessage : Effect → Bool
  | pushed _ | raised .message | told _ .message => true
  | _ => false

/-- The transition that is asked for. -/
def requested? : Effect → Option ConnectionState
  | requested next => some next
  | _ => none

end Effect

/-- An event is raised, and every listener is told of it. -/
def Event.effects (listeners : List Listener) (e : Event) : List Effect :=
  .raised e :: listeners.map (.told · e)

/-- What an item that has been read brings about: a message is queued and announced, a frame that
is none is reported, and a keepalive is of no consequence. -/
def Item.effects (r : Registry) (listeners : List Listener) : Item → List Effect
  | .keepalive => []
  | .frame f =>
    match r.decode f with
    | .ok m => .pushed m :: Event.effects listeners .message
    | .error e => Event.effects listeners (.error (.ofRegistry e))

/-- What a message that is to be sent brings about: a report, if it is refused. -/
def Message.effects (r : Registry) (config : FrameConfig) (listeners : List Listener)
    (m : Message) : List Effect :=
  (r.refusal config m).elim [] fun e => Event.effects listeners (.error e)

/-- What a fatal error brings about: it is reported, and then a transition is asked for. -/
def ConnectionError.effects (listeners : List Listener) (e : ConnectionError)
    (next : ConnectionState) : List Effect :=
  Event.effects listeners (.error e) ++ [.requested next]

/-- What a failed read brings about. -/
def FrameError.effects (listeners : List Listener) (e : FrameError) : List Effect :=
  (ConnectionError.ofReceive e).effects listeners (stateAfter e)

namespace Task

/-- The task carries out what has been decided. -/
def relays : Task → Bool
  | notify .. | report _ | advance _ | dispatch _ => true
  | _ => false

/-- Such a task sets no deadline. -/
theorem isTimed_of_relays {task : Task} (h : task.relays = true) : task.isTimed = false := by
  cases task <;> first | rfl | cases h

/-- What a task that carries something out brings about, itself and through the tasks that take its
place. -/
def effects (r : Registry) (config : FrameConfig) (listeners : List Listener) : Task → List Effect
  | notify event rest => rest.map (.told · event)
  | report e => Event.effects listeners (.error e)
  | advance next => [.requested next]
  | dispatch items => items.flatMap (Item.effects r listeners)
  | encode messages => messages.flatMap (Message.effects r config listeners)
  | _ => []

end Task

section
variable {registry : Registry} {config : FrameConfig} {listeners : List Listener}

/-- What tasks that carry something out bring about, one after another. -/
def effectsOf (r : Registry) (config : FrameConfig) (listeners : List Listener)
    (tasks : List Task) : List Effect := tasks.flatMap (Task.effects r config listeners)

@[simp] theorem effectsOf_nil : effectsOf registry config listeners [] = [] := rfl

@[simp] theorem effectsOf_cons (task : Task) (tasks : List Task) :
    effectsOf registry config listeners (task :: tasks) =
      task.effects registry config listeners ++ effectsOf registry config listeners tasks :=
  List.flatMap_cons

@[simp] theorem effectsOf_append (plan rest : List Task) :
    effectsOf registry config listeners (plan ++ rest) =
      effectsOf registry config listeners plan ++ effectsOf registry config listeners rest :=
  List.flatMap_append

/-- A fatal error is reported by the tasks that are planned for it. -/
theorem effectsOf_failing (e : ConnectionError) (next : ConnectionState) :
    effectsOf registry config listeners (failing e next) = e.effects listeners next := by
  simp [failing, ConnectionError.effects, Task.effects]

end

/-! ## Steps -/

namespace Loop

/-- The transition that the next step asks for. -/
def asked (l : Loop) : Option ConnectionState :=
  match l.tasks with
  | .advance next :: _ => some next
  | _ => none

/-- What the next step brings about. -/
def effects (calls : SocketCalls) (s : Shared) (l : Loop) : List Effect :=
  let st := l.step calls s
  (st.shared.inbound.messages.drop s.inbound.messages.length).map .pushed ++
    (st.raised.toList.map .raised ++
      (st.told.toList.map (fun (listener, event) => .told listener event) ++
        l.asked.toList.map .requested))

section
variable {calls : SocketCalls} {s : Shared} {l : Loop} {st : Step} {task : Task} {rest : List Task}
  {registry : Registry} {config : FrameConfig} {listeners : List Listener}

/-- A step puts messages behind those received. -/
theorem inbound_of_turn (t : Turn calls s l st) :
    ∃ more, st.shared.inbound.messages = s.inbound.messages ++ more := by
  cases t with
  | dispatch _ _ hq => exact ⟨_, hq⟩
  | _ => exact ⟨[], (List.append_nil _).symm⟩

/-- The messages that a step puts into the queue are among its effects. -/
theorem inbound_step (calls : SocketCalls) (s : Shared) (l : Loop) :
    (l.step calls s).shared.inbound.messages =
      s.inbound.messages ++ (l.effects calls s).filterMap Effect.pushed? := by
  obtain ⟨more, hm⟩ := inbound_of_turn (l.step_turn calls s)
  have hdrop : (l.step calls s).shared.inbound.messages.drop s.inbound.messages.length = more := by
    rw [hm, List.drop_left]
  have hnone {α : Type} (f : α → Effect) (hf : ∀ x, (f x).pushed? = none) (xs : List α) :
      (xs.map f).filterMap Effect.pushed? = [] := by
    rw [List.filterMap_map]
    exact List.filterMap_eq_nil_iff.2 fun x _ => hf x
  have hpushed : (more.map Effect.pushed).filterMap Effect.pushed? = more := by
    rw [List.filterMap_map]
    exact List.filterMap_some
  rw [effects, hdrop, List.filterMap_append, List.filterMap_append, List.filterMap_append, hpushed,
    hnone _ fun _ => rfl, hnone _ fun _ => rfl, hnone _ fun _ => rfl, List.append_nil,
    List.append_nil, List.append_nil, hm]

/-- A step that announces no state changes the lifecycle by what it asks for. -/
theorem lifecycle_step (calls : SocketCalls) (s : Shared) (ht : l.tasks = task :: rest)
    (hn : task ≠ .announce) :
    (l.step calls s).shared.lifecycle =
      ((l.effects calls s).filterMap Effect.requested?).foldl Lifecycle.tryRequest s.lifecycle := by
  have hnone {α : Type} (f : α → Effect) (hf : ∀ x, (f x).requested? = none) (xs : List α) :
      (xs.map f).filterMap Effect.requested? = [] := by
    rw [List.filterMap_map]
    exact List.filterMap_eq_nil_iff.2 fun x _ => hf x
  have hasked : (l.effects calls s).filterMap Effect.requested? = l.asked.toList := by
    rw [effects, List.filterMap_append, List.filterMap_append, List.filterMap_append,
      hnone _ fun _ => rfl, hnone _ fun _ => rfl, hnone _ fun _ => rfl, List.nil_append,
      List.nil_append, List.nil_append, List.filterMap_map]
    exact List.filterMap_some
  rw [hasked, (l.step_turn calls s).lifecycle_eq ht, asked, ht]
  cases task <;> first | rfl | exact absurd rfl hn

/-- A step with nothing new in the queue of those received brings about what it raises, tells and
asks for. -/
theorem effects_of_inbound (h : (l.step calls s).shared.inbound = s.inbound) :
    l.effects calls s = (l.step calls s).raised.toList.map .raised ++
      ((l.step calls s).told.toList.map (fun (listener, event) => .told listener event) ++
        l.asked.toList.map .requested) := by
  rw [effects, h, List.drop_length]
  rfl

/-- Messages are queued and announced only by tasks for that. -/
theorem tasks_of_isOfMessage {effect : Effect} (he : effect ∈ l.effects calls s)
    (hm : effect.isOfMessage = true) :
    ∃ rest, (∃ items, l.tasks = .dispatch items :: rest) ∨
      ∃ listeners, l.tasks = .notify .message listeners :: rest := by
  -- Whatever else a step does, it raises nothing and tells nobody of anything.
  have quiet (hi : (l.step calls s).shared.inbound = s.inbound)
      (hr : (l.step calls s).raised = none) (ht : (l.step calls s).told = none) : False := by
    rw [effects_of_inbound hi, hr, ht] at he
    obtain ⟨next, -, rfl⟩ := List.mem_map.1 he
    cases hm
  have t := l.step_turn calls s
  cases ht : l.tasks with
  | nil =>
    have hstep : l.step calls s = { shared := s, loop := l } :=
      step_of_hasEnded (List.isEmpty_iff.2 ht)
    exact (quiet (by rw [hstep]) (by rw [hstep]) (by rw [hstep])).elim
  | cons task rest =>
    cases task with
    | dispatch items => exact ⟨rest, .inl ⟨items, rfl⟩⟩
    | notify event listeners =>
      cases event with
      | message => exact ⟨rest, .inr ⟨listeners, rfl⟩⟩
      | state | error =>
        cases listeners <;> simp [effects, step, ht, asked] at he
        subst he
        cases hm
    | announce =>
      have hstep := step_announce (s := s) calls ht
      split at hstep
      · exact (quiet (by rw [hstep]) (by rw [hstep]) (by rw [hstep])).elim
      · simp [effects, hstep, raise, ht, asked] at he
        subst he
        cases hm
    | report e =>
      simp [effects, step, raise, ht, asked] at he
      subst he
      cases hm
    | _ =>
      refine (quiet ?_ ?_ ?_).elim <;> generalize l.step calls s = st at t <;> cases t with
      | tell _ ht' hn =>
        cases ht.symm.trans ht'
        cases hn
      | announce _ ht' | dispatch _ ht' => cases ht.symm.trans ht'
      | _ => rfl

/-- A task that carries something out is replaced by tasks that carry out the rest, in fewer
steps. -/
theorem step_relay (calls : SocketCalls) (config : FrameConfig) (ht : l.tasks = task :: rest)
    (hn : task.relays = true) (hs : s.listeners.registered = listeners)
    (hr : l.registry = registry) :
    ∃ plan, (l.step calls s).loop.tasks = plan ++ rest ∧ (∀ t ∈ plan, t.relays = true) ∧
      l.effects calls s ++ effectsOf registry config listeners plan =
        task.effects registry config listeners ∧
      costs listeners.length plan < task.cost listeners.length := by
  subst hs hr
  cases task with
  | notify event listeners =>
    cases listeners with
    | nil =>
      refine ⟨[], ?_, List.forall_mem_nil _, ?_, Nat.one_pos⟩
      · simp only [step, ht, List.nil_append]
      · simp [effects, step, ht, asked, Task.effects]
    | cons listener listeners =>
      refine ⟨[.notify event listeners], ?_, by simp [Task.relays], ?_, Nat.lt_succ_self _⟩
      · simp only [step, ht, tasks_first]
      · simp [effects, step, ht, asked, Task.effects]
  | report e =>
    refine ⟨[.notify (.error e) s.listeners.registered], ?_, by simp [Task.relays], ?_,
      Nat.lt_succ_self _⟩
    · simp only [step, ht, raise, tasks_first]
    · simp [effects, step, ht, asked, raise, Task.effects, Event.effects]
  | advance next =>
    refine ⟨[], ?_, List.forall_mem_nil _, ?_, Nat.one_pos⟩
    · simp only [step, ht, List.nil_append]
    · simp [effects, step, ht, asked, Task.effects]
  | dispatch items =>
    rcases items with _ | ⟨_ | f, items⟩
    · refine ⟨[], ?_, List.forall_mem_nil _, ?_, Nat.lt_succ_of_le (Nat.zero_le _)⟩
      · simp only [step, ht, List.nil_append]
      · simp [effects, step, ht, asked, Task.effects]
    · refine ⟨[.dispatch items], ?_, by simp [Task.relays], ?_, ?_⟩
      · simp only [step, ht, dispatch, tasks_first]
      · simp [effects, step, ht, asked, dispatch, Task.effects, Item.effects]
      · simp only [costs, Task.cost, List.length_cons, Nat.succ_mul]
        omega
    · cases hd : l.registry.decode f with
      | ok m =>
        refine ⟨[.notify .message s.listeners.registered, .dispatch items], ?_,
          by simp [Task.relays], ?_, ?_⟩
        · simp only [step, ht, dispatch, first, hd, raise]
          rfl
        · simp [effects, step, ht, asked, dispatch, first, hd, raise, Task.effects, Item.effects,
            Event.effects]
        · simp only [costs, Task.cost, List.length_cons, Nat.succ_mul]
          omega
      | error e =>
        refine ⟨[.report (.ofRegistry e), .dispatch items], ?_, by simp [Task.relays], ?_, ?_⟩
        · simp only [step, ht, dispatch, first, hd]
          rfl
        · simp [effects, step, ht, asked, dispatch, first, hd, Task.effects, Item.effects]
        · simp only [costs, Task.cost, List.length_cons, Nat.succ_mul]
          omega
  | _ => cases hn

/-- Such a task leaves the stream alone. -/
theorem writer_relay (calls : SocketCalls) (s : Shared) (ht : l.tasks = task :: rest)
    (hn : task.relays = true) :
    (l.step calls s).loop.writer = l.writer ∧ (l.step calls s).sent = [] := by
  cases task with
  | notify event listeners => cases listeners <;> simp [step, ht, first]
  | report | advance => simp [step, ht, raise, first]
  | dispatch items =>
    rcases items with _ | ⟨_ | f, items⟩
    · simp [step, ht]
    · simp [step, ht, dispatch, first]
    · cases hd : l.registry.decode f <;> simp [step, ht, dispatch, raise, first, hd]
  | _ => cases hn

/-- A message is reported if it is refused, and otherwise its frame is queued for writing. -/
theorem encode_cases (m : Message) {w : Encoder} (hw : l.writer = some w) :
    (∃ e, l.encode m w = l.first [.report e] ∧ l.registry.refusal w.config m = some e ∧
      l.registry.outgoing w.config m = none) ∨
    ∃ f, l.encode m w = { l with
        writer := some { w with pending := w.pending ++ frameBytes w.config.protocol f } } ∧
      l.registry.refusal w.config m = none ∧ l.registry.outgoing w.config m = some f := by
  cases hf : l.registry.encode m with
  | error e =>
    refine .inl ⟨.ofRegistry e, ?_, ?_, ?_⟩
    · simp only [encode, hf]
    · rw [Registry.refusal, hf]
    · rw [Registry.outgoing, hf]
      rfl
  | ok f =>
    rcases Nat.lt_or_ge w.config.longest f.payload.length with hl | hl
    · obtain ⟨max, he⟩ := w.enqueue_of_gt hl
      let reason : FrameError := .payloadTooLarge f.payload.length max
      refine .inl ⟨⟨.invalidMessage, reason.message, false, none⟩, ?_, ?_, ?_⟩
      · have hl : ({ l with writer := some w } : Loop) = l := by rw [← hw]
        simp only [encode, hf, he, hl, reason]
      · rw [Registry.refusal, hf]
        exact congrArg (Option.map _) (Encoder.enqueue_eq_error_iff.1 (congrArg Prod.fst he))
      · rw [Registry.outgoing, hf]
        exact Option.filter_eq_none_iff.2 fun g hg => by cases hg; simpa using hl
    · have ho : l.registry.outgoing w.config m = some f := by
        rw [Registry.outgoing, hf]
        exact Option.filter_eq_some_iff.2 ⟨rfl, by simpa using hl⟩
      refine .inr ⟨f, by simp only [encode, hf, w.enqueue_of_le hl], ?_, ho⟩
      rw [Registry.refusal_eq_none_iff, ho]
      rfl

/-- A message that is due is queued for writing, or the report of its refusal takes its place. -/
theorem step_refuse {m : Message} {ms : List Message} {w : Encoder} (calls : SocketCalls)
    (s : Shared) (listeners : List Listener) (ht : l.tasks = .encode (m :: ms) :: rest)
    (hw : l.writer = some w) :
    ∃ plan w', (l.step calls s).loop.tasks = plan ++ .encode ms :: rest ∧
      (∀ t ∈ plan, t.relays = true) ∧ (l.step calls s).loop.writer = some w' ∧
      w'.config = w.config ∧ w'.pending = w.pending ++
        (l.registry.outgoing w.config m).toList.flatMap (frameBytes w.config.protocol) ∧
      (l.step calls s).sent = [] ∧ l.effects calls s = [] ∧
      effectsOf l.registry w.config listeners plan =
        m.effects l.registry w.config listeners := by
  let kept : Loop := { l with tasks := .encode ms :: rest }
  have hkept : l.writer.elim kept (kept.encode m) = kept.encode m w :=
    congrArg (Option.elim · kept (kept.encode m)) hw
  have hstep : l.step calls s = { shared := s, loop := kept.encode m w } := by
    rw [← hkept]
    simp only [step, ht]
    rfl
  have heffects : l.effects calls s = [] := by
    rw [effects_of_inbound (by rw [hstep]), hstep, asked, ht]
    rfl
  rw [Message.effects, heffects, hstep]
  have hkw : kept.writer = some w := hw
  rcases encode_cases m hkw with ⟨e, hl, hr, ho⟩ | ⟨f, hl, hr, ho⟩ <;> rw [hl, hr, ho]
  · exact ⟨[.report e], w, rfl, by simp [Task.relays], hw, rfl, (List.append_nil _).symm, rfl, rfl,
      List.append_nil _⟩
  · exact ⟨[], _, rfl, List.forall_mem_nil _, rfl, rfl, congrArg _ (List.append_nil _).symm, rfl,
      rfl, rfl⟩

end

end Loop

/-! ## Histories -/

namespace Connection

/-- What the loop brings about in a move. -/
def effects (c : Connection) : Move → List Effect
  | .work calls => c.loop.elim [] fun l => l.effects calls c.shared
  | _ => []

/-- What is seen in moves, one after another. -/
def along {α : Type} (seen : Connection → Move → List α) (c : Connection) : List Move → List α
  | [] => []
  | m :: moves => seen c m ++ along seen (c.move m).connection moves

/-- What comes of moves that are each made in a session only on this condition. -/
def sessionWhile (p : Connection → Bool) (c : Connection) : List Move → Option Connection
  | [] => some c
  | m :: moves => if p c then (c.next m).bind (sessionWhile p · moves) else none

section
variable {c c' : Connection} {m : Move}

/-- A move of a session is a step of the loop or is made beside it, without a step. -/
theorem beside_or_step (hb : 1 ≤ c.desired.stage) (hn : c.next m = some c') :
    ((∀ calls, m = .work calls → c.loop = none) ∧ c.Beside m) ∨
      ∃ calls l, m = .work calls ∧ c.loop = some l ∧ c.halts (.work calls) = false := by
  rcases beside_or_work hb hn with hm | hm
  · cases hl : c.loop with
    | none => exact .inl ⟨fun _ _ => rfl, hm⟩
    | some l =>
      by_cases hw : ∃ calls, m = .work calls
      · obtain ⟨calls, rfl⟩ := hw
        exact .inr ⟨calls, l, rfl, rfl, (next_eq_some hn).1⟩
      · exact .inl ⟨fun calls h => absurd ⟨calls, h⟩ hw, hm⟩
  · exact .inr hm

/-- Without a step of the loop nothing is brought about. -/
theorem effects_of_no_step (h : ∀ calls, m = .work calls → c.loop = none) : c.effects m = [] := by
  cases m with
  | work calls => rw [effects, h calls rfl, Option.elim_none]
  | _ => rfl

/-- The messages that are put into the queue in a move are among its effects. -/
theorem inbound_next (hb : 1 ≤ c.desired.stage) (hn : c.next m = some c') :
    c.takes m ++ c'.shared.inbound.messages =
      c.shared.inbound.messages ++ (c.effects m).filterMap Effect.pushed? := by
  have hmove := beside_or_step hb hn
  obtain ⟨-, -, rfl⟩ := next_eq_some hn
  rcases hmove with ⟨hw, hm⟩ | ⟨calls, l, rfl, hl, hh⟩
  · rw [hm.inbound_eq, effects_of_no_step hw, List.filterMap_nil, List.append_nil]
  · rw [move_work calls hl hh, effects, hl]
    exact l.inbound_step calls c.shared

end

/-! ### The end of a plan -/

section
variable {registry : Registry} {config : ConnectionConfig} {listeners : List Listener}
  {p : Connection → Bool} {c c' : Connection} {l : Loop} {moves : List Move} {plan tail : List Task}

/-- The moves go on with those behind them. -/
theorem sessionWhile_append (p : Connection → Bool) (c : Connection) (moves more : List Move) :
    c.sessionWhile p (moves ++ more) =
      (c.sessionWhile p moves).bind (sessionWhile p · more) := by
  induction moves generalizing c with
  | nil => rfl
  | cons m moves ih =>
    rw [List.cons_append, sessionWhile, sessionWhile]
    split
    · rw [Option.bind_assoc]
      exact congrArg _ (funext ih)
    · rfl

/-- They are moves of a session. -/
theorem session_of_sessionWhile (h : c.sessionWhile p moves = some c') :
    c.session moves = some c' := by
  induction moves generalizing c with
  | nil => exact h
  | cons m moves ih =>
    rw [sessionWhile] at h
    split at h
    · obtain ⟨c₁, hn, h⟩ := Option.bind_eq_some_iff.1 h
      exact Option.bind_eq_some_iff.2 ⟨c₁, hn, ih h⟩
    · cases h

/-- The loop of a session makes its next step, unless that ends it at once. -/
theorem InSession.next_work {calls : SocketCalls} (h : c.InSession registry config)
    (hl : c.loop = some l) (hh : c.halts (.work calls) = false) :
    c.next (.work calls) = some (c.move (.work calls)).connection := by
  have hstage := (l.step_turn calls c.shared).stage_desired_le (h.underway l hl).orderly
  have hd : (c.move (.work calls)).connection.desired ≠ .initial := by
    intro hd
    rw [move_work calls hl hh] at hd
    have hd' : (l.step calls c.shared).shared.lifecycle.desired = .initial := hd
    rw [hd'] at hstage
    exact absurd (Nat.le_trans h.begun hstage) (by decide)
  exact if_neg (not_or.2 ⟨Bool.eq_false_iff.1 hh, hd⟩)

/-- A plan whose tasks set no deadlines and are each replaced by others of the kind that cost less
comes to its end. -/
theorem InSession.settles {kind : Task → Bool} (htimed : ∀ t, kind t = true → t.isTimed = false)
    (hstep : ∀ (calls : SocketCalls) (s : Shared) (l : Loop) (task : Task) (rest : List Task),
      s.listeners.registered = listeners → l.tasks = task :: rest → kind task = true →
        ∃ plan, (l.step calls s).loop.tasks = plan ++ rest ∧ (∀ t ∈ plan, kind t = true) ∧
          costs listeners.length plan < task.cost listeners.length)
    (hwhile : ∀ (c : Connection) (task : Task) (plan : List Task),
      c.tasks = (task :: plan) ++ tail → (∀ t ∈ task :: plan, kind t = true) → p c = true)
    (h : c.InSession registry config) (hr : c.shared.listeners.registered = listeners)
    (hl : c.loop = some l) (ht : l.tasks = plan ++ tail) (hp : ∀ t ∈ plan, kind t = true)
    (calls : Nat → SocketCalls) :
    ∃ n c' l', c.sessionWhile p ((List.range n).map fun i => .work (calls i)) = some c' ∧
      c'.loop = some l' ∧ l'.tasks = tail := by
  induction hk : costs listeners.length plan using Nat.strongRecOn
    generalizing c l plan calls with
  | ind k ih =>
    subst hk
    cases plan with
    | nil => exact ⟨0, c, l, rfl, hl, ht⟩
    | cons task plan =>
      obtain ⟨htask, hplan⟩ := List.forall_mem_cons.1 hp
      obtain ⟨plan', ht', hp', hcost⟩ := hstep (calls 0) c.shared l task _ hr ht htask
      have hh := halts_of_not_isTimed (calls 0) hl ht (htimed task htask)
      have hn := h.next_work hl hh
      have hm := move_work (calls 0) hl hh
      have hless : costs listeners.length (plan' ++ plan) <
          costs listeners.length (task :: plan) := by
        rw [costs_append, costs]
        omega
      have hr' : (c.move (.work (calls 0))).connection.shared.listeners.registered = listeners := by
        rw [hm, ← hr]
        exact congrArg Listeners.registered (l.step_turn (calls 0) c.shared).listeners_eq
      obtain ⟨n, c', l', hs, hl', htail⟩ := ih _ hless (h.next hn) hr' (by rw [hm]; rfl)
        (ht'.trans (List.append_assoc _ _ _).symm) (List.forall_mem_append.2 ⟨hp', hplan⟩)
        (fun i => calls (i + 1)) rfl
      refine ⟨n + 1, c', l', ?_, hl', htail⟩
      rw [List.range_succ_eq_map, List.map_cons, List.map_map, sessionWhile,
        if_pos (hwhile c task plan ((tasks_of_some hl).trans ht) hp), hn]
      exact hs

/-- So does a plan whose tasks carry out what has been decided. -/
theorem InSession.settles_relays
    (hwhile : ∀ (c : Connection) (task : Task) (plan : List Task),
      c.tasks = (task :: plan) ++ tail → (∀ t ∈ task :: plan, t.relays = true) → p c = true)
    (h : c.InSession registry config) (hl : c.loop = some l) (ht : l.tasks = plan ++ tail)
    (hp : ∀ t ∈ plan, t.relays = true) (calls : Nat → SocketCalls) :
    ∃ n c' l', c.sessionWhile p ((List.range n).map fun i => .work (calls i)) = some c' ∧
      c'.loop = some l' ∧ l'.tasks = tail := by
  refine h.settles (fun _ => Task.isTimed_of_relays) (fun calls s l task rest hr ht hn => ?_)
    hwhile rfl hl ht hp calls
  obtain ⟨plan, ht', hp', -, hcost⟩ := Loop.step_relay calls config.streamConfig ht hn hr rfl
  exact ⟨plan, ht', hp', hcost⟩

end

end Connection

end PeerMessaging
