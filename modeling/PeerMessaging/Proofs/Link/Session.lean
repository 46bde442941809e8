import PeerMessaging.Proofs.Link.Turn

/-!
# The loop of a session

In a session the states follow one another in one direction
(`ConnectionState.stage_lt_of_permits`), and what has been taken from a queue or read is dealt with
before anything else is (`Orderly`). A step keeps both (`Underway.turn`). A stream is taken over at
most once: after that the loop is past the states in which it looks for one, or is on its way out
of them (`Settled.turn`).
-/

namespace PeerMessaging

/-! ## The stages of a session -/

/-- How far a session has come in a state. -/
def ConnectionState.stage : ConnectionState → Nat
  | initial => 0
  | opening => 1
  | connecting | listening => 2
  | connected => 3
  | closing => 4
  | closed | error => 5

/-- A session goes forward in every transition but the one that ends it. -/
theorem ConnectionState.stage_lt_of_permits {a b : ConnectionState} (h : a.permits b = true)
    (hb : b ≠ .initial) : a.stage < b.stage := by
  cases a <;> cases b <;> simp_all [permits, stage]

namespace Lifecycle

/-- What is pending goes forward in a session. -/
theorem stage_le_tryRequest (l : Lifecycle) {next : ConnectionState} (hn : next ≠ .initial) :
    l.desired.stage ≤ (l.tryRequest next).desired.stage := by
  unfold tryRequest request
  split <;> rename_i h <;> split at h <;> cases h
  · exact Nat.le_of_lt (ConnectionState.stage_lt_of_permits ‹_› hn)
  · exact Nat.le_refl _

/-- With a stream taken over, a session is connected unless it has gone further. -/
theorem three_le_stage_tryRequest (l : Lifecycle) (h : 2 ≤ l.desired.stage) :
    3 ≤ (l.tryRequest .connected).desired.stage := by
  obtain ⟨current, desired⟩ := l
  cases desired <;> simp_all [tryRequest, request, ConnectionState.permits, ConnectionState.stage]

end Lifecycle

/-! ## The order of tasks -/

/-- The messages that tasks hold. -/
def heldMessages (tasks : List Task) : List Message := tasks.flatMap Task.messages

/-- The items that tasks hold. -/
def heldItems (tasks : List Task) : List Item := tasks.flatMap Task.items

/-- The tasks do one thing at a time: behind the first that does more than tell, none holds messages
or items. -/
def Orderly : List Task → Prop
  | [] => True
  | task :: rest =>
    if task.tells then Orderly rest
    else task ≠ .advance .initial ∧ ∀ t ∈ rest, t.isPlain = true

section
variable {task : Task} {plan rest tasks : List Task}

theorem heldMessages_append (plan rest : List Task) :
    heldMessages (plan ++ rest) = heldMessages plan ++ heldMessages rest := List.flatMap_append

theorem heldItems_append (plan rest : List Task) :
    heldItems (plan ++ rest) = heldItems plan ++ heldItems rest := List.flatMap_append

/-- A plain task holds nothing. -/
theorem Task.held_of_isPlain (h : task.isPlain = true) :
    task.messages = [] ∧ task.items = [] := by
  cases task <;> first | exact ⟨rfl, rfl⟩ | cases h

/-- Plain tasks hold nothing. -/
theorem held_of_isPlain (h : ∀ t ∈ tasks, t.isPlain = true) :
    heldMessages tasks = [] ∧ heldItems tasks = [] :=
  ⟨List.flatMap_eq_nil_iff.2 fun t ht => (Task.held_of_isPlain (h t ht)).1,
    List.flatMap_eq_nil_iff.2 fun t ht => (Task.held_of_isPlain (h t ht)).2⟩

/-- A task that holds no messages is of no consequence to the messages held, and neither is a plan
that takes its place. -/
theorem heldMessages_plan (ht : tasks = task :: rest) (hp : ∀ t ∈ plan, t.isPlain = true)
    (hm : task.messages = []) : heldMessages (plan ++ rest) = heldMessages tasks := by
  rw [ht, heldMessages_append, (held_of_isPlain hp).1, heldMessages, heldMessages,
    List.flatMap_cons, hm]

/-- A task that holds no items is of no consequence to the items held, and neither is a plan that
takes its place. -/
theorem heldItems_plan (ht : tasks = task :: rest) (hp : ∀ t ∈ plan, t.isPlain = true)
    (hi : task.items = []) : heldItems (plan ++ rest) = heldItems tasks := by
  rw [ht, heldItems_append, (held_of_isPlain hp).2, heldItems, heldItems, List.flatMap_cons, hi]

/-- A task that tells is plain. -/
theorem Task.isPlain_of_tells (h : task.tells = true) : task.isPlain = true := by
  cases task <;> first | rfl | cases h

/-- A task that tells does not read. -/
theorem Task.reads_of_tells (h : task.tells = true) : task.reads = false := by
  cases task <;> first | rfl | cases h

/-- A task of the exchange does more than tell. -/
theorem Task.tells_of_exchanges (h : task.exchanges = true) : task.tells = false := by
  cases task <;> first | rfl | cases h

/-- Tasks that tell are plain. -/
theorem isPlain_of_tells (h : ∀ t ∈ plan, t.tells = true) : ∀ t ∈ plan, t.isPlain = true :=
  fun t ht => Task.isPlain_of_tells (h t ht)

/-- A task that tells holds nothing. -/
theorem Task.held_of_tells (h : task.tells = true) : task.messages = [] ∧ task.items = [] :=
  held_of_isPlain (isPlain_of_tells h)

namespace Orderly

/-- Behind a task that does more than tell, nothing is held. -/
theorem rest_isPlain (h : Orderly (task :: rest)) (hn : task.tells = false) :
    ∀ t ∈ rest, t.isPlain = true := by
  rw [Orderly, hn] at h
  exact h.2

/-- No task leads back to the beginning. -/
theorem ne_initial {next : ConnectionState} (h : Orderly (.advance next :: rest)) :
    next ≠ .initial := by
  rintro rfl
  exact h.1 rfl

theorem of_isPlain (h : ∀ t ∈ tasks, t.isPlain = true) : Orderly tasks := by
  induction tasks with
  | nil => trivial
  | cons task rest ih =>
    have hrest := fun t ht => h t (.tail _ ht)
    rw [Orderly]
    split
    · exact ih hrest
    · refine ⟨?_, hrest⟩
      rintro rfl
      cases h _ (.head _)

/-- Telling something first is no matter. -/
theorem append (hp : ∀ t ∈ plan, t.tells = true) (h : Orderly tasks) :
    Orderly (plan ++ tasks) := by
  induction plan with
  | nil => exact h
  | cons task plan ih =>
    rw [List.cons_append, Orderly, if_pos (hp _ (.head _))]
    exact ih fun t ht => hp t (.tail _ ht)

/-- What is behind a task is in order too. -/
theorem tail (h : Orderly (task :: rest)) : Orderly rest := by
  rw [Orderly] at h
  split at h
  · exact h
  · exact of_isPlain h.2

end Orderly

end

/-! ## What a session keeps -/

/-- A loop runs a session with these codecs and settings. -/
structure Underway (registry : Registry) (config : ConnectionConfig) (s : Shared) (l : Loop) :
    Prop where
  registry_eq : l.registry = registry
  config_eq : l.config = config
  orderly : Orderly l.tasks
  /-- The current state is not past the pending one, unless it is about to be replaced by it. -/
  behind : ∀ task rest, l.tasks = task :: rest → task ≠ .announce →
    s.lifecycle.current.stage ≤ s.lifecycle.desired.stage

section
variable {registry : Registry} {config : ConnectionConfig} {calls : SocketCalls} {s : Shared}
  {l : Loop} {st : Step} {task : Task} {rest : List Task}

/-- What is pending goes forward in a step. -/
theorem Turn.stage_desired_le (t : Turn calls s l st) (ho : Orderly l.tasks) :
    s.lifecycle.desired.stage ≤ st.shared.lifecycle.desired.stage := by
  cases t with
  | announce => exact Nat.le_of_eq (by rw [Lifecycle.apply_snd])
  | advance ht =>
    rw [ht] at ho
    exact s.lifecycle.stage_le_tryRequest ho.ne_initial
  | _ => exact Nat.le_refl _

/-- An announcement makes the pending state the current one. -/
theorem Turn.of_announce (t : Turn calls s l st) (ht : l.tasks = .announce :: rest) :
    st.shared.lifecycle = s.lifecycle.apply.2 := by
  cases t with
  | announce => rfl
  | _ => simp_all [Task.tells, Task.exchanges]

/-- A transition that is asked for is asked for, and that is all. -/
theorem Turn.of_advance {next : ConnectionState} (t : Turn calls s l st)
    (ht : l.tasks = .advance next :: rest) :
    st.shared.lifecycle = s.lifecycle.tryRequest next ∧ st.loop.tasks = rest := by
  cases t with
  | advance ht' =>
    cases ht.symm.trans ht'
    exact ⟨rfl, rfl⟩
  | _ => simp_all [Task.tells, Task.exchanges]

namespace Underway

/-- The tasks are in order after a step. -/
theorem orderly_turn (ho : Orderly l.tasks) (t : Turn calls s l st) : Orderly st.loop.tasks := by
  cases t with
  | idle => exact ho
  | tell plan ht _ hp | announce plan ht hp =>
    rw [ht] at ho
    exact .append hp ho.tail
  | advance ht | release ht =>
    rw [ht] at ho
    exact ho.tail
  | skip plan ht _ he _ _ hp | flush plan _ ht _ he _ _ _ _ _ _ hp =>
    rw [ht] at ho
    have hr := ho.rest_isPlain (Task.tells_of_exchanges he)
    exact .of_isPlain (List.forall_mem_append.2 ⟨hp, hr⟩)
  | plan plan ht hp => exact .of_isPlain (List.forall_mem_append.2 ⟨hp, by decide⟩)
  | attach =>
    have hp : ∀ t ∈ .advance .connected :: nextRound, t.isPlain = true := by decide
    exact .of_isPlain hp
  | finish => trivial
  | collect ht | drop ht =>
    rw [ht] at ho
    exact ⟨nofun, ho.rest_isPlain rfl⟩
  | encode plan ht _ _ _ hp | dispatch plan ht _ hp =>
    rw [ht] at ho
    exact .append hp ⟨nofun, ho.rest_isPlain rfl⟩
  | receive plan ht _ _ hp =>
    rw [ht] at ho
    exact ⟨nofun, List.forall_mem_append.2 ⟨hp, ho.rest_isPlain rfl⟩⟩

/-- A session goes on in a step. -/
theorem turn (h : Underway registry config s l) (t : Turn calls s l st) :
    Underway registry config st.shared st.loop where
  registry_eq := by
    rw [← h.registry_eq]
    cases t <;> rfl
  config_eq := by
    rw [← h.config_eq]
    cases t <;> rfl
  orderly := orderly_turn h.orderly t
  behind := by
    have hd := t.stage_desired_le h.orderly
    cases t with
    | idle => exact h.behind
    | announce plan ht hp =>
      rw [Lifecycle.apply_snd]
      exact fun _ _ _ _ => Nat.le_refl _
    | advance ht =>
      intro _ _ _ _
      rw [Lifecycle.current_tryRequest]
      exact Nat.le_trans (h.behind _ _ ht nofun) hd
    | tell _ ht hn | skip _ ht _ hn | flush _ _ ht _ hn =>
      exact fun _ _ _ _ => h.behind _ _ ht (by rintro rfl; cases hn)
    | plan _ ht | attach ht | finish ht | collect ht | encode _ ht | drop ht | receive _ ht
    | dispatch _ ht | release ht => exact fun _ _ _ _ => h.behind _ _ ht nofun

/-- What callers do to the connection leaves the session as it is. -/
theorem of_shared {s' : Shared} (h : Underway registry config s l)
    (hc : s'.lifecycle.current = s.lifecycle.current)
    (hd : s.lifecycle.desired.stage ≤ s'.lifecycle.desired.stage) :
    Underway registry config s' l where
  registry_eq := h.registry_eq
  config_eq := h.config_eq
  orderly := h.orderly
  behind _ _ ht hn := by
    rw [hc]
    exact Nat.le_trans (h.behind _ _ ht hn) hd

/-- A loop that has ended is in order. -/
theorem abandon (h : Underway registry config s l) : Underway registry config s l.abandon where
  registry_eq := h.registry_eq
  config_eq := h.config_eq
  orderly := trivial
  behind := nofun

end Underway

/-- The loop takes over no stream from here on. -/
def Settled (s : Shared) (l : Loop) : Prop :=
  l.tasks = [] ∨
    3 ≤ s.lifecycle.current.stage ∧ 3 ≤ s.lifecycle.desired.stage ∨
    l.tasks = nextRound ∧ 3 ≤ s.lifecycle.desired.stage ∨
    l.tasks = .advance .connected :: nextRound ∧ 2 ≤ s.lifecycle.desired.stage

namespace Settled

/-- Once no stream is taken over any more, none is after a step either. -/
theorem turn (ho : Orderly l.tasks) (h : Settled s l) (t : Turn calls s l st) :
    Settled st.shared st.loop := by
  have hd := t.stage_desired_le ho
  rcases h with h | ⟨hc, h⟩ | ⟨hl, h⟩ | ⟨hl, h⟩
  · refine .inl ?_
    cases t <;> simp_all
  · refine .inr (.inl ⟨?_, Nat.le_trans h hd⟩)
    cases t with
    | announce =>
      rw [Lifecycle.apply_snd]
      exact h
    | advance =>
      rw [Lifecycle.current_tryRequest]
      exact hc
    | _ => exact hc
  · refine .inr (.inl ⟨?_, Nat.le_trans h hd⟩)
    rw [t.of_announce hl, Lifecycle.apply_snd]
    exact h
  · obtain ⟨hs, htasks⟩ := t.of_advance hl
    refine .inr (.inr (.inl ⟨htasks, ?_⟩))
    rw [hs]
    exact s.lifecycle.three_le_stage_tryRequest h

/-- What callers do to the connection does not bring back a stream. -/
theorem of_shared {s' : Shared} (h : Settled s l)
    (hc : s'.lifecycle.current = s.lifecycle.current)
    (hd : s.lifecycle.desired.stage ≤ s'.lifecycle.desired.stage) : Settled s' l := by
  rw [Settled, hc]
  rcases h with h | ⟨h, h'⟩ | ⟨h, h'⟩ | ⟨h, h'⟩
  · exact .inl h
  · exact .inr (.inl ⟨h, Nat.le_trans h' hd⟩)
  · exact .inr (.inr (.inl ⟨h, Nat.le_trans h' hd⟩))
  · exact .inr (.inr (.inr ⟨h, Nat.le_trans h' hd⟩))

/-- No stream is taken over when none may be. -/
theorem not_attach (h : Settled s l) (ht : l.tasks = .act :: rest)
    (hc : s.lifecycle.current = .connecting ∨ s.lifecycle.current = .listening) : False := by
  rcases h with h | ⟨h, -⟩ | ⟨h, -⟩ | ⟨h, -⟩
  · cases ht.symm.trans h
  · rcases hc with hc | hc <;> rw [hc] at h <;> exact absurd h (by decide)
  · cases ht.symm.trans h
  · cases ht.symm.trans h

end Settled

/-- After a stream has been taken over, none is. -/
theorem Underway.settled_of_attach (h : Underway registry config s l) (ht : l.tasks = .act :: rest)
    (hc : s.lifecycle.current = .connecting ∨ s.lifecycle.current = .listening)
    (hl : st.shared.lifecycle = s.lifecycle)
    (ht' : st.loop.tasks = .advance .connected :: nextRound) : Settled st.shared st.loop := by
  have hb := h.behind _ _ ht nofun
  refine .inr (.inr (.inr ⟨ht', ?_⟩))
  rw [hl]
  rcases hc with hc | hc <;> rw [hc] at hb <;> exact hb

end

end PeerMessaging
