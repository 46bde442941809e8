import PeerMessaging.Proofs.Link.Announcements
import PeerMessaging.Proofs.Link.LastError
import PeerMessaging.Proofs.Link.Shutdown

/-!
# The sockets of a loop

A loop has the sockets that its state calls for (`Loop.Equipped`) when that has been announced and
is to be acted on. A socket is opened, or taken over, before the transition is asked for that it is
meant for, and the transition may be refused because the connection is asked to close meanwhile. So
between two announcements the sockets are those of the state that the tasks still to be done lead to
(`Lifecycle.through`), unless that is one of the way out, which calls for none in particular.
`Stocked` says this of a loop anywhere in a round, and a step keeps it (`Stocked.step`). So it holds
of the loop of a connection at any time (`sockets_follow_state`).
-/

namespace PeerMessaging

/-! ## What a state calls for -/

namespace Loop

/-- The loop has the sockets that a state calls for: none while a peer is connected to or an address
is bound, a listening socket and no stream while it waits for a peer, and a stream and no listening
socket while it exchanges frames. -/
def Equipped (l : Loop) : ConnectionState → Prop
  | .connecting | .opening => l.listener = none ∧ l.reader = none ∧ l.writer = none
  | .listening => l.listener.isSome = true ∧ l.reader = none ∧ l.writer = none
  | .connected => l.listener = none ∧ l.reader.isSome = true ∧ l.writer.isSome = true
  | .initial | .closing | .closed | .error => True

/-- The pending state has been announced, and is acted on next. -/
def isAtTop (l : Loop) : Bool := !l.tasks.isEmpty && !l.tasks.any Task.announces

/-- The loop has ended, and has no socket. -/
structure IsBare (l : Loop) : Prop where
  tasks_eq : l.tasks = []
  listener_eq : l.listener = none
  reader_eq : l.reader = none
  writer_eq : l.writer = none

/-- Two loops have the same sockets. -/
structure SameSockets (l l' : Loop) : Prop where
  listener_eq : l'.listener = l.listener
  reader_eq : l'.reader.isSome = l.reader.isSome
  writer_eq : l'.writer.isSome = l.writer.isSome

section
variable {l l' : Loop} {state : ConnectionState}

/-- On the way out no sockets are called for. -/
theorem equipped_of_isEnding (h : state.isEnding = true) : l.Equipped state := by
  cases state with
  | initial | connecting | opening | listening | connected => cases h
  | _ => trivial

/-- It only matters which sockets there are. -/
theorem Equipped.of_same (h : l.Equipped state) (hs : l.SameSockets l') : l'.Equipped state := by
  obtain ⟨hl, hr, hw⟩ := hs
  have hnone {α β : Type} {x : Option α} {y : Option β} (h : y.isSome = x.isSome) :
      x = none → y = none := by
    rintro rfl
    simpa using h
  cases state with
  | connecting | opening => exact ⟨hl.trans h.1, hnone hr h.2.1, hnone hw h.2.2⟩
  | listening => exact ⟨(congrArg _ hl).trans h.1, hnone hr h.2.1, hnone hw h.2.2⟩
  | connected => exact ⟨hl.trans h.1, hr.trans h.2.1, hw.trans h.2.2⟩
  | _ => trivial

/-- Sockets that fit the state which is asked for fit the state that is pending then: if the request
is refused the connection is on its way out. -/
theorem equipped_tryRequest {c : Lifecycle} {next : ConnectionState}
    (hd : c.desired = c.current ∨ c.desired.isEnding = true)
    (hp : c.current.permits next = true) (he : l.Equipped next) :
    l.Equipped (c.tryRequest next).desired := by
  rw [Lifecycle.tryRequest_eq]
  split
  · exact he
  · rename_i hn
    rcases hd with hd | hd
    · rw [hd] at hn
      exact absurd hp hn
    · exact equipped_of_isEnding hd

end

end Loop

/-! ## What tasks lead to -/

/-- What tasks make of the lifecycle, if nobody else asks for anything. -/
def Lifecycle.through (c : Lifecycle) (tasks : List Task) : Lifecycle :=
  tasks.foldl (fun c t => t.moves c) c

/-- The error that there is no listening socket where one is expected. -/
def ConnectionError.isMissingListener (e : ConnectionError) : Bool :=
  e.kind = .acceptFailed && e.message = "no listening socket"

/-- The task may be planned between what a state asks for and the next round: it asks for nothing
but a way out. -/
def Task.isMidway : Task → Bool
  | announce | act | release => false
  | advance next => next.isEnding
  | report e => !e.isMissingListener
  | _ => true

section
variable {calls : SocketCalls} {s : Shared} {l : Loop} {st : Step} {task : Task}
  {plan rest tasks : List Task} {c : Lifecycle} {state : ConnectionState}

theorem Lifecycle.through_append (c : Lifecycle) (plan rest : List Task) :
    c.through (plan ++ rest) = (c.through plan).through rest := List.foldl_append

/-- The next round makes the pending state the current one, and leaves it pending. -/
theorem Lifecycle.desired_through_nextRound (c : Lifecycle) (plan : List Task) :
    (c.through (plan ++ nextRound)).desired = (c.through plan).desired := by
  rw [through_append]
  change (c.through plan).apply.2.desired = (c.through plan).desired
  rw [apply_snd]

/-- A task that does not lead back to the beginning leaves a connection on its way out. -/
theorem Task.isEnding_moves (hd : c.desired.isEnding = true) (hn : task ≠ .advance .initial) :
    (task.moves c).desired.isEnding = true := by
  cases task with
  | announce => rwa [moves, Lifecycle.apply_snd]
  | advance next =>
    rw [moves, Lifecycle.tryRequest_eq]
    split
    · exact ConnectionState.isEnding_of_permits hd ‹_› (by rintro rfl; exact hn rfl)
    · exact hd
  | _ => exact hd

/-- Nor do such tasks bring it back. -/
theorem Lifecycle.isEnding_through (hd : c.desired.isEnding = true)
    (hp : ∀ t ∈ tasks, t ≠ .advance .initial) : (c.through tasks).desired.isEnding = true := by
  induction tasks generalizing c with
  | nil => exact hd
  | cons task tasks ih =>
    exact ih (Task.isEnding_moves hd (hp _ (.head _))) fun t ht => hp t (.tail _ ht)

/-- What is planned midway changes nothing about the lifecycle, or leads out. -/
theorem Lifecycle.through_midway (c : Lifecycle) (hp : ∀ t ∈ plan, t.isMidway = true) :
    c.through plan = c ∨ (c.through plan).desired.isEnding = true := by
  induction plan generalizing c with
  | nil => exact .inl rfl
  | cons task plan ih =>
    have htask := hp _ (.head _)
    have hplan := fun t ht => hp t (.tail _ ht)
    -- A transition that is accepted leads out, and whatever is planned after it does not lead back.
    have unmoved (h : task.moves c = c) :
        c.through (task :: plan) = c ∨ (c.through (task :: plan)).desired.isEnding = true := by
      rw [through, List.foldl_cons, h]
      exact ih c hplan
    cases task with
    | announce => cases htask
    | advance next =>
      cases hpermits : c.desired.permits next with
      | false =>
        refine unmoved ?_
        rw [Task.moves, tryRequest_eq, hpermits, if_neg Bool.false_ne_true]
      | true =>
        refine .inr ?_
        rw [through, List.foldl_cons, Task.moves, tryRequest_eq, hpermits, if_pos rfl]
        refine isEnding_through htask fun t ht => ?_
        rintro rfl
        cases hplan _ ht
    | _ => exact unmoved rfl

/-- Nothing that is fit for a round leads back to the beginning. -/
theorem Task.ne_initial_of_suits (hs : ∀ t ∈ plan, t.suits state = true) :
    ∀ t ∈ plan ++ nextRound, t ≠ .advance .initial := by
  rintro t ht rfl
  rcases List.mem_append.1 ht with ht | ht
  · have hsuits := hs _ ht
    simp [Task.suits] at hsuits
  · simp [nextRound] at ht

/-- In a round nothing leads back to the beginning. -/
theorem Round.ne_initial (h : Round c tasks) : ∀ t ∈ tasks, t ≠ .advance .initial := by
  cases h with
  | told => simp
  | act => simp
  | plan hp => exact Task.ne_initial_of_suits hp
  | ended => simp

/-! ## Reports -/

/-- A text that is continued begins as it did. -/
theorem head?_toList_append {x : Char} {a b : String} (h : a.toList.head? = some x) :
    (a ++ b).toList.head? = some x := by
  rw [String.toList_append, List.head?_append, h]
  rfl

/-- An error whose text begins otherwise is not the one of a missing listening socket. -/
theorem ConnectionError.isMissingListener_of_head {x : Char} {e : ConnectionError}
    (h : e.message.toList.head? = some x) (hx : x ≠ 'n') : e.isMissingListener = false := by
  rw [isMissingListener, Bool.and_eq_false_iff]
  refine .inr (decide_eq_false fun hm => hx ?_)
  rw [hm] at h
  exact (Option.some.inj h).symm

/-- Nor is one of another kind. -/
theorem ConnectionError.isMissingListener_of_kind {e : ConnectionError}
    (h : e.kind ≠ .acceptFailed) : e.isMissingListener = false := by
  rw [isMissingListener, decide_eq_false h, Bool.false_and]

/-- What goes wrong on the way to a socket is another error. -/
theorem ConnectionError.isMissingListener_ofTransport (kind : ErrorKind) (e : TransportError) :
    (ofTransport kind e).isMissingListener = false := by
  cases e with
  | resolve =>
    refine isMissingListener_of_head (x := 'f') ?_ (by decide)
    iterate 5 refine head?_toList_append ?_
    rfl
  | bind | connect =>
    refine isMissingListener_of_head (x := 'f') ?_ (by decide)
    iterate 3 refine head?_toList_append ?_
    rfl
  | accept => exact isMissingListener_of_head (head?_toList_append (x := 'f') rfl) (by decide)
  | io => exact isMissingListener_of_head (head?_toList_append (x := 't') rfl) (by decide)

/-- So is what goes wrong in setting up a stream. -/
theorem ConnectionError.isMissingListener_ofPeer (kind : ErrorKind) (e : PeerError) :
    (ofPeer kind e).isMissingListener = false := by
  cases e with
  | transport => exact isMissingListener_of_head (head?_toList_append (x := 't') rfl) (by decide)
  | frame | spawn =>
    exact isMissingListener_of_head (head?_toList_append (x := 'f') rfl) (by decide)
  | registry => exact isMissingListener_of_head (head?_toList_append (x := 'r') rfl) (by decide)
  | invalidState =>
    refine isMissingListener_of_head (x := 'c') ?_ (by decide)
    exact head?_toList_append (head?_toList_append (head?_toList_append rfl))

/-! ## Steps in the middle of a round -/

namespace Loop

/-- A fatal error in the exchange of frames leads out. -/
theorem isMidway_failing {e : ConnectionError} {next : ConnectionState}
    (hk : e.kind ≠ .acceptFailed) (hn : next.isEnding = true) :
    ∀ t ∈ failing e next, t.isMidway = true := by
  have hr := ConnectionError.isMissingListener_of_kind hk
  simp [failing, Task.isMidway, hr, hn]

/-- A read that fails leads out. -/
theorem isMidway_failing_ofReceive (e : FrameError) :
    ∀ t ∈ failing (.ofReceive e) (stateAfter e), t.isMidway = true := by
  refine isMidway_failing ?_ ?_
  · cases e with
    | io e =>
      simp only [ConnectionError.ofReceive, ConnectionError.ofFrame, ConnectionError.receiveKind]
      split <;> rintro ⟨⟩
    | _ => rintro ⟨⟩
  · unfold stateAfter
    split <;> rfl

/-- A report of another kind of error may be planned. -/
theorem isMidway_report {e : ConnectionError} (hk : e.kind ≠ .acceptFailed) :
    (Task.report e).isMidway = true := by
  rw [Task.isMidway, ConnectionError.isMissingListener_of_kind hk]
  rfl

/-- So may the report of a message without a fitting codec. -/
theorem isMidway_report_ofRegistry (e : RegistryError) :
    (Task.report (.ofRegistry e)).isMidway = true := isMidway_report (by cases e <;> nofun)

/-- And that of a message which cannot be sent. -/
theorem isMidway_report_refusal {r : Registry} {config : FrameConfig} {m : Message}
    {e : ConnectionError} (h : r.refusal config m = some e) :
    (Task.report e).isMidway = true := by
  unfold Registry.refusal at h
  split at h
  · cases h
    exact isMidway_report_ofRegistry _
  · obtain ⟨_, -, rfl⟩ := Option.map_eq_some_iff.1 h
    exact isMidway_report nofun

/-- Every task but the act of a round is replaced by tasks that lead nowhere but out. -/
theorem step_midway (calls : SocketCalls) (s : Shared) (ht : l.tasks = task :: rest)
    (hn : task ≠ .act) :
    ∃ plan, (l.step calls s).loop.tasks = plan ++ rest ∧ ∀ t ∈ plan, t.isMidway = true := by
  have done (h : (l.step calls s).loop.tasks = rest) :
      ∃ plan, (l.step calls s).loop.tasks = plan ++ rest ∧ ∀ t ∈ plan, t.isMidway = true :=
    ⟨[], h, List.forall_mem_nil _⟩
  cases task with
  | announce =>
    rw [step_announce calls ht]
    split
    · exact ⟨[], rfl, List.forall_mem_nil _⟩
    · exact ⟨[.notify _ _], rfl, List.forall_mem_singleton.2 rfl⟩
  | act => exact absurd rfl hn
  | notify event listeners =>
    cases listeners with
    | nil => exact done (by simp only [step, ht])
    | cons listener listeners =>
      simp only [step, ht]
      exact ⟨[.notify event listeners], rfl, List.forall_mem_singleton.2 rfl⟩
  | report e =>
    simp only [step, ht]
    exact ⟨[.notify (.error e) s.listeners.registered], rfl, List.forall_mem_singleton.2 rfl⟩
  | advance => exact done (by simp only [step, ht])
  | release =>
    refine done ?_
    simp only [step, ht]
    rfl
  | collect =>
    simp only [step, ht]
    split
    · exact ⟨[.encode s.outbound.messages], rfl, List.forall_mem_singleton.2 rfl⟩
    · exact ⟨[], rfl, List.forall_mem_nil _⟩
  | encode messages =>
    cases messages with
    | nil => exact done (by simp only [step, ht])
    | cons m ms =>
      rcases (l.step_encode ht calls s).2 with h | ⟨w, e, -, he, h⟩
      · exact ⟨[.encode ms], h, List.forall_mem_singleton.2 rfl⟩
      · exact ⟨[.report e, .encode ms], h,
          List.forall_mem_cons.2 ⟨isMidway_report_refusal he, List.forall_mem_singleton.2 rfl⟩⟩
  | write purpose deadline =>
    have reads : ∀ t ∈ [Task.receive, .keepalive], t.isMidway = true := by decide
    simp only [step, ht, write]
    split
    · split
      · exact ⟨[.receive, .keepalive], rfl, reads⟩
      · exact ⟨[], rfl, List.forall_mem_nil _⟩
    · dsimp only
      split
      · exact ⟨[], rfl, List.forall_mem_nil _⟩
      · exact ⟨[.receive, .keepalive], rfl, reads⟩
      · exact ⟨_, rfl, isMidway_failing (by rintro ⟨⟩) rfl⟩
  | receive =>
    simp only [step, ht, receive]
    split
    · exact ⟨[], rfl, List.forall_mem_nil _⟩
    · refine ⟨_, rfl, List.forall_mem_cons.2 ⟨rfl, ?_⟩⟩
      generalize FrameReader.burst _ _ = b
      obtain ⟨items, failure, r⟩ := b
      cases failure with
      | none => exact List.forall_mem_nil _
      | some e => exact isMidway_failing_ofReceive e
  | dispatch items =>
    cases items with
    | nil => exact done (by simp only [step, ht])
    | cons item items =>
      simp only [step, ht, dispatch]
      split
      · exact ⟨[.dispatch items], rfl, List.forall_mem_singleton.2 rfl⟩
      · split
        · exact ⟨[.notify .message s.listeners.registered, .dispatch items], rfl,
            List.forall_mem_cons.2 ⟨rfl, List.forall_mem_singleton.2 rfl⟩⟩
        · exact ⟨[.report _, .dispatch items], rfl,
            List.forall_mem_cons.2
              ⟨isMidway_report_ofRegistry _, List.forall_mem_singleton.2 rfl⟩⟩
  | keepalive =>
    simp only [step, ht, keepalive]
    split
    · exact ⟨[], rfl, List.forall_mem_nil _⟩
    split
    · exact ⟨[], rfl, List.forall_mem_nil _⟩
    dsimp only
    split
    · exact ⟨[], rfl, List.forall_mem_nil _⟩
    · exact ⟨_, rfl, isMidway_failing (by rintro ⟨⟩) rfl⟩

end Loop

/-- No other task but the one for that opens a socket, or lets go of one. -/
theorem Turn.sameSockets (t : Turn calls s l st) (ht : l.tasks = task :: rest)
    (hn : task ≠ .act) (hr : task ≠ .release) : l.SameSockets st.loop := by
  cases t with
  | plan _ ht' | attach ht' | finish ht' => exact absurd (List.cons.inj (ht.symm.trans ht')).1 hn
  | release ht' => exact absurd (List.cons.inj (ht.symm.trans ht')).1 hr
  | encode _ _ hw | flush _ _ _ _ _ _ _ hw => exact ⟨rfl, rfl, by rw [hw]; rfl⟩
  | receive _ _ hd => exact ⟨rfl, by rw [hd]; rfl, rfl⟩
  | _ => exact ⟨rfl, rfl, rfl⟩

/-! ## The sockets in a round -/

/-- Wherever a loop is in a round, it has the sockets that are called for. -/
structure Stocked (c : Lifecycle) (l : Loop) : Prop where
  /-- The loop has not ended. -/
  runs : l.tasks ≠ []
  /-- The current state has those it calls for when it is acted on, and nobody has asked for
  anything since it was announced but for the connection to close. -/
  top : l.isAtTop = true →
    l.Equipped c.current ∧ (c.desired = c.current ∨ c.desired.isEnding = true)
  /-- Otherwise the state that the tasks lead to has those it calls for. -/
  ahead : l.isAtTop = false → l.Equipped (c.through l.tasks).desired
  /-- As long as frames are exchanged there is a stream. -/
  stream : c.current = .connected → l.Equipped .connected
  /-- The sockets are let go of to close. -/
  release : .release ∈ l.tasks → c.current = .closing ∧ c.desired.isEnding = true
  /-- No listening socket is missed. -/
  report : ∀ e, .report e ∈ l.tasks → e.isMissingListener = false

namespace Stocked

/-- What is planned in a round leads to a state that has the sockets it calls for. -/
theorem of_plan (plan : List Task) (ht : l.tasks = plan ++ nextRound)
    (ha : l.Equipped (c.through plan).desired) (hs : c.current = .connected → l.Equipped .connected)
    (hr : .release ∈ plan → c.current = .closing ∧ c.desired.isEnding = true)
    (he : ∀ e, .report e ∈ plan → e.isMissingListener = false) : Stocked c l where
  runs := by simp [ht, nextRound]
  top h := by simp [Loop.isAtTop, ht, nextRound, Task.announces] at h
  ahead _ := by rwa [ht, c.desired_through_nextRound]
  stream := hs
  release h := by
    rw [ht] at h
    rcases List.mem_append.1 h with h | h
    · exact hr h
    · simp [nextRound] at h
  report e h := by
    rw [ht] at h
    rcases List.mem_append.1 h with h | h
    · exact he e h
    · simp [nextRound] at h

/-- At the top of a round nothing else is to be known. -/
theorem of_top
    (ht : l.tasks = [.act] ∨ ∃ event listeners, l.tasks = [.notify event listeners, .act])
    (he : l.Equipped c.current) (hd : c.desired = c.current ∨ c.desired.isEnding = true) :
    Stocked c l where
  runs := by rcases ht with ht | ⟨_, _, ht⟩ <;> simp [ht]
  top _ := ⟨he, hd⟩
  ahead h := by
    rcases ht with ht | ⟨_, _, ht⟩ <;> simp [Loop.isAtTop, ht, Task.announces] at h
  stream hc := hc ▸ he
  release h := by
    rcases ht with ht | ⟨_, _, ht⟩ <;> simp [ht] at h
  report e h := by
    rcases ht with ht | ⟨_, _, ht⟩ <;> simp [ht] at h

/-- After a fatal error nothing is called for. -/
theorem of_failing {e : ConnectionError} (ht : l.tasks = failing e .error ++ nextRound)
    (hd : c.desired = c.current ∨ c.desired.isEnding = true) (hp : c.current.permits .error = true)
    (hn : c.current ≠ .connected) (he : e.isMissingListener = false) : Stocked c l := by
  refine of_plan _ ht (l.equipped_tryRequest hd hp trivial) (absurd · hn) ?_ ?_
  · simp [failing]
  · rintro e' hmem
    simp only [failing, List.mem_cons, Task.report.injEq, List.not_mem_nil, reduceCtorEq,
      or_false] at hmem
    rw [hmem]
    exact he

/-- A stream is taken over by a loop without a socket, for the exchange of frames. -/
theorem attach {kind : ErrorKind} (calls : SocketCalls) (ht : l.tasks = nextRound)
    (hd : s.lifecycle.desired = s.lifecycle.current ∨ s.lifecycle.desired.isEnding = true)
    (hc : s.lifecycle.current = .connecting ∨ s.lifecycle.current = .listening)
    (hl : l.listener = none) :
    Stocked (l.attach kind calls s).shared.lifecycle (l.attach kind calls s).loop := by
  have hn : s.lifecycle.current ≠ .connected := by rcases hc with h | h <;> rw [h] <;> nofun
  unfold Loop.attach
  dsimp only
  split
  · refine of_plan [.advance .connected] (by rw [← ht]; rfl) ?_ (absurd · hn) ?_ ?_
    · refine Loop.equipped_tryRequest hd ?_ ⟨hl, rfl, rfl⟩
      rcases hc with h | h <;> rw [h] <;> rfl
    · simp
    · simp
  · refine of_failing (by rw [← ht]; rfl) hd ?_ hn (ConnectionError.isMissingListener_ofPeer kind _)
    rcases hc with h | h <;> rw [h] <;> rfl

/-- What a state asks for opens the sockets that the next one calls for. -/
theorem act (h : Stocked s.lifecycle l) (calls : SocketCalls) (ht : l.tasks = [.act])
    (hc : s.lifecycle.current.isTerminal = false) :
    Stocked (l.step calls s).shared.lifecycle (l.step calls s).loop := by
  obtain ⟨he, hd⟩ := h.top (by simp [Loop.isAtTop, ht, Task.announces])
  -- Without a plan the pending state is still the one whose sockets there are, or a way out.
  have waits {l' : Loop} (hl' : l'.tasks = nextRound)
      (hs : l'.Equipped s.lifecycle.current) (hn : s.lifecycle.current ≠ .connected) :
      Stocked s.lifecycle l' := by
    refine of_plan [] hl' ?_ (absurd · hn) (by simp) (by simp)
    rcases hd with hd | hd
    · change l'.Equipped s.lifecycle.desired
      rwa [hd]
    · exact Loop.equipped_of_isEnding hd
  simp only [Loop.step, ht, Loop.act]
  cases hs : s.lifecycle.current with
  | initial => exact waits rfl (by rw [hs]; trivial) (by rw [hs]; decide)
  | connecting =>
    rw [hs] at he
    dsimp only
    split
    · exact attach calls rfl hd (.inl hs) he.1
    · exact of_failing rfl hd (by rw [hs]; rfl) (by rw [hs]; decide)
        (ConnectionError.isMissingListener_ofTransport _ _)
  | opening =>
    rw [hs] at he
    dsimp only
    split
    · refine of_plan [.advance .listening] rfl ?_ (by simp [hs]) (by simp) (by simp)
      exact Loop.equipped_tryRequest hd (by rw [hs]; rfl) ⟨rfl, he.2⟩
    · exact of_failing rfl hd (by rw [hs]; rfl) (by rw [hs]; decide)
        (ConnectionError.isMissingListener_ofTransport _ _)
  | listening =>
    rw [hs] at he
    dsimp only
    split
    · rename_i hnone
      have hsome := he.1
      rw [hnone] at hsome
      cases hsome
    · split
      · exact waits rfl (by rw [hs]; exact he) (by rw [hs]; decide)
      · exact attach calls rfl hd (.inr hs) rfl
      · exact of_failing rfl hd (by rw [hs]; rfl) (by rw [hs]; decide)
          (ConnectionError.isMissingListener_ofTransport _ _)
  | connected =>
    rw [hs] at he
    refine of_plan [.collect, .write .exchange _] rfl ?_ (fun _ => he) (by simp) (by simp)
    change Loop.Equipped _ s.lifecycle.desired
    rcases hd with hd | hd
    · rw [hd, hs]
      exact he
    · exact Loop.equipped_of_isEnding hd
  | closing =>
    have hending : s.lifecycle.desired.isEnding = true := by
      rcases hd with hd | hd
      · rw [hd, hs]
        rfl
      · exact hd
    refine of_plan [.collect, .write .closing _, .release, .advance .closed] rfl ?_
      (by simp [hs]) (fun _ => ⟨hs, hending⟩) (by simp)
    exact Loop.equipped_of_isEnding (Lifecycle.isEnding_through hending (by simp))
  | closed | error =>
    rw [hs] at hc
    cases hc

/-- An announcement makes current the state whose sockets there are. -/
theorem announce (h : Stocked s.lifecycle l) (calls : SocketCalls) (ht : l.tasks = nextRound) :
    Stocked (l.step calls s).shared.lifecycle (l.step calls s).loop := by
  have he : l.Equipped s.lifecycle.desired := by
    have hahead := h.ahead (by simp [Loop.isAtTop, ht, nextRound, Task.announces])
    rwa [ht, ← List.nil_append nextRound, Lifecycle.desired_through_nextRound] at hahead
  rw [Loop.step_announce calls ht]
  split
  · rename_i hsame
    exact of_top (.inl rfl) (hsame ▸ he) (.inl hsame.symm)
  · exact of_top (.inr ⟨_, _, rfl⟩) he (.inl rfl)

/-- A task that is done midway leaves the sockets for what comes after it. -/
theorem midway {plan : List Task} (h : Stocked s.lifecycle l) (calls : SocketCalls)
    (ht : l.tasks = task :: (plan ++ nextRound))
    (hp : ∀ t ∈ task :: plan, t.suits s.lifecycle.current = true) :
    Stocked (l.step calls s).shared.lifecycle (l.step calls s).loop := by
  have hn : task ≠ .act := by
    rintro rfl
    cases hp _ (.head _)
  obtain ⟨plan', ht', hmidway⟩ := l.step_midway calls s ht hn
  have t := l.step_turn calls s
  have hlifecycle := t.lifecycle_eq ht
  have hcurrent : (task.moves s.lifecycle).current = s.lifecycle.current :=
    Task.current_moves (hp _ (.head _))
  have hback := Task.ne_initial_of_suits hp
  have hmoved (hd : s.lifecycle.desired.isEnding = true) :
      (task.moves s.lifecycle).desired.isEnding = true :=
    Task.isEnding_moves hd (hback _ (.head _))
  have hahead : l.Equipped ((task.moves s.lifecycle).through plan).desired := by
    have hahead := h.ahead (by simp [Loop.isAtTop, ht, nextRound, Task.announces])
    rwa [ht, ← List.cons_append, Lifecycle.desired_through_nextRound] at hahead
  -- A loop that lets go of its sockets is on its way out already.
  have hsame : l.SameSockets (l.step calls s).loop ∨
      s.lifecycle.current = .closing ∧ s.lifecycle.desired.isEnding = true := by
    by_cases hr : task = .release
    · exact .inr (h.release (by rw [ht, hr]; exact .head _))
    · exact .inl (t.sameSockets ht hn hr)
  rw [← List.append_assoc] at ht'
  rw [hlifecycle]
  refine of_plan _ ht' ?_ (fun hc => ?_) (fun hr => ?_) fun e he => ?_
  · rw [Lifecycle.through_append]
    have hrest (hd : ((task.moves s.lifecycle).through plan').desired.isEnding = true) :
        (((task.moves s.lifecycle).through plan').through plan).desired.isEnding = true :=
      Lifecycle.isEnding_through hd fun t ht => hback t (.tail _ (List.mem_append_left _ ht))
    rcases Lifecycle.through_midway (task.moves s.lifecycle) hmidway with heq | hd
    · rcases hsame with hsame | ⟨-, hd⟩
      · rw [heq]
        exact hahead.of_same hsame
      · exact Loop.equipped_of_isEnding (hrest (by rw [heq]; exact hmoved hd))
    · exact Loop.equipped_of_isEnding (hrest hd)
  · rw [hcurrent] at hc
    rcases hsame with hsame | ⟨hclosing, -⟩
    · exact (h.stream hc).of_same hsame
    · cases hc.symm.trans hclosing
  · rw [hcurrent]
    rcases List.mem_append.1 hr with hr | hr
    · cases hmidway _ hr
    · obtain ⟨hclosing, hd⟩ :=
        h.release (by rw [ht]; exact .tail _ (List.mem_append_left _ hr))
      exact ⟨hclosing, hmoved hd⟩
  · rcases List.mem_append.1 he with he | he
    · simpa [Task.isMidway] using hmidway _ he
    · exact h.report e (by rw [ht]; exact .tail _ (List.mem_append_left _ he))

/-- A step keeps the sockets that are called for, until the loop ends and has none. -/
theorem step (h : Stocked s.lifecycle l) (hr : Round s.lifecycle l.tasks) (calls : SocketCalls) :
    Stocked (l.step calls s).shared.lifecycle (l.step calls s).loop ∨
      (l.step calls s).loop.IsBare := by
  generalize ht : l.tasks = tasks at hr
  cases hr with
  | @told listeners hd =>
    obtain ⟨he, hd⟩ := h.top (by simp [Loop.isAtTop, ht, Task.announces])
    refine .inl ?_
    cases listeners with
    | nil =>
      simp only [Loop.step, ht]
      exact of_top (.inl rfl) he hd
    | cons listener listeners =>
      simp only [Loop.step, ht]
      exact of_top (.inr ⟨_, listeners, rfl⟩) he hd
  | act =>
    cases hc : s.lifecycle.current.isTerminal with
    | true =>
      rw [Loop.act_of_isTerminal calls ht hc]
      exact .inr ⟨rfl, rfl, rfl, rfl⟩
    | false => exact .inl (h.act calls ht hc)
  | @plan plan hp =>
    cases plan with
    | nil => exact .inl (h.announce calls ht)
    | cons task plan => exact .inl (h.midway calls ht hp)
  | ended => exact absurd ht h.runs

/-- Whoever asks for the connection to close leaves the sockets as they should be. -/
theorem ask (h : Stocked c l) (hn : ∀ t ∈ l.tasks, t ≠ .advance .initial) :
    Stocked (c.tryRequest .closing) l := by
  have hcurrent : (c.tryRequest .closing).current = c.current := c.current_tryRequest _
  have hmoved : c.tryRequest .closing = c ∨ (c.tryRequest .closing).desired.isEnding = true := by
    rw [Lifecycle.tryRequest_eq]
    split
    · exact .inr rfl
    · exact .inl rfl
  rcases hmoved with heq | hd
  · rwa [heq]
  · constructor
    · exact h.runs
    · rw [hcurrent]
      exact fun ht => ⟨(h.top ht).1, .inr hd⟩
    · exact fun _ => Loop.equipped_of_isEnding (Lifecycle.isEnding_through hd hn)
    · rw [hcurrent]
      exact h.stream
    · rw [hcurrent]
      exact fun hr => ⟨(h.release hr).1, hd⟩
    · exact h.report

end Stocked

end

/-! ## Histories -/

namespace Connection

/-- The connection after moves, one after another. -/
def played (c : Connection) (moves : List Move) : Connection :=
  moves.foldl (fun c m => (c.move m).connection) c

/-- A reset does not wait for the loop if somebody else waits for it already. -/
def hurries (c : Connection) : Move → Bool
  | .reset _ => c.awaited && !c.isIdle
  | _ => false

/-- Every reset waits for the loop. -/
def isPatient (c : Connection) : List Move → Bool
  | [] => true
  | m :: moves => !c.hurries m && (c.move m).connection.isPatient moves

/-- What is pending is due, and a connection that can be started is in the initial state. The loop
is somewhere in a round with the sockets that are called for, or it has ended and has none. There is
no other loop. -/
structure Tidy (c : Connection) : Prop where
  due : c.shared.lifecycle.Due
  fresh : c.desired = .initial → c.state = .initial
  loop : ∀ l, c.loop = some l → l.IsBare ∨
    c.desired ≠ .initial ∧ Round c.shared.lifecycle l.tasks ∧ Stocked c.shared.lifecycle l
  strays_eq : c.strays = []

section
variable {c c' : Connection} {l : Loop} {m : Move} {moves : List Move}

theorem isPatient_cons (h : c.isPatient (m :: moves) = true) :
    c.hurries m = false ∧ (c.move m).connection.isPatient moves = true := by
  simpa [isPatient] using h

namespace Tidy

/-- Before a connection has been started there is no loop. -/
theorem withRegistry (registry : Registry) (config : ConnectionConfig) :
    (Connection.withRegistry registry config).Tidy := by
  refine ⟨.inl rfl, fun _ => rfl, fun l hl => ?_, rfl⟩
  cases hl

/-- A loop that has ended has no sockets. -/
theorem isBare_of_isIdle (h : c.Tidy) (hi : c.isIdle = true) (hl : c.loop = some l) : l.IsBare := by
  refine (h.loop l hl).resolve_right fun ⟨_, _, hstocked⟩ => hstocked.runs ?_
  rw [← tasks_of_some hl]
  exact isIdle_iff.1 hi

/-- A loop is only started when the one before has ended. -/
theorem strays_of_starts (h : c.Tidy) (hc : c.Starts c') : c'.strays = [] := by
  have hd := desired_eq_of_starts hc
  rw [Connection.strays_of_starts hc, h.strays_eq, List.nil_append, List.filter_eq_nil_iff]
  intro l hl
  rcases h.loop l (Option.mem_toList.1 hl) with hbare | ⟨hn, -⟩
  · simp [Loop.hasEnded, hbare.tasks_eq]
  · exact absurd hd hn

/-- So there is no other in whatever move. -/
theorem strays_move (h : c.Tidy) (m : Move) : (c.move m).connection.strays = [] := by
  rcases c.strays_move m with heq | hc
  · exact heq.trans h.strays_eq
  · exact h.strays_of_starts hc

/-- A connection that has just been started has nothing open yet. -/
theorem starts (h : c.Tidy) (hc : c.Starts c') : c'.Tidy := by
  have hd := desired_of_starts hc
  obtain ⟨hb, endpoint, now, hl⟩ := loop_of_starts hc
  have hn : c'.desired ≠ .initial := by rcases hd with hd | hd <;> rw [hd] <;> decide
  have hs : c'.state = .initial := by
    have hfresh := h.fresh (desired_eq_of_starts hc)
    obtain ⟨first, endpoint, now, -, -, rfl⟩ := exists_started hc
    exact hfresh
  refine ⟨?_, (absurd · hn), fun l hl' => .inr ⟨hn, ?_⟩, h.strays_of_starts hc⟩
  · refine .inr (.inl ?_)
    change c'.state.permits c'.desired = true
    rcases hd with hd | hd <;> rw [hs, hd] <;> rfl
  cases hl.symm.trans hl'
  refine ⟨.beginning _, .of_plan [] rfl ?_ (fun hc => ?_) (by simp) (by simp)⟩
  · change Loop.Equipped _ c'.desired
    rcases hd with hd | hd <;> rw [hd] <;> exact ⟨rfl, rfl, rfl⟩
  · cases hs.symm.trans hc

/-- A move beside the loop leaves the sockets as they should be. -/
theorem beside (h : c.Tidy) (hm : c.Beside m) : (c.move m).connection.Tidy := by
  have hd : (c.move m).connection.desired = .initial ↔ c.desired = .initial := by
    rw [desired, hm.lifecycle_eq]
    split
    · rw [Lifecycle.tryRequest_eq]
      split
      · rename_i hp
        refine iff_of_false (by rintro ⟨⟩) fun hi => ?_
        rw [show c.shared.lifecycle.desired = .initial from hi] at hp
        cases hp
      · exact .rfl
    · exact .rfl
  refine ⟨?_, fun hi => ?_, fun l hl => ?_, h.strays_move m⟩
  · rw [hm.lifecycle_eq]
    split
    · exact h.due.ask
    · exact h.due
  · rw [state, hm.lifecycle_eq]
    split
    · rw [Lifecycle.current_tryRequest]
      exact h.fresh (hd.1 hi)
    · exact h.fresh (hd.1 hi)
  · have hloop : c.loop = some l := by
      rcases hm.loop_eq with heq | ⟨-, hnone⟩
      · exact heq ▸ hl
      · cases hnone.symm.trans hl
    rcases h.loop l hloop with hbare | ⟨hn, hround, hstocked⟩
    · exact .inl hbare
    · refine .inr ⟨mt hd.1 hn, ?_⟩
      rw [hm.lifecycle_eq]
      split
      · exact ⟨hround.ask, hstocked.ask hround.ne_initial⟩
      · exact ⟨hround, hstocked⟩

/-- So does a step of the loop. -/
theorem work {calls : SocketCalls} (h : c.Tidy) (hl : c.loop = some l)
    (hh : c.halts (.work calls) = false) : (c.move (.work calls)).connection.Tidy := by
  rw [move_work calls hl hh]
  rcases h.loop l hl with hbare | ⟨hn, hround, hstocked⟩
  · rw [Loop.step_of_hasEnded (List.isEmpty_iff.2 hbare.tasks_eq)]
    refine ⟨h.due, h.fresh, fun l' hl' => ?_, h.strays_eq⟩
    cases hl'
    exact .inl hbare
  · have hn' : (l.step calls c.shared).shared.lifecycle.desired ≠ .initial :=
      hround.desired_step_ne hn calls
    refine ⟨?_, (absurd · hn'), fun l' hl' => ?_, h.strays_eq⟩
    · rcases hround.lifecycle_step calls with heq | heq | ⟨next, hp, -, heq⟩
      · exact heq ▸ h.due
      · exact heq ▸ c.shared.lifecycle.due_apply
      · exact heq ▸ h.due.advance hp
    cases hl'
    rcases hstocked.step hround calls with hstep | hbare
    · exact .inr ⟨hn', hround.step calls, hstep⟩
    · exact .inl hbare

/-- A connection stays tidy in a move in which a reset waits for the loop. -/
theorem move (h : c.Tidy) (hm : c.hurries m = false) : (c.move m).connection.Tidy := by
  cases c.move_deed m with
  | prepare hp =>
    refine ⟨?_, ?_, ?_, h.strays_move m⟩
    · rw [hp.lifecycle_eq]
      exact h.due
    · rw [desired, state, hp.lifecycle_eq]
      exact h.fresh
    · rw [desired, hp.lifecycle_eq, hp.loop_eq]
      exact h.loop
  | beside hb => exact h.beside hb
  | start _ _ _ _ _ _ hc => exact h.starts hc
  | @reset onLoop hi _ hs hl =>
    have hidle : c.isIdle = true := by
      rcases hi with hi | hi
      · exact hi
      · rwa [hurries, hi, Bool.true_and, Bool.not_eq_false'] at hm
    refine ⟨by rw [hs]; exact .inl rfl, fun _ => by rw [state, hs]; rfl, fun l hl' => ?_,
      h.strays_move _⟩
    rw [hl] at hl'
    split at hl'
    · exact .inl (h.isBare_of_isIdle hidle hl')
    · cases hl'
  | work hl hh => exact h.work hl hh
  | halt hh =>
    rw [(move_of_halts hh).1]
    refine ⟨h.due, h.fresh, fun l hl => ?_, h.strays_eq⟩
    obtain ⟨l, -, rfl⟩ := Option.map_eq_some_iff.1 hl
    exact .inl ⟨rfl, rfl, rfl, rfl⟩

/-- No move reports that there is no listening socket. -/
theorem errors_move (h : c.Tidy) {e : ConnectionError}
    (he : (c.move m).raised = some (.error e)) : e.isMissingListener = false := by
  cases c.move_deed m with
  | prepare hp => cases hp.raised_eq.symm.trans he
  | beside hb => cases hb.raised_eq.symm.trans he
  | start _ _ _ _ hr => cases hr.symm.trans he
  | reset _ _ _ _ hr =>
    rw [hr] at he
    split at he <;> cases he
  | @work calls l hl hh =>
    rw [move_work calls hl hh] at he
    obtain ⟨tail, ht⟩ := Loop.tasks_of_error he
    rcases h.loop l hl with hbare | ⟨-, -, hstocked⟩
    · cases hbare.tasks_eq.symm.trans ht
    · exact hstocked.report e (by rw [ht]; exact .head _)
  | halt hh =>
    rw [(move_of_halts hh).1] at he
    cases he

/-- Both hold of whole histories. -/
theorem played (h : c.Tidy) (hp : c.isPatient moves = true) :
    (c.played moves).Tidy ∧ ∀ e ∈ errors (c.play moves), e.isMissingListener = false := by
  induction moves generalizing c with
  | nil => exact ⟨h, nofun⟩
  | cons m moves ih =>
    obtain ⟨hm, hp⟩ := isPatient_cons hp
    obtain ⟨hend, hrest⟩ := ih (h.move hm) hp
    refine ⟨hend, fun e he => ?_⟩
    rw [play, errors_cons, List.mem_append, Option.mem_toList] at he
    rcases he with he | he
    · obtain ⟨event, hevent, he⟩ := Option.bind_eq_some_iff.1 he
      cases event with
      | error e' =>
        cases he
        exact h.errors_move hevent
      | _ => cases he
    · exact hrest e he

end Tidy

end

end Connection

/-- The sockets of a loop follow the state. Whenever a state has been announced and is to be acted
on, the loop has the sockets that it calls for, whatever has come of the socket calls and whenever
the connection has been asked to close; a loop that has ended has none; and in the connected state
there is a stream all the time. So nobody is ever told that there is no listening socket. -/
theorem sockets_follow_state (registry : Registry) (config : ConnectionConfig) {moves : List Move}
    (hp : (Connection.withRegistry registry config).isPatient moves = true) :
    (∀ c l, (Connection.withRegistry registry config).played moves = c → c.loop = some l →
      (l.isAtTop = true → l.Equipped c.state) ∧
      (l.hasEnded = true → l.listener = none ∧ l.reader = none ∧ l.writer = none) ∧
      (l.hasEnded = false → c.state = .connected →
        l.listener = none ∧ l.reader.isSome = true ∧ l.writer.isSome = true)) ∧
      ∀ e ∈ Connection.errors ((Connection.withRegistry registry config).play moves),
        e.isMissingListener = false := by
  obtain ⟨htidy, herrors⟩ := (Connection.Tidy.withRegistry registry config).played hp
  refine ⟨?_, herrors⟩
  rintro c l rfl hl
  rcases htidy.loop l hl with hbare | ⟨-, -, hstocked⟩
  · have hended : l.hasEnded = true := List.isEmpty_iff.2 hbare.tasks_eq
    refine ⟨fun ht => ?_, fun _ => ⟨hbare.listener_eq, hbare.reader_eq, hbare.writer_eq⟩,
      fun hn => ?_⟩
    · rw [Loop.isAtTop, hbare.tasks_eq] at ht
      cases ht
    · cases hended.symm.trans hn
  · refine ⟨fun ht => (hstocked.top ht).1, fun hended => ?_, fun _ => hstocked.stream⟩
    exact absurd (List.isEmpty_iff.1 hended) hstocked.runs

/-- A connection that listens until a peer is there. -/
def visited : List Move := .listen ⟨"localhost", 4000⟩ 0 :: .replicate 10 (shortStep [])

/-- It has a stream when it is about to exchange frames, and does not listen any more. -/
theorem sockets_follow_state_visited :
    (Connection.withRegistry notes {}).isPatient visited = true ∧
      ∃ c l, (Connection.withRegistry notes {}).played visited = c ∧ c.loop = some l ∧
        l.isAtTop = true ∧ c.state = .connected ∧
        l.listener = none ∧ l.reader.isSome = true ∧ l.writer.isSome = true := by
  have hp : (Connection.withRegistry notes {}).isPatient visited = true := by decide +kernel
  obtain ⟨c, hc⟩ : ∃ c, (Connection.withRegistry notes {}).played visited = c := ⟨_, rfl⟩
  have hrun : (c.loop.map Loop.isAtTop, c.state) = (some true, .connected) := by
    rw [← hc]
    decide +kernel
  obtain ⟨hloop, hs⟩ := Prod.mk.inj hrun
  obtain ⟨l, hl, htop⟩ := Option.map_eq_some_iff.1 hloop
  have he := ((sockets_follow_state notes {} hp).1 c l hc hl).1 htop
  rw [hs] at he
  exact ⟨hp, c, l, hc, hl, htop, hs, he⟩

end PeerMessaging
