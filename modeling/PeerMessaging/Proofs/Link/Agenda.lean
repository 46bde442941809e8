import PeerMessaging.Proofs.Link.Session

/-!
# The agenda of a session

What a loop has still to do in a session is more than any list of tasks: a fatal error comes only
with the transition that it asks for, a transition only from a state that permits it, and a message
is handed on only as long as there has been no fatal error. `Agenda` says which tasks there may be,
depending on the lifecycle, on whether there is a stream, on whether the session has been asked to
close, and on its verdict: the state that a fatal error has decided that it ends in. A step of the
loop keeps to the agenda and comes to at most one verdict (`Agenda.step`), and a request to close
leaves it (`Agenda.ask`).
-/

namespace PeerMessaging

/-! ## Fatal errors -/

namespace ConnectionError

/-- The peer has broken the protocol. -/
def isViolation (e : ConnectionError) : Bool :=
  match e.kind with
  | .unknownProtocol | .invalidMessage => true
  | _ => false

/-- The state that a session ends in after a fatal error: it fails if there was no stream yet or the
peer has broken the protocol, and is closed otherwise. -/
def ending (e : ConnectionError) (attached : Bool) : ConnectionState :=
  if attached && !e.isViolation then .closed else .error

/-- The state on the way to that. -/
def leads (e : ConnectionError) (attached : Bool) : ConnectionState :=
  if attached && !e.isViolation then .closing else .error

/-- A failed read is classified as a violation just when it is one. -/
theorem isViolation_ofReceive (cause : FrameError) :
    (ofReceive cause).isViolation = cause.isProtocolViolation := by
  cases cause with
  | io e =>
    simp only [ofReceive, ofFrame, receiveKind, isViolation]
    cases e.isReset <;> rfl
  | _ => rfl

/-- After a failed read the loop asks for the state on the way to the end. -/
theorem leads_ofReceive (cause : FrameError) :
    (ofReceive cause).leads true = stateAfter cause := by
  rw [leads, isViolation_ofReceive, stateAfter]
  cases cause.isProtocolViolation <;> rfl

end ConnectionError

/-- The fatal error that an event tells of. -/
def Event.fatal? : Event → Option ConnectionError
  | .error e => if e.fatal then some e else none
  | _ => none

/-! ## States -/

namespace Lifecycle

/-- A request takes effect just when it is permitted. -/
theorem tryRequest_eq (l : Lifecycle) (next : ConnectionState) :
    l.tryRequest next = if l.desired.permits next then { l with desired := next } else l := by
  unfold tryRequest request
  split <;> rename_i h <;> split at h <;> cases h
  · rw [if_pos ‹_›]
  · rw [if_neg ‹_›]

end Lifecycle

/-- A session may be in this state, or about to be: it seeks a stream as long as there is none, it
is connected while there is one, and what it does after a fatal error is the verdict. Without one it
closes only if it has been asked to. -/
def Possible (verdict : Option ConnectionState) (asked attached : Bool) : ConnectionState → Prop
  | .initial => False
  | .connecting | .opening | .listening => verdict = none ∧ attached = false
  | .connected => verdict = none ∧ attached = true
  | .closing | .closed => verdict = some .closed ∨ verdict = none ∧ asked = true
  | .error => verdict = some .error

/-- A session that is about to be in this state can still meet with a fatal error. -/
structure Exposed (verdict : Option ConnectionState) (asked attached : Bool)
    (state : ConnectionState) : Prop where
  verdict_eq : verdict = none
  possible : Possible verdict asked attached state
  ne_closed : state ≠ .closed

section
variable {verdict : Option ConnectionState} {asked attached : Bool} {state : ConnectionState}

/-- Having been asked to close rules nothing out. -/
theorem Possible.ask (h : Possible verdict asked attached state) :
    Possible verdict true attached state := by
  cases state with
  | closing | closed => exact h.imp_right fun h => ⟨h.1, rfl⟩
  | _ => exact h

/-- A session that can still be asked to close can close when it has been. -/
theorem Possible.close (h : Possible verdict asked attached state)
    (hp : state.permits .closing = true) : Possible verdict true attached .closing := by
  refine .inr ⟨?_, rfl⟩
  cases state with
  | connecting | opening | listening | connected => exact h.1
  | _ => cases hp

/-- A transition that is due is still due after a request to close, unless the session closes in
place of it. -/
theorem Possible.due {next : ConnectionState} (h : Possible verdict asked attached next) :
    ConnectionState.closing.permits next = true ∨ .closing = next ∨
      Possible verdict true attached .closing := by
  cases next with
  | initial => cases h
  | connecting | opening | listening | connected => exact .inr (.inr (.inr ⟨h.1, rfl⟩))
  | closing => exact .inr (.inl rfl)
  | closed | error => exact .inl rfl

/-- Without a verdict, and without having been asked to close, a session does not come to an end. -/
theorem Possible.stage_le (h : Possible none false attached state) : state.stage ≤ 3 := by
  cases state with
  | closing | closed =>
    rcases h with h | ⟨-, h⟩ <;> cases h
  | error => cases h
  | _ => decide

/-- After a verdict a session is not connected any more. -/
theorem Possible.ne_connected {v : ConnectionState} (h : Possible (some v) asked attached state) :
    state ≠ .connected := by
  rintro rfl
  cases h.1

/-- A request to close leaves a session where it may be, or lets it close. -/
theorem Possible.request {c : Lifecycle} (h : Possible verdict asked attached c.desired) :
    Possible verdict true attached (c.tryRequest .closing).desired := by
  rw [Lifecycle.tryRequest_eq]
  split
  · exact h.close ‹_›
  · exact h.ask

/-- After a request to close a session can still meet with a fatal error. -/
theorem Exposed.request {c : Lifecycle} (h : Exposed verdict asked attached c.desired) :
    Exposed verdict true attached (c.tryRequest .closing).desired where
  verdict_eq := h.verdict_eq
  possible := h.possible.request
  ne_closed := by
    rw [Lifecycle.tryRequest_eq]
    split
    · intro hc
      cases hc
    · exact h.ne_closed

/-- A fatal error can always lead on. -/
theorem Exposed.leads (h : Exposed verdict asked attached state) (e : ConnectionError) :
    state.permits (e.leads attached) = true ∨ state = e.leads attached := by
  obtain ⟨rfl, hp, hc⟩ := h
  unfold ConnectionError.leads
  cases state with
  | initial => cases hp
  | connecting | opening | listening =>
    obtain ⟨-, rfl⟩ := hp
    exact .inl rfl
  | connected | closing => split <;> simp [ConnectionState.permits]
  | closed => exact absurd rfl hc
  | error => cases hp

/-- What a fatal error leads to is on the way to the verdict. -/
theorem possible_leads (e : ConnectionError) (asked attached : Bool) :
    Possible (some (e.ending attached)) asked attached (e.leads attached) := by
  unfold ConnectionError.ending ConnectionError.leads
  split
  · exact .inl rfl
  · rfl

end

/-! ## Tasks -/

/-- Listeners may be told of the event: when there is a verdict it is not a message. -/
def Event.isAside (decided : Bool) : Event → Bool
  | .message => !decided
  | _ => true

/-- The session is connected and stays so, unless there is a verdict or it has been asked to
close. -/
def Steady (verdict : Option ConnectionState) (asked : Bool) (c : Lifecycle) : Prop :=
  verdict = none → asked = false → c = ⟨.connected, .connected⟩

/-- A new round is next, perhaps after a keepalive. -/
def IsRound (tasks : List Task) : Prop := tasks = nextRound ∨ tasks = .keepalive :: nextRound

/-- What a loop may have to do in a session. -/
inductive Agenda (verdict : Option ConnectionState) (asked attached : Bool) (c : Lifecycle) :
    List Task → Prop
  /-- The loop has ended. -/
  | ended (hc : c.current.isTerminal = true) (hp : Possible verdict asked attached c.current) :
      Agenda verdict asked attached c []
  /-- The pending state is announced next, after a keepalive if the session is connected. -/
  | round {tail : List Task} (ht : IsRound tail) (hp : Possible verdict asked attached c.desired) :
      Agenda verdict asked attached c tail
  /-- The current state has been announced, and only a request to close can have come since. -/
  | act (hp : Possible verdict asked attached c.current)
      (hd : c.desired = c.current ∨
        c.desired = .closing ∧ Possible verdict asked attached .closing) :
      Agenda verdict asked attached c [.act]
  /-- A transition is due that is permitted, or has been made, or is too late. -/
  | advance {next : ConnectionState} {tail : List Task} (ht : IsRound tail)
      (hp : Possible verdict asked attached next)
      (hd : c.desired.permits next = true ∨ c.desired = next ∨
        c.desired = .closing ∧ Possible verdict asked attached .closing) :
      Agenda verdict asked attached c (.advance next :: tail)
  /-- Frames are exchanged: first those to be sent. -/
  | write {deadline : Moment} (ha : attached = true) (hs : Steady verdict asked c)
      (he : Exposed verdict asked attached c.desired) :
      Agenda verdict asked attached c (.write .exchange deadline :: nextRound)
  /-- Then those received. -/
  | receive (ha : attached = true) (hs : Steady verdict asked c)
      (he : Exposed verdict asked attached c.desired) :
      Agenda verdict asked attached c (.receive :: .keepalive :: nextRound)
  /-- The stream is let go of to close. -/
  | release (hd : c.desired = .closing) (hp : Possible verdict asked attached .closing) :
      Agenda verdict asked attached c (.release :: .advance .closed :: nextRound)
  /-- A fatal error is reported, and then leads on. -/
  | fail {e : ConnectionError} {tail : List Task} (hf : e.fatal = true) (ht : IsRound tail)
      (he : Exposed verdict asked attached c.desired) :
      Agenda verdict asked attached c (.report e :: .advance (e.leads attached) :: tail)
  /-- An error that is not fatal is reported first. -/
  | mishap {e : ConnectionError} {tail : List Task} (hf : e.fatal = false)
      (hs : Steady verdict asked c) (h : Agenda verdict asked attached c tail) :
      Agenda verdict asked attached c (.report e :: tail)
  /-- Listeners are told of something first. -/
  | aside {event : Event} {listeners : List Listener} {tail : List Task}
      (ht : event.isAside verdict.isSome = true) (h : Agenda verdict asked attached c tail) :
      Agenda verdict asked attached c (.notify event listeners :: tail)
  /-- Messages to be sent are taken first. -/
  | collect {tail : List Task} (hs : Steady verdict asked c)
      (h : Agenda verdict asked attached c tail) :
      Agenda verdict asked attached c (.collect :: tail)
  /-- Messages are queued for writing first. -/
  | encode {messages : List Message} {tail : List Task} (hs : Steady verdict asked c)
      (h : Agenda verdict asked attached c tail) :
      Agenda verdict asked attached c (.encode messages :: tail)
  /-- What is queued is written first, and a failure is of no consequence. -/
  | flush {deadline : Moment} {tail : List Task} (h : Agenda verdict asked attached c tail) :
      Agenda verdict asked attached c (.write .closing deadline :: tail)
  /-- What was read is handed on first, which is not done any more when there is a verdict. -/
  | dispatch {items : List Item} {tail : List Task} (hv : verdict = none)
      (hs : Steady verdict asked c) (h : Agenda verdict asked attached c tail) :
      Agenda verdict asked attached c (.dispatch items :: tail)

section
variable {verdict : Option ConnectionState} {asked attached : Bool} {c : Lifecycle}
  {tasks : List Task}

/-- A session that closes is not steady. -/
theorem Steady.of_closing (h : Possible verdict asked attached .closing) :
    Steady verdict asked c := by
  rintro rfl rfl
  rcases h with h | ⟨-, h⟩ <;> cases h

namespace Agenda

/-- A request to close leaves the agenda. -/
theorem ask (h : Agenda verdict asked attached c tasks) :
    Agenda verdict true attached (c.tryRequest .closing) tasks := by
  have hcurrent : (c.tryRequest .closing).current = c.current := c.current_tryRequest _
  have steady : Steady verdict true (c.tryRequest .closing) := by
    intro _ ha
    cases ha
  induction h with
  | ended hc hp =>
    rw [← hcurrent] at hc hp
    exact .ended hc hp.ask
  | round ht hp => exact .round ht hp.request
  | act hp hd =>
    refine .act (hcurrent ▸ hp.ask) ?_
    rw [Lifecycle.tryRequest_eq]
    split
    · rename_i hpermits
      rcases hd with hd | ⟨hd, -⟩
      · exact .inr ⟨rfl, hp.close (hd ▸ hpermits)⟩
      · rw [hd] at hpermits
        cases hpermits
    · exact hd.imp_right fun h => ⟨h.1, h.2.ask⟩
  | advance ht hp hd =>
    refine .advance ht hp.ask ?_
    rw [Lifecycle.tryRequest_eq]
    split
    · exact hp.due.imp_right (Or.imp_right fun h => ⟨rfl, h⟩)
    · exact hd.imp_right (Or.imp_right fun h => ⟨h.1, h.2.ask⟩)
  | write ha _ he => exact .write ha steady he.request
  | receive ha _ he => exact .receive ha steady he.request
  | release hd hp =>
    have hc : c.tryRequest .closing = c := by
      rw [Lifecycle.tryRequest_eq, hd]
      rfl
    rw [hc]
    exact .release hd hp.ask
  | fail hf ht he => exact .fail hf ht he.request
  | mishap hf _ _ ih => exact .mishap hf steady ih
  | aside ht _ ih => exact .aside ht ih
  | collect _ _ ih => exact .collect steady ih
  | encode _ _ ih => exact .encode steady ih
  | flush _ ih => exact .flush ih
  | dispatch hv _ _ ih => exact .dispatch hv steady ih

/-- Without a verdict, and without having been asked to close, no loop is about to end. -/
theorem stage_desired_le (h : Agenda none false attached c tasks) : c.desired.stage ≤ 3 := by
  induction h with
  | ended hc hp =>
    have hle := hp.stage_le
    generalize c.current = state at hc hle
    cases state with
    | closed | error => exact absurd hle (by decide)
    | _ => cases hc
  | round _ hp => exact hp.stage_le
  | act hp hd =>
    rcases hd with hd | ⟨-, hc⟩
    · rw [hd]
      exact hp.stage_le
    · exact absurd hc.stage_le (by decide)
  | advance _ hp hd =>
    rcases hd with hd | rfl | ⟨-, hc⟩
    · have hlt := ConnectionState.stage_lt_of_permits hd (by rintro rfl; exact hp)
      exact Nat.le_of_lt (Nat.lt_of_lt_of_le hlt hp.stage_le)
    · exact hp.stage_le
    · exact absurd hc.stage_le (by decide)
  | write _ _ he | receive _ _ he | fail _ _ he => exact he.possible.stage_le
  | release _ hp => exact absurd hp.stage_le (by decide)
  | mishap _ _ _ ih | aside _ _ ih | collect _ _ ih | encode _ _ ih | flush _ ih
  | dispatch _ _ _ ih => exact ih

/-- A loop that has ended has done so in a terminal state. -/
theorem ended_of_nil (h : Agenda verdict asked attached c []) :
    c.current.isTerminal = true ∧ Possible verdict asked attached c.current := by
  cases h with
  | round ht => rcases ht with ht | ht <;> cases ht
  | ended hc hp => exact ⟨hc, hp⟩

/-- When the loop has ended it does not matter any more whether there was a stream. -/
theorem of_nil {attached' : Bool} (h : Agenda verdict asked attached c []) :
    Agenda verdict asked attached' c [] := by
  obtain ⟨hc, hp⟩ := h.ended_of_nil
  refine .ended hc ?_
  generalize c.current = state at hc hp
  cases state with
  | closed | error => exact hp
  | _ => cases hc

end Agenda

end

/-! ## Steps -/

/-- Nothing of the session is heard in a step: no fatal error is raised, and no message is put into
the queue or told of. -/
structure Step.Silent (s : Shared) (st : Step) : Prop where
  fatal_eq : st.raised.bind Event.fatal? = none
  raised_ne : st.raised ≠ some .message
  told_ne : ∀ listener, st.told ≠ some (listener, .message)
  inbound_eq : st.shared.inbound = s.inbound

/-- A step keeps to the agenda, with the verdict of the fatal error that is raised in it if there is
one. There is none, and nothing else is heard, if there was a verdict before. -/
structure Keeps (verdict : Option ConnectionState) (asked attached : Bool) (s : Shared)
    (st : Step) : Prop where
  agenda : Agenda (verdict.or ((st.raised.bind Event.fatal?).map (·.ending attached))) asked
    st.loop.reader.isSome st.shared.lifecycle st.loop.tasks
  silent : verdict ≠ none → st.Silent s

section
variable {verdict : Option ConnectionState} {asked attached : Bool} {calls : SocketCalls}
  {s : Shared} {l : Loop} {st : Step}

/-- A step in which nobody is told of anything is silent unless it raises something. -/
theorem Step.Silent.of_untold (hf : st.raised.bind Event.fatal? = none)
    (hr : st.raised ≠ some .message) (ht : st.told = none)
    (hi : st.shared.inbound = s.inbound) : st.Silent s := by
  refine ⟨hf, hr, fun listener h => ?_, hi⟩
  rw [ht] at h
  cases h

/-- A step in which nothing is heard keeps to an agenda that is one with the verdict before it. -/
theorem Keeps.of_silent (hs : st.Silent s)
    (ha : Agenda verdict asked st.loop.reader.isSome st.shared.lifecycle st.loop.tasks) :
    Keeps verdict asked attached s st where
  agenda := by
    rw [hs.fatal_eq, Option.map_none, Option.or_none]
    exact ha
  silent _ := hs

/-- A step that raises nothing and tells nobody keeps to such an agenda. -/
theorem Keeps.of_quiet {shared : Shared} {loop : Loop} {sent : Bytes} {unread : List ReadOutcome}
    (hi : shared.inbound = s.inbound)
    (ha : Agenda verdict asked loop.reader.isSome shared.lifecycle loop.tasks) :
    Keeps verdict asked attached s { shared, loop, sent, unread } :=
  .of_silent (.of_untold rfl nofun rfl hi) ha

/-- What is planned after a fatal error is on the agenda of a session that can meet with it. -/
theorem Keeps.of_failing {shared : Shared} {loop : Loop} {sent : Bytes}
    {unread : List ReadOutcome} {e : ConnectionError} {next : ConnectionState} {there : Bool}
    (hi : shared.inbound = s.inbound) (ht : IsRound loop.tasks) (hr : loop.reader.isSome = there)
    (he : Exposed verdict asked there shared.lifecycle.desired) (hf : e.fatal = true)
    (hn : e.leads there = next) :
    Keeps verdict asked attached s
      { shared, loop := loop.first (failing e next), sent, unread } := by
  subst hr hn
  exact .of_quiet hi (.fail hf ht he)

/-- A stream that is taken over, or cannot be set up, is on the agenda of a session without one. -/
theorem Keeps.attach {loop : Loop} (kind : ErrorKind) (hr : loop.reader.isSome = false)
    (ht : loop.tasks = nextRound) (he : Exposed verdict asked false s.lifecycle.desired)
    (hd : s.lifecycle.desired.permits .connected = true ∨ s.lifecycle.desired = .closing) :
    Keeps verdict asked attached s (loop.attach kind calls s) := by
  unfold Loop.attach
  dsimp only
  split
  · refine .of_quiet rfl ?_
    rw [Loop.tasks_first, ht]
    refine .advance (.inl rfl) ⟨he.verdict_eq, rfl⟩ (hd.imp_right fun hd => .inr ⟨hd, ?_⟩)
    have hp := he.possible
    rwa [hd] at hp
  · exact .of_failing rfl (.inl ht) hr he rfl rfl

namespace Agenda

/-- A session that does what its state asks for can meet with a fatal error before it closes. -/
theorem exposed_of_act {c : Lifecycle} {state : ConnectionState}
    (hp : Possible verdict asked attached state)
    (hd : c.desired = state ∨ c.desired = .closing ∧ Possible verdict asked attached .closing)
    (hl : state.permits .closing = true) : Exposed verdict asked attached c.desired := by
  have hv : verdict = none := by
    cases state with
    | connecting | opening | listening | connected => exact hp.1
    | _ => cases hl
  subst hv
  rcases hd with hd | ⟨hd, hc⟩
  · rw [hd]
    refine ⟨rfl, hp, ?_⟩
    rintro rfl
    cases hl
  · rw [hd]
    exact ⟨rfl, hc, nofun⟩

/-- Doing what the current state asks for keeps to the agenda. -/
theorem step_act (hp : Possible verdict asked l.reader.isSome s.lifecycle.current)
    (hd : s.lifecycle.desired = s.lifecycle.current ∨
      s.lifecycle.desired = .closing ∧ Possible verdict asked l.reader.isSome .closing) :
    Keeps verdict asked attached s (l.act calls s) := by
  unfold Loop.act
  dsimp only
  cases hc : s.lifecycle.current with
  | initial =>
    rw [hc] at hp
    cases hp
  | connecting =>
    rw [hc] at hp hd
    have he := exposed_of_act hp hd rfl
    obtain ⟨-, hr⟩ := hp
    rw [hr] at he
    dsimp only
    split
    · refine .attach _ hr rfl he (hd.imp (fun hd => ?_) And.left)
      rw [hd]
      rfl
    · exact .of_failing rfl (.inl rfl) hr he rfl rfl
  | opening =>
    rw [hc] at hp hd
    have he := exposed_of_act hp hd rfl
    obtain ⟨hv, hr⟩ := hp
    dsimp only
    split
    · refine .of_quiet rfl (.advance (.inl rfl) ⟨hv, hr⟩ (hd.imp (fun hd => ?_) .inr))
      rw [hd]
      rfl
    · rw [hr] at he
      exact .of_failing rfl (.inl rfl) hr he rfl rfl
  | listening =>
    rw [hc] at hp hd
    have he := exposed_of_act hp hd rfl
    obtain ⟨-, hr⟩ := hp
    rw [hr] at he
    dsimp only
    split
    · exact .of_failing rfl (.inl rfl) hr he rfl rfl
    · split
      · refine .of_quiet rfl (.round (.inl rfl) ?_)
        rw [hr]
        exact he.possible
      · refine .attach _ hr rfl he (hd.imp (fun hd => ?_) And.left)
        rw [hd]
        rfl
      · exact .of_failing rfl (.inl rfl) hr he rfl rfl
  | connected =>
    rw [hc] at hp hd
    have he := exposed_of_act hp hd rfl
    have hs : Steady verdict asked s.lifecycle := by
      intro hv ha
      rcases hd with hd | ⟨-, hclosing⟩
      · calc s.lifecycle
          _ = ⟨s.lifecycle.current, s.lifecycle.desired⟩ := rfl
          _ = ⟨.connected, .connected⟩ := by rw [hc, hd]
      · exact Steady.of_closing hclosing hv ha
    exact .of_quiet rfl (.collect hs (.write hp.2 hs he))
  | closing =>
    rw [hc] at hp hd
    have hd' : s.lifecycle.desired = .closing := hd.elim id And.left
    exact .of_quiet rfl (.collect (.of_closing hp) (.flush (.release hd' hp)))
  | closed | error =>
    refine .of_quiet rfl (.ended ?_ ?_)
    · rw [hc]
      rfl
    · rw [hc] at hp ⊢
      exact hp

/-- Announcing the pending state makes it the current one, and it is acted on next. -/
theorem step_announce (ht : l.tasks = nextRound)
    (hp : Possible verdict asked l.reader.isSome s.lifecycle.desired) :
    Keeps verdict asked attached s (l.step calls s) := by
  by_cases hsame : s.lifecycle.current = s.lifecycle.desired
  · have happly : s.lifecycle.apply = (none, s.lifecycle) := if_pos hsame
    simp only [Loop.step, ht, nextRound, happly]
    exact .of_quiet rfl (.act (hsame ▸ hp) (.inl hsame.symm))
  · have happly : s.lifecycle.apply =
        (some s.lifecycle.desired, ⟨s.lifecycle.desired, s.lifecycle.desired⟩) := if_neg hsame
    have hraised : some (Event.state s.lifecycle.desired) ≠ some .message := by
      intro h
      cases h
    simp only [Loop.step, ht, nextRound, happly]
    exact .of_silent (.of_untold rfl hraised rfl rfl) (.aside rfl (.act hp (.inl rfl)))

/-- A keepalive is sent only if there can be a fatal error, which leads to closing. -/
theorem step_keepalive (ht : IsRound l.tasks)
    (hp : Possible verdict asked l.reader.isSome s.lifecycle.desired) :
    Keeps verdict asked attached s (l.keepalive calls s) := by
  have idle : Keeps verdict asked attached s { shared := s, loop := l } :=
    .of_quiet rfl (.round ht hp)
  unfold Loop.keepalive
  split
  · exact idle
  split
  · exact idle
  rename_i hn
  obtain ⟨hd, -⟩ := not_or.1 hn
  have hd : s.lifecycle.desired = .connected := Decidable.not_not.1 hd
  have he : Exposed verdict asked l.reader.isSome s.lifecycle.desired := by
    rw [hd] at hp ⊢
    exact ⟨hp.1, hp, nofun⟩
  dsimp only
  split
  · exact .of_quiet rfl (.round ht hp)
  · rw [hd] at hp
    obtain ⟨-, hr⟩ := hp
    rw [hr] at he
    exact .of_failing rfl ht hr he rfl rfl

/-- Writing in an exchange leads on to reading, or is a fatal error. -/
theorem step_write {deadline : Moment} (ha : l.reader.isSome = true) (ht : l.tasks = nextRound)
    (hs : Steady verdict asked s.lifecycle) (he : Exposed verdict asked true s.lifecycle.desired) :
    Keeps verdict asked attached s (l.write .exchange deadline calls s) := by
  have reads (writer : Option Encoder) :
      Agenda verdict asked l.reader.isSome s.lifecycle
        (({ l with writer } : Loop).first [.receive, .keepalive]).tasks := by
    rw [Loop.tasks_first, ha]
    change Agenda verdict asked true s.lifecycle ([.receive, .keepalive] ++ l.tasks)
    rw [ht]
    exact .receive rfl hs he
  unfold Loop.write
  split
  · exact .of_quiet rfl (reads l.writer)
  · dsimp only
    split
    · rename_i h
      cases h
    · exact .of_quiet rfl (reads _)
    · exact .of_failing rfl (.inl ht) ha he rfl rfl

/-- Reading hands on what it has read, and is then a fatal error if it failed. -/
theorem step_receive (ha : l.reader.isSome = true) (ht : l.tasks = .keepalive :: nextRound)
    (hs : Steady verdict asked s.lifecycle) (he : Exposed verdict asked true s.lifecycle.desired) :
    Keeps verdict asked attached s (l.receive calls s) := by
  unfold Loop.receive
  split
  · rename_i hn
    rw [hn] at ha
    cases ha
  dsimp only
  generalize FrameReader.burst _ _ = b
  obtain ⟨items, failure, r⟩ := b
  refine .of_quiet rfl (.dispatch he.verdict_eq hs ?_)
  cases failure with
  | none =>
    change Agenda verdict asked true s.lifecycle l.tasks
    rw [ht]
    exact .round (.inr rfl) he.possible
  | some cause =>
    change Agenda verdict asked true s.lifecycle (failing _ (stateAfter cause) ++ l.tasks)
    rw [ht, ← ConnectionError.leads_ofReceive]
    exact .fail rfl (.inr rfl) he

/-- A message that is queued for writing, or reported, leaves the agenda. -/
theorem encode_loop (m : Message) (w : Encoder) (hs : Steady verdict asked s.lifecycle)
    (h : Agenda verdict asked l.reader.isSome s.lifecycle l.tasks) :
    Agenda verdict asked (l.encode m w).reader.isSome s.lifecycle (l.encode m w).tasks := by
  unfold Loop.encode
  split
  · exact .mishap rfl hs h
  · dsimp only
    split
    · exact h
    · exact .mishap rfl hs h

/-- An item that is handed on before there is a verdict leaves the agenda. -/
theorem step_dispatch {item : Item} (hv : verdict = none)
    (hs : Steady verdict asked s.lifecycle)
    (h : Agenda verdict asked l.reader.isSome s.lifecycle l.tasks) :
    Keeps verdict asked attached s (l.dispatch item s) := by
  subst hv
  unfold Loop.dispatch
  split
  · exact .of_quiet rfl h
  · split
    · exact ⟨.aside rfl h, nofun⟩
    · exact .of_quiet rfl (.mishap rfl hs h)

/-- A transition that was asked for leads to where the session may be. -/
theorem possible_of_advance {c : Lifecycle} {next : ConnectionState}
    (hp : Possible verdict asked attached next)
    (hd : c.desired.permits next = true ∨ c.desired = next ∨
      c.desired = .closing ∧ Possible verdict asked attached .closing) :
    Possible verdict asked attached (c.tryRequest next).desired := by
  rw [Lifecycle.tryRequest_eq]
  split
  · exact hp
  · rename_i hn
    rcases hd with hd | rfl | ⟨hd, hc⟩
    · exact absurd hd hn
    · exact hp
    · rwa [hd]

/-- Telling listeners of something leaves the agenda, and after a verdict it is not a message. -/
theorem step_aside {event : Event} {listeners : List Listener} {tail : List Task}
    (ht : l.tasks = .notify event listeners :: tail) (ha : event.isAside verdict.isSome = true)
    (h : Agenda verdict asked l.reader.isSome s.lifecycle tail) :
    Keeps verdict asked attached s (l.step calls s) := by
  cases listeners with
  | nil =>
    simp only [Loop.step, ht]
    exact .of_quiet rfl h
  | cons listener listeners =>
    simp only [Loop.step, ht]
    refine ⟨?_, fun hv => ⟨rfl, fun hraised => ?_, fun listener' htold => ?_, rfl⟩⟩
    · simp only [Option.bind_none, Option.map_none, Option.or_none]
      exact .aside ha h
    · cases hraised
    · cases htold
      obtain ⟨v, rfl⟩ := Option.ne_none_iff_exists'.1 hv
      cases ha

/-- Reporting an error that is not fatal leaves the agenda. -/
theorem step_mishap {e : ConnectionError} {tail : List Task} (ht : l.tasks = .report e :: tail)
    (hf : e.fatal = false) (h : Agenda verdict asked l.reader.isSome s.lifecycle tail) :
    Keeps verdict asked attached s (l.step calls s) := by
  have hraised : Event.fatal? (.error e) = none := by rw [Event.fatal?, hf]; rfl
  simp only [Loop.step, ht, Loop.raise]
  refine .of_silent (.of_untold hraised (fun hm => ?_) rfl rfl) (.aside rfl h)
  cases hm

/-- A fatal error is the verdict, and the transition that it asks for is due. -/
theorem step_fail {e : ConnectionError} {tail : List Task}
    (ht : l.tasks = .report e :: .advance (e.leads attached) :: tail)
    (hr : l.reader.isSome = attached)
    (hround : IsRound tail) (hf : e.fatal = true)
    (he : Exposed verdict asked attached s.lifecycle.desired) :
    Keeps verdict asked attached s (l.step calls s) := by
  obtain rfl := he.verdict_eq
  subst hr
  have hraised : Event.fatal? (.error e) = some e := if_pos hf
  simp only [Loop.step, ht, Loop.raise]
  refine ⟨?_, fun hv => absurd rfl hv⟩
  simp only [Option.bind_some, hraised, Option.map_some, Option.none_or]
  exact .aside rfl (.advance hround (possible_leads e ..) ((he.leads e).imp_right .inl))

/-- A step of the loop keeps to the agenda. -/
theorem step (h : Agenda verdict asked l.reader.isSome s.lifecycle l.tasks) :
    Keeps verdict asked l.reader.isSome s (l.step calls s) := by
  generalize ht : l.tasks = tasks at h
  cases h with
  | ended hc hp =>
    simp only [Loop.step, ht]
    refine .of_quiet rfl ?_
    rw [ht]
    exact .ended hc hp
  | round hround hp =>
    rcases hround with rfl | rfl
    · exact step_announce ht hp
    · simp only [Loop.step, ht]
      exact step_keepalive (.inl rfl) hp
  | act hp hd =>
    simp only [Loop.step, ht]
    exact step_act hp hd
  | advance hround hp hd =>
    simp only [Loop.step, ht]
    exact .of_quiet rfl (.round hround (possible_of_advance hp hd))
  | write ha hs he =>
    simp only [Loop.step, ht]
    rw [ha] at he
    exact step_write ha rfl hs he
  | receive ha hs he =>
    simp only [Loop.step, ht]
    rw [ha] at he
    exact step_receive ha rfl hs he
  | release hd hp =>
    simp only [Loop.step, ht]
    exact .of_quiet rfl (.advance (.inl rfl) hp (.inl (by rw [hd]; rfl)))
  | fail hf hround he => exact step_fail ht rfl hround hf he
  | mishap hf _ h => exact step_mishap ht hf h
  | aside ha h => exact step_aside ht ha h
  | collect hs h =>
    simp only [Loop.step, ht]
    split
    · exact .of_quiet rfl (.encode hs h)
    · exact .of_quiet rfl h
  | @encode messages tail hs h =>
    cases messages with
    | nil =>
      simp only [Loop.step, ht]
      exact .of_quiet rfl h
    | cons m ms =>
      simp only [Loop.step, ht]
      refine .of_quiet rfl ?_
      cases l.writer with
      | none => exact .encode hs h
      | some w => exact encode_loop m w hs (.encode hs h)
  | flush h =>
    simp only [Loop.step, ht, Loop.write]
    split
    · exact .of_quiet rfl h
    · exact .of_quiet rfl h
  | @dispatch items tail hv hs h =>
    cases items with
    | nil =>
      simp only [Loop.step, ht]
      exact .of_quiet rfl h
    | cons item items =>
      simp only [Loop.step, ht]
      exact step_dispatch hv hs (.dispatch hv hs h)

end Agenda

/-! ## Errors that are not fatal -/

/-- The loop tells of an error when it has come to report it. -/
theorem Loop.tasks_of_error {e : ConnectionError}
    (he : (l.step calls s).raised = some (.error e)) : ∃ tail, l.tasks = .report e :: tail := by
  have t := l.step_turn calls s
  cases ht : l.tasks with
  | nil =>
    simp only [step, ht] at he
    cases he
  | cons task tail =>
    cases task with
    | report e' =>
      simp only [step, ht, raise] at he
      cases he
      exact ⟨tail, rfl⟩
    | notify event listeners =>
      cases listeners <;> simp only [step, ht] at he <;> cases he
    | announce =>
      simp only [step, ht] at he
      split at he <;> cases he
    | dispatch items =>
      cases items with
      | nil =>
        simp only [step, ht] at he
        cases he
      | cons item items =>
        simp only [step, ht, dispatch] at he
        split at he
        · cases he
        · split at he <;> cases he
    | _ =>
      generalize l.step calls s = st at t he
      cases t with
      | tell _ ht' hn =>
        cases ht.symm.trans ht'
        cases hn
      | announce _ ht' | dispatch _ ht' => cases ht.symm.trans ht'
      | _ => cases he

/-- Telling of an error leaves both slots of the lifecycle as they are. -/
theorem Loop.lifecycle_of_error {e : ConnectionError}
    (he : (l.step calls s).raised = some (.error e)) :
    (l.step calls s).shared.lifecycle = s.lifecycle := by
  obtain ⟨tail, ht⟩ := tasks_of_error he
  simp only [step, ht, raise]

/-- An error that is not fatal is told of only while the session is steady. -/
theorem Agenda.steady_of_error {e : ConnectionError}
    (h : Agenda verdict asked l.reader.isSome s.lifecycle l.tasks)
    (he : (l.step calls s).raised = some (.error e)) (hf : e.fatal = false) :
    Steady verdict asked s.lifecycle := by
  obtain ⟨tail, ht⟩ := Loop.tasks_of_error he
  rw [ht] at h
  cases h with
  | round hround => rcases hround with hround | hround <;> cases hround
  | fail hfatal =>
    rw [hf] at hfatal
    cases hfatal
  | mishap _ hs => exact hs

/-- A session that is connected stays so in a step after which there is no verdict yet, if it has
not been asked to close. -/
theorem Agenda.lifecycle_step
    (h : Agenda none false attached (l.step calls s).shared.lifecycle (l.step calls s).loop.tasks)
    (hc : s.lifecycle = ⟨.connected, .connected⟩) :
    (l.step calls s).shared.lifecycle = ⟨.connected, .connected⟩ := by
  have t := l.step_turn calls s
  generalize l.step calls s = st at h t
  have hle := h.stage_desired_le
  cases t with
  | announce =>
    rw [Lifecycle.apply_snd, hc]
  | @advance next =>
    simp only [Lifecycle.tryRequest_eq, hc] at hle ⊢
    split at hle
    · cases next with
      | closing | error => exact absurd hle (by decide)
      | _ => contradiction
    · rw [if_neg ‹_›]
  | _ => exact hc

end

end PeerMessaging
