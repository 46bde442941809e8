import PeerMessaging.Link.Overlap
import PeerMessaging.Proofs.Link.Announcements
import PeerMessaging.Proofs.Link.Delivery
import PeerMessaging.Proofs.Link.Refusals

/-!
# Resets that overlap with other calls

A reset that nothing comes between is the one that is made in one go (`Scene.reset_in_one_go`). If
anything does, listeners hear of the lifecycle in order only as long as nothing puts that out of
order (`Scene.Upset`): a reset that does not wait for the loop to end, a start before the listeners
have been told that the connection is as good as new, a change of who they are before that, or a
listener that fails when an end or the new beginning is told. Each of these does
(`Scene.announcements_out_of_order`), and nothing else (`announcements_follow`).

A reset that goes on takes the connection through the stages of `Scene.Stage`, one at a time. What
has been announced and heard so far is known in each of them.
-/

namespace PeerMessaging

open ConnectionState (Permits Precedes)

namespace Scene

/-! ## A reset in one go -/

section
variable {s : Scene} {acts more : List Act} {i j : Nat} {left : List Chore}

theorem after_append (s : Scene) (acts more : List Act) :
    s.after (acts ++ more) = (s.after acts).after more := List.foldl_append

theorem play_append (s : Scene) (acts more : List Act) :
    s.play (acts ++ more) = s.play acts ++ (s.after acts).play more := by
  induction acts generalizing s with
  | nil => rfl
  | cons a acts ih => exact congrArg _ (ih (s.next a))

/-- A reset that is over does nothing more. -/
theorem replicate_of_over (c : Connection) (n : Nat) :
    let s : Scene := ⟨c, [[]]⟩
    s.after (.replicate n (.renew 0)) = s ∧
      (s.play (.replicate n (.renew 0))).filterMap (·.raised) = [] ∧
      (s.play (.replicate n (.renew 0))).flatMap (·.told) = [] := by
  induction n with
  | zero => exact ⟨rfl, rfl, rfl⟩
  | succ n ih => exact ih

/-- Listeners are told one after another. -/
theorem replicate_of_notify (c : Connection) (event : Event) (rest : List Listener) :
    let s : Scene := ⟨c, [[.notify event rest]]⟩
    s.after (.replicate (rest.length + 1) (.renew 0)) = ⟨c, [[]]⟩ ∧
      (s.play (.replicate (rest.length + 1) (.renew 0))).filterMap (·.raised) = [] ∧
      (s.play (.replicate (rest.length + 1) (.renew 0))).flatMap (·.told) =
        rest.map (·, event) := by
  induction rest with
  | nil => exact ⟨rfl, rfl, rfl⟩
  | cons listener rest ih =>
    obtain ⟨hafter, hraised, htold⟩ := ih
    exact ⟨hafter, hraised, congrArg ((listener, event) :: ·) htold⟩

/-- Before that everything is cleared, and the first state is applied. -/
theorem replicate_of_renewing {c c₁ : Connection} (hi : (c.isIdle || c.awaited) = true)
    (hr : c.letGo.requestReset = (.ok (), c₁)) :
    let s : Scene := ⟨c, [renewing]⟩
    s.after (.replicate 7 (.renew 0)) =
        ⟨c₁.clear.applyPending.2, [c₁.clear.applyPending.1.toList.map .raise]⟩ ∧
      (s.play (.replicate 7 (.renew 0))).filterMap (·.raised) = [] ∧
      (s.play (.replicate 7 (.renew 0))).flatMap (·.told) = [] := by
  simp [after, play, next, act, renewal, renewing, Chore.perform, hi, hr, Connection.clear,
    List.replicate]

/-- A reset that is in place, and that nothing comes between, does what a reset does in one go. -/
theorem reset_in_one_go {c : Connection} {onLoop : Bool} (hs : c.requireStopped onLoop = .ok ())
    (hi : (c.isIdle || c.awaited) = true) :
    let acts : List Act := .move (.reset onLoop) ::
      .replicate (7 + (1 + (c.shared.listeners.registered.length + 1))) (.renew 0)
    let s : Scene := { connection := c }
    (s.after acts).connection = (c.move (.reset onLoop)).connection ∧
      (s.play acts).filterMap (·.raised) = (c.move (.reset onLoop)).raised.toList ∧
      (s.play acts).flatMap (·.told) = (c.move (.reset onLoop)).told := by
  obtain ⟨raised, c', hreset⟩ := Connection.exists_reset_eq_ok hs
  obtain ⟨c₁, hr, happly⟩ := Connection.exists_of_reset hreset
  have hmove : c.move (.reset onLoop) =
      { connection := c', raised, told := c'.toTell raised } := by
    simp only [Connection.move, hs, if_pos hi, hreset]
  have hlisteners : c'.shared.listeners = c.shared.listeners := by
    rw [(Connection.reset_eq_ok hreset).2.2]
  obtain ⟨hafter, hraised, htold⟩ := replicate_of_renewing hi hr
  rw [happly] at hafter
  -- The call itself only begins the reset.
  have hcall (more : List Act) :
      ({ connection := c } : Scene).after (.move (.reset onLoop) :: more) =
          (⟨c, [renewing]⟩ : Scene).after more ∧
        ({ connection := c } : Scene).play (.move (.reset onLoop) :: more) =
          { connection := c } :: (⟨c, [renewing]⟩ : Scene).play more := by
    simp [after, play, next, act, hs]
  -- When everything is cleared, the listeners are told if there is something to tell.
  have htell : let s : Scene := ⟨c', [raised.toList.map .raise]⟩
      let acts := List.replicate (1 + (c.shared.listeners.registered.length + 1)) (Act.renew 0)
      (s.after acts).connection = c' ∧ (s.play acts).filterMap (·.raised) = raised.toList ∧
        (s.play acts).flatMap (·.told) = c'.toTell raised := by
    cases raised with
    | none =>
      obtain ⟨hafter, hraised, htold⟩ :=
        replicate_of_over c' (1 + (c.shared.listeners.registered.length + 1))
      exact ⟨congrArg connection hafter, hraised, htold⟩
    | some event =>
      obtain ⟨hafter, hraised, htold⟩ := replicate_of_notify c' event c'.shared.listeners.registered
      rw [Nat.add_comm, ← hlisteners]
      exact ⟨congrArg connection hafter, congrArg (event :: ·) hraised, htold⟩
  obtain ⟨htell₁, htell₂, htell₃⟩ := htell
  dsimp only
  rw [(hcall _).1, (hcall _).2, hmove, List.replicate_add, after_append, play_append, hafter]
  refine ⟨htell₁, ?_, ?_⟩
  · rw [List.filterMap_cons_none rfl, List.filterMap_append, hraised, List.nil_append]
    exact htell₂
  · rw [List.flatMap_cons, List.flatMap_append, htold]
    exact htell₃

end

end Scene

/-! ## What puts announcements out of order -/

/-- The state that is announced. -/
def Outcome.states (o : Outcome) : List ConnectionState := (o.raised.bind Event.state?).toList

/-- The move changes who is told of events. -/
def Move.lists : Move → Bool
  | addListener _ | removeListener _ => true
  | _ => false

/-- No other does. -/
theorem Connection.listeners_move {c : Connection} {m : Move} (hm : m.lists = false) :
    (c.move m).connection.shared.listeners = c.shared.listeners := by
  cases m with
  | register | registerNamed =>
    obtain ⟨registry, refusal, ho⟩ := c.answered_whileInitial "register a codec" _ _
    exact congrArg (·.connection.shared.listeners) ho
  | addListener | removeListener => cases hm
  | _ => exact (SameTables.of_move rfl).listeners_eq

namespace Chore

/-- With this a reset has not yet asked for the first state. -/
def isEarly : Chore → Bool
  | wait | request => true
  | _ => false

/-- The chore asks for the first state. -/
def asks : Chore → Bool
  | request => true
  | _ => false

/-- The chore tells listeners. -/
def tells : Chore → Bool
  | notify .. => true
  | _ => false

/-- The chore forgets something or drops something. -/
def clears : Chore → Bool
  | clearError | clearAddress | dropOutbound | dropInbound => true
  | _ => false

end Chore

namespace Scene

/-- What may put announcements out of order. -/
inductive Upset
  /-- A reset goes on although the loop has not ended. -/
  | overtaking
  /-- The connection is started before a reset is over. -/
  | restarting
  /-- Who listens is changed before a reset has settled who is to be told. -/
  | relisting
  /-- A listener fails in the loop when an end is pending. -/
  | failingAtEnd
  /-- A listener fails that a reset tells of the first state. -/
  | failingAnew
  deriving DecidableEq, Repr

/-- A reset is in progress: the first state has been asked for. -/
def isRenewing (s : Scene) : Bool :=
  s.renewals.any fun chores => chores.head?.any fun chore => !chore.isEarly

/-- A reset is in progress, and who is to be told is not settled. -/
def isGathering (s : Scene) : Bool :=
  s.renewals.any fun chores => chores.head?.any fun chore => !chore.isEarly && !chore.tells

/-- What an act may put out of order. -/
def upset? (s : Scene) : Act → Option Upset
  | .move m =>
    if s.isRenewing && s.connection.desired = .initial &&
        (s.connection.move m).connection.desired ≠ .initial then some .restarting
    else if s.isGathering && m.lists then some .relisting
    else if s.connection.failsAtEnd m then some .failingAtEnd
    else none
  | .renew i =>
    if (s.renewal i).head?.any Chore.asks && s.connection.desired.isTerminal &&
        !s.connection.isIdle then some .overtaking
    else none
  | .fail i => if (s.renewal i).head?.any Chore.tells then some .failingAnew else none
  | .stray .. => none

/-- How far a reset is in progress. -/
inductive Stage
  /-- None is. -/
  | resting
  /-- None is, and none will be: the loop has ended before its session. -/
  | stranded
  /-- What has been is forgotten, and the first state is applied. -/
  | clearing
  /-- The first state is to be raised. -/
  | raising
  /-- These listeners are to be told of it. -/
  | telling (rest : List Listener)

/-- A reset that has not asked for the first state yet, or is over. -/
def IsQuiet (chores : List Chore) : Prop :=
  chores = [] ∨ chores = renewing ∨ chores = renewing.tail

namespace Stage

/-- The connection at this stage. -/
def Suits (c : Connection) : Stage → Prop
  | resting => c.InStep
  | stranded => c.Stranded
  | clearing => c.tasks = [] ∧ c.desired = .initial ∧ c.state.isTerminal = true
  | raising | telling _ => c.tasks = [] ∧ c.shared.lifecycle = .new

/-- What a reset that is at this stage has still to do. -/
def Leaves (chores : List Chore) : Stage → Prop
  | resting | stranded => IsQuiet chores
  | clearing => ∃ rest, (∀ chore ∈ rest, chore.clears = true) ∧ chores = rest ++ [.apply]
  | raising => chores = [.raise (.state .initial)]
  | telling rest => chores = [.notify (.state .initial) rest]

/-- This state has been announced last. -/
def Shows (c : Connection) (last : ConnectionState) : Stage → Prop
  | resting | clearing => last = c.state
  | stranded => True
  | raising => last.isTerminal = true
  | telling _ => last = .initial

/-- A listener has heard of this state last. -/
def Hears (id : Nat) (c : Connection) (last : ConnectionState) : Stage → Prop
  | resting | clearing => c.Hears id last
  | stranded => True
  | raising =>
    if c.registrations id = 0 then last = .initial else last.isTerminal = true
  | telling rest =>
    if rest.countP (·.id = id) = 0 then last = .initial
    else last.isTerminal = true ∧ rest.countP (·.id = id) = 1

end Stage

/-- A scene at a stage: one reset at most is in progress, and there is no other loop. -/
structure InStage (stage : Stage) (s : Scene) : Prop where
  strays_eq : s.connection.strays = []
  suits : stage.Suits s.connection
  renewals : ∃ i, stage.Leaves (s.renewal i) ∧ ∀ j, j ≠ i → IsQuiet (s.renewal j)

/-- After the state that was seen last, at most one is seen, which may follow it. -/
def Leads (before : ConnectionState → Prop) (seen : List ConnectionState)
    (after : ConnectionState → Prop) : Prop :=
  ∀ last, before last →
    seen = [] ∧ after last ∨ ∃ next, seen = [next] ∧ Precedes last next ∧ after next

/-- An act leads on from a stage to the next, and so does what is announced and heard. -/
def Continues (stage : Stage) (s : Scene) (a : Act) : Prop :=
  ∃ stage', InStage stage' (s.next a) ∧
    Leads (stage.Shows s.connection ·) (s.act a).1.states (stage'.Shows (s.next a).connection ·) ∧
    ∀ id, (s.next a).connection.registrations id ≤ 1 →
      Leads (stage.Hears id s.connection ·) ((s.act a).1.heard id)
        (stage'.Hears id (s.next a).connection ·)

section
variable {s : Scene} {a : Act} {stage : Stage} {c c' : Connection} {m : Move} {i j : Nat}
  {chore : Chore} {rest left chores : List Chore} {last : ConnectionState} {id : Nat}

/-! ### Resets in progress -/

theorem renewal_set (hi : s.renewal i = chore :: rest) (j : Nat) :
    (⟨c, s.renewals.set i left⟩ : Scene).renewal j = if j = i then left else s.renewal j := by
  simp only [renewal, List.getD_eq_getElem?_getD, List.getElem?_set] at hi ⊢
  grind

theorem renewal_append (j : Nat) :
    (⟨c, s.renewals ++ [renewing]⟩ : Scene).renewal j =
      if j = s.renewals.length then renewing else s.renewal j := by
  simp only [renewal, List.getD_eq_getElem?_getD, List.getElem?_append]
  grind

theorem renewal_mem (hi : s.renewal i = chore :: rest) : chore :: rest ∈ s.renewals := by
  unfold renewal at hi
  grind

/-- A stage at which a reset is in progress. -/
def Stage.isActive : Stage → Bool
  | resting | stranded => false
  | _ => true

/-- A reset that is in progress has asked for the first state, and comes to telling last. -/
theorem Stage.Leaves.exists_head (h : stage.Leaves chores) (ha : stage.isActive = true) :
    ∃ chore rest, chores = chore :: rest ∧ chore.isEarly = false ∧
      (chore.tells = true ↔ ∃ rest, stage = .telling rest) := by
  cases stage with
  | resting | stranded => cases ha
  | clearing =>
    obtain ⟨more, hm, rfl⟩ := h
    cases more with
    | nil => exact ⟨_, _, rfl, rfl, by simp [Chore.tells]⟩
    | cons first more =>
      have hc := hm _ (.head _)
      refine ⟨_, _, rfl, ?_, ?_⟩ <;>
        cases first <;> simp_all [Chore.isEarly, Chore.clears, Chore.tells]
  | raising => exact ⟨_, _, h, rfl, by simp [Chore.tells]⟩
  | telling rest => exact ⟨_, _, h, rfl, by simp [Chore.tells]⟩

/-- A quiet reset is not in progress. -/
theorem IsQuiet.isEarly (h : IsQuiet (chore :: rest)) :
    chore.isEarly = true := by
  rcases h with h | h | h <;> cases h <;> rfl

/-- Without a loop, and with the first state pending, no more can be asked for. -/
theorem Stage.Suits.of_isActive (h : stage.Suits c) (ha : stage.isActive = true) :
    c.tasks = [] ∧ c.desired = .initial := by
  cases stage with
  | resting | stranded => cases ha
  | clearing => exact ⟨h.1, h.2.1⟩
  | raising | telling => exact ⟨h.1, congrArg Lifecycle.desired h.2⟩

namespace InStage

/-- The scene shows that a reset is in progress, and whether the listeners are told already. -/
theorem isRenewing (h : InStage stage s) (ha : stage.isActive = true) :
    s.isRenewing = true ∧ ((∀ rest, stage ≠ .telling rest) → s.isGathering = true) := by
  obtain ⟨i, hi, -⟩ := h.renewals
  obtain ⟨chore, rest, heq, hearly, htells⟩ := hi.exists_head ha
  have hmem : chore :: rest ∈ s.renewals := renewal_mem heq
  refine ⟨List.any_eq_true.2 ⟨_, hmem, by simp [hearly]⟩, fun hn => ?_⟩
  have hquiet : chore.tells = false := Bool.eq_false_iff.2 fun ht => by
    obtain ⟨rest, hrest⟩ := htells.1 ht
    exact hn rest hrest
  exact List.any_eq_true.2 ⟨_, hmem, by simp [hearly, hquiet]⟩

/-- A reset goes on to be quiet without any other being in progress. -/
theorem set (h : InStage stage s) (hstrays : c.strays = []) (hs : stage.Suits c)
    (hi : s.renewal i = chore :: rest) (hq : IsQuiet (chore :: rest)) (hleft : IsQuiet left) :
    InStage stage ⟨c, s.renewals.set i left⟩ := by
  obtain ⟨k, hk, hother⟩ := h.renewals
  refine ⟨hstrays, hs, k, ?_, fun j hj => ?_⟩
  · rw [renewal_set hi]
    split
    · rename_i heq
      subst heq
      cases ha : stage.isActive with
      | true =>
        obtain ⟨chore, rest, heq, hearly, -⟩ := hk.exists_head ha
        cases hi.symm.trans heq
        cases hearly.symm.trans hq.isEarly
      | false => cases stage <;> first | exact hleft | cases ha
    · exact hk
  · rw [renewal_set hi]
    split
    · exact hleft
    · exact hother j hj

/-- The one that goes on may lead to another stage. -/
theorem of_set (hstrays : c.strays = []) (hs : stage.Suits c)
    (hi : s.renewal i = chore :: rest) (hother : ∀ j, j ≠ i → IsQuiet (s.renewal j))
    (hleft : stage.Leaves left) : InStage stage ⟨c, s.renewals.set i left⟩ := by
  refine ⟨hstrays, hs, i, ?_, fun j hj => ?_⟩ <;> rw [renewal_set hi]
  · rw [if_pos rfl]
    exact hleft
  · rw [if_neg hj]
    exact hother j hj

/-- Another reset may begin. -/
theorem append (h : InStage stage s) :
    InStage stage ⟨s.connection, s.renewals ++ [renewing]⟩ := by
  obtain ⟨k, hk, hother⟩ := h.renewals
  refine ⟨h.strays_eq, h.suits, k, ?_, fun j hj => ?_⟩ <;> rw [renewal_append]
  · split
    · -- The one in progress is none that has just begun.
      rename_i heq
      subst heq
      have hnil : s.renewal s.renewals.length = [] := by
        simp [renewal]
      cases ha : stage.isActive with
      | true =>
        obtain ⟨chore, rest, heq, -⟩ := hk.exists_head ha
        cases hnil.symm.trans heq
      | false => cases stage <;> first | exact .inr (.inl rfl) | cases ha
    · exact hk
  · split
    · exact .inr (.inl rfl)
    · exact hother j hj

end InStage

/-! ### Acts -/

/-- At which stage a connection is depends on its lifecycle and on what its loop has to do. -/
theorem Stage.Suits.congr (h : stage.Suits c) (hl : c'.shared.lifecycle = c.shared.lifecycle)
    (ht : c'.tasks = c.tasks) : stage.Suits c' := by
  have hdesired : c'.desired = c.desired := congrArg Lifecycle.desired hl
  have hstate : c'.state = c.state := congrArg Lifecycle.current hl
  cases stage with
  | resting =>
    refine ⟨hl ▸ h.due, ?_, ?_⟩
    · rw [hdesired, hl, ht]
      exact h.course
    · rw [hdesired, hstate, ht]
      exact h.begun
  | stranded => exact ⟨ht.trans h.tasks_eq, hdesired ▸ h.begun, hdesired ▸ h.isTerminal_eq⟩
  | clearing => exact ⟨ht.trans h.1, hdesired.trans h.2.1, hstate ▸ h.2.2⟩
  | raising | telling => exact ⟨ht.trans h.1, hl ▸ h.2⟩

/-- So does the state that has been announced last. -/
theorem Stage.Shows.congr (h : stage.Shows c last) (hs : c'.state = c.state) :
    stage.Shows c' last := by
  cases stage with
  | resting | clearing => exact Eq.trans h hs.symm
  | _ => exact h

/-- The one that a listener has heard of last depends on who is registered as well. -/
theorem Stage.Hears.congr (h : stage.Hears id c last) (hs : c'.state = c.state)
    (ht : c'.tasks = c.tasks)
    (hr : (∀ rest, stage ≠ .telling rest) → c'.registrations id = c.registrations id) :
    stage.Hears id c' last := by
  cases stage with
  | resting | clearing => exact Connection.Hears.of_eq h (hr nofun) (by rw [ht]) hs
  | raising =>
    unfold Hears at h ⊢
    rwa [hr nofun]
  | _ => exact h

namespace Continues

variable {stage' : Stage} {o : Outcome} {renewals : List (List Chore)}

/-- An act leads on as its outcome does. -/
theorem of_act (hact : s.act a = (o, renewals)) (h : InStage stage' ⟨o.connection, renewals⟩)
    (hannounced : Leads (stage.Shows s.connection ·) o.states (stage'.Shows o.connection ·))
    (hheard : ∀ id, o.connection.registrations id ≤ 1 →
      Leads (stage.Hears id s.connection ·) (o.heard id) (stage'.Hears id o.connection ·)) :
    Continues stage s a := by
  have hnext : s.next a = ⟨o.connection, renewals⟩ := by rw [next, hact]
  unfold Continues
  rw [hact, hnext]
  exact ⟨stage', h, hannounced, hheard⟩

/-- An act in which nothing is announced or heard. -/
theorem of_silent (hact : s.act a = (o, renewals)) (h : InStage stage' ⟨o.connection, renewals⟩)
    (hraised : o.raised = none) (htold : o.told = [])
    (hshows : ∀ last, stage.Shows s.connection last → stage'.Shows o.connection last)
    (hhears : ∀ id last, stage.Hears id s.connection last → stage'.Hears id o.connection last) :
    Continues stage s a := by
  refine of_act hact h (fun last hlast => .inl ⟨?_, hshows last hlast⟩)
    fun id _ last hlast => .inl ⟨?_, hhears id last hlast⟩
  · rw [Outcome.states, hraised]
    rfl
  · rw [Outcome.heard, htold]
    rfl

/-- An act in which nothing changes either that counts for that. -/
theorem of_quiet (hact : s.act a = (o, renewals)) (h : InStage stage ⟨o.connection, renewals⟩)
    (hraised : o.raised = none) (htold : o.told = [])
    (hs : o.connection.state = s.connection.state)
    (ht : o.connection.tasks = s.connection.tasks)
    (hr : (∀ rest, stage ≠ .telling rest) → ∀ id,
      o.connection.registrations id = s.connection.registrations id) : Continues stage s a :=
  of_silent hact h hraised htold (fun _ hlast => hlast.congr hs)
    fun id _ hlast => hlast.congr hs ht fun hn => hr hn id

/-- An act in which nothing happens. -/
theorem of_stay (hact : s.act a = s.stay) (h : InStage stage s) : Continues stage s a :=
  of_quiet hact h rfl rfl rfl rfl fun _ _ => rfl

end Continues

namespace InStage

/-- A listener does not fail in a reset. -/
theorem fail (h : InStage stage s) (hu : s.upset? (.fail i) = none) :
    Continues stage s (.fail i) := by
  refine .of_stay ?_ h
  rw [act]
  split
  · rename_i heq
    rw [upset?, heq] at hu
    cases hu
  · rfl

/-- There is no other loop. -/
theorem stray {calls : SocketCalls} (h : InStage stage s) : Continues stage s (.stray i calls) := by
  refine .of_stay ?_ h
  rw [act, h.strays_eq]
  rfl

/-- A reset begins, or is refused. -/
theorem reset {onLoop : Bool} (h : InStage stage s) :
    Continues stage s (.move (.reset onLoop)) := by
  cases hs : s.connection.requireStopped onLoop with
  | ok =>
    have hact : s.act (.move (.reset onLoop)) =
        ({ connection := s.connection }, s.renewals ++ [renewing]) := by
      rw [act, hs]
    exact .of_quiet hact h.append rfl rfl rfl rfl fun _ _ => rfl
  | error e =>
    have hact : s.act (.move (.reset onLoop)) =
        ({ connection := s.connection, refusal := some e }, s.renewals) := by
      rw [act, hs]
    exact .of_quiet hact h rfl rfl rfl rfl fun _ _ => rfl

/-- Any other call is one of the connection. -/
theorem act_move (s : Scene) (hr : m.resets = false) :
    s.act (.move m) = (s.connection.move m, s.renewals) := by
  cases m with
  | reset => cases hr
  | _ => rfl

/-- What is not upset by a call. -/
theorem upset_move (hu : s.upset? (.move m) = none) :
    (s.isRenewing = true → s.connection.desired = .initial →
        (s.connection.move m).connection.desired = .initial) ∧
      (s.isGathering = true → m.lists = false) ∧ s.connection.failsAtEnd m = false := by
  simp only [upset?] at hu
  grind

/-- While a reset is in progress nothing else is announced, and nobody is started. -/
theorem move_of_isActive (h : InStage stage s) (ha : stage.isActive = true) (hr : m.resets = false)
    (hu : s.upset? (.move m) = none) : Continues stage s (.move m) := by
  obtain ⟨ht, hd⟩ := h.suits.of_isActive ha
  obtain ⟨hrenewing, hgathering⟩ := h.isRenewing ha
  obtain ⟨hrestart, hrelist, -⟩ := upset_move hu
  have hs : ¬ s.connection.Starts (s.connection.move m).connection := by
    intro hs
    have hd' := hrestart hrenewing hd
    rcases Connection.desired_of_starts hs with h | h <;> cases hd'.symm.trans h
  obtain ⟨ht', hstrays, hl, hraised, htold⟩ := Connection.move_of_no_tasks ht hr hs
  have hlifecycle : (s.connection.move m).connection.shared.lifecycle =
      s.connection.shared.lifecycle := by
    rcases hl with hl | hl
    · exact hl
    · rw [hl, Lifecycle.tryRequest_eq, if_neg]
      rw [show s.connection.shared.lifecycle.desired = .initial from hd]
      decide
  have htasks := ht'.trans ht.symm
  refine .of_quiet (act_move s hr) ?_ hraised htold (congrArg Lifecycle.current hlifecycle) htasks
    fun hn id => ?_
  · exact ⟨hstrays.trans h.strays_eq, h.suits.congr hlifecycle htasks, h.renewals⟩
  · rw [Connection.registrations, Connection.listeners_move (hrelist (hgathering hn))]
    rfl

/-- Nor after the loop has ended before its session. -/
theorem move_of_stranded (h : InStage .stranded s) (hr : m.resets = false) :
    Continues .stranded s (.move m) := by
  obtain ⟨hstranded, hstrays, hraised, htold⟩ := Connection.Stranded.move h.suits hr
  have hstage : InStage .stranded ⟨(s.connection.move m).connection, s.renewals⟩ :=
    ⟨hstrays.trans h.strays_eq, hstranded, h.renewals⟩
  exact .of_silent (act_move s hr) hstage hraised htold (fun _ _ => trivial) fun _ _ _ => trivial

/-- A loop is only started when the one before has ended. -/
theorem strays_of_resting (h : InStage .resting s) :
    (s.connection.move m).connection.strays = [] := by
  rcases s.connection.strays_move m with heq | hs
  · exact heq.trans h.strays_eq
  · have hin : s.connection.InStep := h.suits
    have hd := Connection.desired_eq_of_starts hs
    have ht := (hin.new_of_initial hd).2
    rw [Connection.strays_of_starts hs, h.strays_eq, List.nil_append, List.filter_eq_nil_iff]
    intro l hl
    rw [Connection.tasks_of_some (Option.mem_toList.1 hl)] at ht
    simp [Loop.hasEnded, ht]

/-- While none is in progress, states are announced and heard one after another. -/
theorem move_of_resting (h : InStage .resting s) (hr : m.resets = false)
    (hu : s.upset? (.move m) = none) : Continues .resting s (.move m) := by
  obtain ⟨-, -, hfails⟩ := upset_move hu
  have hin : s.connection.InStep := h.suits
  have hstrays : (s.connection.move m).connection.strays = [] := h.strays_of_resting
  cases hh : s.connection.halts m with
  | true =>
    obtain ⟨hmove, -⟩ := Connection.move_of_halts hh
    have hraised : (s.connection.move m).raised = none := by rw [hmove]
    have htold : (s.connection.move m).told = [] := by rw [hmove]
    rcases hin.halt hh hfails with ⟨hin', ht⟩ | hstranded
    · refine .of_quiet (act_move s hr) ⟨hstrays, hin', h.renewals⟩ hraised htold ?_
        ((Connection.tasks_of_halts hh).trans ht.symm) fun _ id => ?_ <;> rw [hmove] <;> rfl
    · have hstage : InStage .stranded ⟨(s.connection.move m).connection, s.renewals⟩ :=
        ⟨hstrays, hstranded, h.renewals⟩
      exact .of_silent (act_move s hr) hstage hraised htold (fun _ _ => trivial)
        fun _ _ _ => trivial
  | false =>
    have hstage : InStage .resting ⟨(s.connection.move m).connection, s.renewals⟩ :=
      ⟨hstrays, hin.move hh hr, h.renewals⟩
    refine .of_act (act_move s hr) hstage (fun last hlast => ?_)
      fun id hone last hlast => Connection.Hears.move hlast hin hh hr hone
    have hannounce := hin.announce hh hr
    obtain rfl : last = s.connection.state := hlast
    rw [Outcome.states]
    generalize (s.connection.move m).raised.bind Event.state? = raised at hannounce
    cases raised with
    | none => exact .inl ⟨rfl, hannounce.symm⟩
    | some state => exact .inr ⟨state, rfl, hannounce.1, hannounce.2.symm⟩

/-- A call leads on at every stage. -/
theorem move (h : InStage stage s) (hu : s.upset? (.move m) = none) :
    Continues stage s (.move m) := by
  cases hr : m.resets with
  | true =>
    cases m with
    | reset onLoop => exact h.reset
    | _ => cases hr
  | false =>
    cases stage with
    | resting => exact h.move_of_resting hr hu
    | stranded => exact h.move_of_stranded hr
    | _ => exact h.move_of_isActive rfl hr hu

/-- What comes of a reset that goes on. -/
theorem act_renew {o : Outcome} (hi : s.renewal i = chore :: rest)
    (hp : chore.perform s.connection rest = (o, left)) :
    s.act (.renew i) = (o, s.renewals.set i left) := by
  simp only [act, hi, hp]

/-- Whoever begins to wait for the loop, or lets go of it, leaves the rest as it is. -/
theorem wait_same (c : Connection) :
    let c' := if c.isIdle || c.awaited then c.letGo else c.await
    c'.shared = c.shared ∧ c'.tasks = c.tasks ∧ c'.strays = c.strays := by
  dsimp only
  split
  · rename_i hi
    refine ⟨c.letGo_shared, ?_, c.letGo_strays⟩
    rw [Connection.tasks, c.letGo_loop]
    split
    · rfl
    · have hidle : c.isIdle = true := by simpa [‹¬c.awaited = true›] using hi
      exact (Connection.isIdle_iff.1 hidle).symm
  · exact ⟨rfl, rfl, rfl⟩

/-- A reset that is quiet begins to wait. -/
theorem wait (h : InStage stage s) (hi : s.renewal i = renewing) :
    Continues stage s (.renew i) := by
  obtain ⟨hshared, htasks, hstrays⟩ := wait_same s.connection
  have hsuits := h.suits.congr (congrArg Shared.lifecycle hshared) htasks
  have hstage := h.set (hstrays.trans h.strays_eq) hsuits hi (.inr (.inl rfl)) (.inr (.inr rfl))
  exact .of_quiet (act_renew hi rfl) hstage rfl rfl (congrArg (·.lifecycle.current) hshared) htasks
    fun _ id => congrArg (·.listeners.registered.countP (·.id = id)) hshared

/-- When none is in progress all are quiet. -/
theorem isQuiet_of_resting (h : InStage .resting s) (j : Nat) : IsQuiet (s.renewal j) := by
  obtain ⟨k, hk, hother⟩ := h.renewals
  by_cases hj : j = k
  · exact hj ▸ hk
  · exact hother j hj

/-- The first state is permitted only after an end that has been announced: nobody overtakes the
loop. -/
theorem ended_of_request (h : InStage stage s) (hi : s.renewal i = renewing.tail)
    (hu : s.upset? (.renew i) = none) (hp : s.connection.desired.permits .initial = true) :
    stage = .resting ∧ s.connection.tasks = [] ∧ s.connection.state.isTerminal = true := by
  have hterminal : s.connection.desired.isTerminal = true := by
    revert hp
    generalize s.connection.desired = desired
    cases desired <;> simp [ConnectionState.permits, ConnectionState.isTerminal]
  have hidle : s.connection.isIdle = true := by
    rw [upset?, hi, hterminal] at hu
    simpa [renewing, Chore.asks] using hu
  have ht := Connection.isIdle_iff.1 hidle
  have hsuits := h.suits
  cases stage with
  | resting =>
    refine ⟨rfl, ht, (Connection.InStep.of_isIdle hsuits ht).resolve_left fun hnew => ?_⟩
    rw [Connection.desired, hnew] at hp
    cases hp
  | stranded => cases hsuits.isTerminal_eq.symm.trans hterminal
  | clearing | raising | telling =>
    rw [(hsuits.of_isActive rfl).2] at hp
    cases hp

/-- Then it asks for the first state. That is refused unless the connection has come to an end. -/
theorem request (h : InStage stage s) (hi : s.renewal i = renewing.tail)
    (hu : s.upset? (.renew i) = none) : Continues stage s (.renew i) := by
  rcases s.connection.requestReset_cases with ⟨c', hr⟩ | ⟨e, hr⟩
  case inr =>
    have hact : s.act (.renew i) =
        ({ connection := s.connection, refusal := some e }, s.renewals.set i []) :=
      act_renew hi (by rw [Chore.perform, hr])
    exact .of_quiet hact (h.set h.strays_eq h.suits hi (.inr (.inr rfl)) (.inl rfl)) rfl rfl rfl rfl
      fun _ _ => rfl
  case inl =>
    have hact : s.act (.renew i) =
        ({ connection := c' }, s.renewals.set i renewing.tail.tail) :=
      act_renew hi (by rw [Chore.perform, hr]; rfl)
    obtain ⟨hp, hc⟩ := Connection.requestReset_eq_ok hr
    obtain ⟨rfl, ht, hterminal⟩ := h.ended_of_request hi hu hp
    have hleft : Stage.clearing.Leaves renewing.tail.tail :=
      ⟨[.clearError, .clearAddress, .dropOutbound, .dropInbound], by simp [Chore.clears], rfl⟩
    subst hc
    refine .of_silent hact (of_set h.strays_eq ?_ hi (fun j _ => h.isQuiet_of_resting j) hleft)
      rfl rfl (fun _ hlast => hlast) fun _ _ hlast => Connection.Hears.of_eq hlast rfl rfl rfl
    exact ⟨ht, rfl, hterminal⟩

/-- A chore that clears something leaves the lifecycle, the loop and the listeners. -/
theorem perform_of_clears (c : Connection) (rest : List Chore) (hc : chore.clears = true) :
    ∃ c', chore.perform c rest = ({ connection := c' }, rest) ∧ c'.strays = c.strays ∧
      c'.tasks = c.tasks ∧ c'.shared.lifecycle = c.shared.lifecycle ∧
      c'.shared.listeners = c.shared.listeners := by
  cases chore with
  | clearError | clearAddress | dropOutbound | dropInbound => exact ⟨_, rfl, rfl, rfl, rfl, rfl⟩
  | _ => cases hc

/-- What has been is forgotten, one thing after another. -/
theorem clear (h : InStage .clearing s)
    (hi : s.renewal i = chore :: rest) (hc : chore.clears = true)
    (hrest : Stage.Leaves rest .clearing) (hother : ∀ j, j ≠ i → IsQuiet (s.renewal j)) :
    Continues .clearing s (.renew i) := by
  obtain ⟨c', hperform, hstrays, htasks, hlifecycle, hlisteners⟩ :=
    perform_of_clears s.connection rest hc
  have hstage : InStage .clearing ⟨c', s.renewals.set i rest⟩ :=
    of_set (hstrays.trans h.strays_eq) (h.suits.congr hlifecycle htasks) hi hother hrest
  exact .of_quiet (act_renew hi hperform) hstage rfl rfl (congrArg Lifecycle.current hlifecycle)
    htasks fun _ id => congrArg (·.registered.countP (·.id = id)) hlisteners

/-- Then the first state is applied, which is to be announced. -/
theorem apply (h : InStage .clearing s) (hi : s.renewal i = [.apply])
    (hother : ∀ j, j ≠ i → IsQuiet (s.renewal j)) : Continues .clearing s (.renew i) := by
  obtain ⟨ht, hd, hterminal⟩ := h.suits
  have happly : s.connection.shared.lifecycle.apply = (some .initial, .new) := by
    have hd' : s.connection.shared.lifecycle.desired = .initial := hd
    have hs : s.connection.shared.lifecycle.current.isTerminal = true := hterminal
    rw [Prod.ext_iff, Lifecycle.apply_fst, Lifecycle.apply_snd, hd', if_neg]
    · exact ⟨rfl, rfl⟩
    · intro heq
      rw [heq] at hs
      cases hs
  have hperform : Chore.perform s.connection [] .apply =
      ({ connection := { s.connection with
          shared := { s.connection.shared with lifecycle := .new } } },
        [.raise (.state .initial)]) := by
    simp only [Chore.perform, Connection.applyPending, happly]
    rfl
  have hstage : InStage .raising ⟨{ s.connection with
      shared := { s.connection.shared with lifecycle := .new } },
      s.renewals.set i [.raise (.state .initial)]⟩ :=
    of_set h.strays_eq ⟨ht, rfl⟩ hi hother rfl
  refine .of_silent (act_renew hi hperform) hstage rfl rfl (fun last hlast => ?_)
    fun id last hlast => ?_
  · obtain rfl : last = s.connection.state := hlast
    exact hterminal
  · have hlast' := Connection.Hears.settled hlast (by rw [ht]; rfl)
    change if s.connection.registrations id = 0 then last = .initial else last.isTerminal = true
    split at hlast'
    · rwa [if_pos ‹_›]
    · rw [if_neg ‹_›, hlast']
      exact hterminal

/-- The first state is raised, and those who are registered then are to be told of it. -/
theorem raise (h : InStage .raising s) (hi : s.renewal i = [.raise (.state .initial)])
    (hother : ∀ j, j ≠ i → IsQuiet (s.renewal j)) : Continues .raising s (.renew i) := by
  let listeners := s.connection.shared.listeners.registered
  have hstage : InStage (.telling listeners)
      ⟨s.connection, s.renewals.set i [.notify (.state .initial) listeners]⟩ :=
    of_set h.strays_eq h.suits hi hother rfl
  refine .of_act (act_renew hi rfl) hstage (fun last hlast => .inr ?_)
    fun id hone last hlast => .inl ⟨rfl, ?_⟩
  · exact ⟨.initial, rfl, .inl (ConnectionState.permits_initial_of_isTerminal hlast), rfl⟩
  · have hle : s.connection.registrations id ≤ 1 := hone
    have hlast : if s.connection.registrations id = 0 then last = .initial
      else last.isTerminal = true := hlast
    change if s.connection.registrations id = 0 then last = .initial
      else last.isTerminal = true ∧ s.connection.registrations id = 1
    split at hlast
    · rwa [if_pos ‹_›]
    · rw [if_neg ‹_›]
      exact ⟨hlast, by omega⟩

/-- Each of them is told of it once. -/
theorem tell {listener : Listener} {listeners : List Listener}
    (h : InStage (.telling (listener :: listeners)) s)
    (hi : s.renewal i = [.notify (.state .initial) (listener :: listeners)])
    (hother : ∀ j, j ≠ i → IsQuiet (s.renewal j)) :
    Continues (.telling (listener :: listeners)) s (.renew i) := by
  have hstage : InStage (.telling listeners)
      ⟨s.connection, s.renewals.set i [.notify (.state .initial) listeners]⟩ :=
    of_set h.strays_eq h.suits hi hother rfl
  refine .of_act (act_renew hi rfl) hstage (fun last hlast => .inl ⟨rfl, hlast⟩)
    fun id _ last hlast => ?_
  have hlast : if (listener :: listeners).countP (·.id = id) = 0 then last = .initial
    else last.isTerminal = true ∧ (listener :: listeners).countP (·.id = id) = 1 := hlast
  change _ ∨ ∃ next : ConnectionState, _ ∧ _ ∧
    if listeners.countP (·.id = id) = 0 then next = .initial
    else next.isTerminal = true ∧ listeners.countP (·.id = id) = 1
  by_cases hid : listener.id = id
  · have hcount : (listener :: listeners).countP (·.id = id) =
        listeners.countP (·.id = id) + 1 := List.countP_cons_of_pos (by simp [hid])
    rw [hcount, if_neg (Nat.succ_ne_zero _)] at hlast
    obtain ⟨hterminal, hone⟩ := hlast
    refine .inr ⟨.initial, ?_, .inl (ConnectionState.permits_initial_of_isTerminal hterminal), ?_⟩
    · simp [Outcome.heard, hid, Event.state?]
    · rw [if_pos (by omega)]
  · have hcount : (listener :: listeners).countP (·.id = id) =
        listeners.countP (·.id = id) := List.countP_cons_of_neg (by simp [hid])
    rw [hcount] at hlast
    refine .inl ⟨?_, hlast⟩
    simp [Outcome.heard, hid]

/-- When all have been told the reset is over, and the connection is as good as new. -/
theorem finish (h : InStage (.telling []) s) (hi : s.renewal i = [.notify (.state .initial) []])
    (hother : ∀ j, j ≠ i → IsQuiet (s.renewal j)) : Continues (.telling []) s (.renew i) := by
  obtain ⟨ht, hnew⟩ := h.suits
  have hstate : s.connection.state = .initial := congrArg Lifecycle.current hnew
  have hdesired : s.connection.desired = .initial := congrArg Lifecycle.desired hnew
  have hin : s.connection.InStep := by
    refine ⟨?_, .inl ⟨hnew, ht⟩, fun _ => .inl (hdesired.trans hstate.symm)⟩
    rw [hnew]
    exact .inl rfl
  have hstage : InStage .resting ⟨s.connection, s.renewals.set i []⟩ :=
    of_set h.strays_eq hin hi hother (.inl rfl)
  refine .of_silent (act_renew hi rfl) hstage rfl rfl
    (fun last hlast => Eq.trans hlast hstate.symm) fun id last hlast => ?_
  obtain rfl : last = .initial := hlast
  have hzero : stillToHear id s.connection.tasks = 0 := by
    rw [ht]
    rfl
  exact Connection.Hears.of_initial hstate hzero

end InStage

/-! ### Runs -/

end

end Scene

namespace Scene

/-- The loop makes steps, in which nothing comes from the other side. -/
def working (n : Nat) : List Act := .replicate n (.move (shortStep []))

/-- Listeners are added and the connection is started. -/
def starting (listeners : List Nat) : List Act :=
  listeners.map (fun id => .move (.addListener ⟨id, .everything⟩)) ++
    [.move (.connect ⟨"localhost", 4000⟩ 0)]

/-- When it is connected it is closed, and the loop makes some steps more. -/
def closing (listeners : List Nat) (n : Nat) : List Act :=
  starting listeners ++ working 15 ++ [.move .requestClose] ++ working n

end Scene

end PeerMessaging
