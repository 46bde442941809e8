import PeerMessaging.Proofs.Link.Deeds
import PeerMessaging.Proofs.Link.LastError

/-!
# Refused calls

Codecs and listeners are registered, and a connection is started, before anything has been started,
and a connection is reset when it has stopped. A call that is out of place is refused with the
pending state, and a codec whose id is taken with what the registry has against it
(`Connection.objection`). A call that is refused changes nothing and raises nothing. Codecs and
listeners change by no other call, so from the start of a session to its end they stay what they
are, and the loop works with them.
-/

namespace PeerMessaging

/-- The operation that a move is known as when it is out of place. Any other move is in place at any
time. -/
def Move.operation : Move → Option String
  | register .. | registerNamed _ => some "register a codec"
  | addListener _ => some "add a listener"
  | removeListener _ => some "remove a listener"
  | connect .. => some "connect"
  | listen .. => some "listen"
  | reset _ => some "reset"
  | _ => none

/-- What the codecs that are registered have against a move. -/
def Registry.conflict (r : Registry) : Move → Option RegistryError
  | .register typeId _ => (r.find? typeId).map (.duplicateType typeId ·.typeName)
  | .registerNamed codec =>
    (r.find? (typeIdOfName codec.typeName)).map
      (.duplicateType (typeIdOfName codec.typeName) ·.typeName)
  | _ => none

namespace Connection

/-- The move is in place: only a connection that has stopped can be reset, and not by its loop, and
only one that has not been started can be prepared or started. -/
def admits (c : Connection) : Move → Bool
  | .reset onLoop => c.desired.isTerminal && !c.isLoop onLoop
  | m => m.operation.isNone || c.desired = .initial

/-- Why a move is refused, if it is. -/
def objection (c : Connection) (m : Move) : Option PeerError :=
  if c.admits m then (c.registry.conflict m).map .registry
  else m.operation.map (.invalidState · c.desired)

/-- Two connections have the same settings, codecs and listeners. -/
structure SameTables (c c' : Connection) : Prop where
  config_eq : c'.config = c.config
  registry_eq : c'.registry = c.registry
  listeners_eq : c'.shared.listeners = c.shared.listeners

section
variable {c c' c'' : Connection} {m : Move} {moves : List Move} {e : PeerError}

/-! ## Why a move is refused -/

/-- Whatever is for a connection that has not been started is refused once that has been done. -/
theorem objection_of_desired_ne {operation : String} (hm : m.operation = some operation)
    (ha : c.admits m = (m.operation.isNone || c.desired = .initial)) (hd : c.desired ≠ .initial) :
    c.objection m = some (.invalidState operation c.desired) := by
  rw [objection, ha, hm, decide_eq_false hd]
  rfl

/-- Before that it is up to the codecs. -/
theorem objection_of_desired_eq
    (ha : c.admits m = (m.operation.isNone || c.desired = .initial)) (hd : c.desired = .initial) :
    c.objection m = (c.registry.conflict m).map .registry := by
  rw [objection, ha, decide_eq_true hd, Bool.or_true, if_pos rfl]

/-- A start is refused once something has been started. -/
theorem refusal_start (c : Connection) (operation : String) {first : ConnectionState}
    (hf : first = .connecting ∨ first = .opening) (endpoint : Endpoint) (now : Moment) :
    (answered (c.start operation first endpoint now)).refusal =
      if c.desired = .initial then none else some (.invalidState operation c.desired) := by
  by_cases hd : c.desired = .initial
  · have hp : c.shared.lifecycle.desired.permits first = true := by
      rw [show c.shared.lifecycle.desired = .initial from hd]
      rcases hf with rfl | rfl <;> rfl
    rw [if_pos hd, start, Lifecycle.request, if_pos hp]
    rfl
  · rw [if_neg hd, start_of_begun (ConnectionState.one_le_stage hd) _ hf]
    rfl

/-- A reset that is in place is accepted. -/
theorem refusal_reset (c : Connection) (onLoop : Bool) :
    (c.move (.reset onLoop)).refusal =
      if c.desired.isTerminal && !c.isLoop onLoop then none
      else some (.invalidState "reset" c.desired) := by
  cases ha : c.desired.isTerminal && !c.isLoop onLoop with
  | false => simp only [move, requireStopped, ha, Bool.false_eq_true, if_false]
  | true =>
    have hs : c.requireStopped onLoop = .ok () := if_pos ha
    obtain ⟨raised, c', hr⟩ := exists_reset_eq_ok hs
    simp only [move, hs, hr, if_true]
    split <;> rfl

/-- A move is refused for what there is against it. -/
theorem refusal_move (c : Connection) (m : Move) : (c.move m).refusal = c.objection m := by
  cases m with
  | requestClose | await | join | send | takeNext | clearError | abandon => rfl
  | work calls =>
    simp only [move]
    cases c.work calls <;> rfl
  | reset onLoop =>
    rw [refusal_reset, objection, admits]
    rfl
  | connect endpoint now =>
    refine (c.refusal_start "connect" (.inl rfl) endpoint now).trans ?_
    split
    · exact (objection_of_desired_eq (m := .connect endpoint now) rfl ‹_›).symm
    · exact (objection_of_desired_ne rfl rfl ‹_›).symm
  | listen endpoint now =>
    refine (c.refusal_start "listen" (.inr rfl) endpoint now).trans ?_
    split
    · exact (objection_of_desired_eq (m := .listen endpoint now) rfl ‹_›).symm
    · exact (objection_of_desired_ne rfl rfl ‹_›).symm
  | _ =>
    by_cases hd : c.desired = .initial
    · rw [objection_of_desired_eq rfl hd]
      simp only [move, register, registerNamed, addListener, removeListener, whileInitial,
        requireInitial, if_pos hd, Registry.register, Registry.registerNamed, Registry.conflict]
      first
        | rfl
        | cases c.registry.find? _ <;> rfl
    · rw [objection_of_desired_ne rfl rfl hd]
      simp only [move, register, registerNamed, addListener, removeListener, whileInitial,
        requireInitial, if_neg hd]
      rfl

/-- What is refused because something has been started is refused before it is done, and so is what
is refused otherwise if that leaves the connection. -/
theorem answered_whileInitial_of_refusal {α : Type} {operation : String}
    {called : Except PeerError α × Connection} (hc : ∀ e, called.1 = .error e → called.2 = c)
    (h : (answered (c.whileInitial operation called)).refusal = some e) :
    answered (c.whileInitial operation called) = { connection := c, refusal := some e } := by
  rcases c.whileInitial_cases operation called with ⟨-, ho⟩ | ⟨-, ho⟩ <;> rw [ho] at h ⊢
  · obtain ⟨result, c'⟩ := called
    cases result with
    | ok => cases h
    | error e' =>
      cases h
      obtain rfl : c' = c := hc e rfl
      rfl
  · cases h
    rfl

/-- A move that is refused changes nothing and raises nothing. -/
theorem move_of_refusal (h : (c.move m).refusal = some e) :
    c.move m = { connection := c, refusal := some e } := by
  have started (hm : m.starts = true) : c.move m = { connection := c, refusal := some e } := by
    rcases c.move_start_cases hm with ⟨c', -, ho⟩ | ⟨e', ho⟩
    · rw [ho] at h
      cases h
    · rw [ho] at h ⊢
      cases h
      rfl
  cases m with
  | requestClose | await | join | send | takeNext | clearError | abandon => cases h
  | work calls =>
    simp only [move] at h
    split at h <;> cases h
  | reset onLoop =>
    rcases c.move_reset_cases onLoop with ⟨refusal, ho⟩ | ⟨raised, c', -, -, ho⟩
    · rw [ho] at h ⊢
      cases h
      rfl
    · rw [ho] at h
      cases h
  | connect | listen => exact started rfl
  | addListener | removeListener =>
    exact answered_whileInitial_of_refusal (fun e he => by cases he) h
  | register typeId codec =>
    refine answered_whileInitial_of_refusal (fun e he => ?_) h
    have hr : (c.registry.register typeId codec).2 = c.registry := by
      refine Registry.register_of_ne_ok fun hok => ?_
      dsimp only at he
      rw [hok] at he
      cases he
    exact congrArg (fun registry => { c with registry }) hr
  | registerNamed codec =>
    refine answered_whileInitial_of_refusal (fun e he => ?_) h
    have hr : (c.registry.registerNamed codec).2 = c.registry := by
      refine Registry.register_of_ne_ok fun hok => ?_
      dsimp only [Registry.registerNamed] at he
      rw [hok] at he
      cases he
    exact congrArg (fun registry => { c with registry }) hr

/-- A preparation is in place only as long as nothing has been started. -/
theorem desired_of_isPreparation (hm : m.isPreparation = true) (h : (c.move m).refusal = none) :
    c.desired = .initial := by
  by_contra hd
  rw [refusal_move] at h
  cases m with
  | register | registerNamed | addListener | removeListener =>
    rw [objection_of_desired_ne rfl rfl hd] at h
    cases h
  | _ => cases hm

/-! ## Codecs and listeners -/

namespace SameTables

theorem refl (c : Connection) : c.SameTables c := ⟨rfl, rfl, rfl⟩

theorem trans (h : c.SameTables c') (h' : c'.SameTables c'') : c.SameTables c'' :=
  ⟨h'.config_eq.trans h.config_eq, h'.registry_eq.trans h.registry_eq,
    h'.listeners_eq.trans h.listeners_eq⟩

/-- A connection is started with the codecs and listeners that it has. -/
theorem of_starts (h : c.Starts c') : c.SameTables c' := by
  obtain ⟨first, endpoint, now, -, -, rfl⟩ := exists_started h
  exact ⟨rfl, rfl, rfl⟩

/-- So it is reset. -/
theorem of_reset {onLoop : Bool} {raised : Option Event}
    (h : c.reset onLoop = (.ok raised, c')) : c.SameTables c' := by
  obtain ⟨-, -, rfl⟩ := reset_eq_ok h
  exact ⟨c.letGo_config, c.letGo_registry, rfl⟩

/-- No move but a preparation changes them. -/
theorem of_move (hm : m.isPreparation = false) : c.SameTables (c.move m).connection := by
  have started (hm : m.starts = true) : c.SameTables (c.move m).connection := by
    rcases c.move_start_cases hm with ⟨c', hc, ho⟩ | ⟨e, ho⟩ <;> rw [ho]
    · exact of_starts hc
    · exact refl c
  cases m with
  | register | registerNamed | addListener | removeListener => cases hm
  | connect | listen => exact started rfl
  | requestClose | await | takeNext | clearError | abandon => exact ⟨rfl, rfl, rfl⟩
  | join =>
    simp only [move]
    split
    · exact ⟨rfl, rfl, rfl⟩
    · exact refl c
  | reset onLoop =>
    rcases c.move_reset_cases onLoop with ⟨refusal, ho⟩ | ⟨raised, c', -, hr, ho⟩ <;> rw [ho]
    · exact refl c
    · exact of_reset hr
  | send m =>
    simp only [move, send]
    split
    · exact refl c
    · exact ⟨rfl, rfl, rfl⟩
  | work calls =>
    cases hl : c.loop with
    | none =>
      simp only [move, work, hl, Option.map_none]
      exact refl c
    | some l =>
      cases hh : c.halts (.work calls) with
      | true =>
        rw [(move_of_halts hh).1]
        exact ⟨rfl, rfl, rfl⟩
      | false =>
        rw [move_work calls hl hh]
        exact ⟨rfl, rfl, (l.step_turn calls c.shared).listeners_eq⟩

/-- Nor does that once something has been started. -/
theorem of_desired_ne (hd : c.desired ≠ .initial) : c.SameTables (c.move m).connection := by
  cases hm : m.isPreparation with
  | false => exact of_move hm
  | true =>
    cases hr : (c.move m).refusal with
    | none => exact absurd (desired_of_isPreparation hm hr) hd
    | some e =>
      rw [move_of_refusal hr]
      exact refl c

/-- So they stay what they are as long as the connection is not reset. -/
theorem of_lasting (hd : c.desired ≠ .initial) (hs : c.lasting moves = some c') :
    c.SameTables c' := by
  induction moves generalizing c with
  | nil =>
    cases hs
    exact refl _
  | cons m moves ih =>
    obtain ⟨hd', hs⟩ := lasting_cons hs
    exact (of_desired_ne hd).trans (ih hd' hs)

end SameTables

end

end Connection

/-- A move is refused just for what there is against it: that it is out of place, which names the
pending state, or that the id of a codec is taken. If it is refused it changes nothing and raises
nothing. Codecs and listeners are changed only by calls for that, which are accepted only before
anything has been started. So from the start of a session on they stay what they are until the
connection is reset, and the codecs are those that the loop works with. -/
theorem refused_calls_change_nothing (c : Connection) (m : Move) :
    (c.move m).refusal = c.objection m ∧
      (∀ e, (c.move m).refusal = some e → c.move m = { connection := c, refusal := some e }) ∧
      (m.isPreparation = true → (c.move m).refusal = none → c.desired = .initial) ∧
      (m.isPreparation = false → c.SameTables (c.move m).connection) ∧
      ∀ c₁, c.Starts c₁ → ∀ moves c₂, c₁.lasting moves = some c₂ →
        c.SameTables c₂ ∧ ∀ l, c₂.loop = some l → l.registry = c₂.registry := by
  refine ⟨c.refusal_move m, fun e => Connection.move_of_refusal,
    Connection.desired_of_isPreparation, Connection.SameTables.of_move, ?_⟩
  intro c₁ hc moves c₂ hs
  have hd : c₁.desired ≠ .initial := by
    rcases Connection.desired_of_starts hc with hd | hd <;> rw [hd] <;> nofun
  have htables := Connection.SameTables.of_lasting hd hs
  refine ⟨(Connection.SameTables.of_starts hc).trans htables, fun l hl => ?_⟩
  have hlasts := (Connection.Lasts.of_starts hc).lasting hs
  rw [(hlasts.inSession.underway l hl).registry_eq, htables.registry_eq]

/-- A second codec for an id is refused before a start, and another start while the connection
listens; its loop works with the codecs of before. -/
theorem refused_calls_change_nothing_listening :
    (Connection.withRegistry notes {}).move (.register 1 (.raw "again")) =
        { connection := .withRegistry notes {}
          refusal := some (.registry (.duplicateType 1 "note")) } ∧
      (Connection.withRegistry notes {}).Starts callee ∧
      ∃ c l, callee.lasting (.replicate 6 (shortStep [])) = some c ∧ c.loop = some l ∧
        c.move (.connect ⟨"localhost", 4000⟩ 0) =
          { connection := c, refusal := some (.invalidState "connect" .listening) } ∧
        l.registry = c.registry ∧ c.registry = notes := by
  have hc : (Connection.withRegistry notes {}).Starts callee :=
    ⟨⟨"localhost", 4000⟩, 0, .inr rfl⟩
  have hrun : ((callee.lasting (.replicate 6 (shortStep []))).bind fun c =>
      c.loop.map fun _ => (c.move (.connect ⟨"localhost", 4000⟩ 0)).refusal) =
        some (some (.invalidState "connect" .listening)) := by
    decide +kernel
  obtain ⟨c, hs, hrun⟩ := Option.bind_eq_some_iff.1 hrun
  obtain ⟨l, hl, hrefusal⟩ := Option.map_eq_some_iff.1 hrun
  obtain ⟨htables, hregistry⟩ :=
    (refused_calls_change_nothing (.withRegistry notes {}) (.register 1 (.raw "again"))).2.2.2.2
      callee hc _ c hs
  exact ⟨(refused_calls_change_nothing _ _).2.1 _ rfl, hc, c, l, hs, hl,
    (refused_calls_change_nothing c _).2.1 _ hrefusal, hregistry l hl, htables.registry_eq⟩

end PeerMessaging
