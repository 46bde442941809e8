import PeerMessaging.Proofs.Link.Refusals
import PeerMessaging.Proofs.Link.Sockets

/-!
# A connection that is reset

A reset waits for the loop, which comes to its end when an end is pending
(`Stopping.exists_isIdle`), and then leaves nothing of what has been: a connection that has just
been made, with the same settings, codecs and listeners (`Connection.renewed`). So whatever happens
to it from then on would have happened to a new connection just so. In any other state a reset is
refused.
-/

namespace PeerMessaging

/-- A step of a loop leaves an end pending. -/
theorem Round.desired_step_of_isTerminal {s : Shared} {l : Loop} (h : Round s.lifecycle l.tasks)
    (hd : s.lifecycle.desired.isTerminal = true) (calls : SocketCalls) :
    (l.step calls s).shared.lifecycle.desired = s.lifecycle.desired := by
  rcases h.lifecycle_step calls with heq | heq | ⟨next, -, hn, heq⟩
  · rw [heq]
  · rw [heq, Lifecycle.apply_snd]
  · rw [heq, Lifecycle.tryRequest_eq, if_neg]
    intro hp
    revert hd hp hn
    generalize s.lifecycle.desired = desired
    cases desired <;> cases next <;> simp [ConnectionState.isTerminal, ConnectionState.permits]

namespace Connection

/-- A connection that has just been made, with the settings, codecs and listeners of another. -/
def renewed (c : Connection) : Connection where
  config := c.config
  registry := c.registry
  shared := { listeners := c.shared.listeners }

/-- What comes of a reset that is accepted. -/
def renewal (c : Connection) : Outcome where
  connection := c.renewed
  raised := some (.state .initial)
  told := c.shared.listeners.registered.map (·, .state .initial)

/-- A connection is about to stop or has stopped, and nobody waits for its loop. It has the
settings, codecs and listeners of another. -/
structure Stopping (c₀ c : Connection) : Prop where
  tidy : c.Tidy
  isTerminal : c.desired.isTerminal = true
  unawaited : c.awaited = false
  tables : c₀.SameTables c

section
variable {c₀ c c' : Connection} {m : Move}

/-! ## What a reset leaves -/

/-- Listeners are registered one behind the other. -/
theorem played_addListener (config : ConnectionConfig) (registry : Registry)
    (first rest : List Listener) :
    ({ config, registry, shared := { listeners := ⟨first⟩ } } : Connection).played
        (rest.map .addListener) =
      { config, registry, shared := { listeners := ⟨first ++ rest⟩ } } := by
  induction rest generalizing first with
  | nil => rw [List.append_nil]; rfl
  | cons listener rest ih =>
    have h := ih (first ++ [listener])
    rw [List.append_assoc] at h
    exact h

/-- A renewed connection is one that has been made and been given the listeners. -/
theorem renewed_eq_played (c : Connection) :
    c.renewed =
      (withRegistry c.registry c.config).played (c.shared.listeners.registered.map .addListener) :=
  (played_addListener c.config c.registry [] c.shared.listeners.registered).symm

/-- Only the settings, the codecs and the listeners count for it. -/
theorem renewal_of_sameTables (h : c.SameTables c') : c'.renewal = c.renewal := by
  rw [renewal, renewal, renewed, renewed, h.config_eq, h.registry_eq, h.listeners_eq]

/-- A reset that is out of place is refused. -/
theorem move_reset_of_not_admitted {onLoop : Bool}
    (h : c.desired.isTerminal = false ∨ c.isLoop onLoop = true) :
    c.move (.reset onLoop) =
      { connection := c, refusal := some (.invalidState "reset" c.desired) } := by
  refine move_of_refusal ?_
  rw [refusal_reset, if_neg]
  rcases h with h | h <;> simp [h]

namespace Stopping

/-- When the loop has ended the connection is in a state that has been announced. -/
theorem state_ne (h : c₀.Stopping c) : c.state ≠ .initial := by
  intro hs
  have hs : c.shared.lifecycle.current = .initial := hs
  have hterminal : c.shared.lifecycle.desired.isTerminal = true := h.isTerminal
  rcases h.tidy.due with hd | hp | ⟨-, hd⟩
  · rw [hd, hs] at hterminal
    cases hterminal
  · revert hp hterminal
    rw [hs]
    generalize c.shared.lifecycle.desired = desired
    cases desired <;> simp [ConnectionState.isTerminal, ConnectionState.permits]
  · rw [hd] at hterminal
    cases hterminal

/-- A connection whose loop has ended is made as good as new. -/
theorem reset_of_isIdle (h : c₀.Stopping c) (hi : c.isIdle = true) :
    c.move (.reset false) = c₀.renewal := by
  have hs : c.requireStopped false = .ok () := by
    rw [requireStopped, h.isTerminal]
    rfl
  have hn : c.shared.lifecycle.current ≠ .initial := h.state_ne
  have hr : c.reset false = (.ok (some (.state .initial)), c.renewed) := by
    obtain ⟨raised, c', hr⟩ := exists_reset_eq_ok hs
    obtain ⟨-, rfl, rfl⟩ := reset_eq_ok hr
    rw [hr, if_neg (show c.state ≠ .initial from hn), letGo, h.unawaited]
    simp [renewed, join, h.tidy.strays_eq, Lifecycle.new]
  rw [← renewal_of_sameTables h.tables]
  simp only [move, hs, hi, Bool.true_or, if_true, hr]
  rfl

/-- Before that a reset waits. -/
theorem reset_of_not_isIdle (h : c₀.Stopping c) (hi : c.isIdle = false) :
    c.move (.reset false) = { connection := c } := by
  have hs : c.requireStopped false = .ok () := by
    rw [requireStopped, h.isTerminal]
    rfl
  simp only [move, hs, hi, h.unawaited, Bool.or_false, Bool.false_eq_true, if_false]

/-! ## The end of the loop -/

/-- Something has been started. -/
theorem desired_ne (h : c₀.Stopping c) : c.desired ≠ .initial := by
  intro hd
  have hterminal := h.isTerminal
  rw [hd] at hterminal
  cases hterminal

/-- No other call keeps a connection from stopping. -/
theorem move (h : c₀.Stopping c) (ha : m ≠ .await) (hm : ∀ onLoop, m ≠ .reset onLoop) :
    c₀.Stopping (c.move m).connection := by
  cases hr : (c.move m).refusal with
  | some e =>
    rw [move_of_refusal hr]
    exact h
  | none =>
    have htidy : (c.move m).connection.Tidy := by
      refine h.tidy.move ?_
      cases m with
      | reset onLoop => exact absurd rfl (hm onLoop)
      | _ => rfl
    have htables := h.tables.trans (SameTables.of_desired_ne (m := m) h.desired_ne)
    -- What is started or prepared before a session is refused, and the other calls leave it be.
    have hkept : (c.move m).connection.desired = c.desired ∧
        (c.move m).connection.awaited = false := by
      cases m with
      | register | registerNamed | addListener | removeListener | connect | listen =>
        rw [refusal_move, objection_of_desired_ne rfl rfl h.desired_ne] at hr
        cases hr
      | await => exact absurd rfl ha
      | reset onLoop => exact absurd rfl (hm onLoop)
      | requestClose =>
        have hending := ConnectionState.isEnding_of_isTerminal h.isTerminal
        have hclose : c.requestClose = c := (move_close_eq (.inr hending)).1
        rw [Connection.move, hclose]
        exact ⟨rfl, h.unawaited⟩
      | join =>
        rw [Connection.move]
        split
        · exact ⟨rfl, rfl⟩
        · exact ⟨rfl, h.unawaited⟩
      | send m =>
        have hsend : c.send m = c := if_pos h.isTerminal
        rw [Connection.move, hsend]
        exact ⟨rfl, h.unawaited⟩
      | takeNext | clearError | abandon => exact ⟨rfl, h.unawaited⟩
      | work calls =>
        cases hl : c.loop with
        | none =>
          simp only [Connection.move, work, hl, Option.map_none]
          exact ⟨trivial, h.unawaited⟩
        | some l =>
          cases hh : c.halts (.work calls) with
          | true =>
            rw [(move_of_halts hh).1]
            exact ⟨rfl, h.unawaited⟩
          | false =>
            rw [move_work calls hl hh]
            refine ⟨?_, h.unawaited⟩
            rcases h.tidy.loop l hl with hbare | ⟨-, hround, -⟩
            · rw [Loop.step_of_hasEnded (List.isEmpty_iff.2 hbare.tasks_eq)]
              rfl
            · exact hround.desired_step_of_isTerminal h.isTerminal calls
    refine ⟨htidy, ?_, hkept.2, htables⟩
    rw [hkept.1]
    exact h.isTerminal

/-- So the loop ends in every endless history in which it goes on making steps, and in which nobody
begins to wait for it and nobody resets the connection. -/
theorem exists_isIdle {moves : ℕ → Move} (h : c₀.Stopping c)
    (hcalls : ∀ n, moves n ≠ .await ∧ ∀ onLoop, moves n ≠ .reset onLoop)
    (hworks : ∀ n, ∃ k, n ≤ k ∧ (moves k).works = true) :
    ∃ n, c₀.Stopping (c.run moves n) ∧ (c.run moves n).isIdle = true := by
  have hrun (n : ℕ) : c₀.Stopping (c.run moves n) := by
    induction n with
    | zero => exact h
    | succ n ih => exact ih.move (hcalls n).1 (hcalls n).2
  by_contra hnever
  have hbusy (n : ℕ) : (c.run moves n).isIdle = false :=
    Bool.eq_false_of_not_eq_true fun hi => hnever ⟨n, hrun n, hi⟩
  have hnil : c.tasks ≠ [] := fun ht => Bool.false_ne_true ((hbusy 0).symm.trans (isIdle_iff.2 ht))
  have hround : Round c.shared.lifecycle c.tasks := by
    cases hl : c.loop with
    | none => exact absurd (by rw [tasks, hl]; rfl) hnil
    | some l =>
      rw [tasks_of_some hl] at hnil ⊢
      rcases h.tidy.loop l hl with hbare | ⟨-, hround, -⟩
      · exact absurd hbare.tasks_eq hnil
      · exact hround
  have hin : c.InRounds :=
    ⟨ConnectionState.one_le_stage h.desired_ne, hround, fun ht => absurd ht hnil⟩
  have hnext (n : ℕ) : (c.run moves n).next (moves n) = some (c.run moves (n + 1)) := by
    refine if_neg (not_or.2 ⟨fun hh => ?_, (hrun (n + 1)).desired_ne⟩)
    -- What ends the loop at once has ended it.
    have hidle : (c.run moves (n + 1)).isIdle = true := by
      rw [isIdle_iff]
      exact tasks_of_halts hh
    exact Bool.false_ne_true ((hbusy (n + 1)).symm.trans hidle)
  obtain ⟨n, hn⟩ := hin.exists_finished (ConnectionState.isEnding_of_isTerminal h.isTerminal)
    (fun n _ => hnext n) hworks
  exact Bool.false_ne_true ((hbusy n).symm.trans hn.isIdle)

end Stopping

end

end Connection

/-- A connection that is reset is as good as new. Whatever has happened to it, if an end is pending
and nobody else waits for the loop, a reset waits until that has ended, which it does in every
endless history in which it goes on making steps. Then the connection is one that has just been made
and has been given the codecs and listeners it had: whatever happens to it is just what would have
happened to that. In any other state a reset is refused, and it is refused to the loop; that changes
nothing. -/
theorem reset_renews (registry : Registry) (config : ConnectionConfig) {before : List Move}
    (hp : (Connection.withRegistry registry config).isPatient before = true) {c : Connection}
    (hc : (Connection.withRegistry registry config).played before = c) :
    (c.desired.isTerminal = true → c.awaited = false →
      (c.isIdle = true → c.move (.reset false) = c.renewal) ∧
      (c.isIdle = false → c.move (.reset false) = { connection := c }) ∧
      ∀ moves : ℕ → Move, (∀ n, moves n ≠ .await ∧ ∀ onLoop, moves n ≠ .reset onLoop) →
        (∀ n, ∃ k, n ≤ k ∧ (moves k).works = true) →
        ∃ n, (c.run moves n).move (.reset false) = c.renewal) ∧
    (∀ script, c.renewal.connection.play script =
      ((Connection.withRegistry c.registry c.config).played
        (c.shared.listeners.registered.map .addListener)).play script) ∧
    ∀ onLoop, c.desired.isTerminal = false ∨ c.isLoop onLoop = true →
      c.move (.reset onLoop) =
        { connection := c, refusal := some (.invalidState "reset" c.desired) } := by
  subst hc
  have htidy := ((Connection.Tidy.withRegistry registry config).played hp).1
  refine ⟨fun hd ha => ?_, fun script => ?_, fun onLoop => Connection.move_reset_of_not_admitted⟩
  · have h : Connection.Stopping _ _ := ⟨htidy, hd, ha, .refl _⟩
    refine ⟨h.reset_of_isIdle, h.reset_of_not_isIdle, fun moves hcalls hworks => ?_⟩
    obtain ⟨n, hn, hi⟩ := h.exists_isIdle hcalls hworks
    exact ⟨n, hn.reset_of_isIdle hi⟩
  · rw [← Connection.renewed_eq_played]
    rfl

/-- A connection that listens until a peer is there, which sends a message and then something that
is no frame. -/
def violated : List Move :=
  [.addListener ⟨1, .everything⟩, .listen ⟨"localhost", 4000⟩ 0] ++ .replicate 17 (shortStep []) ++
    [shortStep [0x2B, 0xAD, 0, 1, 0, 0, 0, 1, 0, 0, 0, 1, 7, 0xFF, 0xAD, 0, 1]] ++
    .replicate 12 (shortStep [])

/-- It has a message that has not been taken, an address and an error when a reset begins to wait
for its loop. In the end it has none of them, and is what a new connection would be. -/
theorem reset_renews_violated :
    (Connection.withRegistry notes {}).isPatient violated = true ∧
      ∃ c, (Connection.withRegistry notes {}).played violated = c ∧
        c.desired.isTerminal = true ∧ c.awaited = false ∧
        c.shared.inbound.messages.length = 1 ∧ c.shared.localAddress.isSome = true ∧
        c.lastError.isSome = true ∧
        c.move (.reset false) = { connection := c } ∧
        (∃ n, (c.run (fun _ => shortStep []) n).move (.reset false) = c.renewal) ∧
        ∀ script, c.renewal.connection.play script =
          ((Connection.withRegistry c.registry c.config).played
            [.addListener ⟨1, .everything⟩]).play script := by
  have hp : (Connection.withRegistry notes {}).isPatient violated = true := by decide +kernel
  obtain ⟨c, hc⟩ : ∃ c, (Connection.withRegistry notes {}).played violated = c := ⟨_, rfl⟩
  have hrun : (c.desired.isTerminal, c.awaited, c.shared.inbound.messages.length,
      c.shared.localAddress.isSome, c.lastError.isSome, c.isIdle, c.shared.listeners) =
        (true, false, 1, true, true, false, ⟨[⟨1, .everything⟩]⟩) := by
    rw [← hc]
    decide +kernel
  simp only [Prod.mk.injEq] at hrun
  obtain ⟨hd, ha, hm, haddress, he, hi, hlisteners⟩ := hrun
  obtain ⟨hends, hnew, -⟩ := reset_renews notes {} hp hc
  obtain ⟨-, hwaits, hrenews⟩ := hends hd ha
  rw [hlisteners] at hnew
  exact ⟨hp, c, hc, hd, ha, hm, haddress, he, hwaits hi,
    hrenews (fun _ => shortStep []) (fun _ => ⟨nofun, nofun⟩) fun n => ⟨n, Nat.le_refl n, rfl⟩,
    hnew⟩

end PeerMessaging
