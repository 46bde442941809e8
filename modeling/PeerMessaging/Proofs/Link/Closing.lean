import PeerMessaging.Proofs.Link.Outbound

/-!
# What a connection drops when it closes

A connection that closes flushes the messages that are queued once more, for as long as its settings
allow (`ConnectionConfig.flushTimeout`), and then drops what is left over. That is not all that may
end this flush, however: it also ends with the first write that times out, and time may be left then
(`closing_drops_early`). Without such a write nothing is dropped before the time is up, unless the
stream fails (`closing_drops_leftovers`).
-/

namespace PeerMessaging

namespace Connection

section
variable {registry : Registry} {config : ConnectionConfig} {c c' : Connection} {l : Loop}
  {moves : List Move}

/-- Callers leave a loop that has not ended as it is. -/
theorem loop_of_calls (h : c.InSession registry config) (hl : c.loop = some l) (ht : l.tasks ≠ [])
    (hs : c.session moves = some c') (hm : ∀ m ∈ moves, m.works = false) : c'.loop = some l := by
  induction moves generalizing c with
  | nil =>
    cases hs
    exact hl
  | cons m moves ih =>
    obtain ⟨hcall, hcalls⟩ := List.forall_mem_cons.1 hm
    obtain ⟨c₁, hn, hs⟩ := Option.bind_eq_some_iff.1 hs
    have hbeside := beside_of_next h.begun hn fun hw => by cases hcall.symm.trans hw
    refine ih (h.next hn) ?_ hs hcalls
    obtain ⟨-, -, rfl⟩ := next_eq_some hn
    rcases hbeside.loop_eq with hloop | ⟨hi, -⟩
    · exact hloop.trans hl
    · rw [isIdle_iff, tasks_of_some hl] at hi
      exact absurd hi ht

/-- A connection that closes begins its last flush with what is queued when it takes it, until a
deadline that counts from when it has acted. -/
theorem flushes_of_closing {c₀ c₁ c₂ c₃ : Connection} {w : Encoder} {calls₁ calls₂ : SocketCalls}
    {between : List Move} (h : c₀.InSession registry config) (hl : c₀.loop = some l)
    (hw : l.writer = some w) (ht : l.tasks = [.act]) (hc : c₀.state = .closing)
    (hplan : c₀.next (.work calls₁) = some c₁) (hbetween : c₁.session between = some c₂)
    (hcalls : ∀ m ∈ between, m.works = false) (hcollect : c₂.next (.work calls₂) = some c₃) :
    c₃.Flushes ⟨registry, w.config, c₂.shared.listeners.registered, .closing,
      calls₁.now + config.flushTimeout, w.pending, c₂.shared.outbound.messages⟩
      config [] [] [] [] := by
  have hconfig := (h.underway l hl).config_eq
  have h₁ := h.next hplan
  have hl₁ : c₁.loop = some { l with
      tasks := .collect :: .write .closing (calls₁.now + config.flushTimeout) ::
        WritePurpose.closing.rest } := by
    obtain ⟨hh, -, rfl⟩ := next_eq_some hplan
    rw [move_work calls₁ hl hh, ← hconfig]
    exact congrArg (fun st : Step => some st.loop)
      (@Loop.step_plans calls₁ c₀.shared l .closing ht hc)
  have hl₂ := loop_of_calls h₁ hl₁ (List.cons_ne_nil _ _) hbetween hcalls
  exact (Flushes.of_collect (h₁.session hbetween) hl₂ hw rfl hcollect).1

/-- When a flush is over, every message that was queued has been encoded, and the writes have
stopped with the bytes that are left over. -/
theorem Flushes.stops {b : Outbox} {sent : Bytes} {log : List (Moment × WriteOutcome)}
    {failures : List FrameError} {trace : List Effect}
    (h : c.Flushes b config sent log failures trace) (hover : c.isFlushing = false) :
    ∃ l result, c.loop = some l ∧ b.purpose.leadsTo l.tasks ∧
      sent ++ c.unsent = b.encoded b.queue ∧
      FrameWriter.Stops (some b.deadline) log result c.unsent := by
  obtain ⟨l, hl, hflush⟩ := h.flush
  have hnil : l.flushing = [] := by
    rw [isFlushing, flushing_of_some hl] at hover
    simpa using hover
  obtain ⟨done, w, hw, -, hdone, hbytes, -⟩ := hflush.balance
  obtain ⟨hnext, w', result, hw', hstops⟩ := hflush.stops hnil
  cases hw.symm.trans hw'
  have hdone : done = b.queue := by simpa [hnil, heldMessages] using hdone
  have hunsent : c.unsent = w.pending := by
    rw [unsent, hl, Option.bind_some, hw]
    rfl
  rw [hunsent]
  exact ⟨l, result, hl, hnext, hdone ▸ hbytes, hstops⟩

end

end Connection

/-- A connection that closes writes the bytes that were left before and those of the messages that
are queued, and drops the others when it lets go of the stream. It drops bytes only after a write
that failed for good, that timed out or that was over when the time for it was up; and after one
that timed out it makes no other and does drop bytes, whether the time is up or not. So bytes are
dropped early only if the stream has failed or a write has timed out. -/
theorem closing_drops_leftovers {registry : Registry} {config : ConnectionConfig}
    {c₀ c₁ c₂ c₃ c' : Connection} {l : Loop} {w : Encoder} {calls₁ calls₂ : SocketCalls}
    {between moves : List Move} (h : c₀.InSession registry config) (hl : c₀.loop = some l)
    (hw : l.writer = some w) (ht : l.tasks = [.act]) (hc : c₀.state = .closing)
    (hplan : c₀.next (.work calls₁) = some c₁) (hbetween : c₁.session between = some c₂)
    (hcalls : ∀ m ∈ between, m.works = false) (hcollect : c₂.next (.work calls₂) = some c₃)
    (hflush : c₃.sessionWhile Connection.isFlushing moves = some c')
    (hover : c'.isFlushing = false) :
    let deadline := calls₁.now + config.flushTimeout
    let log := c₃.along Connection.writeAttempts moves
    c₃.along Connection.writes moves ++ c'.unsent =
      w.pending ++ (c₂.shared.outbound.messages.filterMap (registry.outgoing w.config)).flatMap
        (frameBytes w.config.protocol) ∧
    (∀ calls, ∃ c'', c'.next (.work calls) = some c'' ∧ c''.unsent = [] ∧
      c'.writes (.work calls) = []) ∧
    (c'.unsent ≠ [] → ∃ before time o, log = before ++ [(time, o)] ∧
      (∀ x ∈ before, x.2.goesOn = true) ∧
        (o.isHard = true ∨ o.isTimeout = true ∨ deadline ≤ time)) ∧
    (∀ before x more, log = before ++ x :: more → x.2.isTimeout = true →
      more = [] ∧ c'.unsent ≠ []) ∧
    ((∀ x ∈ log, x.2.isTimeout = false) → c'.unsent ≠ [] →
      ∃ x ∈ log, x.2.isHard = true ∨ deadline ≤ x.1) := by
  have h₃ := Connection.flushes_of_closing h hl hw ht hc hplan hbetween hcalls hcollect
  obtain ⟨h', -, -⟩ := h₃.sessionWhile hflush
  obtain ⟨l', result, hl', hnext, hbytes, hstops⟩ := h'.stops hover
  rw [List.nil_append] at hbytes hstops
  have hrelease : l'.tasks = .release :: .advance .closed :: nextRound := by
    rcases hnext with hnext | ⟨hpurpose, -⟩
    · exact hnext
    · cases hpurpose
  have hlast := hstops.last_of_left
  simp only [Option.any_some, decide_eq_true_eq] at hlast
  refine ⟨hbytes, fun calls => ?_, hlast, fun before x more hlog hx => ?_, fun hquiet hleft => ?_⟩
  · have hh := Connection.halts_of_not_isTimed calls hl' hrelease rfl
    refine ⟨_, h'.inSession.next_work hl' hh, ?_, ?_⟩
    · rw [Connection.move_work calls hl' hh]
      simp only [Connection.unsent, Loop.step, hrelease]
      rfl
    · rw [Connection.writes_work hl' hh]
      simp only [Loop.step, hrelease]
  · exact hstops.left_of_stopped hlog (WriteOutcome.goesOn_of_isTimeout hx)
  · obtain ⟨before, time, o, hlog, -, ho⟩ := hlast hleft
    have hmem : (time, o) ∈ c₃.along Connection.writeAttempts moves := by
      rw [hlog]
      exact List.mem_append_right _ (.head _)
    refine ⟨_, hmem, ?_⟩
    rcases ho with ho | ho | ho
    · exact .inl ho
    · cases (hquiet _ hmem).symm.trans ho
    · exact .inr ho

/-- The loop acts on its state next. -/
def Loop.isActing (l : Loop) : Bool :=
  match l.tasks with
  | [.act] => true
  | _ => false

/-- A loop that acts next has nothing else to do before. -/
theorem Loop.tasks_of_isActing {l : Loop} (h : l.isActing = true) : l.tasks = [.act] := by
  unfold isActing at h
  split at h
  · assumption
  · cases h

/-- A connection is made, a message is queued, and the connection is closed. -/
def leaving : List Move :=
  .replicate 13 (shortStep []) ++ [.send (.raw 1 [7]), .requestClose] ++ .replicate 2 (shortStep [])

/-- The message is encoded, and then there are these writes. -/
def parting (writes : List (Timed WriteOutcome)) : List Move :=
  .replicate 2 (shortStep []) ++
    [.work { bind := .ok { ip := .v4 ⟨127, 0, 0, 1⟩, port := 4000 }, writes := writes }]

/-- Each write takes four bytes, and a tenth of a second. -/
def slow : List Move := parting (.replicate 3 ⟨.accept 4, milliseconds 100⟩)

/-- The first write times out. -/
def stalled : List Move := parting [⟨.fail (.plain .timedOut), milliseconds 50⟩]

/-- The stream takes twelve of the thirteen bytes of a frame before the time is up, and the last one
is dropped. -/
theorem closing_drops_leftovers_slow :
    (Connection.withRegistry notes {}).Starts caller ∧
      ∃ c₀ c₁ c₂ c' c'', caller.session leaving = some c₀ ∧ c₀.state = .closing ∧
        c₀.next (shortStep []) = some c₁ ∧ c₁.next (shortStep []) = some c₂ ∧
        c₂.sessionWhile Connection.isFlushing slow = some c' ∧ c'.isFlushing = false ∧
        c₂.along Connection.writes slow ++ c'.unsent =
          frameBytes caller.config.streamConfig.protocol ⟨1, [7]⟩ ∧
        c'.unsent = [7] ∧ c'.next (shortStep []) = some c'' ∧ c''.unsent = [] ∧
        ∃ x ∈ c₂.along Connection.writeAttempts slow,
          x.2.isHard = true ∨ caller.config.flushTimeout ≤ x.1 := by
  have hc : (Connection.withRegistry notes {}).Starts caller := ⟨⟨"localhost", 4000⟩, 0, .inl rfl⟩
  have hrun : ((caller.session leaving).bind fun c₀ => c₀.loop.bind fun l => l.writer.bind fun w =>
      (c₀.next (shortStep [])).bind fun c₁ => (c₁.next (shortStep [])).bind fun c₂ =>
        (c₂.sessionWhile Connection.isFlushing slow).map fun c' => decide
          (l.isActing = true ∧ c₀.state = .closing ∧ c'.isFlushing = false ∧ c'.unsent = [7] ∧
            w.pending = [] ∧ w.config = caller.config.streamConfig ∧
            c₁.shared.outbound.messages.filterMap
              (caller.registry.outgoing caller.config.streamConfig) = [⟨1, [7]⟩] ∧
            ∀ x ∈ c₂.along Connection.writeAttempts slow, x.2.isTimeout = false)) = some true := by
    decide +kernel
  obtain ⟨c₀, hs, hrun⟩ := Option.bind_eq_some_iff.1 hrun
  obtain ⟨l, hl, hrun⟩ := Option.bind_eq_some_iff.1 hrun
  obtain ⟨w, hw, hrun⟩ := Option.bind_eq_some_iff.1 hrun
  obtain ⟨c₁, hplan, hrun⟩ := Option.bind_eq_some_iff.1 hrun
  obtain ⟨c₂, hcollect, hrun⟩ := Option.bind_eq_some_iff.1 hrun
  obtain ⟨c', hflush, hrun⟩ := Option.map_eq_some_iff.1 hrun
  obtain ⟨hacting, hstate, hover, hunsent, hpending, hconfig, hframes, hquiet⟩ :=
    of_decide_eq_true hrun
  obtain ⟨hbytes, hdrops, -, -, hlate⟩ :=
    closing_drops_leftovers ((Connection.inSession_of_starts hc).session hs) hl hw
      (Loop.tasks_of_isActing hacting) hstate hplan rfl (List.forall_mem_nil _) hcollect hflush
      hover
  obtain ⟨c'', hlast, hnone, -⟩ := hdrops _
  refine ⟨hc, c₀, c₁, c₂, c', c'', hs, hstate, hplan, hcollect, hflush, hover, ?_, hunsent, hlast,
    hnone, ?_⟩
  · rw [hbytes, hpending, hconfig, hframes]
    rfl
  · obtain ⟨x, hx, hhard | htime⟩ := hlate hquiet (hunsent ▸ List.cons_ne_nil _ _)
    · exact ⟨x, hx, .inl hhard⟩
    · exact ⟨x, hx, .inr (Nat.le_trans (Nat.le_add_left _ _) htime)⟩

/-- One write times out, and the whole frame is dropped, although four fifths of the time are left
and nothing has failed. -/
theorem closing_drops_early :
    caller.config.writeTimeout < caller.config.flushTimeout ∧
      (Connection.withRegistry notes {}).Starts caller ∧
      ∃ c₀ c₂ c' c'', caller.session leaving = some c₀ ∧ c₀.state = .closing ∧
        c₀.session (.replicate 2 (shortStep [])) = some c₂ ∧
        c₂.sessionWhile Connection.isFlushing stalled = some c' ∧ c'.isFlushing = false ∧
        c₂.along Connection.writeAttempts stalled =
          [(caller.config.writeTimeout, .fail (.plain .timedOut))] ∧
        c₂.along Connection.writeFailures stalled = [] ∧
        c₂.along Connection.flushAttempts stalled = [] ∧
        c₂.along Connection.writes stalled = [] ∧
        c'.unsent = frameBytes caller.config.streamConfig.protocol ⟨1, [7]⟩ ∧
        c'.next (shortStep []) = some c'' ∧ c'.writes (shortStep []) = [] ∧ c''.unsent = [] := by
  refine ⟨by decide, ⟨⟨"localhost", 4000⟩, 0, .inl rfl⟩, ?_⟩
  have hrun : ((caller.session leaving).bind fun c₀ =>
      (c₀.session (.replicate 2 (shortStep []))).bind fun c₂ =>
        (c₂.sessionWhile Connection.isFlushing stalled).bind fun c' =>
          (c'.next (shortStep [])).map fun c'' => decide
            (c₀.state = .closing ∧ c'.isFlushing = false ∧
              c₂.along Connection.writeAttempts stalled =
                [(caller.config.writeTimeout, .fail (.plain .timedOut))] ∧
              c₂.along Connection.writeFailures stalled = [] ∧
              (c₂.along Connection.flushAttempts stalled).length = 0 ∧
              c₂.along Connection.writes stalled = [] ∧
              c'.unsent = frameBytes caller.config.streamConfig.protocol ⟨1, [7]⟩ ∧
              c'.writes (shortStep []) = [] ∧ c''.unsent = [])) = some true := by
    decide +kernel
  obtain ⟨c₀, hs, hrun⟩ := Option.bind_eq_some_iff.1 hrun
  obtain ⟨c₂, hs₂, hrun⟩ := Option.bind_eq_some_iff.1 hrun
  obtain ⟨c', hflush, hrun⟩ := Option.bind_eq_some_iff.1 hrun
  obtain ⟨c'', hlast, hrun⟩ := Option.map_eq_some_iff.1 hrun
  obtain ⟨hstate, hover, hlog, hfailures, hflushes, hwrites, hunsent, hquiet, hnone⟩ :=
    of_decide_eq_true hrun
  exact ⟨c₀, c₂, c', c'', hs, hstate, hs₂, hflush, hover, hlog, hfailures,
    List.length_eq_zero_iff.1 hflushes, hwrites, hunsent, hlast, hquiet, hnone⟩

end PeerMessaging
