import PeerMessaging.Proofs.Wire.Accounting

/-!
# What a writer has been given and what the stream has taken

Whatever is asked of a writer (`FrameWriter.Call`), in whatever order and with whatever result, the
bytes that its stream has taken and those still pending are together the encodings of the items that
were not refused, in the order of the calls (`FrameWriter.accepted_append_pending`). Writing moves
the first of the pending bytes to the stream and keeps the rest (`FrameWriter.Moves`), however it
ends (`FrameWriter.Written`), and a call queues its item behind them or refuses it
(`FrameWriter.Performed`).
-/

namespace PeerMessaging

/-- An item was refused because its payload is too long. -/
def FrameError.isRefusal : FrameError → Bool
  | payloadTooLarge .. => true
  | _ => false

namespace FrameWriter

section
variable {w w' w'' : FrameWriter}

/-! ## Moving bytes to the stream -/

/-- The stream has taken the first of the pending bytes, and the others are pending as before. -/
def Moves (w w' : FrameWriter) : Prop :=
  ∃ taken, w'.output.accepted = w.output.accepted ++ taken ∧
    w.encoder = { w'.encoder with pending := taken ++ w'.encoder.pending }

namespace Moves

theorem refl (w : FrameWriter) : w.Moves w := ⟨[], (List.append_nil _).symm, rfl⟩

theorem trans (h : w.Moves w') (h' : w'.Moves w'') : w.Moves w'' := by
  obtain ⟨taken, ha, he⟩ := h
  obtain ⟨taken', ha', he'⟩ := h'
  refine ⟨taken ++ taken', ?_, ?_⟩
  · rw [ha', ha, List.append_assoc]
  · rw [he, he', List.append_assoc]

/-- A write moves the bytes that it takes. -/
theorem of_write_ok {n : Nat} {output : OutputStream}
    (h : w.output.write w.encoder.pending = (.ok n, output)) :
    w.Moves ⟨{ w.encoder with pending := w.encoder.pending.drop n }, output⟩ := by
  refine ⟨w.encoder.pending.take n, OutputStream.accepted_of_write_ok h, ?_⟩
  simp only [List.take_append_drop]

/-- A write that fails moves nothing. -/
theorem of_write_error {e : IoError} {output : OutputStream}
    (h : w.output.write w.encoder.pending = (.error e, output)) : w.Moves { w with output } := by
  refine ⟨[], ?_, rfl⟩
  rw [OutputStream.accepted_of_write_error h, List.append_nil]

end Moves

/-- How writing may end: whatever the stream did, bytes have only been moved; nothing is pending if
everything has been written; and a failure is one of the stream. -/
structure Written (w : FrameWriter) (result : Except FrameError Bool) (w' : FrameWriter) :
    Prop where
  moves : w.Moves w'
  pending_eq : result = .ok true → w'.encoder.pending = []
  isRefusal_eq : ∀ e, result = .error e → e.isRefusal = false

namespace Written

/-- Writing may end with nothing left to write. -/
theorem of_true (hm : w.Moves w') (hp : w'.encoder.pending = []) : w.Written (.ok true) w' where
  moves := hm
  pending_eq _ := hp
  isRefusal_eq e he := by cases he

/-- It may stop before that. -/
theorem of_false (hm : w.Moves w') : w.Written (.ok false) w' where
  moves := hm
  pending_eq h := by cases h
  isRefusal_eq e he := by cases he

/-- It may fail with the stream. -/
theorem of_error {e : FrameError} (hm : w.Moves w') (hf : e.isRefusal = false) :
    w.Written (.error e) w' where
  moves := hm
  pending_eq h := by cases h
  isRefusal_eq e' he := by
    cases he
    exact hf

/-- Bytes may have been moved before. -/
theorem of_moves {result : Except FrameError Bool} (hm : w.Moves w')
    (h : w'.Written result w'') : w.Written result w'' :=
  ⟨hm.trans h.moves, h.pending_eq, h.isRefusal_eq⟩

end Written

/-- Offering the pending bytes to the stream ends so. -/
theorem written_writePending (deadline : Option Moment) (w : FrameWriter) :
    w.Written (w.writePending deadline).1 (w.writePending deadline).2 := by
  fun_induction writePending deadline w with
  | case1 w hp => exact .of_true (.refl w) hp
  | case2 w hp output h => exact .of_error (.of_write_ok h) rfl
  | case3 w hp n output h w' hd => exact .of_false (.of_write_ok h)
  | case4 w hp n output h w' hd ih => exact .of_moves (.of_write_ok h) ih
  | case5 w hp e output h hi ih => exact .of_moves (.of_write_error h) ih
  | case6 w hp e output h hi ht => exact .of_false (.of_write_error h)
  | case7 w hp e output h hi ht => exact .of_error (.of_write_error h) rfl

/-- Passing on what the stream has taken fails only with the stream. -/
theorem isRefusal_of_flushStream {output : OutputStream} {e : FrameError}
    (h : (flushStream output).1 = .error e) : e.isRefusal = false := by
  fun_induction flushStream output with
  | case1 | case3 => cases h
  | case2 output e output' hf hi ih => exact ih h
  | case4 =>
    cases h
    rfl

/-- A flush ends so too. -/
theorem written_flushPending (deadline : Option Moment) (w : FrameWriter) :
    w.Written (w.flushPending deadline).1 (w.flushPending deadline).2 := by
  have h := w.written_writePending deadline
  unfold flushPending
  split
  · rename_i w' hw
    rw [hw] at h
    obtain ⟨taken, ha, he⟩ := h.moves
    refine ⟨⟨taken, ?_, he⟩, fun _ => h.pending_eq rfl, fun e => isRefusal_of_flushStream⟩
    rw [accepted_flushStream, ha]
  · exact h

/-- Waiting for the bytes to be written moves them, leaves nothing pending unless it fails, and
fails only with the stream. -/
theorem written_finish (w : FrameWriter) :
    w.Moves w.finish.2 ∧ (w.finish.1 = .ok () → w.finish.2.encoder.pending = []) ∧
      ∀ e, w.finish.1 = .error e → e.isRefusal = false := by
  have h := w.written_flushPending none
  unfold finish
  split <;> rename_i w' hw <;> rw [hw] at h
  · exact ⟨h.moves, fun _ => h.pending_eq rfl, nofun⟩
  · refine ⟨h.moves, nofun, fun e he => ?_⟩
    cases he
    rfl
  · refine ⟨h.moves, nofun, fun e he => ?_⟩
    cases he
    exact h.isRefusal_eq _ rfl

end

/-! ## Calls -/

/-- What may be asked of a writer, short of dropping what is pending. -/
inductive Call
  | send (typeId : UInt32) (payload : Bytes)
  | writeFrame (frame : Frame)
  | sendKeepalive
  | enqueue (typeId : UInt32) (payload : Bytes)
  | enqueueKeepalive
  | setMaxPayload (max : Nat)
  | flushPending (deadline : Option Moment)
  deriving DecidableEq, Repr

/-- The item that a call is about. -/
def Call.item? : Call → Option Item
  | send typeId payload | enqueue typeId payload => some (.frame ⟨typeId, payload⟩)
  | writeFrame f => some (.frame f)
  | sendKeepalive | enqueueKeepalive => some .keepalive
  | setMaxPayload _ | flushPending _ => none

/-- What a call is answered: `true` if it has waited until everything was written. -/
abbrev Answer := Except FrameError Bool

/-- What comes of a call. -/
def perform (w : FrameWriter) : Call → Answer × FrameWriter
  | .send typeId payload =>
    let (result, w) := w.send ⟨typeId, payload⟩
    (result.map fun _ => true, w)
  | .writeFrame f =>
    let (result, w) := w.send f
    (result.map fun _ => true, w)
  | .sendKeepalive =>
    let (result, w) := w.sendKeepalive
    (result.map fun _ => true, w)
  | .enqueue typeId payload =>
    let (result, w) := w.enqueue ⟨typeId, payload⟩
    (result.map fun _ => false, w)
  | .enqueueKeepalive => (.ok false, w.enqueueKeepalive)
  | .setMaxPayload max => (.ok false, w.setMaxPayload max)
  | .flushPending deadline => w.flushPending deadline

/-- The writer after calls, one after another. -/
def performAll (w : FrameWriter) : List Call → FrameWriter
  | [] => w
  | call :: calls => performAll (w.perform call).2 calls

/-- The call is refused because the payload of its item is too long. -/
def refuses (w : FrameWriter) (call : Call) : Bool :=
  match (w.perform call).1 with
  | .ok _ => false
  | .error e => e.isRefusal

/-- The items of calls, one after another, without those that are refused. -/
def admitted (w : FrameWriter) : List Call → List Item
  | [] => []
  | call :: calls =>
    (if w.refuses call then [] else call.item?.toList) ++ admitted (w.perform call).2 calls

/-- What comes of a call that is not refused: its item is queued behind the pending bytes, and the
stream takes the first of all these. If the call has waited for it, all of them are taken. -/
structure Performed (w : FrameWriter) (call : Call) (answer : Answer) (w' : FrameWriter) :
    Prop where
  moves : ∃ taken, w'.output.accepted = w.output.accepted ++ taken ∧
    w.encoder.pending ++ call.item?.toList.flatMap (·.bytes w.encoder.config.protocol) =
      taken ++ w'.encoder.pending
  pending_eq : answer = .ok true → w'.encoder.pending = []
  protocol_eq : w'.encoder.config.protocol = w.encoder.config.protocol

/-- The item of a call is longer than is allowed now. -/
def TooLong (w : FrameWriter) (call : Call) : Prop :=
  ∃ f, call.item? = some (.frame f) ∧ w.encoder.config.longest < f.payload.length

section
variable {w w' : FrameWriter} {f : Frame} {call : Call} {answer : Answer} {bytes : Bytes}

/-- The writer with bytes queued behind the pending ones. -/
def queue (w : FrameWriter) (bytes : Bytes) : FrameWriter :=
  { w with encoder := { w.encoder with pending := w.encoder.pending ++ bytes } }

/-- A frame that is too long is refused, and nothing else happens. -/
theorem enqueue_of_gt (h : w.encoder.config.longest < f.payload.length) :
    ∃ max, w.enqueue f = (.error (.payloadTooLarge f.payload.length max), w) := by
  obtain ⟨max, he⟩ := w.encoder.enqueue_of_gt h
  exact ⟨max, by rw [enqueue, he]⟩

/-- Any other frame is queued. -/
theorem enqueue_of_le (h : f.payload.length ≤ w.encoder.config.longest) :
    w.enqueue f = (.ok (), w.queue (frameBytes w.encoder.config.protocol f)) := by
  rw [enqueue, w.encoder.enqueue_of_le h]
  rfl

/-- A call that queues its item and moves bytes does no more than that. -/
theorem Moves.performed (h : (w.queue bytes).Moves w')
    (hb : call.item?.toList.flatMap (·.bytes w.encoder.config.protocol) = bytes)
    (hp : answer = .ok true → w'.encoder.pending = []) : w.Performed call answer w' := by
  obtain ⟨taken, ha, he⟩ := h
  rw [queue, Encoder.mk.injEq] at he
  obtain ⟨hc, hpending⟩ := he
  exact ⟨⟨taken, ha, by rw [hb, hpending]⟩, hp, by rw [← hc]⟩

/-- A call whose item is too long is refused, and nothing else happens. -/
theorem perform_of_tooLong (h : w.TooLong call) :
    ∃ e, e.isRefusal = true ∧ w.perform call = (.error e, w) := by
  obtain ⟨f, hf, hl⟩ := h
  obtain ⟨max, he⟩ := enqueue_of_gt hl
  refine ⟨.payloadTooLarge f.payload.length max, rfl, ?_⟩
  cases call with
  | send | writeFrame =>
    cases hf
    simp only [perform, send, he]
    rfl
  | enqueue =>
    cases hf
    simp only [perform, he]
    rfl
  | sendKeepalive | enqueueKeepalive | setMaxPayload | flushPending => cases hf

/-- A call that waits for what it has queued does no more than that. -/
theorem performed_finish
    (hb : call.item?.toList.flatMap (·.bytes w.encoder.config.protocol) = bytes)
    (hp : w.perform call =
      ((w.queue bytes).finish.1.map fun _ => true, (w.queue bytes).finish.2)) :
    w.refuses call = false ∧ w.Performed call (w.perform call).1 (w.perform call).2 := by
  obtain ⟨hm, hdone, hfails⟩ := (w.queue bytes).written_finish
  rw [refuses, hp]
  refine ⟨?_, hm.performed hb fun h => hdone ?_⟩
  · cases hf : (w.queue bytes).finish.1 with
    | ok => rfl
    | error e => exact hfails e hf
  · cases hf : (w.queue bytes).finish.1 with
    | ok => rfl
    | error e =>
      rw [hf] at h
      cases h

/-- Any other call queues its item, if it has one, and moves bytes to the stream if it writes. -/
theorem perform_of_not_tooLong (h : ¬ w.TooLong call) :
    w.refuses call = false ∧ w.Performed call (w.perform call).1 (w.perform call).2 := by
  have fits {f : Frame} (hf : call.item? = some (.frame f)) :
      w.enqueue f = (.ok (), w.queue (frameBytes w.encoder.config.protocol f)) :=
    enqueue_of_le (Nat.not_lt.1 fun hl => h ⟨f, hf, hl⟩)
  -- What is queued and not waited for is pending as it is.
  have queued {bytes : Bytes}
      (hb : call.item?.toList.flatMap (·.bytes w.encoder.config.protocol) = bytes) :
      w.Performed call (.ok false) (w.queue bytes) :=
    (Moves.refl (w.queue bytes)).performed hb nofun
  cases call with
  | send t p =>
    refine performed_finish (List.append_nil _) ?_
    simp only [perform, send, fits rfl]
    rfl
  | writeFrame f =>
    refine performed_finish (List.append_nil _) ?_
    simp only [perform, send, fits rfl]
    rfl
  | sendKeepalive =>
    have hb : Call.sendKeepalive.item?.toList.flatMap (·.bytes w.encoder.config.protocol) =
        keepaliveBytes := rfl
    exact performed_finish hb rfl
  | enqueue t p =>
    simp only [refuses, perform, fits rfl]
    exact ⟨rfl, queued (List.append_nil _)⟩
  | enqueueKeepalive =>
    have hb : Call.enqueueKeepalive.item?.toList.flatMap (·.bytes w.encoder.config.protocol) =
        keepaliveBytes := rfl
    exact ⟨rfl, queued hb⟩
  | setMaxPayload max =>
    exact ⟨rfl, ⟨[], (List.append_nil _).symm, List.append_nil _⟩, nofun, rfl⟩
  | flushPending deadline =>
    have hw := w.written_flushPending deadline
    refine ⟨?_, ?_⟩
    · rw [refuses, perform]
      cases hf : (w.flushPending deadline).1 with
      | ok => rfl
      | error e => exact hw.isRefusal_eq e hf
    · have hm : (w.queue []).Moves (w.flushPending deadline).2 := by
        rw [queue, List.append_nil]
        exact hw.moves
      exact hm.performed rfl hw.pending_eq

/-- A call is refused just when its item is too long. -/
theorem refuses_iff : w.refuses call = true ↔ w.TooLong call := by
  constructor
  · intro hr
    by_cases h : w.TooLong call
    · exact h
    · rw [(perform_of_not_tooLong h).1] at hr
      cases hr
  · intro h
    obtain ⟨e, he, hp⟩ := perform_of_tooLong h
    rw [refuses, hp]
    exact he

/-- Calls add the encodings of their items to what was queued. -/
theorem queued_performAll (w : FrameWriter) (calls : List Call) :
    (w.performAll calls).queued =
      w.queued ++ (w.admitted calls).flatMap (·.bytes w.encoder.config.protocol) := by
  induction calls generalizing w with
  | nil => exact (List.append_nil _).symm
  | cons call calls ih =>
    rw [performAll, admitted, ih]
    by_cases h : w.TooLong call
    · obtain ⟨e, he, hp⟩ := perform_of_tooLong h
      rw [hp, if_pos (refuses_iff.2 h), List.nil_append]
    · obtain ⟨hr, ⟨taken, ha, hp⟩, -, hc⟩ := perform_of_not_tooLong h
      rw [hr, if_neg Bool.false_ne_true, List.flatMap_append, hc, ← List.append_assoc]
      congr 1
      rw [queued, queued, ha, List.append_assoc, ← hp, List.append_assoc]

end

/-- A writer neither loses nor duplicates nor reorders a byte. Whatever is asked of a new writer and
whatever its stream does, the bytes that the stream has taken, followed by those pending, are the
encodings of the items that were not refused, in the order of the calls. Of whatever writer it is
asked, a call is refused just when its item is too long, and then changes nothing; any other call,
failed or not, queues its item and lets the stream take the first of the pending bytes, so that
those left over are the ones that the next call begins with. -/
theorem accepted_append_pending (config : FrameConfig) (output : OutputStream)
    (calls : List Call) :
    ((new config output).performAll calls).output.accepted ++
        ((new config output).performAll calls).encoder.pending =
      output.accepted ++
        ((new config output).admitted calls).flatMap (·.bytes config.protocol) ∧
    ∀ (w : FrameWriter) (call : Call),
      (w.refuses call = true ↔ w.TooLong call) ∧
      (w.refuses call = true → (w.perform call).2 = w) ∧
      (w.refuses call = false → w.Performed call (w.perform call).1 (w.perform call).2) := by
  refine ⟨?_, fun w call => ⟨refuses_iff, fun h => ?_, fun h => ?_⟩⟩
  · have h := queued_performAll (new config output) calls
    rw [queued, queued, new, Encoder.new, List.append_nil] at h
    exact h
  · obtain ⟨e, -, hp⟩ := perform_of_tooLong (refuses_iff.1 h)
    rw [hp]
  · refine (perform_of_not_tooLong fun hl => ?_).2
    rw [refuses_iff.2 hl] at h
    cases h

end FrameWriter

end PeerMessaging
