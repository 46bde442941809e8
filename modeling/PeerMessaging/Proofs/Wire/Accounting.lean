import PeerMessaging.Proofs.Wire.Fragmentation
import PeerMessaging.Wire.FrameReader
import PeerMessaging.Wire.FrameWriter

/-!
# What goes into a stream and what comes out

Nothing is lost between a writer and its stream: what the stream has taken and what is still to be
written are together what was queued, in that order (`FrameWriter.queued_flushPending`). Nothing is
lost between a stream and its reader either: what a reader hands out is what its decoder hands out
of the bytes that the reads have brought (`FrameReader.burst_eq_drain`).
-/

namespace PeerMessaging

/-! ## Writing -/

namespace OutputStream

section
variable {s s' : OutputStream} {bytes : Bytes}

/-- A write takes the first bytes it is offered, as many as it answers. -/
theorem accepted_of_write_ok {n : Nat} (h : s.write bytes = (.ok n, s')) :
    s'.accepted = s.accepted ++ bytes.take n := by
  unfold write at h
  dsimp only at h
  split at h
  · cases h
    rw [List.take_length]
  · cases h
    rw [List.length_take, List.take_eq_take_min, Nat.min_comm]
  · cases h

/-- A write that fails takes nothing. -/
theorem accepted_of_write_error {e : IoError} (h : s.write bytes = (.error e, s')) :
    s'.accepted = s.accepted := by
  unfold write at h
  dsimp only at h
  split at h
  · cases h
  · cases h
  · cases h
    rfl

/-- A flush takes nothing. -/
theorem accepted_flush (s : OutputStream) : s.flush.2.accepted = s.accepted := by
  unfold flush
  dsimp only
  split <;> rfl

end

end OutputStream

namespace Encoder

section
variable {w : Encoder} {f : Frame}

/-- A frame that is not too long is queued behind the others. -/
theorem enqueue_of_le (w : Encoder) (h : f.payload.length ≤ w.config.longest) :
    w.enqueue f = (.ok (), { w with pending := w.pending ++ frameBytes w.config.protocol f }) := by
  obtain ⟨hl, hw⟩ := Nat.le_min.1 h
  rw [enqueue, if_neg (Nat.not_lt.2 hl), appendFrame_of_le hw]

/-- A frame that is too long is refused before anything is queued. -/
theorem enqueue_of_gt (w : Encoder) (h : w.config.longest < f.payload.length) :
    ∃ max, w.enqueue f = (.error (.payloadTooLarge f.payload.length max), w) := by
  rw [enqueue]
  split
  · exact ⟨_, rfl⟩
  · rename_i hl
    have hw : maxWireLength < f.payload.length := by
      rw [FrameConfig.longest] at h
      omega
    rw [appendFrame, if_pos hw]
    exact ⟨_, rfl⟩

end

end Encoder

namespace FrameWriter

/-- What has been queued: the bytes that the stream has taken and those still to be written. -/
def queued (w : FrameWriter) : Bytes := w.output.accepted ++ w.encoder.pending

/-- Writing moves bytes to the stream, in order, and changes no setting. -/
theorem queued_writePending (deadline : Option Moment) (w : FrameWriter) :
    (w.writePending deadline).2.queued = w.queued ∧
      (w.writePending deadline).2.encoder.config = w.encoder.config := by
  -- The part of the pending bytes that a write takes goes behind what was taken before.
  have moved {w : FrameWriter} {n : Nat} {output : OutputStream}
      (h : w.output.write w.encoder.pending = (.ok n, output)) :
      output.accepted ++ w.encoder.pending.drop n = w.queued := by
    rw [OutputStream.accepted_of_write_ok h, List.append_assoc, List.take_append_drop, queued]
  fun_induction writePending deadline w with
  | case1 => exact ⟨rfl, rfl⟩
  | case2 w hp output h => exact ⟨moved h, rfl⟩
  | case3 w hp n output h w' hd => exact ⟨moved h, rfl⟩
  | case4 w hp n output h w' hd ih => exact ⟨ih.1.trans (moved h), ih.2⟩
  | case5 w hp e output h hi ih =>
    refine ⟨ih.1.trans ?_, ih.2⟩
    rw [queued, queued, OutputStream.accepted_of_write_error h]
  | case6 w hp e output h hi ht =>
    refine ⟨?_, rfl⟩
    rw [queued, queued, OutputStream.accepted_of_write_error h]
  | case7 w hp e output h hi ht =>
    refine ⟨?_, rfl⟩
    rw [queued, queued, OutputStream.accepted_of_write_error h]

/-- Passing on what the stream has taken takes nothing more. -/
theorem accepted_flushStream (output : OutputStream) :
    (flushStream output).2.accepted = output.accepted := by
  fun_induction flushStream output with
  | case1 output output' h => rw [← output.accepted_flush, h]
  | case2 output e output' h hi ih => rw [ih, ← output.accepted_flush, h]
  | case3 output e output' h hi ht => rw [← output.accepted_flush, h]
  | case4 output e output' h hi ht => rw [← output.accepted_flush, h]

/-- A flush moves bytes to the stream, in order, and changes no setting. -/
theorem queued_flushPending (deadline : Option Moment) (w : FrameWriter) :
    (w.flushPending deadline).2.queued = w.queued ∧
      (w.flushPending deadline).2.encoder.config = w.encoder.config := by
  obtain ⟨hq, hc⟩ := queued_writePending deadline w
  unfold flushPending
  split
  · rename_i w' h
    rw [h] at hq hc
    refine ⟨?_, hc⟩
    rw [← hq, queued, queued, accepted_flushStream]
  · exact ⟨hq, hc⟩

end FrameWriter

/-! ## Reading -/

/-- The bytes that a read brings. -/
def ReadOutcome.bytes : ReadOutcome → Bytes
  | data bytes => bytes
  | fail _ | eof => []

/-- The bytes that reads bring, one after another. -/
def carried (outcomes : List ReadOutcome) : Bytes := outcomes.flatMap ReadOutcome.bytes

namespace InputStream

section
variable {s s' : InputStream} {size : Nat}

/-- A read hands over the first of the bytes to come. -/
theorem carried_of_read_ok {bytes : Bytes} (h : s.read size = (.ok bytes, s')) :
    carried s.outcomes = bytes ++ carried s'.outcomes := by
  obtain ⟨outcomes, n⟩ := s
  rcases outcomes with _ | ⟨all | e | _, rest⟩
  · cases h
    rfl
  · simp only [read, Prod.mk.injEq, Except.ok.injEq] at h
    obtain ⟨rfl, rfl⟩ := h
    rw [carried, List.flatMap_cons]
    change all ++ _ = _
    split
    · rename_i hl
      have hle := List.drop_eq_nil_iff.1 (List.isEmpty_iff.1 hl)
      rw [List.take_of_length_le hle, carried]
    · rw [carried, List.flatMap_cons, ← List.append_assoc]
      change _ = all.take size ++ all.drop size ++ _
      rw [List.take_append_drop]
  · cases h
  · cases h
    rfl

/-- A read that fails brings nothing. -/
theorem carried_of_read_error {e : IoError} (h : s.read size = (.error e, s')) :
    carried s.outcomes = carried s'.outcomes := by
  obtain ⟨outcomes, n⟩ := s
  rcases outcomes with _ | ⟨all | e | _, rest⟩ <;> cases h
  rfl

end

end InputStream

namespace FrameReader

/-- A fill pushes what its reads bring, which is nothing unless it says so. -/
theorem fill_eq_push (r : FrameReader) :
    ∃ got, carried r.input.outcomes = got ++ carried r.fill.2.input.outcomes ∧
      r.fill.2.decoder = r.decoder.push got ∧ (r.fill.1 = .ok true ∨ got = []) := by
  fun_induction fill r with
  | case1 r input h =>
    exact ⟨[], InputStream.carried_of_read_ok h, (Decoder.push_nil _).symm, .inr rfl⟩
  | case2 r b bytes input h => exact ⟨b :: bytes, InputStream.carried_of_read_ok h, rfl, .inl rfl⟩
  | case3 r e input h hi ih => rwa [InputStream.carried_of_read_error h]
  | case4 r e input h hi ht =>
    exact ⟨[], InputStream.carried_of_read_error h, (Decoder.push_nil _).symm, .inr rfl⟩
  | case5 r e input h hi ht =>
    exact ⟨[], InputStream.carried_of_read_error h, (Decoder.push_nil _).symm, .inr rfl⟩

/-- However many reads are made, and whatever ends them, the items handed out are those that the
decoder hands out of the bytes that the reads have brought. -/
theorem burst_eq_drain (r : FrameReader) (reads : Nat) :
    ∃ got, carried r.input.outcomes = got ++ carried (r.burst reads).2.2.input.outcomes ∧
      (r.decoder.push got).drain.1 = (r.burst reads).1 ∧
      (r.decoder.push got).drain.2.2 = (r.burst reads).2.2.decoder := by
  induction reads generalizing r with
  | zero => exact ⟨[], rfl, by rw [Decoder.push_nil]; rfl, by rw [Decoder.push_nil]; rfl⟩
  | succ reads ih =>
    obtain ⟨items, error, d, hd⟩ : ∃ items error d, r.decoder.drain = (items, error, d) :=
      ⟨_, _, _, rfl⟩
    have hpush (got : Bytes) := r.decoder.drain_push got
    have hagain : d.drain = ([], error, d) := by
      have h := r.decoder.drain_drain
      rwa [hd] at h
    rw [hd] at hpush
    cases error with
    | some e =>
      have hb : r.burst (reads + 1) = (items, some e, { r with decoder := d }) := by
        simp only [burst, hd]
      rw [hb]
      refine ⟨[], rfl, ?_, ?_⟩ <;> rw [hpush, Decoder.push_nil, hagain]
      exact List.append_nil _
    | none =>
      obtain ⟨got, hgot, hdec, hnone⟩ := fill_eq_push ⟨d, r.input⟩
      rcases hf : fill ⟨d, r.input⟩ with ⟨e | _ | _, r'⟩ <;> rw [hf] at hgot hdec hnone
      · have hb : r.burst (reads + 1) = (items, some e, r') := by simp only [burst, hd, hf]
        obtain rfl : got = [] := hnone.resolve_left nofun
        rw [hb]
        refine ⟨[], hgot, ?_, ?_⟩ <;> rw [hpush, Decoder.push_nil, hagain]
        · exact List.append_nil _
        · rw [hdec, Decoder.push_nil]
      · obtain rfl : got = [] := hnone.resolve_left nofun
        have hr : r'.decoder.drain = ([], none, d) := by
          rw [hdec, Decoder.push_nil, hagain]
        have hb : r.burst (reads + 1) = (items ++ [], none, { r' with decoder := d }) := by
          simp only [burst, hd, hf, hr]
        rw [hb]
        refine ⟨[], hgot, ?_, ?_⟩ <;> rw [hpush, Decoder.push_nil, hagain]
      · obtain ⟨more, hmore, hitems, hlast⟩ := ih r'
        have hb : r.burst (reads + 1) = (items ++ (r'.burst reads).1, (r'.burst reads).2) := by
          simp only [burst, hd, hf]
        rw [hb]
        rw [hdec, Decoder.push_push] at hitems hlast
        refine ⟨got ++ more, ?_, ?_, ?_⟩
        · rw [hgot, hmore, List.append_assoc]
        · rw [hpush, hitems]
        · rw [hpush, hlast]

end FrameReader

end PeerMessaging
