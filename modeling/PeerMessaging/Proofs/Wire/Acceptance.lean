import PeerMessaging.Proofs.Wire.Lockstep
import PeerMessaging.Proofs.Wire.Writing
import PeerMessaging.Wire.StreamCodec

/-!
# What is sent and what arrives

A sender that accepts a frame has held its payload to the limits that a receiver of the same
settings holds it to, and writes its own signature. So the frame arrives (`Decoder.feed_of_spells`)
unless the version is the one whose word is zero: a frame under that version opens like a keepalive
and is read as one (`Decoder.feed_frameBytes_of_zero`). No other setting keeps an accepted frame
from being read back (`accepted_frame_read_back_iff`).
-/

namespace PeerMessaging

/-- The word of a version is zero just when all its parts are. -/
theorem ProtocolVersion.headerWord_eq_zero_iff {v : ProtocolVersion} :
    v.headerWord = 0 ↔ v = ⟨0, 0, 0⟩ := by
  constructor
  · intro h
    rw [← ofHeaderWord_headerWord v, h]
    rfl
  · rintro rfl
    rfl

section
variable {config : FrameConfig}

/-! ## Receiving -/

namespace Decoder

/-- A decoder that stands for no bytes is as good as new. -/
theorem Holds.eq_new {d : Decoder} (h : d.Holds config []) : d = new config := by
  generalize hp : ([] : Bytes) = plain at h
  cases h with
  | idle => rw [new, hp]
  | collecting => cases hp

/-- Fed with one item a decoder hands it out and is as good as new. -/
theorem feed_of_spells {item : Item} {bytes : Bytes} (h : Spells config item bytes) :
    (new config).feed bytes = ([item], none, new config) := by
  have hholds : ((new config).push bytes).Holds config bytes := .idle bytes
  obtain ⟨hitems, herror, hrest⟩ := hholds.drain
  have hall : decodeAll config bytes = ⟨[item], none, []⟩ := by
    have hd := decode_of_spells h []
    rw [List.append_nil] at hd
    rw [decodeAll_of_item hd, decodeAll_of_none rfl]
  rw [hall] at hitems herror hrest
  exact Prod.ext hitems (Prod.ext herror hrest.eq_new)

/-- Fed with a frame under the version whose word is zero a decoder hands out a keepalive first. -/
theorem feed_frameBytes_of_zero (config : FrameConfig) {v : ProtocolVersion}
    (hv : v.headerWord = 0) (f : Frame) :
    ∃ items, ((new config).feed (frameBytes v f)).1 = .keepalive :: items := by
  have hitems : ((new config).feed (frameBytes v f)).1 =
      (decodeAll config (frameBytes v f)).items := items_drain rfl
  have hd : decode config (frameBytes v f) =
      .ok (some (.keepalive, wordBytes (.ofNat f.payload.length) ++ wordBytes f.typeId ++
        f.payload)) := by
    rw [frameBytes, hv, List.append_assoc, List.append_assoc, List.append_assoc]
    exact decode_of_spells .keepalive _
  rw [hitems, decodeAll_of_item hd]
  exact ⟨_, rfl⟩

/-- A frame that a receiver admits is handed out alone just when its version is not the one whose
word is zero. -/
theorem feed_frameBytes_iff {f : Frame} (hl : f.payload.length ≤ config.longest) :
    (new config).feed (frameBytes config.protocol f) = ([.frame f], none, new config) ↔
      config.protocol ≠ ⟨0, 0, 0⟩ := by
  rw [Ne, ← ProtocolVersion.headerWord_eq_zero_iff]
  constructor
  · intro h hz
    obtain ⟨items, hi⟩ := feed_frameBytes_of_zero config hz f
    rw [h] at hi
    cases hi
  · intro hv
    exact feed_of_spells (spells_frameBytes hv rfl hl)

end Decoder

/-! ## Sending -/

/-- What a writer accepts is within the limits, and is queued as a frame under its version. -/
theorem FrameWriter.of_enqueue_ok {w w' : FrameWriter} {f : Frame}
    (h : w.enqueue f = (.ok (), w')) :
    f.payload.length ≤ w.encoder.config.longest ∧
      w' = w.queue (frameBytes w.encoder.config.protocol f) := by
  rcases Nat.lt_or_ge w.encoder.config.longest f.payload.length with hl | hl
  · obtain ⟨max, he⟩ := enqueue_of_gt hl
    rw [he] at h
    cases h
  · rw [enqueue_of_le hl] at h
    cases h
    exact ⟨hl, rfl⟩

/-- What a stream codec accepts is within the limits, and is appended as a frame under its
version. -/
theorem StreamCodec.of_encodeFrame_ok {f : Frame} {dst dst' : Bytes}
    (h : encodeFrame config f dst = .ok dst') :
    f.payload.length ≤ config.longest ∧ dst' = dst ++ frameBytes config.protocol f := by
  unfold encodeFrame appendFrame PeerMessaging.appendFrame at h
  split at h
  rename_i heq
  split at heq
  · cases heq
    cases h
  · split at heq <;> cases heq <;> cases h
    exact ⟨Nat.le_min.2 ⟨by omega, by omega⟩, rfl⟩

/-- What a sender accepts is read back, but for one version. Whatever the settings and the frame
are, if a writer or a stream codec accepts the frame, then a decoder of the same settings, fed the
bytes that were appended, hands out this frame and nothing else and is left with nothing, just when
the version is not the one with signature, major and minor zero. -/
theorem accepted_frame_read_back_iff (config : FrameConfig) (f : Frame) :
    (∀ w w' : FrameWriter, w.encoder.config = config → w.enqueue f = (.ok (), w') →
      ∃ bytes, w'.encoder.pending = w.encoder.pending ++ bytes ∧
        ((Decoder.new config).feed bytes = ([.frame f], none, .new config) ↔
          config.protocol ≠ ⟨0, 0, 0⟩)) ∧
    ∀ dst dst' : Bytes, StreamCodec.encodeFrame config f dst = .ok dst' →
      ∃ bytes, dst' = dst ++ bytes ∧
        ((Decoder.new config).feed bytes = ([.frame f], none, .new config) ↔
          config.protocol ≠ ⟨0, 0, 0⟩) := by
  refine ⟨fun w w' hw h => ?_, fun dst dst' h => ?_⟩
  · subst hw
    obtain ⟨hl, rfl⟩ := FrameWriter.of_enqueue_ok h
    exact ⟨_, rfl, Decoder.feed_frameBytes_iff hl⟩
  · obtain ⟨hl, rfl⟩ := StreamCodec.of_encodeFrame_ok h
    exact ⟨_, rfl, Decoder.feed_frameBytes_iff hl⟩

/-- A frame whose type id and payload look like the rest of a header and a payload. -/
def disguised : Frame := ⟨4, [0, 0, 0, 9, 1, 2, 3, 4]⟩

/-- Under the version of the default settings it is read back, whoever has accepted it. -/
theorem accepted_frame_read_back_default :
    (∃ w bytes, (FrameWriter.new {} {}).enqueue disguised = (.ok (), w) ∧
      w.encoder.pending = bytes ∧
      (Decoder.new {}).feed bytes = ([.frame disguised], none, .new {})) ∧
    ∃ bytes, StreamCodec.encodeFrame {} disguised [] = .ok bytes ∧
      (Decoder.new {}).feed bytes = ([.frame disguised], none, .new {}) := by
  have hmarked : ({} : FrameConfig).protocol ≠ ⟨0, 0, 0⟩ := by decide
  obtain ⟨written, hwritten, hwriter⟩ :=
    (accepted_frame_read_back_iff {} disguised).1 (.new {} {}) _ rfl rfl
  obtain ⟨appended, happended, hcodec⟩ := (accepted_frame_read_back_iff {} disguised).2 [] _ rfl
  exact ⟨⟨_, written, rfl, hwritten, hwriter.2 hmarked⟩,
    ⟨appended, congrArg Except.ok happended, hcodec.2 hmarked⟩⟩

/-- The settings under which a frame can be taken for something else. -/
def unmarked : FrameConfig := { protocol := ⟨0, 0, 0⟩ }

/-- A writer and a stream codec accept the frame, and what a decoder makes of the bytes is a
keepalive and a frame that nobody sent. -/
theorem accepted_frame_read_as_another :
    ∃ bytes, (FrameWriter.new unmarked {}).enqueue disguised =
        (.ok (), ⟨⟨unmarked, bytes⟩, {}⟩) ∧
      StreamCodec.encodeFrame unmarked disguised [] = .ok bytes ∧
      (Decoder.new unmarked).feed bytes =
        ([.keepalive, .frame ⟨9, [1, 2, 3, 4]⟩], none, .new unmarked) ∧
      (Decoder.new unmarked).feed bytes ≠ ([.frame disguised], none, .new unmarked) := by
  have hread : (Decoder.new unmarked).feed (frameBytes unmarked.protocol disguised) =
      ([.keepalive, .frame ⟨9, [1, 2, 3, 4]⟩], none, .new unmarked) := by
    rw [Decoder.feed, Decoder.drain_of_item rfl, Decoder.drain_of_item rfl,
      Decoder.drain_of_none rfl]
    rfl
  refine ⟨frameBytes unmarked.protocol disguised, rfl, rfl, hread, ?_⟩
  rw [hread]
  intro h
  cases h

end

end PeerMessaging
