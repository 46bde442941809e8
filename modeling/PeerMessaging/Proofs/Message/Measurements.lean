import PeerMessaging.Link.Failure
import PeerMessaging.Proofs.Json.Real
import PeerMessaging.Proofs.Message.RoundTrip

/-!
# Measurements on the way

A codec of measurements encodes every one of them, but a value that is not finite is encoded as
`null`, which the codec on the other side refuses (`Codec.Form.parse_write_reading_of_not_finite`).
So a measurement that is sent is decoded by the receiver, with its sensor, just when its value is
finite; any other is accepted by the sender and refused by the receiver
(`Registry.measurement_decoded_iff_finite`).
-/

namespace PeerMessaging

namespace Codec.Form

/-- A measurement with a finite value is read with its sensor and a number. -/
theorem exists_parse_write_reading (label label' : String) {r : Reading}
    (h : r.value.isFinite = true) :
    ∃ y, (readingForm label').parse ((readingForm label).write r) = .ok ⟨r.sensor, y⟩ := by
  obtain ⟨y, hy⟩ := Json.exists_readsAs_real h
  exact ⟨y, parseFields_writeRecord
    (.cons (Json.readsAs_text r.sensor) (.cons hy .nil)) (by decide) rfl⟩

/-- A measurement with another value is refused. -/
theorem parse_write_reading_of_not_finite (label label' : String) {r : Reading}
    (h : ¬ r.value.isFinite = true) :
    (readingForm label').parse ((readingForm label).write r) = .error .unexpected := by
  have hrecord : Json.parseRecord [("sensor", .text), ("value", .real)]
      ((readingForm label).write r) = .error .unexpected :=
    Json.parseRecord_of_failsAs (.cons (Json.readsAs_text r.sensor) .nil) (by decide) (by simp)
      (by decide) rfl (Json.failsAs_real h) []
  simp only [readingForm, parseFields] at hrecord ⊢
  rw [hrecord]

end Codec.Form

namespace Registry
variable {sender receiver : Registry} {id : UInt32} {r : Reading}
  {label name label' name' : String}

/-- A measurement is encoded under the id of its codec, whatever its value is. -/
theorem encode_reading (hs : sender.find? id = some (.reading label name)) (r : Reading) :
    sender.encode ⟨id, .reading r⟩ = .ok ⟨id, (Codec.readingForm label).write r⟩ := by
  rw [encode_of_some (m := ⟨id, .reading r⟩) hs]
  rfl

/-- A frame with the id of a codec of measurements is decoded as its form reads the payload. -/
theorem decode_reading (hr : receiver.find? id = some (.reading label' name')) (payload : Bytes) :
    receiver.decode ⟨id, payload⟩ =
      match (Codec.readingForm label').parse payload with
      | .ok r => .ok ⟨id, .reading r⟩
      | .error fault => .error (.decode id (.json fault)) := by
  rw [decode_of_some (f := ⟨id, payload⟩) hr]
  simp only [Codec.reading, Codec.ofForm]
  cases (Codec.readingForm label').parse payload <;> rfl

/-- A measurement with a value that is not finite is refused by the receiver. -/
theorem decode_reading_of_not_finite (label : String)
    (hr : receiver.find? id = some (.reading label' name')) (h : r.value.isFinite = false) :
    receiver.decode ⟨id, (Codec.readingForm label).write r⟩ =
      .error (.decode id (.json .unexpected)) := by
  rw [decode_reading hr, Codec.Form.parse_write_reading_of_not_finite label label' (by simp [h])]

/-- Between registries that list a codec of measurements under an id, a measurement is encoded
without an error, whatever its sensor and its value are, and:
- it is decoded if and only if its value is finite;
- what is decoded is a measurement of the same sensor, under the same id;
- a value that is not finite is refused as JSON of another type, which a receiver reports as a
  message that could not be parsed. -/
theorem measurement_decoded_iff_finite (sender receiver : Registry) (id : UInt32) (r : Reading)
    {label name label' name' : String} (hs : sender.find? id = some (.reading label name))
    (hr : receiver.find? id = some (.reading label' name')) :
    ∃ f, sender.encode ⟨id, .reading r⟩ = .ok f ∧ f.typeId = id ∧
      ((∃ m, receiver.decode f = .ok m) ↔ r.value.isFinite = true) ∧
      (∀ m, receiver.decode f = .ok m → ∃ value, m = ⟨id, .reading ⟨r.sensor, value⟩⟩) ∧
      (r.value.isFinite = false →
        receiver.decode f = .error (.decode id (.json .unexpected)) ∧
        (ConnectionError.ofRegistry (.decode id (.json .unexpected))).kind = .parseFailed) := by
  refine ⟨_, encode_reading hs r, rfl, ?_⟩
  cases h : r.value.isFinite with
  | true =>
    obtain ⟨value, hvalue⟩ := Codec.Form.exists_parse_write_reading label label' h
    have hdecode : receiver.decode ⟨id, (Codec.readingForm label).write r⟩ =
        .ok ⟨id, .reading ⟨r.sensor, value⟩⟩ := by
      rw [decode_reading hr, hvalue]
    refine ⟨⟨fun _ => rfl, fun _ => ⟨_, hdecode⟩⟩, fun m hm => ?_, nofun⟩
    rw [hdecode, Except.ok.injEq] at hm
    exact ⟨value, hm.symm⟩
  | false =>
    have hdecode := decode_reading_of_not_finite label hr h
    refine ⟨⟨fun ⟨m, hm⟩ => ?_, nofun⟩, fun m hm => ?_, fun _ => ⟨hdecode, rfl⟩⟩
    · cases hdecode.symm.trans hm
    · cases hdecode.symm.trans hm

/-- A registry with a codec of measurements. -/
def station : Registry := ⟨[(7, .reading "Reading" "demo.Reading")]⟩

/-- The largest finite value is decoded. -/
theorem measurement_decoded_iff_finite_largest :
    ∃ f value, station.encode ⟨7, .reading ⟨"t1", ⟨0x7FEFFFFFFFFFFFFF⟩⟩⟩ = .ok f ∧
      station.decode f = .ok ⟨7, .reading ⟨"t1", value⟩⟩ := by
  obtain ⟨f, hencode, -, hiff, hdecoded, -⟩ :=
    measurement_decoded_iff_finite station station 7 ⟨"t1", ⟨0x7FEFFFFFFFFFFFFF⟩⟩ rfl rfl
  obtain ⟨m, hm⟩ := hiff.2 (by decide)
  obtain ⟨value, rfl⟩ := hdecoded m hm
  exact ⟨f, value, hencode, hm⟩

/-- Infinity is sent as `null` and refused. -/
theorem infinite_measurement_refused :
    station.encode ⟨7, .reading ⟨"t1", ⟨0x7FF0000000000000⟩⟩⟩ =
        .ok ⟨7, Json.ascii "\x7b\"sensor\":\"t1\",\"value\":null\x7d"⟩ ∧
      station.decode ⟨7, Json.ascii "\x7b\"sensor\":\"t1\",\"value\":null\x7d"⟩ =
        .error (.decode 7 (.json .unexpected)) ∧
      (ConnectionError.ofRegistry (.decode 7 (.json .unexpected))).kind = .parseFailed := by
  have hpayload : (Codec.readingForm "Reading").write ⟨"t1", ⟨0x7FF0000000000000⟩⟩ =
      Json.ascii "\x7b\"sensor\":\"t1\",\"value\":null\x7d" := by decide +kernel
  rw [← hpayload]
  exact ⟨encode_reading rfl _, decode_reading_of_not_finite _ rfl (by decide), rfl⟩

end Registry

end PeerMessaging
