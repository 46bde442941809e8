import PeerMessaging.Wire.Format

/-!
# The resumable decoder

A `Decoder` is given bytes in whatever pieces the stream delivers them (`Decoder.push`) and hands
out one item at a time (`Decoder.next`). It consumes a header as soon as the header is complete, and
from then on collects the payload in a `PartialFrame`, whatever the limit on payloads becomes
meanwhile. `Decoder.drain` takes every item there is; each item handed out makes what is left
smaller (`Decoder.weight_next_lt`), so this ends.
-/

namespace PeerMessaging

/-- A data frame whose header has been read and whose payload is still coming in. -/
structure PartialFrame where
  typeId : UInt32
  /-- The payload length that the header announced. -/
  expected : Nat
  /-- The payload bytes so far, the last one first. -/
  latest : Bytes := []
  /-- How many they are. -/
  count : Nat := 0
  count_eq : count = latest.length := by rfl
  /-- No more has come in than was announced. -/
  le : count ≤ expected := by exact Nat.zero_le _
  deriving DecidableEq, Repr

namespace PartialFrame

/-- The payload bytes so far. -/
def received (p : PartialFrame) : Bytes := p.latest.reverse

/-- How many payload bytes are still to come. -/
def remaining (p : PartialFrame) : Nat := p.expected - p.count

@[ext] theorem ext {p q : PartialFrame} (ht : p.typeId = q.typeId) (he : p.expected = q.expected)
    (hl : p.latest = q.latest) : p = q := by
  obtain ⟨_, _, _, _, hp, _⟩ := p
  obtain ⟨_, _, _, _, hq, _⟩ := q
  subst ht he hl hp hq
  rfl

theorem remaining_eq (p : PartialFrame) : p.remaining = p.expected - p.latest.length := by
  rw [remaining, p.count_eq]

/-- What has come in and what is still to come make up what was announced. -/
theorem length_add_remaining (p : PartialFrame) : p.latest.length + p.remaining = p.expected := by
  rw [remaining, ← p.count_eq]
  exact Nat.add_sub_cancel' p.le

/-- Of a frame that has just begun all is still to come. -/
@[simp] theorem remaining_new (typeId : UInt32) (expected : Nat) :
    remaining { typeId, expected } = expected := rfl

/-- The frame with the next bytes of its payload, as far as it needs them. -/
def take (p : PartialFrame) (bytes : Bytes) : PartialFrame where
  typeId := p.typeId
  expected := p.expected
  latest := (bytes.take p.remaining).reverse ++ p.latest
  count := p.count + (bytes.take p.remaining).length
  count_eq := by
    rw [List.length_append, List.length_reverse, p.count_eq, Nat.add_comm]
  le := by
    have hle := p.le
    rw [List.length_take, remaining]
    omega

@[simp] theorem typeId_take (p : PartialFrame) (bytes : Bytes) :
    (p.take bytes).typeId = p.typeId := rfl

@[simp] theorem expected_take (p : PartialFrame) (bytes : Bytes) :
    (p.take bytes).expected = p.expected := rfl

@[simp] theorem received_take (p : PartialFrame) (bytes : Bytes) :
    (p.take bytes).received = p.received ++ bytes.take p.remaining := by
  simp [take, received]

@[simp] theorem remaining_take (p : PartialFrame) (bytes : Bytes) :
    (p.take bytes).remaining = p.remaining - bytes.length := by
  simp only [take, remaining, List.length_take]
  omega

/-- Taking bytes in two goes is taking them in one. -/
theorem take_take (p : PartialFrame) (bytes more : Bytes) :
    (p.take bytes).take more = p.take (bytes ++ more) := by
  ext1
  · rfl
  · rfl
  · have hrest := p.remaining_take bytes
    simp only [take] at hrest ⊢
    rw [hrest, List.take_append, List.reverse_append, List.append_assoc]

end PartialFrame

/-- A decoder that can stop and go on anywhere in an item. -/
structure Decoder where
  config : FrameConfig
  /-- The bytes not looked at yet. -/
  buffer : Bytes
  /-- The frame being collected. -/
  pending : Option PartialFrame
  deriving DecidableEq, Repr

namespace Decoder

/-- A decoder that has received nothing. -/
def new (config : FrameConfig) : Decoder := ⟨config, [], none⟩

/-- Adds bytes received from the peer. -/
def push (d : Decoder) (bytes : Bytes) : Decoder := { d with buffer := d.buffer ++ bytes }

/-- Gives a frame as much of `buffer` as it still needs, and hands it out once it has all. -/
def collect (d : Decoder) (p : PartialFrame) (buffer : Bytes) : Option Item × Decoder :=
  let rest := buffer.drop p.remaining
  let p := p.take buffer
  if p.remaining = 0 then
    (some (.frame ⟨p.typeId, p.received⟩), { d with buffer := rest, pending := none })
  else
    (none, { d with buffer := rest, pending := some p })

/-- Takes the next item; `none` asks for more bytes. An error changes nothing, so it is met again
until the decoder is reset or its limit is raised. -/
def next (d : Decoder) : Except FrameError (Option Item) × Decoder :=
  match d.pending with
  | some p =>
    let (item, d) := d.collect p d.buffer
    (.ok item, d)
  | none =>
    match parseHeader d.config d.buffer with
    | .error e => (.error e, d)
    | .ok none => (.ok none, d)
    | .ok (some .keepalive) =>
      (.ok (some .keepalive), { d with buffer := d.buffer.drop keepaliveSize })
    | .ok (some (.frame _ typeId length)) =>
      let (item, d) := d.collect { typeId, expected := length } (d.buffer.drop headerSize)
      (.ok item, d)

/-- The bytes received and not yet handed out, headers of frames being collected apart. -/
def bufferedLength (d : Decoder) : Nat :=
  d.buffer.length + (d.pending.map (·.latest.length)).getD 0

/-- Drops every byte and the frame being collected. -/
def reset (d : Decoder) : Decoder := { d with buffer := [], pending := none }

/-- Sets the limit that the headers from here on are held to. -/
def setMaxPayload (d : Decoder) (max : Nat) : Decoder :=
  { d with config := { d.config with maxPayload := max } }

/-- What is left to hand out, as a number: the bytes not looked at, and one for a frame begun. -/
def weight (d : Decoder) : Nat := d.buffer.length + if d.pending.isSome then 1 else 0

/-- A frame that is handed out leaves no frame begun and at most the bytes it was given. -/
theorem weight_collect_le {d d' : Decoder} {p : PartialFrame} {buffer : Bytes} {item : Item}
    (h : d.collect p buffer = (some item, d')) : d'.weight ≤ buffer.length := by
  unfold collect at h
  dsimp only at h
  split at h
  · cases h
    simp [weight]
  · cases h

/-- Handing out an item leaves less to hand out. -/
theorem weight_next_lt {d d' : Decoder} {item : Item} (h : d.next = (.ok (some item), d')) :
    d'.weight < d.weight := by
  unfold next at h
  split at h
  · rename_i p hp
    generalize hc : d.collect p d.buffer = r at h
    obtain ⟨i, d''⟩ := r
    cases h
    have := weight_collect_le hc
    simp only [weight, hp, Option.isSome_some, if_true] at *
    omega
  · rename_i hn
    split at h
    · cases h
    · cases h
    · rename_i hp
      have := wireSize_le_of_parseHeader hp
      cases h
      simp only [weight, hn, Header.wireSize, keepaliveSize, Option.isSome_none, Bool.false_eq_true,
        if_false, List.length_drop] at *
      omega
    · rename_i typeId length hp
      have := wireSize_le_of_parseHeader hp
      generalize hc : d.collect { typeId, expected := length } (d.buffer.drop headerSize) = r at h
      obtain ⟨i, d''⟩ := r
      cases h
      have := weight_collect_le hc
      simp only [weight, Header.wireSize, headerSize, List.length_drop] at *
      omega

/-- Takes items until more bytes are needed or an error is met. -/
def drain (d : Decoder) : List Item × Option FrameError × Decoder :=
  match _h : d.next with
  | (.error e, d') => ([], some e, d')
  | (.ok none, d') => ([], none, d')
  | (.ok (some item), d') =>
    let (items, error, last) := drain d'
    (item :: items, error, last)
termination_by d.weight
decreasing_by exact weight_next_lt _h

/-- Adds bytes and takes every item they complete. -/
def feed (d : Decoder) (bytes : Bytes) : List Item × Option FrameError × Decoder :=
  (d.push bytes).drain

/-- Adds the pieces of a stream one by one, taking every item after each, up to the first error. -/
def feedAll (d : Decoder) : List Bytes → List Item × Option FrameError × Decoder
  | [] => ([], none, d)
  | piece :: pieces =>
    match d.feed piece with
    | (items, some e, d) => (items, some e, d)
    | (items, none, d) =>
      let (more, error, last) := feedAll d pieces
      (items ++ more, error, last)

end Decoder

end PeerMessaging
