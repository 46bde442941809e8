import PeerMessaging.Wire.Frame

/-!
# The wire format

A keepalive is one zero word. A data frame is three words, the protocol word, the payload's length
and the type id, and then the payload. `appendFrame` and `encodeKeepalive` write items,
`parseHeader` reads what stands in front of a payload, and `decode` takes one whole item off a
buffer, or says that more bytes are needed. `decodeAll` takes items until the buffer has no more;
every item is at least a word long (`decode_length_lt`), so this ends.
-/

namespace PeerMessaging

/-- A data frame as it is written. -/
def frameBytes (protocol : ProtocolVersion) (f : Frame) : Bytes :=
  wordBytes protocol.headerWord ++ wordBytes (.ofNat f.payload.length) ++ wordBytes f.typeId ++
    f.payload

/-- A keepalive as it is written. -/
def keepaliveBytes : Bytes := wordBytes keepaliveWord

/-- An item as it is written. -/
def Item.bytes (protocol : ProtocolVersion) : Item → Bytes
  | .keepalive => keepaliveBytes
  | .frame f => frameBytes protocol f

/-- Writes a data frame behind `dst`, which is what the buffer becomes. Only a payload whose length
does not fit a signed word is refused, and that before anything is written. -/
def appendFrame (protocol : ProtocolVersion) (f : Frame) (dst : Bytes) :
    Except FrameError Unit × Bytes :=
  if f.payload.length > maxWireLength then
    (.error (.payloadTooLarge f.payload.length maxWireLength), dst)
  else
    (.ok (), dst ++ frameBytes protocol f)

/-- The buffer behind which a data frame has been written. -/
def encodeFrame (protocol : ProtocolVersion) (f : Frame) (dst : Bytes) : Except FrameError Bytes :=
  let (result, dst) := appendFrame protocol f dst
  result.map fun () => dst

/-- Writes a keepalive behind `dst`. -/
def encodeKeepalive (dst : Bytes) : Bytes := dst ++ keepaliveBytes

/-- What stands at the front of an item. -/
inductive Header
  | keepalive
  | frame (version : ProtocolVersion) (typeId : UInt32) (length : Nat)
  deriving DecidableEq, Repr

/-- The bytes of a header. -/
def Header.wireSize : Header → Nat
  | .keepalive => keepaliveSize
  | .frame .. => headerSize

/-- The rule for a payload's length: it is a signed word, not negative and within the limit. -/
def checkLength (config : FrameConfig) (word : UInt32) : Except FrameError Nat :=
  if word.toNat > maxWireLength then
    .error (.invalidLength (word.toNat - 0x100000000 : Int))
  else if word.toNat > config.maxPayload then
    .error (.payloadTooLarge word.toNat config.maxPayload)
  else
    .ok word.toNat

/-- Reads the header at the front of a buffer, which stays as it is; `none` asks for more bytes. A
foreign protocol is refused as soon as its first word is there. -/
def parseHeader (config : FrameConfig) : Bytes → Except FrameError (Option Header)
  | a :: b :: c :: d :: rest =>
    let word := wordOfBytes a b c d
    if word = keepaliveWord then
      .ok (some .keepalive)
    else if config.protocol.accepts word then
      match rest with
      | l₀ :: l₁ :: l₂ :: l₃ :: t₀ :: t₁ :: t₂ :: t₃ :: _ =>
        (checkLength config (wordOfBytes l₀ l₁ l₂ l₃)).map fun length =>
          some (.frame (.ofHeaderWord word) (wordOfBytes t₀ t₁ t₂ t₃) length)
      | _ => .ok none
    else
      .error (.unknownProtocol word config.protocol.signature)
  | _ => .ok none

/-- Takes one item off the front of a buffer. Where there is none yet, and where there is an error,
nothing is taken. -/
def decode (config : FrameConfig) (buffer : Bytes) : Except FrameError (Option (Item × Bytes)) :=
  match parseHeader config buffer with
  | .error e => .error e
  | .ok none => .ok none
  | .ok (some .keepalive) => .ok (some (.keepalive, buffer.drop keepaliveSize))
  | .ok (some (.frame _ typeId length)) =>
    let body := buffer.drop headerSize
    let payload := body.take length
    if payload.length < length then .ok none
    else .ok (some (.frame ⟨typeId, payload⟩, body.drop length))

/-- A buffer with a header at its front holds at least the header. -/
theorem wireSize_le_of_parseHeader {config : FrameConfig} {buffer : Bytes} {h : Header}
    (hp : parseHeader config buffer = .ok (some h)) : h.wireSize ≤ buffer.length := by
  unfold parseHeader at hp
  split at hp
  · dsimp only at hp
    split at hp
    · cases hp
      simp [Header.wireSize, keepaliveSize]
    · split at hp
      · split at hp
        · cases hc : checkLength config (wordOfBytes _ _ _ _) with
          | error e => rw [hc] at hp; cases hp
          | ok n =>
            rw [hc] at hp
            cases hp
            simp [Header.wireSize, headerSize]
        · cases hp
      · cases hp
  · cases hp

/-- Taking an item leaves a shorter buffer. -/
theorem decode_length_lt {config : FrameConfig} {buffer rest : Bytes} {item : Item}
    (h : decode config buffer = .ok (some (item, rest))) : rest.length < buffer.length := by
  unfold decode at h
  split at h
  · cases h
  · cases h
  · rename_i hp
    have := wireSize_le_of_parseHeader hp
    cases h
    simp only [Header.wireSize, keepaliveSize, List.length_drop] at *
    omega
  · rename_i hp
    have := wireSize_le_of_parseHeader hp
    dsimp only at h
    split at h
    · cases h
    · cases h
      simp only [Header.wireSize, headerSize, List.length_drop] at *
      omega

/-- What taking items off a buffer comes to: the items in order, the error that stopped it, if
one did, and the bytes left over. -/
structure Drained where
  items : List Item
  error : Option FrameError
  rest : Bytes
  deriving DecidableEq, Repr

/-- Takes items off a buffer until more bytes are needed or an error is met. -/
def decodeAll (config : FrameConfig) (buffer : Bytes) : Drained :=
  match _h : decode config buffer with
  | .error e => ⟨[], some e, buffer⟩
  | .ok none => ⟨[], none, buffer⟩
  | .ok (some (item, rest)) =>
    let more := decodeAll config rest
    { more with items := item :: more.items }
termination_by buffer.length
decreasing_by exact decode_length_lt _h

end PeerMessaging
