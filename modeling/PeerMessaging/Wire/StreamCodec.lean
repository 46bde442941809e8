import PeerMessaging.Wire.Format

/-!
# Frames over a buffered stream

A stream codec works on a buffer that somebody else fills and empties: it takes items off the buffer
of received bytes and appends items to the buffer of bytes to send. Unlike
`PeerMessaging.appendFrame` it holds the frames it writes to the configured limit, and at the end of
the stream it tells a clean end from one in the middle of an item.
-/

namespace PeerMessaging.StreamCodec

/-- Takes an item off the buffer once the stream has ended. Bytes that complete no item are a
stream cut short. -/
def decodeEnd (config : FrameConfig) (buffer : Bytes) :
    Except FrameError (Option (Item × Bytes)) :=
  match decode config buffer with
  | .ok none => if buffer.isEmpty then .ok none else .error .connectionClosed
  | r => r

/-- Appends a data frame, unless its payload is longer than allowed. -/
def appendFrame (config : FrameConfig) (f : Frame) (dst : Bytes) : Except FrameError Unit × Bytes :=
  if f.payload.length > config.maxPayload then
    (.error (.payloadTooLarge f.payload.length config.maxPayload), dst)
  else
    PeerMessaging.appendFrame config.protocol f dst

/-- Appends an item of either kind. -/
def appendItem (config : FrameConfig) (item : Item) (dst : Bytes) :
    Except FrameError Unit × Bytes :=
  match item with
  | .keepalive => (.ok (), encodeKeepalive dst)
  | .frame f => appendFrame config f dst

/-- The buffer that a data frame has been appended to. -/
def encodeFrame (config : FrameConfig) (f : Frame) (dst : Bytes) : Except FrameError Bytes :=
  let (result, dst) := appendFrame config f dst
  result.map fun () => dst

/-- Taking an item at the end of the stream leaves a shorter buffer. -/
theorem decodeEnd_length_lt {config : FrameConfig} {buffer rest : Bytes} {item : Item}
    (h : decodeEnd config buffer = .ok (some (item, rest))) : rest.length < buffer.length := by
  unfold decodeEnd at h
  split at h
  · split at h <;> cases h
  · exact decode_length_lt h

/-- Takes the items left when the stream has ended. -/
def decodeRest (config : FrameConfig) (buffer : Bytes) : Drained :=
  match _h : decodeEnd config buffer with
  | .error e => ⟨[], some e, buffer⟩
  | .ok none => ⟨[], none, buffer⟩
  | .ok (some (item, rest)) =>
    let more := decodeRest config rest
    { more with items := item :: more.items }
termination_by buffer.length
decreasing_by exact decodeEnd_length_lt _h

/-- Reads a stream to its end: after each piece every item it completes, and then the items left
when the stream closes. -/
def readAll (config : FrameConfig) (buffer : Bytes) : List Bytes → Drained
  | [] => decodeRest config buffer
  | piece :: pieces =>
    let now := decodeAll config (buffer ++ piece)
    match now.error with
    | some _ => now
    | none =>
      let later := readAll config now.rest pieces
      { later with items := now.items ++ later.items }

end PeerMessaging.StreamCodec
