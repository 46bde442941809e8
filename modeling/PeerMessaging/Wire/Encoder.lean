import PeerMessaging.Wire.Format

/-!
# The outgoing buffer

An `Encoder` holds the encoded items that have not been written yet. Items are appended whole, or
refused whole when the payload is longer than allowed.
-/

namespace PeerMessaging

/-- Items on their way out. -/
structure Encoder where
  config : FrameConfig
  /-- The encoded bytes not written yet. -/
  pending : Bytes
  deriving DecidableEq, Repr

namespace Encoder

/-- An encoder with nothing to write. -/
def new (config : FrameConfig) : Encoder := ⟨config, []⟩

/-- Appends a data frame. -/
def enqueue (e : Encoder) (f : Frame) : Except FrameError Unit × Encoder :=
  if f.payload.length > e.config.maxPayload then
    (.error (.payloadTooLarge f.payload.length e.config.maxPayload), e)
  else
    let (result, pending) := appendFrame e.config.protocol f e.pending
    (result, { e with pending })

/-- Appends a keepalive. -/
def enqueueKeepalive (e : Encoder) : Encoder := { e with pending := encodeKeepalive e.pending }

/-- There are bytes to write. -/
def hasPending (e : Encoder) : Bool := !e.pending.isEmpty

/-- Drops the bytes not written yet; the answer is how many there were. -/
def discard (e : Encoder) : Nat × Encoder := (e.pending.length, { e with pending := [] })

/-- Sets the limit that frames are held to from here on. -/
def setMaxPayload (e : Encoder) (max : Nat) : Encoder :=
  { e with config := { e.config with maxPayload := max } }

end Encoder

end PeerMessaging
