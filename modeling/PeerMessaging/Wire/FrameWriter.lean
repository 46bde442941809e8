import PeerMessaging.Stream.Output
import PeerMessaging.Wire.Encoder

/-!
# Writing frames to a stream

A `FrameWriter` is an encoder and the stream that its bytes go to. `FrameWriter.flushPending` writes
until nothing is left, the stream times out or a deadline has passed; what the stream did not take
stays, and the next flush goes on at the exact byte. `FrameWriter.send` queues one frame and waits
for it to be written.
-/

namespace PeerMessaging

/-- An encoder and the stream it writes to. -/
structure FrameWriter where
  encoder : Encoder
  output : OutputStream
  deriving DecidableEq, Repr

namespace FrameWriter

/-- A writer with nothing to write. -/
def new (config : FrameConfig) (output : OutputStream) : FrameWriter := ⟨.new config, output⟩

/-- Offers the pending bytes to the stream until it has taken them all, which is `true`. After a
write that takes some of them, a deadline that has passed ends this, and so does a time-out. -/
def writePending (deadline : Option Moment) (w : FrameWriter) :
    Except FrameError Bool × FrameWriter :=
  if _hp : w.encoder.pending = [] then
    (.ok true, w)
  else
    match _h : w.output.write w.encoder.pending with
    | (.ok 0, output) => (.error .connectionClosed, { w with output })
    | (.ok (n + 1), output) =>
      let w' : FrameWriter :=
        ⟨{ w.encoder with pending := w.encoder.pending.drop (n + 1) }, output⟩
      if w'.encoder.hasPending && deadline.any (· ≤ output.now) then (.ok false, w')
      else writePending deadline w'
    | (.error e, output) =>
      if e.isInterrupted then writePending deadline { w with output }
      else if e.isTimeout then (.ok false, { w with output })
      else (.error (.io e), { w with output })
termination_by w.output.writes.length + w.encoder.pending.length
decreasing_by
  · have hl : 0 < w.encoder.pending.length := List.length_pos_iff.2 _hp
    simp only [List.length_drop]
    rcases OutputStream.writes_write _h with hw | ⟨hw, hw', -⟩
    · omega
    · simp only [hw, hw', List.length_nil]
      omega
  · rcases OutputStream.writes_write _h with hw | ⟨-, -, hw⟩
    · exact Nat.add_lt_add_right hw _
    · cases hw

/-- Asks the stream to pass on what it has taken; `false` if that timed out. -/
def flushStream (output : OutputStream) : Except FrameError Bool × OutputStream :=
  match _h : output.flush with
  | (.ok (), output) => (.ok true, output)
  | (.error e, output) =>
    if e.isInterrupted then flushStream output
    else if e.isTimeout then (.ok false, output)
    else (.error (.io e), output)
termination_by output.flushes.length
decreasing_by exact OutputStream.flushes_flush_lt _h

/-- Writes the pending bytes and passes them on. The answer is `false` if the stream timed out or
the deadline passed with bytes left. -/
def flushPending (deadline : Option Moment) (w : FrameWriter) :
    Except FrameError Bool × FrameWriter :=
  match w.writePending deadline with
  | (.ok true, w) =>
    let (result, output) := flushStream w.output
    (result, { w with output })
  | result => result

/-- Writes the pending bytes and waits for that; a time-out is an error. -/
def finish (w : FrameWriter) : Except FrameError Unit × FrameWriter :=
  match w.flushPending none with
  | (.ok true, w) => (.ok (), w)
  | (.ok false, w) => (.error (.io (.plain .timedOut)), w)
  | (.error e, w) => (.error e, w)

/-- Queues a data frame without writing it. -/
def enqueue (w : FrameWriter) (f : Frame) : Except FrameError Unit × FrameWriter :=
  let (result, encoder) := w.encoder.enqueue f
  (result, { w with encoder })

/-- Queues a keepalive without writing it. -/
def enqueueKeepalive (w : FrameWriter) : FrameWriter :=
  { w with encoder := w.encoder.enqueueKeepalive }

/-- Queues a data frame and waits for it to be written. -/
def send (w : FrameWriter) (f : Frame) : Except FrameError Unit × FrameWriter :=
  match w.enqueue f with
  | (.ok (), w) => w.finish
  | refused => refused

/-- Queues a keepalive and waits for it to be written. -/
def sendKeepalive (w : FrameWriter) : Except FrameError Unit × FrameWriter :=
  w.enqueueKeepalive.finish

/-- Drops the bytes not written yet; the answer is how many there were. -/
def discard (w : FrameWriter) : Nat × FrameWriter :=
  let (dropped, encoder) := w.encoder.discard
  (dropped, { w with encoder })

/-- Sets the limit that frames are held to from here on. -/
def setMaxPayload (w : FrameWriter) (max : Nat) : FrameWriter :=
  { w with encoder := w.encoder.setMaxPayload max }

end FrameWriter

end PeerMessaging
