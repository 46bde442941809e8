import PeerMessaging.Stream.Input
import PeerMessaging.Wire.Decoder

/-!
# Reading frames from a stream

A `FrameReader` is a decoder fed from a stream. `FrameReader.fill` makes one read and keeps what it
brings; `FrameReader.poll` hands out an item after at most one read, `FrameReader.readFrame` waits
for a data frame, and `FrameReader.buffered` never reads. `FrameReader.burst` makes several reads
and hands out every item they complete. What has been received is never lost: a call that times
out can be repeated.
-/

namespace PeerMessaging

/-- The most bytes that one read asks for. -/
def readChunkSize : Nat := 8 * 1024

/-- A decoder and the stream that feeds it. -/
structure FrameReader where
  decoder : Decoder
  input : InputStream
  deriving DecidableEq, Repr

namespace FrameReader

/-- A reader that has received nothing. -/
def new (config : FrameConfig) (input : InputStream) : FrameReader := ⟨.new config, input⟩

/-- Makes one read, making an interrupted one again. The answer is `false` if the read timed out;
the end of the stream is an error. -/
def fill (r : FrameReader) : Except FrameError Bool × FrameReader :=
  match _h : r.input.read readChunkSize with
  | (.ok [], input) => (.error .connectionClosed, { r with input })
  | (.ok (b :: bytes), input) => (.ok true, ⟨r.decoder.push (b :: bytes), input⟩)
  | (.error e, input) =>
    if e.isInterrupted then fill { r with input }
    else if e.isTimeout then (.ok false, { r with input })
    else (.error (.io e), { r with input })
termination_by r.input.weight
decreasing_by exact InputStream.weight_read_lt_of_error _h

/-- Hands out an item that needs no read. -/
def buffered (r : FrameReader) : Except FrameError (Option Item) × FrameReader :=
  let (item, decoder) := r.decoder.next
  (item, { r with decoder })

/-- Hands out an item, after one read if there was none; `none` if the read timed out or brought
too little. -/
def poll (r : FrameReader) : Except FrameError (Option Item) × FrameReader :=
  match r.buffered with
  | (.ok none, r) =>
    match r.fill with
    | (.ok true, r) => r.buffered
    | (.ok false, r) => (.ok none, r)
    | (.error e, r) => (.error e, r)
  | result => result

/-- A fill that brings bytes uses up part of the stream. -/
theorem weight_fill_lt {r r' : FrameReader} (h : r.fill = (.ok true, r')) :
    r'.input.weight < r.input.weight := by
  fun_induction fill r with
  | case1 => cases h
  | case2 r b bytes input hr =>
    cases h
    exact InputStream.weight_read_lt_of_ok hr (by simp)
  | case3 r e input hr hi ih => exact Nat.lt_trans (ih h) (InputStream.weight_read_lt_of_error hr)
  | case4 => cases h
  | case5 => cases h

/-- Hands out the next data frame that needs no read, passing over keepalives. -/
def bufferedFrame (d : Decoder) : Except FrameError (Option Frame) × Decoder :=
  match _h : d.next with
  | (.error e, d') => (.error e, d')
  | (.ok none, d') => (.ok none, d')
  | (.ok (some (.frame f)), d') => (.ok (some f), d')
  | (.ok (some .keepalive), d') => bufferedFrame d'
termination_by d.weight
decreasing_by exact Decoder.weight_next_lt _h

/-- Waits for the next data frame, passing over keepalives. A read that times out ends the wait
with an error. -/
def readFrame (r : FrameReader) : Except FrameError Frame × FrameReader :=
  match bufferedFrame r.decoder with
  | (.error e, decoder) => (.error e, { r with decoder })
  | (.ok (some f), decoder) => (.ok f, { r with decoder })
  | (.ok none, decoder) =>
    match _h : FrameReader.fill ⟨decoder, r.input⟩ with
    | (.ok true, r') => readFrame r'
    | (.ok false, r') => (.error (.io (.plain .timedOut)), r')
    | (.error e, r') => (.error e, r')
termination_by r.input.weight
decreasing_by exact weight_fill_lt (r := ⟨decoder, r.input⟩) _h

/-- Makes up to `reads` reads, stopping at the first that times out, and hands out every item that
is complete. A failure comes with the items completed before it. -/
def burst (r : FrameReader) : Nat → List Item × Option FrameError × FrameReader
  | 0 =>
    let (items, error, decoder) := r.decoder.drain
    (items, error, { r with decoder })
  | reads + 1 =>
    match r.decoder.drain with
    | (items, some e, decoder) => (items, some e, { r with decoder })
    | (items, none, decoder) =>
      match FrameReader.fill ⟨decoder, r.input⟩ with
      | (.ok true, r) =>
        let (more, error, r) := burst r reads
        (items ++ more, error, r)
      | (.ok false, r) =>
        let (more, error, decoder) := r.decoder.drain
        (items ++ more, error, { r with decoder })
      | (.error e, r) => (items, some e, r)

/-- Sets the limit that the headers from here on are held to. -/
def setMaxPayload (r : FrameReader) (max : Nat) : FrameReader :=
  { r with decoder := r.decoder.setMaxPayload max }

end FrameReader

end PeerMessaging
