import PeerMessaging.Bytes
import PeerMessaging.Net.IoError
import PeerMessaging.Time

/-!
# Streams that are written

A stream to write to is known by what its writes and flushes come to, one after another, and by how
long each takes (`OutputStream`). A write takes at most the bytes it is offered; a write after the
last one listed takes them all. The stream keeps what it has taken and a clock.
-/

namespace PeerMessaging

/-- What a write comes to. -/
inductive WriteOutcome
  /-- The stream takes this many bytes, if it is offered as many. -/
  | accept (count : Nat)
  | fail (error : IoError)
  deriving DecidableEq, Repr

/-- What a flush comes to. -/
inductive FlushOutcome
  | done
  | fail (error : IoError)
  deriving DecidableEq, Repr

/-- What a call comes to and how long it takes. -/
structure Timed (α : Type) where
  outcome : α
  elapsed : Nat := 0
  deriving DecidableEq, Repr

/-- A stream to write to. -/
structure OutputStream where
  /-- What the writes to come will come to. -/
  writes : List (Timed WriteOutcome) := []
  /-- What the flushes to come will come to. -/
  flushes : List (Timed FlushOutcome) := []
  /-- The time. -/
  now : Moment := 0
  /-- The bytes taken so far. -/
  accepted : Bytes := []
  /-- How many writes there have been. -/
  writeCalls : Nat := 0
  /-- How many flushes there have been. -/
  flushCalls : Nat := 0
  deriving DecidableEq, Repr

namespace OutputStream

/-- Offers bytes; the answer is how many were taken. -/
def write (bytes : Bytes) (s : OutputStream) : Except IoError Nat × OutputStream :=
  let s := { s with writeCalls := s.writeCalls + 1 }
  match s.writes with
  | [] => (.ok bytes.length, { s with accepted := s.accepted ++ bytes })
  | ⟨.accept n, elapsed⟩ :: rest =>
    let taken := bytes.take n
    (.ok taken.length,
      { s with writes := rest, now := s.now + elapsed, accepted := s.accepted ++ taken })
  | ⟨.fail e, elapsed⟩ :: rest =>
    (.error e, { s with writes := rest, now := s.now + elapsed })

/-- Asks the stream to pass on what it has taken. -/
def flush (s : OutputStream) : Except IoError Unit × OutputStream :=
  let s := { s with flushCalls := s.flushCalls + 1 }
  match s.flushes with
  | [] => (.ok (), s)
  | ⟨.done, elapsed⟩ :: rest => (.ok (), { s with flushes := rest, now := s.now + elapsed })
  | ⟨.fail e, elapsed⟩ :: rest => (.error e, { s with flushes := rest, now := s.now + elapsed })

/-- A write uses up what it came to, or takes all that it is offered. -/
theorem writes_write {bytes : Bytes} {s s' : OutputStream} {r : Except IoError Nat}
    (h : s.write bytes = (r, s')) :
    s'.writes.length < s.writes.length ∨ s.writes = [] ∧ s'.writes = [] ∧ r = .ok bytes.length := by
  unfold write at h
  dsimp only at h
  split at h
  · rename_i hw
    cases h
    exact .inr ⟨hw, hw, rfl⟩
  · rename_i hw
    cases h
    exact .inl (by simp [hw])
  · rename_i hw
    cases h
    exact .inl (by simp [hw])

/-- A flush that fails uses up what it came to. -/
theorem flushes_flush_lt {s s' : OutputStream} {e : IoError} (h : s.flush = (.error e, s')) :
    s'.flushes.length < s.flushes.length := by
  unfold flush at h
  dsimp only at h
  split at h
  · cases h
  · cases h
  · rename_i hf
    cases h
    simp [hf]

end OutputStream

end PeerMessaging
