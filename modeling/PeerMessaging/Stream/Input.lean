import PeerMessaging.Bytes
import PeerMessaging.Net.IoError

/-!
# Streams that are read

A stream to read from is known by what its reads come to, one after another (`InputStream`). A read
hands over at most as many bytes as it is asked for, and what is left comes with the next one; a
read of no bytes is the end of the stream, and so is every read after the last one listed.
-/

namespace PeerMessaging

/-- What a read comes to. -/
inductive ReadOutcome
  | data (bytes : Bytes)
  | fail (error : IoError)
  | eof
  deriving DecidableEq, Repr

/-- A stream to read from: the reads still to come, and how many there have been. -/
structure InputStream where
  outcomes : List ReadOutcome
  reads : Nat := 0
  deriving DecidableEq, Repr

namespace InputStream

/-- Reads at most `size` bytes. -/
def read (size : Nat) (s : InputStream) : Except IoError Bytes × InputStream :=
  match s.outcomes with
  | [] => (.ok [], ⟨[], s.reads + 1⟩)
  | .eof :: rest => (.ok [], ⟨rest, s.reads + 1⟩)
  | .fail e :: rest => (.error e, ⟨rest, s.reads + 1⟩)
  | .data bytes :: rest =>
    let left := bytes.drop size
    (.ok (bytes.take size), ⟨if left.isEmpty then rest else .data left :: rest, s.reads + 1⟩)

/-- The reads still to come, as a number that every one of them lessens. -/
def weight (s : InputStream) : Nat :=
  (s.outcomes.map fun | .data bytes => bytes.length + 1 | _ => 1).foldr (· + ·) 0

/-- A read that fails has used up what it came to. -/
theorem weight_read_lt_of_error {size : Nat} {s s' : InputStream} {e : IoError}
    (h : s.read size = (.error e, s')) : s'.weight < s.weight := by
  obtain ⟨outcomes, n⟩ := s
  cases outcomes with
  | nil => cases h
  | cons o rest =>
    cases o with
    | eof | data => cases h
    | fail =>
      cases h
      simp [weight]

/-- A read that hands over bytes has used them up. -/
theorem weight_read_lt_of_ok {size : Nat} {s s' : InputStream} {bytes : Bytes}
    (h : s.read size = (.ok bytes, s')) (hb : bytes ≠ []) : s'.weight < s.weight := by
  obtain ⟨outcomes, n⟩ := s
  cases outcomes with
  | nil => cases h; exact absurd rfl hb
  | cons o rest =>
    cases o with
    | eof => cases h; exact absurd rfl hb
    | fail e => cases h
    | data all =>
      simp only [read, Prod.mk.injEq, Except.ok.injEq] at h
      obtain ⟨rfl, rfl⟩ := h
      cases size with
      | zero => exact absurd rfl hb
      | succ k =>
        cases all with
        | nil => exact absurd rfl hb
        | cons a all =>
          have hle : (all.drop k).length ≤ all.length := by
            rw [List.length_drop]
            exact Nat.sub_le ..
          unfold weight
          rw [List.drop_succ_cons]
          split <;> simp only [List.map_cons, List.foldr_cons, List.length_cons] <;> omega

end InputStream

end PeerMessaging
