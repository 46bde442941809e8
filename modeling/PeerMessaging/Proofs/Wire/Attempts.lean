import PeerMessaging.Proofs.Wire.Channel

/-!
# What ends a writing

A writer offers its pending bytes to the stream again and again. It goes on after a write that has
taken some of them, unless that was over past the deadline, and after one that was interrupted. Any
other write is the last (`FrameWriter.Stops`). `FrameWriter.attempts` are the writes that are made,
each with the moment at which it was over. So bytes are left over only after a write that has failed
for good, that has timed out or that was over past the deadline (`FrameWriter.Stops.last_of_left`),
and they always are after one that has timed out, however much time was left
(`FrameWriter.Stops.left_of_stopped`). The writing fails just when a write or a flush fails for good
(`FrameWriter.isSome_failure_iff`).
-/

namespace PeerMessaging

/-! ## Outcomes -/

/-- An error that is neither a time-out nor an interruption is for good. -/
def IoError.isHard (e : IoError) : Bool := !e.isInterrupted && !e.isTimeout

namespace WriteOutcome

/-- The write fails for good, or takes nothing at all. -/
def isHard : WriteOutcome → Bool
  | accept count => count = 0
  | fail e => e.isHard

/-- The write times out. -/
def isTimeout : WriteOutcome → Bool
  | accept _ => false
  | fail e => e.isTimeout

/-- The write takes some bytes, or is interrupted. -/
def goesOn (o : WriteOutcome) : Bool := !o.isHard && !o.isTimeout

/-- A write that goes on has not failed. -/
theorem isHard_of_goesOn {o : WriteOutcome} (h : o.goesOn = true) : o.isHard = false := by
  rw [goesOn, Bool.and_eq_true] at h
  simpa using h.1

/-- Nor has one that times out. -/
theorem isHard_of_isTimeout {o : WriteOutcome} (h : o.isTimeout = true) : o.isHard = false := by
  cases o with
  | accept => cases h
  | fail e => simp [isHard, IoError.isHard, show e.isTimeout = true from h]

/-- A write that times out does not go on. -/
theorem goesOn_of_isTimeout {o : WriteOutcome} (h : o.isTimeout = true) : o.goesOn = false := by
  rw [goesOn, h, Bool.not_true, Bool.and_false]

end WriteOutcome

/-- The flush fails for good. -/
def FlushOutcome.isHard : FlushOutcome → Bool
  | done => false
  | fail e => e.isHard

/-- What calls come to that are made one after another, each with the moment at which it is over. -/
def timeline {α : Type} (now : Moment) : List (Timed α) → List (Moment × α)
  | [] => []
  | call :: calls => (now + call.elapsed, call.outcome) :: timeline (now + call.elapsed) calls

namespace OutputStream

section
variable {s s' : OutputStream} {bytes : Bytes}

/-- A write comes to what is listed first, or takes everything if nothing is listed. -/
theorem write_cases {r : Except IoError Nat} (h : s.write bytes = (r, s')) :
    s.writes = [] ∧ s'.writes = [] ∧ r = .ok bytes.length ∨
      ∃ call, s.writes = call :: s'.writes ∧ s'.now = s.now + call.elapsed ∧
        ((∃ n, call.outcome = .accept n ∧ r = .ok (bytes.take n).length) ∨
          ∃ e, call.outcome = .fail e ∧ r = .error e) := by
  unfold write at h
  dsimp only at h
  split at h
  · rename_i hw
    cases h
    exact .inl ⟨hw, hw, rfl⟩
  · rename_i n elapsed rest hw
    cases h
    exact .inr ⟨_, hw, rfl, .inl ⟨n, rfl, rfl⟩⟩
  · rename_i e elapsed rest hw
    cases h
    exact .inr ⟨_, hw, rfl, .inr ⟨e, rfl, rfl⟩⟩

/-- A write that takes nothing of what it is offered has failed for good. -/
theorem isHard_of_write_zero (hb : bytes ≠ []) (h : s.write bytes = (.ok 0, s')) :
    ∃ call, s.writes = call :: s'.writes ∧ call.outcome.isHard = true := by
  have hlen : 0 < bytes.length := List.length_pos_iff.2 hb
  rcases write_cases h with ⟨-, -, hr⟩ | ⟨call, hw, -, ⟨n, ho, hr⟩ | ⟨e, -, hr⟩⟩
  · have hzero := Except.ok.inj hr
    omega
  · refine ⟨call, hw, ?_⟩
    have hzero := Except.ok.inj hr
    rw [List.length_take] at hzero
    rw [ho, WriteOutcome.isHard, decide_eq_true_eq]
    omega
  · cases hr

/-- A write that takes something goes on, and it is the listed one if there is one. -/
theorem goesOn_of_write_succ {n : Nat} (h : s.write bytes = (.ok (n + 1), s')) :
    s.writes = [] ∧ s'.writes = [] ∧ n + 1 = bytes.length ∨
      ∃ call, s.writes = call :: s'.writes ∧ s'.now = s.now + call.elapsed ∧
        call.outcome.goesOn = true := by
  rcases write_cases h with ⟨hw, hw', hr⟩ | ⟨call, hw, hnow, ⟨k, ho, hr⟩ | ⟨e, -, hr⟩⟩
  · exact .inl ⟨hw, hw', Except.ok.inj hr⟩
  · refine .inr ⟨call, hw, hnow, ?_⟩
    have hsucc := Except.ok.inj hr
    rw [List.length_take] at hsucc
    have hk : k ≠ 0 := by omega
    rw [ho]
    simp [WriteOutcome.goesOn, WriteOutcome.isHard, WriteOutcome.isTimeout, hk]
  · cases hr

/-- A write that fails is the listed one. -/
theorem outcome_of_write_error {e : IoError} (h : s.write bytes = (.error e, s')) :
    ∃ call, s.writes = call :: s'.writes ∧ s'.now = s.now + call.elapsed ∧
      call.outcome = .fail e := by
  rcases write_cases h with ⟨-, -, hr⟩ | ⟨call, hw, hnow, ⟨n, -, hr⟩ | ⟨e', ho, hr⟩⟩
  · cases hr
  · cases hr
  · cases hr
    exact ⟨call, hw, hnow, ho⟩

/-- A flush comes to what is listed first, and is done if nothing is listed. -/
theorem flush_cases {r : Except IoError Unit} (h : s.flush = (r, s')) :
    s.flushes = [] ∧ s'.flushes = [] ∧ r = .ok () ∨
      ∃ call, s.flushes = call :: s'.flushes ∧ ((call.outcome = .done ∧ r = .ok ()) ∨
        ∃ e, call.outcome = .fail e ∧ r = .error e) := by
  unfold flush at h
  dsimp only at h
  split at h
  · rename_i hf
    cases h
    exact .inl ⟨hf, hf, rfl⟩
  · rename_i hf
    cases h
    exact .inr ⟨_, hf, .inl ⟨rfl, rfl⟩⟩
  · rename_i e elapsed rest hf
    cases h
    exact .inr ⟨_, hf, .inr ⟨e, rfl, rfl⟩⟩

end

end OutputStream

namespace FrameWriter

/-! ## The last write -/

/-- How offering bytes to a stream stops, after these writes, with these bytes left. -/
inductive Stops (deadline : Option Moment) :
    List (Moment × WriteOutcome) → Except FrameError Bool → Bytes → Prop
  /-- Everything has been taken. -/
  | done {log : List (Moment × WriteOutcome)} (hlog : ∀ x ∈ log, x.2.goesOn = true) :
      Stops deadline log (.ok true) []
  /-- The deadline has passed. -/
  | late {log : List (Moment × WriteOutcome)} {time : Moment} {o : WriteOutcome} {left : Bytes}
      (hlog : ∀ x ∈ log, x.2.goesOn = true) (ho : o.goesOn = true)
      (hd : deadline.any (· ≤ time) = true) (hp : left ≠ []) :
      Stops deadline (log ++ [(time, o)]) (.ok false) left
  /-- A write has timed out. -/
  | timedOut {log : List (Moment × WriteOutcome)} {time : Moment} {o : WriteOutcome} {left : Bytes}
      (hlog : ∀ x ∈ log, x.2.goesOn = true) (ho : o.isTimeout = true) (hp : left ≠ []) :
      Stops deadline (log ++ [(time, o)]) (.ok false) left
  /-- A write has failed for good. -/
  | failed {log : List (Moment × WriteOutcome)} {time : Moment} {o : WriteOutcome} {left : Bytes}
      {e : FrameError} (hlog : ∀ x ∈ log, x.2.goesOn = true) (ho : o.isHard = true)
      (hp : left ≠ []) : Stops deadline (log ++ [(time, o)]) (.error e) left

section
variable {deadline : Option Moment} {log before more : List (Moment × WriteOutcome)}
  {x : Moment × WriteOutcome} {result : Except FrameError Bool} {left : Bytes} {w : FrameWriter}

/-- What goes on does not stop before the next write does. -/
theorem Stops.cons (hx : x.2.goesOn = true) (h : Stops deadline log result left) :
    Stops deadline (x :: log) result left := by
  cases h with
  | done hlog => exact .done (List.forall_mem_cons.2 ⟨hx, hlog⟩)
  | late hlog ho hd hp =>
    rw [← List.cons_append]
    exact .late (List.forall_mem_cons.2 ⟨hx, hlog⟩) ho hd hp
  | timedOut hlog ho hp =>
    rw [← List.cons_append]
    exact .timedOut (List.forall_mem_cons.2 ⟨hx, hlog⟩) ho hp
  | failed hlog ho hp =>
    rw [← List.cons_append]
    exact .failed (List.forall_mem_cons.2 ⟨hx, hlog⟩) ho hp

/-- It stops with an error just when a write has failed for good. -/
theorem Stops.error_iff (h : Stops deadline log result left) :
    (∃ e, result = .error e) ↔ ∃ x ∈ log, x.2.isHard = true := by
  -- What comes before the last write has not failed.
  have before {log : List (Moment × WriteOutcome)} {x : Moment × WriteOutcome}
      (hlog : ∀ x ∈ log, x.2.goesOn = true) (hm : x ∈ log) (hx : x.2.isHard = true) : False := by
    cases hx.symm.trans (WriteOutcome.isHard_of_goesOn (hlog x hm))
  -- So there is a failure only if the last write is one.
  have last {log : List (Moment × WriteOutcome)} {x : Moment × WriteOutcome}
      (hlog : ∀ x ∈ log, x.2.goesOn = true) (hx : x.2.isHard = false) :
      ¬ ∃ y ∈ log ++ [x], y.2.isHard = true := by
    rintro ⟨y, hm, hy⟩
    rcases List.mem_append.1 hm with hm | hm
    · exact before hlog hm hy
    · cases List.mem_singleton.1 hm
      cases hx.symm.trans hy
  have answered {b : Bool} : ¬ ∃ e, (.ok b : Except FrameError Bool) = .error e := nofun
  cases h with
  | done hlog => exact iff_of_false answered fun ⟨x, hm, hx⟩ => before hlog hm hx
  | late hlog ho => exact iff_of_false answered (last hlog (WriteOutcome.isHard_of_goesOn ho))
  | timedOut hlog ho =>
    exact iff_of_false answered (last hlog (WriteOutcome.isHard_of_isTimeout ho))
  | failed hlog ho => exact iff_of_true ⟨_, rfl⟩ ⟨_, List.mem_append_right _ (.head _), ho⟩

/-- Bytes are left over only after a write that has failed for good, that has timed out, or that was
over past the deadline. The writes before it have taken bytes or were interrupted. -/
theorem Stops.last_of_left (h : Stops deadline log result left) (hp : left ≠ []) :
    ∃ before time o, log = before ++ [(time, o)] ∧ (∀ x ∈ before, x.2.goesOn = true) ∧
      (o.isHard = true ∨ o.isTimeout = true ∨ deadline.any (· ≤ time) = true) := by
  cases h with
  | done => exact absurd rfl hp
  | late hlog _ hd => exact ⟨_, _, _, rfl, hlog, .inr (.inr hd)⟩
  | timedOut hlog ho => exact ⟨_, _, _, rfl, hlog, .inr (.inl ho)⟩
  | failed hlog ho => exact ⟨_, _, _, rfl, hlog, .inl ho⟩

/-- A write that does not go on is the last, and bytes are left over after it. -/
theorem Stops.left_of_stopped (h : Stops deadline log result left) (he : log = before ++ x :: more)
    (hx : x.2.goesOn = false) : more = [] ∧ left ≠ [] := by
  -- Whatever comes before the last write goes on.
  have last {log' : List (Moment × WriteOutcome)} {y : Moment × WriteOutcome}
      (he : log' ++ [y] = before ++ x :: more) (hlog : ∀ z ∈ log', z.2.goesOn = true) :
      more = [] := by
    rcases List.eq_nil_or_concat more with hm | ⟨more', z, rfl⟩
    · exact hm
    · have he' : log' ++ [y] = (before ++ x :: more') ++ [z] := by simpa using he
      have hgoes := hlog x (by rw [(List.append_inj' he' rfl).1]; simp)
      cases hx.symm.trans hgoes
  cases h with
  | done hlog =>
    have hgoes := hlog x (by simp [he])
    cases hx.symm.trans hgoes
  | late hlog _ _ hp | timedOut hlog _ hp | failed hlog _ hp => exact ⟨last he hlog, hp⟩

/-- Offering the pending bytes to the stream stops so, after the first of the writes listed. -/
theorem stops_writePending (deadline : Option Moment) (w : FrameWriter) :
    ∃ made, w.output.writes = made ++ (w.writePending deadline).2.output.writes ∧
      (w.writePending deadline).2.output.flushes = w.output.flushes ∧
      Stops deadline (timeline w.output.now made) (w.writePending deadline).1
        (w.writePending deadline).2.encoder.pending := by
  fun_induction writePending deadline w with
  | case1 w hp => exact ⟨[], rfl, rfl, hp ▸ .done (List.forall_mem_nil _)⟩
  | case2 w hp output h =>
    obtain ⟨call, hw, ho⟩ := OutputStream.isHard_of_write_zero hp h
    exact ⟨[call], hw, OutputStream.flushes_write h,
      @Stops.failed _ [] _ _ _ _ (List.forall_mem_nil _) ho hp⟩
  | case3 w hp n output h w' hd =>
    rw [Bool.and_eq_true, Encoder.hasPending] at hd
    obtain ⟨hleft, hd⟩ := hd
    have hleft : w'.encoder.pending ≠ [] := by simpa using hleft
    rcases OutputStream.goesOn_of_write_succ h with ⟨-, -, hn⟩ | ⟨call, hw, hnow, ho⟩
    · exact absurd (List.drop_eq_nil_of_le (Nat.le_of_eq hn.symm)) hleft
    · rw [hnow] at hd
      exact ⟨[call], hw, OutputStream.flushes_write h,
        @Stops.late _ [] _ _ _ (List.forall_mem_nil _) ho hd hleft⟩
  | case4 w hp n output h w' hd ih =>
    obtain ⟨made, hmade, hflushes, hstops⟩ := ih
    have hflushes := hflushes.trans (OutputStream.flushes_write h)
    rcases OutputStream.goesOn_of_write_succ h with ⟨hw, hw', -⟩ | ⟨call, hw, hnow, ho⟩
    · -- A write that is not listed is none of the attempts.
      have hnil : made = [] := (List.append_eq_nil_iff.1 (hmade.symm.trans hw')).1
      subst hnil
      exact ⟨[], hw.trans (hw'.symm.trans hmade), hflushes, hstops⟩
    · refine ⟨call :: made, hw.trans (congrArg _ hmade), hflushes, ?_⟩
      rw [hnow] at hstops
      exact hstops.cons ho
  | case5 w hp e output h hi ih =>
    obtain ⟨made, hmade, hflushes, hstops⟩ := ih
    obtain ⟨call, hw, hnow, ho⟩ := OutputStream.outcome_of_write_error h
    refine ⟨call :: made, hw.trans (congrArg _ hmade),
      hflushes.trans (OutputStream.flushes_write h), ?_⟩
    rw [hnow] at hstops
    refine hstops.cons ?_
    have ht : e.isTimeout = false := by
      rw [← Bool.not_eq_true]
      intro ht
      cases hi.symm.trans (IoError.isInterrupted_of_isTimeout ht)
    simp [ho, WriteOutcome.goesOn, WriteOutcome.isHard, WriteOutcome.isTimeout, IoError.isHard, hi,
      ht]
  | case6 w hp e output h hi ht =>
    obtain ⟨call, hw, -, ho⟩ := OutputStream.outcome_of_write_error h
    refine ⟨[call], hw, OutputStream.flushes_write h,
      @Stops.timedOut _ [] _ _ _ (List.forall_mem_nil _) ?_ hp⟩
    rw [ho]
    exact ht
  | case7 w hp e output h hi ht =>
    obtain ⟨call, hw, -, ho⟩ := OutputStream.outcome_of_write_error h
    refine ⟨[call], hw, OutputStream.flushes_write h,
      @Stops.failed _ [] _ _ _ _ (List.forall_mem_nil _) ?_ hp⟩
    simp [ho, WriteOutcome.isHard, IoError.isHard, hi, ht]

/-- Passing on what the stream has taken fails just when a flush fails for good. -/
theorem flushStream_error_iff (output : OutputStream) :
    ∃ made, output.flushes = made ++ (flushStream output).2.flushes ∧
      (flushStream output).2.writes = output.writes ∧
      ((∃ e, (flushStream output).1 = .error e) ↔ ∃ call ∈ made, call.outcome.isHard = true) := by
  have hwrites {s s' : OutputStream} {r : Except IoError Unit} (h : s.flush = (r, s')) :
      s'.writes = s.writes := by
    unfold OutputStream.flush at h
    dsimp only at h
    split at h <;> cases h <;> rfl
  fun_induction flushStream output with
  | case1 output output' h =>
    rcases OutputStream.flush_cases h with ⟨hf, hf', -⟩ | ⟨call, hf, ⟨ho, -⟩ | ⟨e, -, hr⟩⟩
    · exact ⟨[], hf.trans hf'.symm, hwrites h, by simp⟩
    · exact ⟨[call], hf, hwrites h, by simp [ho, FlushOutcome.isHard]⟩
    · cases hr
  | case2 output e output' h hi ih =>
    obtain ⟨made, hmade, hw, hiff⟩ := ih
    rcases OutputStream.flush_cases h with ⟨-, -, hr⟩ | ⟨call, hf, ⟨-, hr⟩ | ⟨e', ho, hr⟩⟩
    · cases hr
    · cases hr
    · cases hr
      refine ⟨call :: made, hf.trans (congrArg _ hmade), hw.trans (hwrites h), hiff.trans ?_⟩
      simp [ho, FlushOutcome.isHard, IoError.isHard, hi]
  | case3 output e output' h hi ht =>
    rcases OutputStream.flush_cases h with ⟨-, -, hr⟩ | ⟨call, hf, ⟨-, hr⟩ | ⟨e', ho, hr⟩⟩
    · cases hr
    · cases hr
    · cases hr
      exact ⟨[call], hf, hwrites h, by simp [ho, FlushOutcome.isHard, IoError.isHard, ht]⟩
  | case4 output e output' h hi ht =>
    rcases OutputStream.flush_cases h with ⟨-, -, hr⟩ | ⟨call, hf, ⟨-, hr⟩ | ⟨e', ho, hr⟩⟩
    · cases hr
    · cases hr
    · cases hr
      exact ⟨[call], hf, hwrites h, by simp [ho, FlushOutcome.isHard, IoError.isHard, hi, ht]⟩

/-! ## Attempts -/

/-- The writes that a flush makes, each with the moment at which it is over. A write that nothing is
listed for, and which takes everything, is left out. -/
def attempts (deadline : Option Moment) (w : FrameWriter) : List (Moment × WriteOutcome) :=
  let left := (w.flushPending deadline).2.output.writes
  timeline w.output.now (w.output.writes.take (w.output.writes.length - left.length))

/-- The flushes of the stream that a flush makes. -/
def flushAttempts (deadline : Option Moment) (w : FrameWriter) : List (Timed FlushOutcome) :=
  let left := (w.flushPending deadline).2.output.flushes
  w.output.flushes.take (w.output.flushes.length - left.length)

/-- The error that a flush fails with. -/
def failure? (deadline : Option Moment) (w : FrameWriter) : Option FrameError :=
  match (w.flushPending deadline).1 with
  | .ok _ => none
  | .error e => some e

/-- What is taken from a list is what it has before the rest. -/
theorem take_of_append {α : Type} {all made left : List α} (h : all = made ++ left) :
    all.take (all.length - left.length) = made := by
  rw [h, List.length_append, Nat.add_sub_cancel, List.take_left]

/-- A flush stops so, and then the stream may be flushed if everything has been taken. -/
theorem stops_flushPending (deadline : Option Moment) (w : FrameWriter) :
    ∃ result, Stops deadline (w.attempts deadline) result
        (w.flushPending deadline).2.encoder.pending ∧
      ((∃ e, (w.flushPending deadline).1 = .error e) ↔ (∃ e, result = .error e) ∨
        ∃ call ∈ w.flushAttempts deadline, call.outcome.isHard = true) := by
  obtain ⟨made, hmade, hflushes, hstops⟩ := w.stops_writePending deadline
  refine ⟨(w.writePending deadline).1, ?_⟩
  unfold attempts flushAttempts flushPending
  generalize w.writePending deadline = r at hmade hflushes hstops ⊢
  obtain ⟨result, w'⟩ := r
  dsimp only at hmade hflushes hstops
  split
  · rename_i w'' hr
    cases hr
    obtain ⟨flushed, hf, hw, hiff⟩ := flushStream_error_iff w'.output
    rw [hflushes] at hf
    dsimp only
    rw [hw, take_of_append hmade, take_of_append hf]
    exact ⟨hstops, by simp [hiff]⟩
  · dsimp only
    rw [take_of_append hmade, @take_of_append _ _ [] _ hflushes.symm]
    exact ⟨hstops, by simp⟩

/-- A flush fails just when a write or a flush of the stream fails for good. -/
theorem isSome_failure_iff (deadline : Option Moment) (w : FrameWriter) :
    (w.failure? deadline).isSome = true ↔
      (∃ x ∈ w.attempts deadline, x.2.isHard = true) ∨
        ∃ call ∈ w.flushAttempts deadline, call.outcome.isHard = true := by
  have hfails : (w.failure? deadline).isSome = true ↔
      ∃ e, (w.flushPending deadline).1 = .error e := by
    unfold failure?
    split <;> simp [*]
  obtain ⟨result, hstops, hiff⟩ := w.stops_flushPending deadline
  rw [hfails, hiff, hstops.error_iff]

end

end FrameWriter

end PeerMessaging
