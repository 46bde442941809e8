import PeerMessaging.Proofs.Wire.Attempts

/-!
# What the answer of a flush means

A flush calls the stream again and again: as long as bytes are pending it offers all of them, and
once nothing is pending it has the stream flushed (`FrameWriter.Makes`). It goes on after a call
that has taken some bytes or was interrupted, and the call after which it does not go on decides the
answer (`FrameWriter.Ends`, `FrameWriter.flushed_flushPending`). So what an answer means can be read
off the last call (`FrameWriter.answer_of_last_call`). There is one surprise: when the stream has
taken everything and then times out in being flushed, the answer is that bytes are left, and a
sender is told that its frame has timed out (`FrameWriter.nothing_left_of_timed_out`).
-/

namespace PeerMessaging

/-! ## Calls of a stream -/

/-- A call of a stream and what came of it. -/
inductive StreamCall
  /-- Bytes were offered, and the call was over at a time. -/
  | write (offered : Bytes) (result : Except IoError Nat) (time : Moment)
  | flush (result : Except IoError Unit)

namespace StreamCall

/-- The error of a call that failed. -/
def error? : StreamCall → Option IoError
  | write _ (.error e) _ | flush (.error e) => some e
  | write _ (.ok _) _ | flush (.ok _) => none

/-- The stream has taken some bytes, or the call was interrupted. -/
def goesOn : StreamCall → Bool
  | write _ (.ok n) _ => 0 < n
  | flush (.ok _) => false
  | write _ (.error e) _ | flush (.error e) => e.isInterrupted

end StreamCall

/-- A stream counts how often it is written. -/
theorem OutputStream.count_write {s s' : OutputStream} {bytes : Bytes} {r : Except IoError Nat}
    (h : s.write bytes = (r, s')) :
    s'.writeCalls = s.writeCalls + 1 ∧ s'.flushCalls = s.flushCalls := by
  unfold write at h
  dsimp only at h
  split at h <;> cases h <;> exact ⟨rfl, rfl⟩

/-- It counts how often it is flushed, too. -/
theorem OutputStream.count_flush {s s' : OutputStream} {r : Except IoError Unit}
    (h : s.flush = (r, s')) : s'.writeCalls = s.writeCalls ∧ s'.flushCalls = s.flushCalls + 1 := by
  unfold flush at h
  dsimp only at h
  split at h <;> cases h <;> exact ⟨rfl, rfl⟩

namespace FrameWriter

/-- A writer makes calls of its stream. Every write offers all that is pending by then, of which the
stream may take the first bytes. The stream is flushed only when nothing is pending. -/
inductive Makes : FrameWriter → List StreamCall → FrameWriter → Prop
  | nil (w : FrameWriter) : Makes w [] w
  | taken {w w' : FrameWriter} {n : Nat} {output : OutputStream} {calls : List StreamCall}
      (hp : w.encoder.pending ≠ []) (h : w.output.write w.encoder.pending = (.ok n, output))
      (hm : Makes ⟨{ w.encoder with pending := w.encoder.pending.drop n }, output⟩ calls w') :
      Makes w (.write w.encoder.pending (.ok n) output.now :: calls) w'
  | failed {w w' : FrameWriter} {e : IoError} {output : OutputStream} {calls : List StreamCall}
      (hp : w.encoder.pending ≠ []) (h : w.output.write w.encoder.pending = (.error e, output))
      (hm : Makes { w with output } calls w') :
      Makes w (.write w.encoder.pending (.error e) output.now :: calls) w'
  | flush {w w' : FrameWriter} {result : Except IoError Unit} {output : OutputStream}
      {calls : List StreamCall} (hp : w.encoder.pending = [])
      (h : w.output.flush = (result, output)) (hm : Makes { w with output } calls w') :
      Makes w (.flush result :: calls) w'

namespace Makes
variable {w w' w'' : FrameWriter} {calls calls' : List StreamCall}

theorem append (h : w.Makes calls w') (h' : w'.Makes calls' w'') :
    w.Makes (calls ++ calls') w'' := by
  induction h with
  | nil => exact h'
  | taken hp hw _ ih => exact .taken hp hw (ih h')
  | failed hp hw _ ih => exact .failed hp hw (ih h')
  | flush hp hf _ ih => exact .flush hp hf (ih h')

/-- Calls only move bytes to the stream. -/
theorem moves (h : w.Makes calls w') : w.Moves w' := by
  induction h with
  | nil => exact .refl _
  | taken _ hw _ ih => exact (Moves.of_write_ok hw).trans ih
  | failed _ hw _ ih => exact (Moves.of_write_error hw).trans ih
  | @flush w _ _ output _ _ hf _ ih =>
    have hkept : w.Moves { w with output } := by
      refine ⟨[], ?_, rfl⟩
      rw [List.append_nil, ← w.output.accepted_flush, hf]
    exact hkept.trans ih

/-- If anything is pending, all of it is offered first. -/
theorem exists_write (h : w.Makes calls w') (hp : w.encoder.pending ≠ []) (hc : calls ≠ []) :
    ∃ result time more, calls = .write w.encoder.pending result time :: more := by
  cases h with
  | nil => exact absurd rfl hc
  | taken | failed => exact ⟨_, _, _, rfl⟩
  | flush hp' => exact absurd hp' hp

/-- The stream has been called as often as there are calls. -/
theorem count_eq (h : w.Makes calls w') :
    w'.output.writeCalls + w'.output.flushCalls =
      w.output.writeCalls + w.output.flushCalls + calls.length := by
  induction h with
  | nil => rfl
  | taken _ hw _ ih | failed _ hw _ ih =>
    obtain ⟨hwrites, hflushes⟩ := OutputStream.count_write hw
    rw [ih, List.length_cons]
    dsimp only
    omega
  | flush _ hf _ ih =>
    obtain ⟨hwrites, hflushes⟩ := OutputStream.count_flush hf
    rw [ih, List.length_cons]
    dsimp only
    omega

/-- What a writer has become tells the calls that it has made. -/
theorem unique (h : w.Makes calls w') (h' : w.Makes calls' w') : calls = calls' := by
  have hlength : calls.length = calls'.length := by
    have hcount := h.count_eq
    have hcount' := h'.count_eq
    omega
  induction h generalizing calls' with
  | nil => exact (List.length_eq_zero_iff.1 hlength.symm).symm
  | taken hp hw _ ih =>
    cases h' with
    | nil => cases hlength
    | taken _ hw' hm' =>
      cases hw.symm.trans hw'
      rw [ih hm' (Nat.succ.inj hlength)]
    | failed _ hw' => cases hw.symm.trans hw'
    | flush hp' => exact absurd hp' hp
  | failed hp hw _ ih =>
    cases h' with
    | nil => cases hlength
    | taken _ hw' => cases hw.symm.trans hw'
    | failed _ hw' hm' =>
      cases hw.symm.trans hw'
      rw [ih hm' (Nat.succ.inj hlength)]
    | flush hp' => exact absurd hp' hp
  | flush hp hf _ ih =>
    cases h' with
    | nil => cases hlength
    | taken hp' | failed hp' => exact absurd hp hp'
    | flush _ hf' hm' =>
      cases hf.symm.trans hf'
      rw [ih hm' (Nat.succ.inj hlength)]

end Makes

/-! ## The last call -/

/-- A flush ends with this call, this answer and these bytes left. -/
inductive Ends (deadline : Option Moment) : StreamCall → Except FrameError Bool → Bytes → Prop
  /-- The stream has passed everything on. -/
  | done : Ends deadline (.flush (.ok ())) (.ok true) []
  /-- The stream has taken some bytes, and then the deadline had passed. -/
  | late {offered left : Bytes} {n : Nat} {time : Moment} (hleft : left ≠ [])
      (hd : deadline.any (· ≤ time) = true) :
      Ends deadline (.write offered (.ok (n + 1)) time) (.ok false) left
  /-- A write has timed out. -/
  | unwritten {left : Bytes} {e : IoError} {time : Moment} (hleft : left ≠ [])
      (ht : e.isTimeout = true) : Ends deadline (.write left (.error e) time) (.ok false) left
  /-- The stream has taken everything and has timed out in passing it on. -/
  | unflushed {e : IoError} (ht : e.isTimeout = true) :
      Ends deadline (.flush (.error e)) (.ok false) []
  /-- The stream takes no more bytes. -/
  | closed {left : Bytes} {time : Moment} (hleft : left ≠ []) :
      Ends deadline (.write left (.ok 0) time) (.error .connectionClosed) left
  /-- A write has failed. -/
  | writeFailed {left : Bytes} {e : IoError} {time : Moment} (hleft : left ≠ [])
      (he : e.isHard = true) : Ends deadline (.write left (.error e) time) (.error (.io e)) left
  /-- Passing the bytes on has failed. -/
  | flushFailed {e : IoError} (he : e.isHard = true) :
      Ends deadline (.flush (.error e)) (.error (.io e)) []

/-- How a flush goes: the calls that it makes, the last of them, its answer and the writer after
it. -/
structure Flushed (deadline : Option Moment) (w : FrameWriter) (calls : List StreamCall)
    (last : StreamCall) (answer : Except FrameError Bool) (w' : FrameWriter) : Prop where
  makes : w.Makes (calls ++ [last]) w'
  goesOn : ∀ call ∈ calls, call.goesOn = true
  ends : Ends deadline last answer w'.encoder.pending

section
variable {deadline : Option Moment} {w w' w'' : FrameWriter} {calls before : List StreamCall}
  {last : StreamCall} {answer : Except FrameError Bool} {output : OutputStream}

/-- Calls after which it goes on may come before. -/
theorem Flushed.prepend (hb : w.Makes before w') (hgoes : ∀ call ∈ before, call.goesOn = true)
    (h : Flushed deadline w' calls last answer w'') :
    Flushed deadline w (before ++ calls) last answer w'' where
  makes := by
    rw [List.append_assoc]
    exact hb.append h.makes
  goesOn := List.forall_mem_append.2 ⟨hgoes, h.goesOn⟩
  ends := h.ends

/-- The first call is the last one. -/
theorem Flushed.single (hm : w.Makes [last] w')
    (he : Ends deadline last answer w'.encoder.pending) : Flushed deadline w [] last answer w' :=
  ⟨hm, List.forall_mem_nil _, he⟩

/-- An error for good is neither an interruption nor a time-out. -/
theorem isHard_iff {e : IoError} :
    e.isHard = true ↔ ¬ e.isInterrupted = true ∧ ¬ e.isTimeout = true := by
  simp [IoError.isHard]

/-- Writing what is pending makes calls after which it goes on until nothing is left, or it ends. -/
def WritesOut (deadline : Option Moment) (w : FrameWriter) (answer : Except FrameError Bool)
    (w' : FrameWriter) : Prop :=
  (answer = .ok true ∧ w'.encoder.pending = [] ∧
    ∃ calls, w.Makes calls w' ∧ ∀ call ∈ calls, call.goesOn = true) ∨
  (answer ≠ .ok true ∧ ∃ calls last, Flushed deadline w calls last answer w')

/-- A call after which it goes on comes before what there is. -/
theorem WritesOut.cons {call : StreamCall} (hm : w.Makes [call] w') (hgoes : call.goesOn = true)
    (h : WritesOut deadline w' answer w'') : WritesOut deadline w answer w'' := by
  rcases h with ⟨ha, hp, calls, hcalls, hall⟩ | ⟨ha, calls, last, hflushed⟩
  · exact .inl ⟨ha, hp, _, hm.append hcalls, List.forall_mem_cons.2 ⟨hgoes, hall⟩⟩
  · refine .inr ⟨ha, _, last, hflushed.prepend hm ?_⟩
    exact fun call hcall => List.mem_singleton.1 hcall ▸ hgoes

theorem writesOut_writePending (deadline : Option Moment) (w : FrameWriter) :
    WritesOut deadline w (w.writePending deadline).1 (w.writePending deadline).2 := by
  fun_induction writePending deadline w with
  | case1 w hp => exact .inl ⟨rfl, hp, [], .nil w, List.forall_mem_nil _⟩
  | case2 w hp output h =>
    exact .inr ⟨by simp, _, _, .single (.taken hp h (.nil _)) (.closed hp)⟩
  | case3 w hp n output h w' hd =>
    rw [Bool.and_eq_true, Encoder.hasPending] at hd
    obtain ⟨hleft, hd⟩ := hd
    exact .inr ⟨by simp, _, _, .single (.taken hp h (.nil _)) (.late (by simpa using hleft) hd)⟩
  | case4 w hp n output h w' hd ih => exact .cons (.taken hp h (.nil _)) rfl ih
  | case5 w hp e output h hi ih => exact .cons (.failed hp h (.nil _)) hi ih
  | case6 w hp e output h hi ht =>
    exact .inr ⟨by simp, _, _, .single (.failed hp h (.nil _)) (.unwritten hp ht)⟩
  | case7 w hp e output h hi ht =>
    exact .inr ⟨by simp, _, _,
      .single (.failed hp h (.nil _)) (.writeFailed hp (isHard_iff.2 ⟨hi, ht⟩))⟩

/-- Having the stream flushed ends so when nothing is pending. -/
theorem flushed_flushStream (deadline : Option Moment) {w : FrameWriter}
    (hp : w.encoder.pending = []) :
    ∃ calls last, Flushed deadline w calls last (flushStream w.output).1
      { w with output := (flushStream w.output).2 } := by
  obtain ⟨encoder, output⟩ := w
  dsimp only at hp ⊢
  fun_induction flushStream output with
  | case1 output output' h =>
    exact ⟨_, _, .single (.flush hp h (.nil _)) (by rw [hp]; exact .done)⟩
  | case2 output e output' h hi ih =>
    obtain ⟨calls, last, hflushed⟩ := ih
    have hfirst : Makes ⟨encoder, output⟩ [.flush (.error e)] ⟨encoder, output'⟩ :=
      .flush hp h (.nil _)
    exact ⟨_, last,
      hflushed.prepend hfirst fun call hcall => List.mem_singleton.1 hcall ▸ hi⟩
  | case3 output e output' h hi ht =>
    exact ⟨_, _, .single (.flush hp h (.nil _)) (by rw [hp]; exact .unflushed ht)⟩
  | case4 output e output' h hi ht =>
    exact ⟨_, _, .single (.flush hp h (.nil _))
      (by rw [hp]; exact .flushFailed (isHard_iff.2 ⟨hi, ht⟩))⟩

/-- A flush goes so. -/
theorem flushed_flushPending (deadline : Option Moment) (w : FrameWriter) :
    ∃ calls last, Flushed deadline w calls last (w.flushPending deadline).1
      (w.flushPending deadline).2 := by
  have hwrites := w.writesOut_writePending deadline
  unfold flushPending
  generalize w.writePending deadline = r at hwrites ⊢
  obtain ⟨result, w'⟩ := r
  dsimp only at hwrites
  rcases hwrites with ⟨rfl, hp, before, hbefore, hgoes⟩ | ⟨hne, hflushed⟩
  · obtain ⟨calls, last, hflushed⟩ := flushed_flushStream deadline hp
    exact ⟨_, last, hflushed.prepend hbefore hgoes⟩
  · split
    · rename_i w'' hr
      cases hr
      exact absurd rfl hne
    · exact hflushed

/-! ## Answers -/

/-- The stream has taken everything that was pending, and has timed out in passing it on. -/
def Unflushed (w w' : FrameWriter) : Prop :=
  w'.encoder.pending = [] ∧
    ∃ calls e, w.Makes (calls ++ [.flush (.error e)]) w' ∧ e.isTimeout = true

/-- A call that waits for its bytes to be written has timed out. -/
def TimedOut (result : Except FrameError Unit) : Prop :=
  ∃ e, result = .error (.io e) ∧ e.isTimeout = true

namespace Ends
variable {left : Bytes}

/-- A last call was not interrupted. -/
theorem isInterrupted_eq (h : Ends deadline last answer left) :
    last.error?.any IoError.isInterrupted = false := by
  cases h with
  | done | late | closed => rfl
  | unwritten _ ht | unflushed ht => exact IoError.isInterrupted_of_isTimeout ht
  | writeFailed _ he | flushFailed he => exact eq_false_of_ne_true (isHard_iff.1 he).1

/-- Everything has been written if the stream has passed everything on. -/
theorem eq_true_iff (h : Ends deadline last answer left) :
    answer = .ok true ↔ last = .flush (.ok ()) := by
  cases h <;> simp

theorem eq_nil_of_true (h : Ends deadline last answer left) (ha : answer = .ok true) :
    left = [] := by
  cases h with
  | done => rfl
  | _ => cases ha

/-- Something is left if the last call has timed out, or has taken some of the bytes and was over
past the deadline. -/
theorem eq_false_iff (h : Ends deadline last answer left) :
    answer = .ok false ↔ last.error?.any IoError.isTimeout = true ∨
      left ≠ [] ∧ ∃ offered n time, last = .write offered (.ok (n + 1)) time ∧
        deadline.any (· ≤ time) = true := by
  cases h with
  | done | closed => simp [StreamCall.error?]
  | late hleft hd => exact iff_of_true rfl (.inr ⟨hleft, _, _, _, rfl, hd⟩)
  | unwritten _ ht | unflushed ht => exact iff_of_true rfl (.inl ht)
  | writeFailed _ he | flushFailed he => simp [StreamCall.error?, (isHard_iff.1 he).2]

/-- If something is left without a byte being pending, the last call was a flush that has timed
out. -/
theorem eq_nil_iff_of_false (h : Ends deadline last answer left) (ha : answer = .ok false) :
    left = [] ↔ ∃ e, last = .flush (.error e) ∧ e.isTimeout = true := by
  cases h with
  | late hleft | unwritten hleft => simp [hleft]
  | unflushed ht => simp [ht]
  | _ => cases ha

/-- The stream is closed if it takes none of the bytes that are left. -/
theorem eq_closed_iff (h : Ends deadline last answer left) :
    answer = .error .connectionClosed ↔
      left ≠ [] ∧ ∃ time, last = .write left (.ok 0) time := by
  cases h with
  | closed hleft => simp [hleft]
  | _ => simp

/-- A failure is that of the last call. -/
theorem eq_io_iff (h : Ends deadline last answer left) (e : IoError) :
    answer = .error (.io e) ↔ last.error? = some e ∧ e.isHard = true := by
  cases h with
  | done | late | closed => simp [StreamCall.error?]
  | unwritten _ ht | unflushed ht =>
    simp only [StreamCall.error?, Option.some.injEq, reduceCtorEq, false_iff, not_and]
    rintro rfl he
    exact absurd ht (isHard_iff.1 he).2
  | writeFailed _ he | flushFailed he =>
    simp only [StreamCall.error?, Option.some.injEq, Except.error.injEq, FrameError.io.injEq]
    exact ⟨fun hh => ⟨hh, hh ▸ he⟩, And.left⟩

end Ends

/-- The answer of a flush that has left no byte pending is that something is left just when
passing the bytes on has timed out. -/
theorem Flushed.unflushed_iff (h : Flushed deadline w calls last answer w') :
    answer = .ok false ∧ w'.encoder.pending = [] ↔ w.Unflushed w' := by
  constructor
  · rintro ⟨ha, hp⟩
    obtain ⟨e, rfl, ht⟩ := (h.ends.eq_nil_iff_of_false ha).1 hp
    exact ⟨hp, calls, e, h.makes, ht⟩
  · rintro ⟨hp, calls', e, hmakes, ht⟩
    have hlast : last = .flush (.error e) :=
      List.singleton_inj.1 (List.append_inj' (h.makes.unique hmakes) rfl).2
    refine ⟨h.ends.eq_false_iff.2 (.inl ?_), hp⟩
    rw [hlast]
    exact ht

/-- Waiting for the bytes to be written times out just when the answer of the flush is that
something is left. -/
theorem timedOut_finish (w : FrameWriter) :
    TimedOut w.finish.1 ↔ w.flushPending none = (.ok false, w.finish.2) := by
  obtain ⟨calls, last, hflushed⟩ := w.flushed_flushPending none
  unfold finish
  split <;> rename_i w' hw <;> rw [hw] at hflushed ⊢
  · simp [TimedOut]
  · exact iff_of_true ⟨.plain .timedOut, rfl, rfl⟩ rfl
  · refine iff_of_false ?_ nofun
    rintro ⟨e, he, ht⟩
    cases he
    obtain ⟨-, hhard⟩ := (hflushed.ends.eq_io_iff e).1 rfl
    exact (isHard_iff.1 hhard).2 ht

/-- Sending a frame times out just when the frame is not refused and waiting for it times out. -/
theorem timedOut_send (w : FrameWriter) (f : Frame) :
    TimedOut (w.send f).1 ↔
      ∃ q, w.enqueue f = (.ok (), q) ∧ q.flushPending none = (.ok false, (w.send f).2) := by
  unfold send
  split
  · rename_i q hq
    rw [timedOut_finish, hq]
    simp
  · rename_i refused hrefused
    refine iff_of_false ?_ ?_
    · rintro ⟨e, he, -⟩
      rcases Nat.lt_or_ge w.encoder.config.longest f.payload.length with hl | hl
      · obtain ⟨max, hmax⟩ := enqueue_of_gt hl
        rw [hmax] at he
        cases he
      · exact hrefused _ (enqueue_of_le hl)
    · rintro ⟨q, hq, -⟩
      exact hrefused q hq

/-- What is left is pending, unless passing the bytes on has timed out. -/
theorem pending_or_unflushed (h : w.flushPending deadline = (.ok false, w')) :
    w'.encoder.pending ≠ [] ∨ w.Unflushed w' := by
  obtain ⟨calls, last, hflushed⟩ := w.flushed_flushPending deadline
  rw [h] at hflushed
  by_cases hp : w'.encoder.pending = []
  · exact .inr (hflushed.unflushed_iff.1 ⟨rfl, hp⟩)
  · exact .inl hp

end

/-- The answer of a flush says how its last call went. Whatever is pending, whatever the deadline is
and however the stream behaves, a flush makes calls that are determined by what the writer becomes:

* each of them but the last has taken some bytes or was interrupted, and the last was not
  interrupted; if anything is pending, the first of them is a write, be the deadline over or not;
* the answer is that everything has been written just when the last call was a flush of the stream
  that succeeded, and then the stream has taken all the pending bytes, in order;
* the answer is that something is left just when the last call timed out, or was a write that took
  some of the bytes and was over past the deadline;
* with this answer bytes are pending, unless the stream has taken all of them and has then timed out
  in passing them on;
* the stream is reported as closed just when the last call was a write that took nothing of what is
  pending, and any other failure is the hard error of the last call.

So sending a frame or a keepalive, which waits for its bytes, times out just when the answer is that
something is left, and then bytes are pending with the same one exception. -/
theorem answer_of_last_call (w : FrameWriter) (deadline : Option Moment) (f : Frame) :
    (∃ answer w' calls last, w.flushPending deadline = (answer, w') ∧
      (∀ made, w.Makes made w' ↔ made = calls ++ [last]) ∧
      (∀ call ∈ calls, call.goesOn = true) ∧ last.error?.any IoError.isInterrupted = false ∧
      (w.encoder.pending ≠ [] →
        ∃ result time more, calls ++ [last] = .write w.encoder.pending result time :: more) ∧
      (answer = .ok true ↔ last = .flush (.ok ())) ∧
      (answer = .ok true → w'.encoder.pending = [] ∧
        w'.output.accepted = w.output.accepted ++ w.encoder.pending) ∧
      (answer = .ok false ↔ last.error?.any IoError.isTimeout = true ∨
        w'.encoder.pending ≠ [] ∧ ∃ offered n time, last = .write offered (.ok (n + 1)) time ∧
          deadline.any (· ≤ time) = true) ∧
      (answer = .ok false ∧ w'.encoder.pending = [] ↔ w.Unflushed w') ∧
      (answer = .error .connectionClosed ↔
        w'.encoder.pending ≠ [] ∧ ∃ time, last = .write w'.encoder.pending (.ok 0) time) ∧
      ∀ e, answer = .error (.io e) ↔ last.error? = some e ∧ e.isHard = true) ∧
    ((TimedOut (w.send f).1 ↔
        ∃ q, w.enqueue f = (.ok (), q) ∧ q.flushPending none = (.ok false, (w.send f).2)) ∧
      ∀ q, w.enqueue f = (.ok (), q) → TimedOut (w.send f).1 →
        (w.send f).2.encoder.pending ≠ [] ∨ q.Unflushed (w.send f).2) ∧
    (TimedOut w.sendKeepalive.1 ↔
      w.enqueueKeepalive.flushPending none = (.ok false, w.sendKeepalive.2)) ∧
    (TimedOut w.sendKeepalive.1 →
      w.sendKeepalive.2.encoder.pending ≠ [] ∨ w.enqueueKeepalive.Unflushed w.sendKeepalive.2) := by
  refine ⟨?flush, ⟨timedOut_send w f, fun q hq ht => ?send⟩, timedOut_finish _,
    fun ht => pending_or_unflushed ((timedOut_finish _).1 ht)⟩
  case flush =>
    obtain ⟨calls, last, h⟩ := w.flushed_flushPending deadline
    obtain ⟨answer, w', hw⟩ : ∃ answer w', w.flushPending deadline = (answer, w') := ⟨_, _, rfl⟩
    rw [hw] at h
    refine ⟨answer, w', calls, last, hw, fun made => ⟨fun hmade => hmade.unique h.makes, ?_⟩,
      h.goesOn, h.ends.isInterrupted_eq, fun hp => h.makes.exists_write hp (by simp),
      h.ends.eq_true_iff, fun ha => ?_, h.ends.eq_false_iff, h.unflushed_iff,
      h.ends.eq_closed_iff, h.ends.eq_io_iff⟩
    · rintro rfl
      exact h.makes
    · have hnil := h.ends.eq_nil_of_true ha
      obtain ⟨taken, haccepted, hencoder⟩ := h.makes.moves
      refine ⟨hnil, ?_⟩
      rw [haccepted, hencoder, hnil, List.append_nil]
  case send =>
    obtain ⟨q', hq', hflush⟩ := (timedOut_send w f).1 ht
    cases hq.symm.trans hq'
    exact pending_or_unflushed hflush

/-- A writer to a stream that takes everything and then times out once in passing it on. -/
def sluggish : FrameWriter := new {} { flushes := [⟨.fail (.plain .timedOut), 0⟩] }

/-- A frame is sent, and the stream takes all of it. The sender is told that it has timed out, and
no byte of the frame is pending. -/
theorem nothing_left_of_timed_out :
    TimedOut (sluggish.send ⟨1, [7]⟩).1 ∧
      (sluggish.send ⟨1, [7]⟩).2.encoder.pending = [] ∧
      (sluggish.send ⟨1, [7]⟩).2.output.accepted =
        frameBytes sluggish.encoder.config.protocol ⟨1, [7]⟩ ∧
      ∃ q w', sluggish.enqueue ⟨1, [7]⟩ = (.ok (), q) ∧ q.encoder.hasPending = true ∧
        q.flushPending none = (.ok false, w') ∧ w'.encoder.hasPending = false := by
  have htimedOut : TimedOut (sluggish.send ⟨1, [7]⟩).1 := ⟨.plain .timedOut, by cbv, rfl⟩
  have hpending : (sluggish.send ⟨1, [7]⟩).2.encoder.pending = [] := by decide +kernel
  obtain ⟨q, hq, hflush⟩ := (timedOut_send _ _).1 htimedOut
  refine ⟨htimedOut, hpending, by decide +kernel, q, _, hq, ?_, hflush, ?_⟩
  · cases hq
    rfl
  · rw [Encoder.hasPending, hpending]
    rfl

end FrameWriter

end PeerMessaging
