import Mathlib.Algebra.GroupWithZero.Nat
import PeerMessaging.Proofs.Wire.Accounting

/-!
# Bursts of reads

A burst is known by what the reads that it makes are answered (`InputStream.answers`): it hands out
what the decoder hands out of the bytes that they bring, and fails as the decoder or one of them
does (`FrameReader.Gathers`); and it goes on from one read to the next only while they bring bytes
(`Paced`). Neither says where one burst ends and the next begins, so a sequence of bursts comes to
what bursts of one read come to, whatever their sizes
(`FrameReader.bursts_eq_single`, `FrameReader.bursts_agree`).
-/

namespace PeerMessaging

/-! ## What reads are answered -/

/-- What a read is answered. -/
abbrev ReadAnswer := Except IoError Bytes

namespace ReadAnswer

/-- The bytes that the read brings. -/
def bytes : ReadAnswer → Bytes
  | .ok bytes => bytes
  | .error _ => []

/-- The read brings bytes. -/
def brings (a : ReadAnswer) : Bool := !(bytes a).isEmpty

/-- The read is to be made again. -/
def isInterrupted : ReadAnswer → Bool
  | .ok _ => false
  | .error e => e.isInterrupted

/-- The read ran into its time limit. -/
def isTimeout : ReadAnswer → Bool
  | .ok _ => false
  | .error e => e.isTimeout

/-- The failure that the read comes to, if any: the stream has ended, or is broken. -/
def failure? : ReadAnswer → Option FrameError
  | .ok [] => some .connectionClosed
  | .ok (_ :: _) => none
  | .error e => if e.isInterrupted || e.isTimeout then none else some (.io e)

/-- What a fill answers to a read that is not made again. -/
def verdict : ReadAnswer → Except FrameError Bool
  | .ok [] => .error .connectionClosed
  | .ok (_ :: _) => .ok true
  | .error e => if e.isTimeout then .ok false else .error (.io e)

/-- A read that is made again brings nothing and is no failure. -/
theorem of_isInterrupted {a : ReadAnswer} (h : isInterrupted a = true) :
    bytes a = [] ∧ failure? a = none := by
  cases a with
  | ok => cases h
  | error e =>
    refine ⟨rfl, ?_⟩
    replace h : e.isInterrupted = true := h
    simp [failure?, h]

/-- A fill goes by the read that is not made again: it has brought bytes, has timed out, or has
failed. -/
theorem verdict_cases {a : ReadAnswer} (h : isInterrupted a = false) :
    (verdict a = .ok true ∧ brings a = true ∧ failure? a = none) ∨
      (verdict a = .ok false ∧ isTimeout a = true ∧ bytes a = [] ∧ failure? a = none) ∨
        ∃ e, verdict a = .error e ∧ bytes a = [] ∧ failure? a = some e := by
  rcases a with e | _ | ⟨b, bytes⟩
  · replace h : e.isInterrupted = false := h
    by_cases ht : e.isTimeout
    · exact .inr (.inl (by simp [verdict, isTimeout, bytes, failure?, h, ht]))
    · exact .inr (.inr ⟨.io e, by simp [verdict, bytes, failure?, h, ht]⟩)
  · exact .inr (.inr ⟨.connectionClosed, rfl, rfl, rfl⟩)
  · exact .inl ⟨rfl, rfl, rfl⟩

end ReadAnswer

section
variable (answers answers' : List ReadAnswer)

/-- The bytes that reads bring, one after another. -/
def brought : Bytes := answers.flatMap ReadAnswer.bytes

/-- The first failure that reads come to. -/
def readFailure? : Option FrameError := answers.findSome? ReadAnswer.failure?

/-- How many reads are not made again. -/
def settledReads : Nat := answers.countP fun a => !ReadAnswer.isInterrupted a

@[simp] theorem brought_append :
    brought (answers ++ answers') = brought answers ++ brought answers' :=
  List.flatMap_append

@[simp] theorem readFailure?_append :
    readFailure? (answers ++ answers') = (readFailure? answers).or (readFailure? answers') :=
  List.findSome?_append

@[simp] theorem settledReads_append :
    settledReads (answers ++ answers') = settledReads answers + settledReads answers' :=
  List.countP_append

variable {answers} in
/-- Reads that are made again come to nothing. -/
theorem of_interrupted (h : ∀ a ∈ answers, ReadAnswer.isInterrupted a = true) :
    brought answers = [] ∧ readFailure? answers = none ∧ settledReads answers = 0 := by
  refine ⟨?_, ?_, ?_⟩
  · exact List.flatMap_eq_nil_iff.2 fun a ha => (ReadAnswer.of_isInterrupted (h a ha)).1
  · exact List.findSome?_eq_none_iff.2 fun a ha => (ReadAnswer.of_isInterrupted (h a ha)).2
  · exact List.countP_eq_zero.2 fun a ha => by simp [h a ha]

end

namespace InputStream

/-- What the next reads are answered, one after another. -/
def answers (s : InputStream) : Nat → List ReadAnswer
  | 0 => []
  | n + 1 => (s.read readChunkSize).1 :: answers (s.read readChunkSize).2 n

/-- The stream after as many reads. -/
def after (s : InputStream) : Nat → InputStream
  | 0 => s
  | n + 1 => after (s.read readChunkSize).2 n

section
variable (s : InputStream)

@[simp] theorem answers_zero : s.answers 0 = [] := rfl

@[simp] theorem after_zero : s.after 0 = s := rfl

theorem after_add (m n : Nat) : s.after (m + n) = (s.after m).after n := by
  induction m generalizing s with
  | zero => rw [Nat.zero_add, after_zero]
  | succ m ih =>
    rw [Nat.succ_add]
    exact ih _

theorem answers_add (m n : Nat) : s.answers (m + n) = s.answers m ++ (s.after m).answers n := by
  induction m generalizing s with
  | zero => rw [Nat.zero_add, answers_zero, after_zero, List.nil_append]
  | succ m ih =>
    rw [Nat.succ_add]
    exact congrArg _ (ih _)

/-- A stream counts its reads. -/
theorem reads_after (n : Nat) : (s.after n).reads = s.reads + n := by
  induction n generalizing s with
  | zero => rfl
  | succ n ih =>
    have hread : (s.read readChunkSize).2.reads = s.reads + 1 := by
      obtain ⟨_ | ⟨_ | _ | _, rest⟩, reads⟩ := s <;> rfl
    rw [after, ih, hread]
    omega

/-- What reads bring is what a stream carries, as far as it has been read. -/
theorem carried_eq_brought (n : Nat) :
    carried s.outcomes = brought (s.answers n) ++ carried (s.after n).outcomes := by
  induction n generalizing s with
  | zero => rfl
  | succ n ih =>
    have hread : carried s.outcomes =
        ReadAnswer.bytes (s.read readChunkSize).1 ++ carried (s.read readChunkSize).2.outcomes := by
      rcases hr : s.read readChunkSize with ⟨e | bytes, s'⟩
      · exact carried_of_read_error hr
      · exact carried_of_read_ok hr
    rw [hread, ih, ← List.append_assoc]
    rfl

end

end InputStream

/-! ## What a fill comes to -/

namespace FrameReader

section
variable {r r' r'' : FrameReader}

/-- A fill makes reads again for as long as they are interrupted, and goes by the read that is
not. -/
structure Fills (r : FrameReader) (again : Nat) (last : ReadAnswer) : Prop where
  interrupted : ∀ a ∈ r.input.answers again, ReadAnswer.isInterrupted a = true
  last_eq : (r.input.after again).answers 1 = [last]
  settled : last.isInterrupted = false
  answer_eq : r.fill.1 = last.verdict
  decoder_eq : r.fill.2.decoder = r.decoder.push last.bytes
  input_eq : r.fill.2.input = r.input.after (again + 1)

/-- Every fill comes to an end. -/
theorem exists_fills (r : FrameReader) : ∃ again last, r.Fills again last := by
  -- A read that is not made again is the only one.
  have once {r : FrameReader} {answer : Except FrameError Bool} {last : ReadAnswer}
      {input : InputStream} (r' : FrameReader) (hf : r.fill = (answer, r'))
      (hr : r.input.read readChunkSize = (last, input)) (hs : last.isInterrupted = false)
      (ha : answer = last.verdict) (hd : r'.decoder = r.decoder.push last.bytes)
      (hi : r'.input = input) : ∃ again last, r.Fills again last := by
    refine ⟨0, last, nofun, ?_, hs, ?_, ?_, ?_⟩
    · simp only [InputStream.after_zero, InputStream.answers, hr]
    · rw [hf, ha]
    · rw [hf, hd]
    · rw [hf, hi]
      simp only [InputStream.after, hr]
  induction hw : r.input.weight using Nat.strongRecOn generalizing r with
  | ind w ih =>
    subst hw
    rcases hr : r.input.read readChunkSize with ⟨e | _ | ⟨b, bytes⟩, input⟩
    · by_cases hi : e.isInterrupted = true
      · -- The read is made again.
        have hf : r.fill = fill { r with input } := by
          rw [fill, hr]
          simp only [hi, if_true]
        obtain ⟨again, last, h⟩ :=
          ih _ (InputStream.weight_read_lt_of_error hr) { r with input } rfl
        refine ⟨again + 1, last, ?_, ?_, h.settled, ?_, ?_, ?_⟩
        · intro a ha
          rw [InputStream.answers, hr] at ha
          rcases List.mem_cons.1 ha with rfl | ha
          · exact hi
          · exact h.interrupted a ha
        · rw [InputStream.after, hr]
          exact h.last_eq
        · rw [hf]
          exact h.answer_eq
        · rw [hf]
          exact h.decoder_eq
        · rw [hf, InputStream.after, hr]
          exact h.input_eq
      · replace hi : e.isInterrupted = false := Bool.not_eq_true _ ▸ hi
        refine once { r with input } ?_ hr hi rfl (Decoder.push_nil _).symm rfl
        rw [fill, hr]
        by_cases ht : e.isTimeout <;> simp [hi, ht, ReadAnswer.verdict]
    · refine once { r with input } ?_ hr rfl rfl (Decoder.push_nil _).symm rfl
      rw [fill, hr]
      rfl
    · refine once ⟨r.decoder.push (b :: bytes), input⟩ ?_ hr rfl rfl rfl rfl
      rw [fill, hr]
      rfl

namespace Fills

variable {again : Nat} {last : ReadAnswer}

/-- What the reads of a fill are answered. -/
theorem answers_eq (h : r.Fills again last) :
    r.input.answers (again + 1) = r.input.answers again ++ [last] := by
  rw [InputStream.answers_add, h.last_eq]

/-- The reads of a fill bring what the last of them brings. -/
theorem brought_eq (h : r.Fills again last) :
    brought (r.input.answers (again + 1)) = last.bytes := by
  rw [h.answers_eq, brought_append, (of_interrupted h.interrupted).1]
  exact List.append_nil _

/-- The reads of a fill fail if the last of them does. -/
theorem readFailure?_eq (h : r.Fills again last) :
    readFailure? (r.input.answers (again + 1)) = last.failure? := by
  rw [h.answers_eq, readFailure?_append, (of_interrupted h.interrupted).2.1, Option.none_or]
  exact List.findSome?_singleton

end Fills

end

end FrameReader

/-! ## What a burst comes to -/

/-- The decoder has been given the bytes that reads brought and has handed out all it could. It has
failed if it has met an error, or one of the reads has failed. -/
structure Decoder.Gathers (d : Decoder) (answers : List ReadAnswer) (items : List Item)
    (failure : Option FrameError) (d' : Decoder) : Prop where
  items_eq : (d.push (brought answers)).drain.1 = items
  failure_eq : (d.push (brought answers)).drain.2.1.or (readFailure? answers) = failure
  decoder_eq : (d.push (brought answers)).drain.2.2 = d'

namespace Decoder.Gathers

section
variable {d d' d'' : Decoder} {answers answers' : List ReadAnswer} {items items' : List Item}
  {failure : Option FrameError}

/-- Without a read, a decoder hands out what it holds. -/
theorem of_drain (d : Decoder) : d.Gathers [] d.drain.1 d.drain.2.1 d.drain.2.2 := by
  refine ⟨?_, ?_, ?_⟩ <;>
    simp only [brought, readFailure?, List.flatMap_nil, List.findSome?_nil, Option.or_none,
      push_nil]

/-- As long as nothing has failed, a decoder may stop at any read and go on from there. -/
theorem trans (h : d.Gathers answers items none d') (h' : d'.Gathers answers' items' failure d'') :
    d.Gathers (answers ++ answers') (items ++ items') failure d'' := by
  obtain ⟨-, hfail⟩ := Option.or_eq_none_iff.1 h.failure_eq
  have hdrain := (d.push (brought answers)).drain_push (brought answers')
  rw [push_push, h.items_eq, h.decoder_eq] at hdrain
  refine ⟨?_, ?_, ?_⟩
  · rw [brought_append, hdrain, h'.items_eq]
  · rw [brought_append, hdrain, readFailure?_append, hfail, Option.none_or]
    exact h'.failure_eq
  · rw [brought_append, hdrain]
    exact h'.decoder_eq

/-- A decoder that has been given bytes goes on with them. -/
theorem of_push (hn : readFailure? answers = none)
    (h : (d.push (brought answers)).Gathers answers' items failure d') :
    d.Gathers (answers ++ answers') items failure d' := by
  refine ⟨?_, ?_, ?_⟩ <;> rw [brought_append, ← push_push]
  · exact h.items_eq
  · rw [readFailure?_append, hn, Option.none_or]
    exact h.failure_eq
  · exact h.decoder_eq

/-- A decoder that has not failed has no item left to hand out. -/
theorem next_eq (h : d.Gathers answers items none d') : d'.next = (.ok none, d') := by
  have hdrain := (d.push (brought answers)).drain_drain
  rw [h.decoder_eq] at hdrain
  rcases hn : d'.next with ⟨e | _ | item, last⟩
  · rw [drain_of_error hn] at hdrain
    cases (Option.or_eq_none_iff.1 h.failure_eq).1.symm.trans (congrArg (·.2.1) hdrain).symm
  · rw [drain_of_none hn] at hdrain
    have hlast : last = _ := congrArg (·.2.2) hdrain
    rw [hlast, h.decoder_eq]
  · rw [drain_of_item hn] at hdrain
    cases congrArg Prod.fst hdrain

end

end Decoder.Gathers

namespace FrameReader

/-- The reader has made this many reads, and its decoder has handed out what they complete. -/
structure Gathers (r : FrameReader) (reads : Nat) (items : List Item) (failure : Option FrameError)
    (r' : FrameReader) : Prop where
  input_eq : r'.input = r.input.after reads
  decoder : r.decoder.Gathers (r.input.answers reads) items failure r'.decoder

section
variable {r r' r'' : FrameReader} {items items' : List Item} {failure : Option FrameError}
  {reads reads' again : Nat} {last : ReadAnswer}

namespace Gathers

/-- A reader that makes no read hands out what its decoder holds. -/
theorem of_drain (r : FrameReader) :
    r.Gathers 0 r.decoder.drain.1 r.decoder.drain.2.1 ⟨r.decoder.drain.2.2, r.input⟩ :=
  ⟨rfl, .of_drain r.decoder⟩

/-- As long as nothing has failed, a reader may stop at any read and go on from there. -/
theorem trans (h : r.Gathers reads items none r') (h' : r'.Gathers reads' items' failure r'') :
    r.Gathers (reads + reads') (items ++ items') failure r'' where
  input_eq := by rw [h'.input_eq, h.input_eq, InputStream.after_add]
  decoder := by
    rw [InputStream.answers_add, ← h.input_eq]
    exact h.decoder.trans h'.decoder

/-- After a fill that does not fail, the reader goes on. -/
theorem of_fills (hf : r.Fills again last) (hl : last.failure? = none)
    (h : r.fill.2.Gathers reads items failure r') :
    r.Gathers (again + 1 + reads) items failure r' where
  input_eq := by rw [h.input_eq, hf.input_eq, ← InputStream.after_add]
  decoder := by
    rw [InputStream.answers_add, ← hf.input_eq]
    refine .of_push (by rw [hf.readFailure?_eq, hl]) ?_
    rw [hf.brought_eq, ← hf.decoder_eq]
    exact h.decoder

/-- A fill that fails ends what a drained reader does. -/
theorem of_fails {e : FrameError} (hd : r.decoder.drain = ([], none, r.decoder))
    (hf : r.Fills again last) (hl : last.failure? = some e) (hb : last.bytes = []) :
    r.Gathers (again + 1) [] (some e) r.fill.2 := by
  refine ⟨hf.input_eq, ?_, ?_, ?_⟩ <;> rw [hf.brought_eq, hb, Decoder.push_nil, hd]
  · rw [hf.readFailure?_eq, hl]
    rfl
  · rw [hf.decoder_eq, hb, Decoder.push_nil]

end Gathers

end

end FrameReader

/-- What a burst of this size goes by, which may have failed: every read but the last brings bytes
or is made again, at most as many as the size are not made again, and fewer only if the last one
timed out or the burst failed. -/
structure Paced (size : Nat) (answers : List ReadAnswer) (failed : Bool) : Prop where
  goes_on : ∀ a ∈ answers.dropLast, ReadAnswer.isInterrupted a = true ∨ ReadAnswer.brings a = true
  settled_le : settledReads answers ≤ size
  stops : failed = false →
    settledReads answers = size ∨ ∃ a ∈ answers.getLast?, ReadAnswer.isTimeout a = true

namespace Paced

variable {size : Nat} {before rest : List ReadAnswer} {a : ReadAnswer} {failed : Bool}

/-- A burst that makes no read. -/
theorem nil (h : size = 0 ∨ failed = true) : Paced size [] failed where
  goes_on := nofun
  settled_le := Nat.zero_le _
  stops hf := by
    rcases h with rfl | rfl
    · exact .inl rfl
    · cases hf

theorem settledReads_of_last (hb : ∀ a ∈ before, ReadAnswer.isInterrupted a = true)
    (ha : a.isInterrupted = false) : settledReads (before ++ [a]) = 1 := by
  rw [settledReads_append, (of_interrupted hb).2.2]
  simp [settledReads, ha]

/-- A burst goes on after reads that bring bytes. -/
theorem cons (hb : ∀ a ∈ before, ReadAnswer.isInterrupted a = true) (ha : a.isInterrupted = false)
    (hbrings : a.brings = true) (h : Paced size rest failed) :
    Paced (size + 1) (before ++ [a] ++ rest) failed := by
  have hs : settledReads (before ++ [a] ++ rest) = settledReads rest + 1 := by
    rw [settledReads_append, settledReads_of_last hb ha, Nat.add_comm]
  have hbefore : ∀ b ∈ before ++ [a],
      ReadAnswer.isInterrupted b = true ∨ ReadAnswer.brings b = true := by
    intro b hmem
    rcases List.mem_append.1 hmem with hmem | hmem
    · exact .inl (hb b hmem)
    · rw [List.mem_singleton.1 hmem]
      exact .inr hbrings
  refine ⟨?_, ?_, fun hf => ?_⟩
  · intro b hmem
    cases rest with
    | nil =>
      rw [List.append_nil] at hmem
      exact hbefore b (List.dropLast_subset _ hmem)
    | cons c rest =>
      rw [List.dropLast_append_of_ne_nil (List.cons_ne_nil c rest)] at hmem
      rcases List.mem_append.1 hmem with hmem | hmem
      · exact hbefore b hmem
      · exact h.goes_on b hmem
  · have := h.settled_le
    omega
  · rcases h.stops hf with hsize | ⟨b, hlast, ht⟩
    · exact .inl (by omega)
    · refine .inr ⟨b, ?_, ht⟩
      rw [Option.mem_def] at hlast
      rw [Option.mem_def, List.getLast?_append, hlast]
      rfl

/-- A burst ends with a read that times out or fails. -/
theorem last (hb : ∀ a ∈ before, ReadAnswer.isInterrupted a = true) (ha : a.isInterrupted = false)
    (h : failed = false → a.isTimeout = true) : Paced (size + 1) (before ++ [a]) failed where
  goes_on b hmem := by
    rw [List.dropLast_concat] at hmem
    exact .inl (hb b hmem)
  settled_le := by
    rw [settledReads_of_last hb ha]
    omega
  stops hf := by
    refine .inr ⟨a, ?_, h hf⟩
    rw [Option.mem_def, List.getLast?_append]
    rfl

end Paced

namespace FrameReader

section
variable {r r' : FrameReader} {items : List Item} {failure : Option FrameError} {d : Decoder}

/-- A burst begins by handing out what is buffered. -/
theorem burst_of_drain (h : r.decoder.drain = (items, none, d)) (size : Nat) :
    r.burst size = (items ++ (burst ⟨d, r.input⟩ size).1, (burst ⟨d, r.input⟩ size).2) := by
  have hagain : d.drain = ([], none, d) := by
    have hdrain := r.decoder.drain_drain
    rwa [h] at hdrain
  cases size with
  | zero => simp only [burst, h, hagain, List.append_nil]
  | succ size =>
    simp only [burst, h, hagain, List.nil_append]
    rcases fill ⟨d, r.input⟩ with ⟨e | _ | _, r'⟩ <;> simp

/-- A burst ends with an error that its decoder meets before any read. -/
theorem burst_of_error {e : FrameError} (h : r.decoder.drain = (items, some e, d)) (size : Nat) :
    r.burst size = (items, some e, { r with decoder := d }) := by
  cases size <;> simp only [burst, h]

/-- What a burst comes to: it hands out what its reads complete, and goes from one read to the next
as it should. -/
def BurstGathers (r : FrameReader) (size : Nat) : Prop :=
  ∃ reads, r.Gathers reads (r.burst size).1 (r.burst size).2.1 (r.burst size).2.2 ∧
    Paced size (r.input.answers reads) (r.burst size).2.1.isSome

/-- A burst that has nothing to hand out first goes by the answer of its first fill. -/
theorem burstGathers_of_drained (hd : r.decoder.drain = ([], none, r.decoder)) {size : Nat}
    (ih : r.fill.2.BurstGathers size) : r.BurstGathers (size + 1) := by
  obtain ⟨again, last, hf⟩ := exists_fills r
  obtain ⟨answer, r₁, hfill⟩ : ∃ answer r₁, r.fill = (answer, r₁) := ⟨_, _, rfl⟩
  have hans : answer = last.verdict := by rw [← hf.answer_eq, hfill]
  rw [BurstGathers, burst, hd]
  dsimp only
  rw [hfill]
  rcases ReadAnswer.verdict_cases hf.settled with
    ⟨hv, hb, hn⟩ | ⟨hv, ht, hb, hn⟩ | ⟨e, hv, hb, he⟩ <;> obtain rfl := hans.trans hv
  · -- Bytes have come.
    obtain ⟨reads, hg, hp⟩ := ih
    refine ⟨again + 1 + reads, .of_fills hf hn (by rwa [hfill] at hg ⊢), ?_⟩
    rw [InputStream.answers_add, hf.answers_eq, ← hf.input_eq]
    rw [hfill] at hp ⊢
    exact .cons hf.interrupted hf.settled hb hp
  · -- The read has timed out.
    refine ⟨again + 1, ?_, ?_⟩
    · have hg := Gathers.of_fills hf hn (.of_drain _)
      rwa [hfill] at hg
    · rw [hf.answers_eq]
      exact .last hf.interrupted hf.settled fun _ => ht
  · -- The read has failed.
    refine ⟨again + 1, ?_, ?_⟩
    · have hg := Gathers.of_fails hd hf he hb
      rwa [hfill] at hg
    · rw [hf.answers_eq]
      exact .last hf.interrupted hf.settled fun h => by cases h

/-- Every burst comes to this. -/
theorem burstGathers (r : FrameReader) (size : Nat) : r.BurstGathers size := by
  induction size generalizing r with
  | zero => exact ⟨0, .of_drain r, .nil (.inl rfl)⟩
  | succ size ih =>
    have hdrain := Gathers.of_drain r
    obtain ⟨items, error, d, hd⟩ : ∃ items error d, r.decoder.drain = (items, error, d) :=
      ⟨_, _, _, rfl⟩
    have hagain := r.decoder.drain_drain
    rw [hd] at hdrain hagain
    cases error with
    | some e =>
      rw [BurstGathers, burst_of_error hd]
      exact ⟨0, hdrain, .nil (.inr rfl)⟩
    | none =>
      obtain ⟨reads, hg, hp⟩ := burstGathers_of_drained (r := ⟨d, r.input⟩) hagain (ih _)
      rw [BurstGathers, burst_of_drain hd]
      refine ⟨reads, ?_, hp⟩
      have hall := hdrain.trans hg
      rwa [Nat.zero_add] at hall

/-! ## Sequences of bursts -/

/-- Bursts of these sizes, one after another, up to the first that fails. -/
def bursts (r : FrameReader) : List Nat → List Item × Option FrameError × FrameReader
  | [] => ([], none, r)
  | size :: sizes =>
    match r.burst size with
    | (items, some e, r') => (items, some e, r')
    | (items, none, r') =>
      let (more, failure, last) := bursts r' sizes
      (items ++ more, failure, last)

/-- A burst that fails is the last one. -/
theorem bursts_cons_of_error {size : Nat} {e : FrameError} (h : r.burst size = (items, some e, r'))
    (sizes : List Nat) : r.bursts (size :: sizes) = (items, some e, r') := by
  simp only [bursts, h]

/-- After a burst that does not fail come the others. -/
theorem bursts_cons_of_none {size : Nat} (h : r.burst size = (items, none, r')) (sizes : List Nat) :
    r.bursts (size :: sizes) = (items ++ (r'.bursts sizes).1, (r'.bursts sizes).2) := by
  simp only [bursts, h]

/-- Bursts that fail are not followed by others. -/
theorem bursts_append_of_error {sizes : List Nat} {e : FrameError}
    (h : r.bursts sizes = (items, some e, r')) (more : List Nat) :
    r.bursts (sizes ++ more) = (items, some e, r') := by
  induction sizes generalizing r items with
  | nil => cases h
  | cons size sizes ih =>
    obtain ⟨first, failure, r₁, hb⟩ : ∃ first failure r₁, r.burst size = (first, failure, r₁) :=
      ⟨_, _, _, rfl⟩
    rw [List.cons_append]
    cases failure with
    | some e' =>
      rw [bursts_cons_of_error hb] at h ⊢
      exact h
    | none =>
      rw [bursts_cons_of_none hb] at h ⊢
      obtain ⟨more', failure, last, hr⟩ : ∃ more' failure last,
          r₁.bursts sizes = (more', failure, last) := ⟨_, _, _, rfl⟩
      rw [hr] at h
      cases h
      rw [ih hr]

/-- Bursts that do not fail are followed by others. -/
theorem bursts_append_of_none {sizes : List Nat} (h : r.bursts sizes = (items, none, r'))
    (more : List Nat) :
    r.bursts (sizes ++ more) = (items ++ (r'.bursts more).1, (r'.bursts more).2) := by
  induction sizes generalizing r items with
  | nil =>
    cases h
    rfl
  | cons size sizes ih =>
    obtain ⟨first, failure, r₁, hb⟩ : ∃ first failure r₁, r.burst size = (first, failure, r₁) :=
      ⟨_, _, _, rfl⟩
    rw [List.cons_append]
    cases failure with
    | some e' =>
      rw [bursts_cons_of_error hb] at h
      cases h
    | none =>
      rw [bursts_cons_of_none hb] at h ⊢
      obtain ⟨more', failure, last, hr⟩ : ∃ more' failure last,
          r₁.bursts sizes = (more', failure, last) := ⟨_, _, _, rfl⟩
      rw [hr] at h
      cases h
      rw [ih hr, List.append_assoc]

/-! ## Bursts of one read -/

/-- What is buffered may be handed out by the first of several bursts or before it. -/
theorem bursts_of_drain (h : r.decoder.drain = (items, none, d)) {sizes : List Nat}
    (hs : sizes ≠ []) :
    r.bursts sizes = (items ++ (bursts ⟨d, r.input⟩ sizes).1, (bursts ⟨d, r.input⟩ sizes).2) := by
  obtain ⟨size, sizes, rfl⟩ := List.exists_cons_of_ne_nil hs
  have hb := burst_of_drain h size
  obtain ⟨first, failure, r₁, hd⟩ : ∃ first failure r₁,
      burst ⟨d, r.input⟩ size = (first, failure, r₁) := ⟨_, _, _, rfl⟩
  rw [hd] at hb
  cases failure with
  | some e => rw [bursts_cons_of_error hb, bursts_cons_of_error hd]
  | none => rw [bursts_cons_of_none hb, bursts_cons_of_none hd, List.append_assoc]

/-- Either the first read of a burst is the last, however many it may make, or it makes one read
less after it. -/
theorem burst_succ (r : FrameReader) :
    (∀ size, r.burst (size + 1) = r.burst 1) ∨
      ∃ items, ∃ r₁ : FrameReader,
        ∀ size, r.burst (size + 1) = (items ++ (r₁.burst size).1, (r₁.burst size).2) := by
  obtain ⟨items, error, d, hd⟩ : ∃ items error d, r.decoder.drain = (items, error, d) :=
    ⟨_, _, _, rfl⟩
  cases error with
  | some e => exact .inl fun size => by rw [burst_of_error hd, burst_of_error hd]
  | none =>
    rcases hf : fill ⟨d, r.input⟩ with ⟨e | _ | _, r₁⟩
    · exact .inl fun size => by simp only [burst, hd, hf]
    · exact .inl fun size => by simp only [burst, hd, hf]
    · exact .inr ⟨items, r₁, fun size => by simp only [burst, hd, hf]⟩

/-- One burst is a sequence of bursts. -/
theorem bursts_singleton (r : FrameReader) (size : Nat) : r.bursts [size] = r.burst size := by
  rcases h : r.burst size with ⟨items, _ | e, r'⟩
  · rw [bursts_cons_of_none h, bursts, List.append_nil]
  · rw [bursts_cons_of_error h]

/-- A burst comes to what bursts of one read come to. -/
theorem burst_eq_single (r : FrameReader) (size : Nat) :
    ∃ n, n ≤ size ∧ r.burst (size + 1) = r.bursts (.replicate (n + 1) 1) := by
  induction size generalizing r with
  | zero => exact ⟨0, Nat.le_refl _, (r.bursts_singleton 1).symm⟩
  | succ size ih =>
    rcases r.burst_succ with h | ⟨items, r₁, h⟩
    · exact ⟨0, Nat.zero_le _, (h _).trans (r.bursts_singleton 1).symm⟩
    · obtain ⟨buffered, error, d, hd⟩ : ∃ buffered error d,
          r₁.decoder.drain = (buffered, error, d) := ⟨_, _, _, rfl⟩
      have hone := h 0
      cases error with
      | some e =>
        -- The first read has brought what the decoder refuses.
        refine ⟨0, Nat.zero_le _, ?_⟩
        rw [List.replicate_one, bursts_singleton, h, hone, burst_of_error hd, burst_of_error hd]
      | none =>
        obtain ⟨n, hn, heq⟩ := ih r₁
        refine ⟨n + 1, Nat.succ_le_succ hn, ?_⟩
        rw [bursts_of_drain hd (by simp)] at heq
        rw [burst, hd] at hone
        rw [List.replicate_succ, bursts_cons_of_none hone, h, heq, List.append_assoc]

/-- Bursts of any sizes come to what bursts of one read come to: as many as there are bursts or
more, and no more than the sizes are together. -/
theorem bursts_eq_single (r : FrameReader) {sizes : List Nat} (hs : ∀ size ∈ sizes, 1 ≤ size) :
    ∃ n, sizes.length ≤ n ∧ n ≤ sizes.sum ∧ r.bursts sizes = r.bursts (.replicate n 1) := by
  induction sizes generalizing r with
  | nil => exact ⟨0, Nat.le_refl _, Nat.le_refl _, rfl⟩
  | cons size sizes ih =>
    obtain ⟨hsize, hrest⟩ := List.forall_mem_cons.1 hs
    obtain ⟨m, rfl⟩ := Nat.exists_eq_add_of_le' hsize
    obtain ⟨k, hk, heq⟩ := r.burst_eq_single m
    obtain ⟨items, failure, r₁, hb⟩ : ∃ items failure r₁, r.burst (m + 1) = (items, failure, r₁) :=
      ⟨_, _, _, rfl⟩
    obtain ⟨n, hlen, hsum, hsingles⟩ := ih r₁ hrest
    refine ⟨k + 1 + n, ?_, ?_, ?_⟩
    · rw [List.length_cons]
      omega
    · rw [List.sum_cons]
      omega
    · rw [← List.replicate_append_replicate]
      have hsingle := heq.symm.trans hb
      cases failure with
      | some e => rw [bursts_cons_of_error hb, bursts_append_of_error hsingle]
      | none => rw [bursts_cons_of_none hb, bursts_append_of_none hsingle, hsingles]

/-- A fill that does not fail uses up part of the stream. -/
theorem weight_fill_lt_of_ok {answer : Bool} (h : r.fill = (.ok answer, r')) :
    r'.input.weight < r.input.weight := by
  cases answer with
  | true => exact weight_fill_lt h
  | false =>
    fun_induction fill r with
    | case1 | case2 | case5 => cases h
    | case3 r e input hr hi ih => exact Nat.lt_trans (ih h) (InputStream.weight_read_lt_of_error hr)
    | case4 r e input hr hi ht =>
      cases h
      exact InputStream.weight_read_lt_of_error hr

/-- A burst of one read that does not fail uses up part of the stream. -/
theorem weight_burst_lt (h : r.burst 1 = (items, none, r')) :
    r'.input.weight < r.input.weight := by
  obtain ⟨buffered, error, d, hd⟩ : ∃ buffered error d, r.decoder.drain = (buffered, error, d) :=
    ⟨_, _, _, rfl⟩
  cases error with
  | some e =>
    rw [burst_of_error hd] at h
    cases h
  | none =>
    rw [burst, hd] at h
    dsimp only at h
    rcases hf : fill ⟨d, r.input⟩ with ⟨e | answer, r₁⟩
    · rw [hf] at h
      cases h
    · have hlt := weight_fill_lt_of_ok hf
      have hr : r'.input = r₁.input := by
        rw [hf] at h
        cases answer <;> exact (congrArg (·.2.2.input) h).symm
      rw [hr]
      exact hlt

/-- Bursts of one read come to a failure: the stream ends. -/
theorem exists_failure (r : FrameReader) :
    ∃ n items e last, r.bursts (.replicate n 1) = (items, some e, last) := by
  induction hw : r.input.weight using Nat.strongRecOn generalizing r with
  | ind w ih =>
    subst hw
    obtain ⟨items, failure, r₁, hb⟩ : ∃ items failure r₁, r.burst 1 = (items, failure, r₁) :=
      ⟨_, _, _, rfl⟩
    cases failure with
    | some e => exact ⟨1, items, e, r₁, bursts_cons_of_error hb []⟩
    | none =>
      obtain ⟨n, more, e, last, h⟩ := ih _ (weight_burst_lt hb) r₁ rfl
      refine ⟨n + 1, items ++ more, e, last, ?_⟩
      rw [List.replicate_succ, bursts_cons_of_none hb, h]

end

/-- How the reads of a stream are gathered into bursts does not matter. For every reader there are
items, a failure and a reader that are left behind, such that bursts of whatever sizes, made one
after another until one fails, hand out these items, fail with this failure and leave this reader:
bursts of one read do, and so does every endless sequence of sizes, from some burst on. (A stream
that has come to its end is read as a stream that ends, so that there always is a failure.) Up to
any burst, too, what has been handed out and how it has ended is what bursts of one read come to.
Each burst hands out what the decoder hands out of the bytes that its reads bring, after every item
that was complete before; it fails if the decoder meets an error or a read fails, and with nothing
else; it makes no more reads than it may, other than those made again, and goes on after none that
times out; and one that does not fail leaves no item to be handed out. -/
theorem bursts_agree (r : FrameReader) :
    (∃ items e last, ∀ sizes : Nat → Nat, (∀ i, 1 ≤ sizes i) →
      ∃ n, ∀ m, n ≤ m → r.bursts ((List.range m).map sizes) = (items, some e, last)) ∧
    (∀ sizes : List Nat, (∀ size ∈ sizes, 1 ≤ size) →
      ∃ n, sizes.length ≤ n ∧ n ≤ sizes.sum ∧ r.bursts sizes = r.bursts (.replicate n 1)) ∧
    ∀ size, r.BurstGathers size ∧ ((r.burst size).2.1 = none →
      (r.burst size).2.2.decoder.next = (.ok none, (r.burst size).2.2.decoder)) := by
  refine ⟨?_, fun sizes => r.bursts_eq_single, fun size => ⟨r.burstGathers size, fun hn => ?_⟩⟩
  · obtain ⟨n, items, e, last, h⟩ := r.exists_failure
    refine ⟨items, e, last, fun sizes hs => ⟨n, fun m hm => ?_⟩⟩
    have hs' : ∀ size ∈ (List.range m).map sizes, 1 ≤ size := by
      intro size hmem
      obtain ⟨i, -, rfl⟩ := List.mem_map.1 hmem
      exact hs i
    obtain ⟨k, hlen, -, heq⟩ := r.bursts_eq_single hs'
    rw [List.length_map, List.length_range] at hlen
    obtain ⟨more, rfl⟩ := Nat.exists_eq_add_of_le (Nat.le_trans hm hlen)
    rw [heq, ← List.replicate_append_replicate, bursts_append_of_error h]
  · obtain ⟨reads, hg, -⟩ := r.burstGathers size
    rw [hn] at hg
    exact hg.decoder.next_eq

/-- A keepalive, a frame that is too long and another keepalive, in reads that are cut short,
interrupted and late. -/
def choppy : InputStream where
  outcomes := [.data [0, 0], .fail (.plain .interrupted), .data [0, 0, 0x2B],
    .fail (.plain .timedOut), .data [0xAD, 0, 1, 0x7F, 0, 0, 0], .data [0, 0, 1, 0xAA],
    .data [0, 0, 0, 0]]

/-- Two bursts hand out the keepalive and fail at the frame, the second with a read left to make,
as bursts of one read do. -/
theorem bursts_agree_choppy :
    (∀ size ∈ [3, 3], 1 ≤ size) ∧
      (∃ n, 2 ≤ n ∧ n ≤ 6 ∧
        (new {} choppy).bursts [3, 3] = (new {} choppy).bursts (.replicate n 1)) ∧
      ((new {} choppy).bursts [3, 3]).1 = [.keepalive] ∧
      ((new {} choppy).bursts [3, 3]).2.1 = some (.payloadTooLarge 0x7F000000 0x1000000) ∧
      ((new {} choppy).bursts [3, 3]).2.2.input.outcomes = [.data [0, 0, 0, 0]] :=
  have h : ∀ size ∈ [3, 3], 1 ≤ size := by decide
  ⟨h, (bursts_agree (new {} choppy)).2.1 [3, 3] h, by decide +kernel, by decide +kernel,
    by decide +kernel⟩

end FrameReader

end PeerMessaging
