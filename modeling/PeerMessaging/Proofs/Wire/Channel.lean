import PeerMessaging.Proofs.Wire.Lockstep
import PeerMessaging.Proofs.Wire.Writing

/-!
# Channels of bytes

A channel between a writer and a reader holds some bytes and has room for some more. A write to it
takes at least one byte as long as there is room and times out otherwise (`admits`), and a read from
it brings at least one byte as long as it holds any and times out otherwise (`delivers`). Against
such a channel writing never fails, and moves something if there is something to write and room for
it (`FrameWriter.flushPending_of_admits`). Reading never fails if the bytes are well formed, and
moves something if there is something to read (`FrameReader.burst_of_delivers`). The beginning of
what has been written item by item is well formed (`error_decodeAll_prefix`).
-/

namespace PeerMessaging

/-! ## Writing to a channel -/

/-- The writes are those to a channel with so much room: each takes some bytes, as many as there is
room for at most, and with no room left they time out. -/
def admits : Nat → List (Timed WriteOutcome) → Bool
  | room, [⟨.fail e, _⟩] => room = 0 && e.isTimeout
  | room, ⟨.accept n, _⟩ :: rest => 0 < n && n ≤ room && admits (room - n) rest
  | _, _ => false

/-- Every flush is done at once. -/
def settles (flushes : List (Timed FlushOutcome)) : Bool := flushes.all (·.outcome = .done)

namespace OutputStream

/-- A write does not flush. -/
theorem flushes_write {s s' : OutputStream} {bytes : Bytes} {r : Except IoError Nat}
    (h : s.write bytes = (r, s')) : s'.flushes = s.flushes := by
  unfold write at h
  dsimp only at h
  split at h <;> cases h <;> rfl

/-- A write to a channel takes something if there is room, and times out otherwise. -/
theorem write_of_admits {s : OutputStream} {bytes : Bytes} {room : Nat}
    (h : admits room s.writes = true) (hb : bytes ≠ []) :
    (room = 0 ∧ ∃ e s', e.isTimeout = true ∧ s.write bytes = (.error e, s')) ∨
      ∃ n s' room', s.write bytes = (.ok (n + 1), s') ∧ admits room' s'.writes = true := by
  unfold write
  dsimp only
  split
  · rename_i hw
    rw [hw] at h
    cases h
  · rename_i n elapsed rest hw
    rw [hw, admits, Bool.and_eq_true, Bool.and_eq_true] at h
    obtain ⟨⟨hn, -⟩, hrest⟩ := h
    have hpos : 0 < (bytes.take n).length := by
      rw [List.length_take]
      exact Nat.lt_min.2 ⟨of_decide_eq_true hn, List.length_pos_iff.2 hb⟩
    obtain ⟨k, hk⟩ := Nat.exists_eq_add_one_of_ne_zero (Nat.ne_of_gt hpos)
    exact .inr ⟨k, _, _, by rw [hk], hrest⟩
  · rename_i e elapsed rest hw
    rw [hw] at h
    cases rest with
    | nil =>
      rw [admits, Bool.and_eq_true] at h
      exact .inl ⟨of_decide_eq_true h.1, e, _, h.2, rfl⟩
    | cons => cases h

end OutputStream

namespace FrameWriter

section
variable {room : Nat}

/-- Writing to a channel does not fail, and takes something if there is something to write and room
for it. -/
theorem writePending_of_admits {w : FrameWriter} (deadline : Option Moment)
    (h : admits room w.output.writes = true) :
    (∃ b, (w.writePending deadline).1 = .ok b) ∧
      (w.writePending deadline).2.output.flushes = w.output.flushes ∧
      ((w.writePending deadline).2.output.accepted = w.output.accepted → 0 < room →
        w.encoder.pending = []) := by
  -- Once bytes have been taken they stay taken.
  have taken {w w' : FrameWriter} {n : Nat} {output : OutputStream} (hp : w.encoder.pending ≠ [])
      (hw : w.output.write w.encoder.pending = (.ok (n + 1), output))
      (hm : Moves ⟨{ w.encoder with pending := w.encoder.pending.drop (n + 1) }, output⟩ w') :
      w'.output.accepted ≠ w.output.accepted := by
    intro heq
    obtain ⟨more, hmore, -⟩ := hm
    dsimp only at hmore
    rw [OutputStream.accepted_of_write_ok hw, heq, List.append_assoc] at hmore
    obtain ⟨hnil, -⟩ := List.append_eq_nil_iff.1 (List.self_eq_append_right.1 hmore)
    rcases List.take_eq_nil_iff.1 hnil with hn | hp'
    · cases hn
    · exact hp hp'
  fun_induction writePending deadline w generalizing room with
  | case1 w hp => exact ⟨⟨true, rfl⟩, rfl, fun _ _ => hp⟩
  | case2 w hp output hw =>
    rcases OutputStream.write_of_admits h hp with ⟨-, e, s', -, he⟩ | ⟨n, s', room', hn, -⟩
    · cases hw.symm.trans he
    · cases hw.symm.trans hn
  | case3 w hp n output hw hd =>
    exact ⟨⟨false, rfl⟩, OutputStream.flushes_write hw,
      fun heq => absurd heq (taken hp hw (.refl _))⟩
  | case4 w hp n output hw w' hd =>
    rename_i ih
    rcases OutputStream.write_of_admits h hp with ⟨-, e, s', -, he⟩ | ⟨n', s', room', hn, hrest⟩
    · cases hw.symm.trans he
    · cases hw.symm.trans hn
      obtain ⟨hok, hflushes, -⟩ := ih hrest
      exact ⟨hok, hflushes.trans (OutputStream.flushes_write hw),
        fun heq => absurd heq (taken hp hw (written_writePending deadline _).moves)⟩
  | case5 w hp e output hw hi =>
    rcases OutputStream.write_of_admits h hp with ⟨-, e', s', ht, he⟩ | ⟨n, s', room', hn, -⟩
    · cases hw.symm.trans he
      cases hi.symm.trans (IoError.isInterrupted_of_isTimeout ht)
    · cases hw.symm.trans hn
  | case6 w hp e output hw hi ht =>
    refine ⟨⟨false, rfl⟩, OutputStream.flushes_write hw, fun _ hroom => ?_⟩
    rcases OutputStream.write_of_admits h hp with ⟨rfl, -⟩ | ⟨n, s', room', hn, -⟩
    · cases hroom
    · cases hw.symm.trans hn
  | case7 w hp e output hw hi ht =>
    rcases OutputStream.write_of_admits h hp with ⟨-, e', s', ht', he⟩ | ⟨n, s', room', hn, -⟩
    · cases hw.symm.trans he
      exact absurd ht' ht
    · cases hw.symm.trans hn

/-- A flush that is done at once does not fail. -/
theorem flushStream_of_settles {output : OutputStream} (h : settles output.flushes = true) :
    (flushStream output).1 = .ok true := by
  have done : ∃ s', output.flush = (.ok (), s') := by
    unfold OutputStream.flush
    dsimp only
    split
    · exact ⟨_, rfl⟩
    · exact ⟨_, rfl⟩
    · rename_i hf
      rw [hf] at h
      cases h
  obtain ⟨s', hs⟩ := done
  unfold flushStream
  split
  · rfl
  · rename_i hf
    cases hs.symm.trans hf

/-- Nor does flushing to a channel. -/
theorem flushPending_of_admits {w : FrameWriter} (deadline : Option Moment)
    (h : admits room w.output.writes = true) (hf : settles w.output.flushes = true) :
    (∃ b, (w.flushPending deadline).1 = .ok b) ∧
      ((w.flushPending deadline).2.output.accepted = w.output.accepted → 0 < room →
        w.encoder.pending = []) := by
  obtain ⟨⟨b, hb⟩, hflushes, hmoves⟩ := writePending_of_admits deadline h
  unfold flushPending
  split
  · rename_i w' hw
    rw [hw] at hflushes hmoves
    refine ⟨⟨true, flushStream_of_settles (by rw [hflushes]; exact hf)⟩, ?_⟩
    rw [accepted_flushStream]
    exact hmoves
  · exact ⟨⟨b, hb⟩, hmoves⟩

end

end FrameWriter

/-! ## Reading from a channel -/

/-- The reads are those from a channel that holds these bytes: each brings some of them, and with
none left they time out. -/
def delivers : Bytes → List ReadOutcome → Bool
  | inbox, [.fail e] => inbox.isEmpty && e.isTimeout
  | inbox, .data piece :: rest =>
    !piece.isEmpty && piece.isPrefixOf inbox && delivers (inbox.drop piece.length) rest
  | _, _ => false

/-- A channel brings what it holds. -/
theorem carried_of_delivers {inbox : Bytes} {reads : List ReadOutcome}
    (h : delivers inbox reads = true) : carried reads = inbox := by
  fun_induction delivers inbox reads with
  | case1 inbox e =>
    rw [Bool.and_eq_true] at h
    exact (List.isEmpty_iff.1 h.1).symm
  | case2 inbox piece rest ih =>
    rw [Bool.and_eq_true, Bool.and_eq_true] at h
    obtain ⟨⟨-, hp⟩, hrest⟩ := h
    obtain ⟨more, rfl⟩ := List.isPrefixOf_iff_prefix.1 hp
    have hcarried := ih hrest
    rw [List.drop_left] at hcarried
    exact congrArg (piece ++ ·) hcarried
  | case3 => cases h

/-- A read from a channel brings something if it holds anything, and times out otherwise. -/
theorem InputStream.read_of_delivers {s : InputStream} {inbox : Bytes} {size : Nat}
    (h : delivers inbox s.outcomes = true) (hs : 0 < size) :
    (inbox = [] ∧ ∃ e s', e.isTimeout = true ∧ s.read size = (.error e, s')) ∨
      ∃ b piece rest s', inbox = b :: piece ++ rest ∧ s.read size = (.ok (b :: piece), s') ∧
        delivers rest s'.outcomes = true := by
  obtain ⟨outcomes, n⟩ := s
  dsimp only at h
  unfold delivers at h
  split at h
  · rename_i e
    rw [Bool.and_eq_true] at h
    exact .inl ⟨List.isEmpty_iff.1 h.1, e, _, h.2, rfl⟩
  · rename_i piece rest
    rw [Bool.and_eq_true, Bool.and_eq_true] at h
    obtain ⟨⟨hne, hp⟩, hrest⟩ := h
    obtain ⟨more, rfl⟩ := List.isPrefixOf_iff_prefix.1 hp
    rw [List.drop_left] at hrest
    obtain ⟨k, rfl⟩ := Nat.exists_eq_add_one_of_ne_zero (Nat.ne_of_gt hs)
    cases piece with
    | nil => exact absurd hne Bool.false_ne_true
    | cons b piece =>
      refine .inr ⟨b, piece.take k, piece.drop k ++ more, _, ?_, rfl, ?_⟩
      · rw [List.cons_append, List.cons_append, ← List.append_assoc, List.take_append_drop]
      · simp only [List.drop_succ_cons]
        cases hleft : piece.drop k with
        | nil => exact hrest
        | cons c left =>
          have hpre : (c :: left).isPrefixOf (c :: left ++ more) = true :=
            List.isPrefixOf_iff_prefix.2 (List.prefix_append _ _)
          simp only [List.isEmpty_cons, Bool.false_eq_true, if_false, delivers, Bool.not_false,
            Bool.true_and, hpre, List.drop_left, hrest]
  · cases h

namespace FrameReader

section
variable {r : FrameReader} {inbox : Bytes}

/-- A fill from a channel pushes something if it holds anything, and times out otherwise. -/
theorem fill_of_delivers (h : delivers inbox r.input.outcomes = true) :
    (inbox = [] ∧ ∃ input, r.fill = (.ok false, { r with input })) ∨
      ∃ piece rest input, piece ≠ [] ∧ inbox = piece ++ rest ∧
        r.fill = (.ok true, ⟨r.decoder.push piece, input⟩) ∧
        delivers rest input.outcomes = true := by
  rw [fill]
  have hsize : 0 < readChunkSize := by decide
  rcases r.input.read_of_delivers h hsize with
    ⟨hnil, e, input, ht, he⟩ | ⟨b, piece, rest, input, hinbox, hread, hrest⟩
  · refine .inl ⟨hnil, input, ?_⟩
    split
    · rename_i hr
      cases hr.symm.trans he
    · rename_i hr
      cases hr.symm.trans he
    · rename_i hr
      cases hr.symm.trans he
      rw [IoError.isInterrupted_of_isTimeout ht, if_neg Bool.false_ne_true, if_pos ht]
  · refine .inr ⟨b :: piece, rest, input, List.cons_ne_nil _ _, hinbox, ?_, hrest⟩
    split
    · rename_i hr
      cases hr.symm.trans hread
    · rename_i hr
      cases hr.symm.trans hread
      rfl
    · rename_i hr
      cases hr.symm.trans hread

/-- Reading from a channel does not fail if the decoder takes whatever comes, and brings something
if the channel holds anything. -/
theorem burst_of_delivers (h : delivers inbox r.input.outcomes = true)
    (hc : ∀ got, got <+: inbox → (r.decoder.push got).drain.2.1 = none) (reads : Nat) :
    (r.burst reads).2.1 = none ∧
      (0 < reads → carried (r.burst reads).2.2.input.outcomes = carried r.input.outcomes →
        inbox = []) := by
  induction reads generalizing r inbox with
  | zero =>
    have hnil := hc [] List.nil_prefix
    rw [Decoder.push_nil] at hnil
    exact ⟨hnil, nofun⟩
  | succ reads ih =>
    have hnil := hc [] List.nil_prefix
    rw [Decoder.push_nil] at hnil
    obtain ⟨items, d, hd⟩ : ∃ items d, r.decoder.drain = (items, none, d) :=
      ⟨_, _, Prod.ext rfl (Prod.ext hnil rfl)⟩
    have hagain : d.drain = ([], none, d) := by
      have h := r.decoder.drain_drain
      rwa [hd] at h
    have hpush (got : Bytes) := r.decoder.drain_push got
    rw [hd] at hpush
    have hf := fill_of_delivers (r := ⟨d, r.input⟩) h
    rcases hf with ⟨hinbox, input, hf⟩ | ⟨piece, rest, input, hp, hinbox, hf, hrest⟩
    · have hb : r.burst (reads + 1) = (items ++ [], none, ⟨d, input⟩) := by
        simp only [burst, hd, hf, hagain]
      rw [hb]
      exact ⟨rfl, fun _ _ => hinbox⟩
    · have hb : r.burst (reads + 1) =
          (items ++ (burst ⟨d.push piece, input⟩ reads).1,
            (burst ⟨d.push piece, input⟩ reads).2) := by
        simp only [burst, hd, hf]
      have hclean : ∀ got, got <+: rest → ((d.push piece).push got).drain.2.1 = none := by
        rintro got ⟨more, rfl⟩
        have hgot := hc (piece ++ got) ⟨more, by rw [hinbox, List.append_assoc]⟩
        rw [hpush] at hgot
        rwa [Decoder.push_push]
      obtain ⟨hnone, -⟩ := ih (r := ⟨d.push piece, input⟩) hrest hclean
      rw [hb]
      refine ⟨hnone, fun _ heq => ?_⟩
      -- The first read has brought bytes, and they do not come again.
      obtain ⟨got, hgot, -⟩ := burst_eq_drain ⟨d.push piece, input⟩ reads
      have hall : carried r.input.outcomes = piece ++ carried input.outcomes := by
        rw [carried_of_delivers h, carried_of_delivers hrest, hinbox]
      rw [hall, hgot] at heq
      have hlength := congrArg List.length heq
      simp only [List.length_append] at hlength
      have hpos := List.length_pos_iff.2 hp
      omega

end

end FrameReader

/-! ## Well-formed streams -/

/-- The beginning of what has been written item by item is taken without an error by a reader that
admits every item. -/
theorem error_decodeAll_prefix {config : FrameConfig} {version : ProtocolVersion}
    {items : List Item} (h : ∀ item ∈ items, Spells config item (item.bytes version))
    {arrived : Bytes} (ha : arrived <+: items.flatMap (·.bytes version)) :
    (decodeAll config arrived).error = none := by
  induction items generalizing arrived with
  | nil =>
    cases List.prefix_nil.1 ha
    rw [decodeAll_of_none rfl]
  | cons item items ih =>
    obtain ⟨more, hm⟩ := ha
    have hwhole := decode_of_spells (h item (.head _)) (items.flatMap (·.bytes version))
    rw [List.flatMap_cons] at hm
    rw [← hm] at hwhole
    cases hd : decode config arrived with
    | error e => cases (decode_append_of_error hd more).symm.trans hwhole
    | ok answer =>
      cases answer with
      | none => rw [decodeAll_of_none hd]
      | some taken =>
        obtain ⟨item', rest⟩ := taken
        have heq := (decode_append_of_item hd more).symm.trans hwhole
        simp only [Except.ok.injEq, Option.some.injEq, Prod.mk.injEq] at heq
        rw [decodeAll_of_item hd]
        exact ih (fun item hi => h item (.tail _ hi)) ⟨more, heq.2⟩

/-- What a decoder meets with when more bytes are pushed is what is met with in all the bytes that
it has been given. -/
theorem error_drain_push (config : FrameConfig) (arrived got : Bytes) :
    ((((Decoder.new config).push arrived).drain.2.2).push got).drain.2.1 =
      (decodeAll config (arrived ++ got)).error := by
  have hdrain := Decoder.drain_push ((Decoder.new config).push arrived) got
  rw [Decoder.push_push] at hdrain
  have hidle := (Decoder.Holds.drain_idle (d := (Decoder.new config).push (arrived ++ got)) rfl
    rfl).2.1
  rw [hdrain] at hidle
  exact hidle

end PeerMessaging
