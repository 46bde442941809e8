import PeerMessaging.Proofs.Wire.Refinement

/-!
# Two readers of one stream

A decoder consumes the header of a frame as soon as it is there and then collects the payload; a
reader that calls `decode` on a plain buffer leaves the frame where it is until all of it has come,
and reads the header again every time. `Decoder.Holds` says which plain buffer a decoder stands for.
A decoder goes on as one that has begun no frame and has that buffer (`Decoder.Holds.next_eq`), so
that the two readers hand out the same items and meet the same error, and afterwards the decoder
stands for what is left of the buffer (`Decoder.Holds.drain`). Hence they go in lockstep over all
pieces of a stream (`feedEach_eq_decodeEach`).
-/

namespace PeerMessaging

section
variable {config : FrameConfig}

/-! ## The header of a frame -/

/-- A header is three words long. -/
theorem drop_headerSize (w l t : UInt32) (body : Bytes) :
    (wordBytes w ++ (wordBytes l ++ (wordBytes t ++ body))).drop headerSize = body := by
  rw [← List.append_assoc, ← List.append_assoc]
  exact List.drop_left' rfl

/-- The words of a header whose length is admitted are read as what they say. -/
theorem parseHeader_words {w : UInt32} (hw : config.Opens w) {n : Nat} (hn : n ≤ config.longest)
    (t : UInt32) (rest : Bytes) :
    parseHeader config (wordBytes w ++ (wordBytes (.ofNat n) ++ (wordBytes t ++ rest))) =
      .ok (some (.frame (.ofHeaderWord w) t n)) := by
  obtain ⟨hm, hl⟩ := Nat.le_min.1 hn
  obtain ⟨hpos, htoNat⟩ := toInt_toInt32_ofNat_nonneg hl
  rw [parseHeader_fields hw, checkLength_of_le hpos (by omega), htoNat]
  rfl

/-- A length that is admitted is the one that the word says, and is not too long. -/
theorem checkLength_eq_ok {l : UInt32} {n : Nat} (h : checkLength config l = .ok n) :
    l.toNat = n ∧ n ≤ config.longest := by
  unfold checkLength at h
  split at h
  · cases h
  · split at h
    · cases h
    · cases h
      exact ⟨rfl, Nat.le_min.2 ⟨by omega, by omega⟩⟩

/-- A buffer with the header of a frame opens with the words of the header. -/
theorem eq_words_of_parseHeader {buffer : Bytes} {v : ProtocolVersion} {t : UInt32} {n : Nat}
    (h : parseHeader config buffer = .ok (some (.frame v t n))) :
    ∃ w body, config.Opens w ∧ n ≤ config.longest ∧
      buffer = wordBytes w ++ (wordBytes (.ofNat n) ++ (wordBytes t ++ body)) := by
  have hlen : headerSize ≤ buffer.length := wireSize_le_of_parseHeader h
  rw [headerSize] at hlen
  obtain ⟨w, b, rfl⟩ := exists_wordBytes_append (b := buffer) (by omega)
  rw [List.length_append, length_wordBytes] at hlen
  obtain ⟨l, b, rfl⟩ := exists_wordBytes_append (b := b) (by omega)
  rw [List.length_append, length_wordBytes] at hlen
  obtain ⟨t', body, rfl⟩ := exists_wordBytes_append (b := b) (by omega)
  have hz : w ≠ 0 := by
    rintro rfl
    rw [parseHeader_keepalive] at h
    cases h
  have hs : (w >>> 16).toUInt16 = config.protocol.signature := by
    refine Decidable.not_not.1 fun hs => ?_
    rw [parseHeader_foreign hz hs] at h
    cases h
  have hw : config.Opens w := ⟨hz, hs⟩
  rw [parseHeader_fields hw] at h
  cases hc : checkLength config l with
  | error e =>
    rw [hc] at h
    cases h
  | ok n' =>
    rw [hc] at h
    cases h
    obtain ⟨hl, hn⟩ := checkLength_eq_ok hc
    refine ⟨w, body, hw, hn, ?_⟩
    rw [← hl, UInt32.ofNat_toNat]

/-! ## Taking everything off a buffer -/

theorem decodeAll_of_error {buffer : Bytes} {e : FrameError}
    (h : decode config buffer = .error e) : decodeAll config buffer = ⟨[], some e, buffer⟩ := by
  rw [decodeAll]
  split <;> rename_i hd <;> cases h.symm.trans hd
  rfl

theorem decodeAll_of_none {buffer : Bytes} (h : decode config buffer = .ok none) :
    decodeAll config buffer = ⟨[], none, buffer⟩ := by
  rw [decodeAll]
  split <;> rename_i hd <;> cases h.symm.trans hd
  rfl

namespace Decoder

/-! ## Going on with a frame -/

/-- Of a decoder that collects a frame only the settings matter. -/
theorem collect_congr {d d' : Decoder} (h : d.config = d'.config) (p : PartialFrame)
    (buffer : Bytes) : d.collect p buffer = d'.collect p buffer := by
  rcases Nat.lt_or_ge buffer.length p.remaining with hr | hr
  · rw [collect_of_gt hr, collect_of_gt hr, h]
  · rw [collect_of_le hr, collect_of_le hr, h]

/-- A frame begun goes on as if all that has come of its payload came at once. -/
theorem collect_restart (p : PartialFrame) (buffer : Bytes) (d : Decoder) :
    d.collect { typeId := p.typeId, expected := p.expected } (p.received ++ buffer) =
      d.collect p buffer := by
  have hlen : p.received.length = p.latest.length := List.length_reverse
  have hexp : p.expected = p.received.length + p.remaining := by
    rw [hlen, p.length_add_remaining]
  rcases Nat.lt_or_ge buffer.length p.remaining with h | h
  · have h' : (p.received ++ buffer).length < p.expected := by
      rw [List.length_append]
      omega
    have htake : PartialFrame.take { typeId := p.typeId, expected := p.expected }
        (p.received ++ buffer) = p.take buffer := by
      ext1
      · rfl
      · rfl
      · have hall : (p.received ++ buffer).take p.expected = p.received ++ buffer :=
          List.take_of_length_le (Nat.le_of_lt h')
        change ((p.received ++ buffer).take p.expected).reverse ++ [] =
          (buffer.take p.remaining).reverse ++ p.latest
        rw [hall, List.take_of_length_le (Nat.le_of_lt h), PartialFrame.received]
        simp
    rw [collect_of_gt h, collect_of_gt (p := { typeId := p.typeId, expected := p.expected }) h',
      htake]
  · have h' : p.expected ≤ (p.received ++ buffer).length := by
      rw [List.length_append]
      omega
    rw [collect_of_le h, collect_of_le (p := { typeId := p.typeId, expected := p.expected }) h']
    have ht : (p.received ++ buffer).take p.expected = p.received ++ buffer.take p.remaining := by
      rw [hexp, List.take_length_add_append]
    have hd : (p.received ++ buffer).drop p.expected = buffer.drop p.remaining := by
      rw [hexp, List.drop_length_add_append]
    rw [PartialFrame.remaining_new, ht, hd]
    rfl

/-- A decoder that finds the header of a frame collects what is behind it. -/
theorem next_of_header {buffer body : Bytes} {v : ProtocolVersion} {t : UInt32} {n : Nat}
    (hh : parseHeader config buffer = .ok (some (.frame v t n)))
    (hb : buffer.drop headerSize = body) (d : Decoder) (hc : d.config = config) :
    next ⟨config, buffer, none⟩ =
      (.ok (d.collect { typeId := t, expected := n } body).1,
        (d.collect { typeId := t, expected := n } body).2) := by
  simp only [next, hh, hb]
  rw [collect_congr (d := ⟨config, buffer, none⟩) hc.symm]

/-! ## The buffer that a decoder stands for -/

/-- The bytes that a decoder has received and not handed out: those that it has not looked at, and
before them, if it is collecting a frame, the header of the frame and what has come of its
payload. -/
inductive Holds (config : FrameConfig) : Decoder → Bytes → Prop
  | idle (buffer : Bytes) : Holds config ⟨config, buffer, none⟩ buffer
  | collecting {p : PartialFrame} {w : UInt32} (hw : config.Opens w)
      (hn : p.expected ≤ config.longest) (buffer : Bytes) :
      Holds config ⟨config, buffer, some p⟩
        (wordBytes w ++ wordBytes (.ofNat p.expected) ++ wordBytes p.typeId ++ p.received ++ buffer)

namespace Holds

variable {d : Decoder} {plain : Bytes}

/-- A decoder goes on as one that has begun no frame and has all the bytes. -/
theorem next_eq (h : Holds config d plain) : d.next = next ⟨config, plain, none⟩ := by
  cases h with
  | idle => rfl
  | @collecting p w hw hn buffer =>
    have hparse := parseHeader_words hw hn p.typeId (p.received ++ buffer)
    simp only [List.append_assoc]
    rw [next_of_pending rfl,
      next_of_header hparse (drop_headerSize ..) ⟨config, buffer, some p⟩ rfl, collect_restart]

/-- Bytes that come are held behind the others. -/
theorem push (h : Holds config d plain) (bytes : Bytes) :
    Holds config (d.push bytes) (plain ++ bytes) := by
  cases h with
  | idle buffer => exact .idle _
  | collecting hw hn buffer =>
    rw [List.append_assoc]
    exact .collecting hw hn _

/-- What is held is what is buffered, and the header of the frame begun if there is one. -/
theorem length_eq (h : Holds config d plain) :
    plain.length = d.bufferedLength + if d.pending.isSome then headerSize else 0 := by
  cases h with
  | idle buffer => simp [bufferedLength]
  | @collecting p w hw hn buffer =>
    simp [bufferedLength, headerSize, PartialFrame.received]
    omega

/-- A decoder that has looked at all its bytes holds a header and a payload begun. -/
theorem of_words {p : PartialFrame} {w : UInt32} {n : Nat} (hw : config.Opens w)
    (hn : n ≤ config.longest) (he : p.expected = n) :
    Holds config ⟨config, [], some p⟩
      (wordBytes w ++ (wordBytes (.ofNat n) ++ (wordBytes p.typeId ++ p.received))) := by
  subst he
  have h := collecting hw hn []
  rwa [List.append_nil, List.append_assoc, List.append_assoc] at h

/-- A decoder that asked for more bytes holds the buffer that it was asked about. -/
theorem of_next_none {buffer : Bytes} {d' : Decoder}
    (h : next ⟨config, buffer, none⟩ = (.ok none, d')) : Holds config d' buffer := by
  cases hh : parseHeader config buffer with
  | error e =>
    simp only [next, hh] at h
    cases h
  | ok o =>
    rcases o with _ | _ | ⟨v, t, n⟩
    · simp only [next, hh] at h
      cases h
      exact .idle buffer
    · simp only [next, hh] at h
      cases h
    · obtain ⟨w, body, hw, hn, hwords⟩ := eq_words_of_parseHeader hh
      have hd : buffer.drop headerSize = body := by rw [hwords, drop_headerSize]
      rw [next_of_header hh hd (Decoder.new config) rfl, Prod.mk.injEq, Except.ok.injEq] at h
      obtain ⟨hnone, rfl⟩ := h
      rcases Nat.lt_or_ge body.length n with hb | hb
      · rw [collect_of_gt (p := { typeId := t, expected := n }) hb, hwords]
        have hr : (PartialFrame.take { typeId := t, expected := n } body).received = body := by
          rw [PartialFrame.received_take]
          exact List.take_of_length_le (Nat.le_of_lt hb)
        have hholds := of_words (p := .take { typeId := t, expected := n } body) hw hn rfl
        rwa [hr] at hholds
      · rw [collect_of_le (p := { typeId := t, expected := n }) hb] at hnone
        cases hnone

/-- A decoder that has begun no frame is drained of what is taken off its buffer, and then holds
what is left of it. -/
theorem drain_idle (hc : d.config = config) (hp : d.pending = none) :
    d.drain.1 = (decodeAll config d.buffer).items ∧
      d.drain.2.1 = (decodeAll config d.buffer).error ∧
      Holds config d.drain.2.2 (decodeAll config d.buffer).rest := by
  subst hc
  fun_induction drain d with
  | case1 d e d' h =>
    obtain ⟨rfl, -⟩ := next_push_of_error h
    rw [decodeAll_of_error (decode_of_next_error hp h)]
    obtain ⟨config, buffer, pending⟩ := d'
    cases hp
    exact ⟨rfl, rfl, .idle buffer⟩
  | case2 d d' h =>
    rw [decodeAll_of_none (decode_of_next_none hp h)]
    obtain ⟨config, buffer, pending⟩ := d
    cases hp
    exact ⟨rfl, rfl, of_next_none h⟩
  | case3 d item d' h items error last hd ih =>
    obtain ⟨hi, heq⟩ := decode_of_next_item hp h
    have hp' : d'.pending = none := by rw [heq]; exact hp
    have hc' : d'.config = d.config := by rw [heq]
    obtain ⟨hitems, herror, hrest⟩ := ih hp'
    rw [hd] at hitems herror hrest
    rw [decodeAll_of_item hi, ← hc']
    exact ⟨congrArg _ hitems, herror, hrest⟩

/-- Whatever a decoder holds, it is drained of what is taken off that, and then holds what is
left. -/
theorem drain (h : Holds config d plain) :
    d.drain.1 = (decodeAll config plain).items ∧ d.drain.2.1 = (decodeAll config plain).error ∧
      Holds config d.drain.2.2 (decodeAll config plain).rest := by
  rw [drain_congr h.next_eq]
  exact drain_idle rfl rfl

end Holds

namespace Holds

variable {d d' : Decoder} {plain : Bytes}

/-- An item that is handed out is taken off what is held. -/
theorem of_item {item : Item} (h : Holds config d plain) (hn : d.next = (.ok (some item), d')) :
    ∃ rest, decode config plain = .ok (some (item, rest)) ∧ Holds config d' rest := by
  rw [h.next_eq] at hn
  obtain ⟨hd, heq⟩ := decode_of_next_item rfl hn
  refine ⟨d'.buffer, hd, ?_⟩
  rw [heq]
  exact .idle _

/-- Asking for more bytes leaves what is held. -/
theorem of_none (h : Holds config d plain) (hn : d.next = (.ok none, d')) :
    Holds config d' plain :=
  of_next_none (h.next_eq ▸ hn)

end Holds

/-! ## Piece by piece -/

/-- Adds the pieces of a stream one by one and drains the decoder after each, whatever came of the
ones before. The answers are what each draining came to. -/
def feedEach (d : Decoder) : List Bytes → List (List Item × Option FrameError) × Decoder
  | [] => ([], d)
  | piece :: pieces =>
    let (items, error, d) := d.feed piece
    let (answers, last) := feedEach d pieces
    ((items, error) :: answers, last)

end Decoder

/-- Appends the pieces of a stream to a buffer one by one and takes off it what can be taken after
each. The answers are what each taking came to. -/
def decodeEach (config : FrameConfig) (buffer : Bytes) :
    List Bytes → List (List Item × Option FrameError) × Bytes
  | [] => ([], buffer)
  | piece :: pieces =>
    let now := decodeAll config (buffer ++ piece)
    let (answers, last) := decodeEach config now.rest pieces
    ((now.items, now.error) :: answers, last)

/-- From a decoder and the buffer that it stands for the two readers go in lockstep. -/
theorem Decoder.Holds.feedEach {d : Decoder} {plain : Bytes} (h : d.Holds config plain)
    (pieces : List Bytes) :
    (d.feedEach pieces).1 = (decodeEach config plain pieces).1 ∧
      (d.feedEach pieces).2.Holds config (decodeEach config plain pieces).2 := by
  induction pieces generalizing d plain with
  | nil => exact ⟨rfl, h⟩
  | cons piece pieces ih =>
    obtain ⟨hitems, herror, hrest⟩ := (h.push piece).drain
    obtain ⟨hanswers, hlast⟩ := ih hrest
    refine ⟨?_, hlast⟩
    simp only [Decoder.feedEach, decodeEach, Decoder.feed]
    rw [hitems, herror, hanswers]

end

/-- The resumable decoder refines the plain one. Given the same pieces of a stream, and drained
after each, a decoder and a plain buffer give the same items and the same error after every piece,
those after an error included. The plain buffer is then the header of the frame that the decoder is
collecting, if there is one, what has come of its payload, and the bytes that the decoder has not
looked at; so it is longer than what the decoder has buffered by that header. -/
theorem feedEach_eq_decodeEach (config : FrameConfig) (pieces : List Bytes) :
    ((Decoder.new config).feedEach pieces).1 = (decodeEach config [] pieces).1 ∧
      ((Decoder.new config).feedEach pieces).2.Holds config (decodeEach config [] pieces).2 ∧
      (decodeEach config [] pieces).2.length =
        ((Decoder.new config).feedEach pieces).2.bufferedLength +
          if ((Decoder.new config).feedEach pieces).2.pending.isSome then headerSize else 0 := by
  have h : (Decoder.new config).Holds config [] := .idle []
  obtain ⟨hanswers, hlast⟩ := h.feedEach pieces
  exact ⟨hanswers, hlast, hlast.length_eq⟩

end PeerMessaging
