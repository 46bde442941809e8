import PeerMessaging.Wire.Format

/-!
# The grammar of the wire

What `decode` makes of a buffer, said without it. `Spells config item bytes` says that `bytes` are
an item, `Refuses config buffer e` that a buffer opens with something that no further bytes turn
into an item, and `CutShort config buffer` that it ends inside an item. Every buffer with bytes in
it either opens with an item, or is refused, or is cut short (`spells_or_refuses_or_cutShort`), and
which of the three it is decides what `decode` answers (`decode_grammar`). An answer other than
`none` stays as it is when more bytes come (`decode_append_of_item`, `decode_append_of_error`).
-/

namespace PeerMessaging

/-! ## Words -/

/-- A byte string of at least four bytes opens with a word. -/
theorem exists_wordBytes_append {b : Bytes} (h : 4 ≤ b.length) :
    ∃ w rest, b = wordBytes w ++ rest := by
  match b, h with
  | a :: b :: c :: d :: rest, _ =>
    exact ⟨wordOfBytes a b c d, rest, by rw [wordBytes_wordOfBytes]; rfl⟩

/-- Two byte strings that open with words are equal only if the words are and what follows them. -/
theorem wordBytes_append_inj {w w' : UInt32} {b b' : Bytes}
    (h : wordBytes w ++ b = wordBytes w' ++ b') : w = w' ∧ b = b' := by
  obtain ⟨hw, hb⟩ := List.append_inj h rfl
  simp only [wordBytes, List.cons.injEq] at hw
  obtain ⟨h₀, h₁, h₂, h₃, -⟩ := hw
  refine ⟨?_, hb⟩
  rw [← wordOfBytes_wordBytes w, h₀, h₁, h₂, h₃, wordOfBytes_wordBytes]

/-- A word read as a signed number: the upper half of the words are the negative ones. -/
theorem toInt_toInt32 (w : UInt32) :
    w.toInt32.toInt =
      if w.toNat ≤ maxWireLength then (w.toNat : Int) else w.toNat - 0x100000000 := by
  have h : w.toInt32.toInt = w.toBitVec.toInt := rfl
  rw [h, BitVec.toInt_eq_toNat_cond, show w.toBitVec.toNat = w.toNat from rfl, maxWireLength]
  split <;> split <;> omega

/-- A version accepts the words whose high half is its signature. -/
theorem ProtocolVersion.accepts_iff {v : ProtocolVersion} {w : UInt32} :
    v.accepts w = true ↔ (w >>> 16).toUInt16 = v.signature := by
  have h : (ofHeaderWord w).signature = (w >>> 16).toUInt16 := by
    rw [← UInt16.toNat_inj]
    simp [ofHeaderWord, Nat.shiftRight_eq_div_pow]
  rw [accepts, h, decide_eq_true_iff]

/-! ## The grammar -/

/-- A word that may open a data frame: it is not the word of a keepalive, and its high half is the
signature. -/
def FrameConfig.Opens (config : FrameConfig) (w : UInt32) : Prop :=
  w ≠ 0 ∧ (w >>> 16).toUInt16 = config.protocol.signature

/-- The longest payload that is sent or taken: within the limit, and with a length that fits its
word. That is the limit itself unless it is longer than any length that a word can say. -/
def FrameConfig.longest (config : FrameConfig) : Nat := min config.maxPayload maxWireLength

/-- The bytes are the item: four zero bytes, or an opening word, the length of a payload within the
limit, a type id and the payload. -/
inductive Spells (config : FrameConfig) : Item → Bytes → Prop
  | keepalive : Spells config .keepalive [0, 0, 0, 0]
  | frame {w : UInt32} {f : Frame} : config.Opens w → f.payload.length ≤ config.maxPayload →
      f.payload.length ≤ 0x7FFFFFFF →
      Spells config (.frame f)
        (wordBytes w ++ wordBytes (.ofNat f.payload.length) ++ wordBytes f.typeId ++ f.payload)

/-- The buffer opens with no item and never will: its first word is foreign, or its second one is
negative as a signed number or beyond the limit. The length is only looked at together with the type
id behind it. -/
inductive Refuses (config : FrameConfig) : Bytes → FrameError → Prop
  | unknownProtocol {w : UInt32} {rest : Bytes} : w ≠ 0 →
      (w >>> 16).toUInt16 ≠ config.protocol.signature →
      Refuses config (wordBytes w ++ rest) (.unknownProtocol w config.protocol.signature)
  | invalidLength {w l t : UInt32} {rest : Bytes} : config.Opens w → l.toInt32.toInt < 0 →
      Refuses config (wordBytes w ++ wordBytes l ++ wordBytes t ++ rest)
        (.invalidLength l.toInt32.toInt)
  | payloadTooLarge {w l t : UInt32} {rest : Bytes} : config.Opens w → 0 ≤ l.toInt32.toInt →
      config.maxPayload < l.toNat →
      Refuses config (wordBytes w ++ wordBytes l ++ wordBytes t ++ rest)
        (.payloadTooLarge l.toNat config.maxPayload)

/-- The bytes end inside an item, and what has come of it is not refused: they end in its first
word, or behind an opening word in the other two words of a header, or in a payload whose length is
admitted. -/
inductive CutShort (config : FrameConfig) : Bytes → Prop
  | word {part : Bytes} : part ≠ [] → part.length < 4 → CutShort config part
  | header {w : UInt32} {part : Bytes} : config.Opens w → part.length < 8 →
      CutShort config (wordBytes w ++ part)
  | payload {w l t : UInt32} {part : Bytes} : config.Opens w → 0 ≤ l.toInt32.toInt →
      l.toNat ≤ config.maxPayload → part.length < l.toNat →
      CutShort config (wordBytes w ++ wordBytes l ++ wordBytes t ++ part)

section
variable {config : FrameConfig}

/-- The word of a version with the signature opens a data frame, unless it is the keepalive's. -/
theorem FrameConfig.opens_headerWord {version : ProtocolVersion} (hv : version.headerWord ≠ 0)
    (hs : version.signature = config.protocol.signature) : config.Opens version.headerWord :=
  ⟨hv, ProtocolVersion.accepts_iff.1 (ProtocolVersion.accepts_headerWord hs)⟩

/-- A frame that is not too long is written as bytes that spell it. -/
theorem spells_frameBytes {version : ProtocolVersion} {f : Frame} (hv : version.headerWord ≠ 0)
    (hs : version.signature = config.protocol.signature)
    (hl : f.payload.length ≤ config.longest) :
    Spells config (.frame f) (frameBytes version f) := by
  obtain ⟨hm, hw⟩ := Nat.le_min.1 hl
  exact .frame (config.opens_headerWord hv hs) hm hw

/-- A frame whose length fits its word is written. -/
theorem appendFrame_of_le {version : ProtocolVersion} {f : Frame}
    (hl : f.payload.length ≤ maxWireLength) (dst : Bytes) :
    appendFrame version f dst = (.ok (), dst ++ frameBytes version f) :=
  if_neg (Nat.not_lt.2 hl)

theorem encodeFrame_of_le {version : ProtocolVersion} {f : Frame}
    (hl : f.payload.length ≤ maxWireLength) (dst : Bytes) :
    encodeFrame version f dst = .ok (dst ++ frameBytes version f) := by
  rw [encodeFrame, appendFrame_of_le hl]
  rfl

/-! ## Headers -/

/-- Less than a word is no header yet. -/
theorem parseHeader_of_length_lt {buffer : Bytes} (h : buffer.length < 4) :
    parseHeader config buffer = .ok none := by
  unfold parseHeader
  split
  · simp only [List.length_cons] at h
    omega
  · rfl

/-- The zero word is the header of a keepalive. -/
theorem parseHeader_keepalive (rest : Bytes) :
    parseHeader config (wordBytes 0 ++ rest) = .ok (some .keepalive) := rfl

/-- A foreign word is refused. -/
theorem parseHeader_foreign {w : UInt32} (hw : w ≠ 0)
    (hs : (w >>> 16).toUInt16 ≠ config.protocol.signature) (rest : Bytes) :
    parseHeader config (wordBytes w ++ rest) =
      .error (.unknownProtocol w config.protocol.signature) := by
  show parseHeader config (_ :: _ :: _ :: _ :: rest) = _
  have hk : w ≠ keepaliveWord := hw
  unfold parseHeader
  simp only [wordOfBytes_wordBytes]
  rw [if_neg hk, if_neg (mt ProtocolVersion.accepts_iff.1 hs)]

/-- An opening word with less than two words behind it is no header yet. -/
theorem parseHeader_partial {w : UInt32} (hw : config.Opens w) {rest : Bytes}
    (h : rest.length < 8) : parseHeader config (wordBytes w ++ rest) = .ok none := by
  show parseHeader config (_ :: _ :: _ :: _ :: rest) = _
  have hk : w ≠ keepaliveWord := hw.1
  unfold parseHeader
  simp only [wordOfBytes_wordBytes]
  rw [if_neg hk, if_pos (ProtocolVersion.accepts_iff.2 hw.2)]
  split
  · simp only [List.length_cons] at h
    omega
  · rfl

/-- An opening word with two words behind it is a header if the length is admitted. -/
theorem parseHeader_fields {w : UInt32} (hw : config.Opens w) (l t : UInt32) (rest : Bytes) :
    parseHeader config (wordBytes w ++ (wordBytes l ++ (wordBytes t ++ rest))) =
      (checkLength config l).map fun length => some (.frame (.ofHeaderWord w) t length) := by
  show parseHeader config (_ :: _ :: _ :: _ :: _ :: _ :: _ :: _ :: _ :: _ :: _ :: _ :: rest) = _
  have hk : w ≠ keepaliveWord := hw.1
  rw [parseHeader]
  simp only [wordOfBytes_wordBytes]
  rw [if_neg hk, if_pos (ProtocolVersion.accepts_iff.2 hw.2)]

/-- A negative length is refused. -/
theorem checkLength_of_neg {l : UInt32} (h : l.toInt32.toInt < 0) :
    checkLength config l = .error (.invalidLength l.toInt32.toInt) := by
  rw [toInt_toInt32] at h ⊢
  split at h
  · omega
  · rename_i hl
    rw [checkLength, if_pos (by omega), if_neg hl]

/-- A length beyond the limit is refused. -/
theorem checkLength_of_gt {l : UInt32} (h : 0 ≤ l.toInt32.toInt)
    (hm : config.maxPayload < l.toNat) :
    checkLength config l = .error (.payloadTooLarge l.toNat config.maxPayload) := by
  have := l.toNat_lt
  rw [toInt_toInt32] at h
  split at h
  · rename_i hl
    rw [checkLength, if_neg (by omega), if_pos hm]
  · omega

/-- A length within the limit is admitted. -/
theorem checkLength_of_le {l : UInt32} (h : 0 ≤ l.toInt32.toInt)
    (hm : l.toNat ≤ config.maxPayload) :
    checkLength config l = .ok l.toNat := by
  have := l.toNat_lt
  rw [toInt_toInt32] at h
  split at h
  · rename_i hl
    rw [checkLength, if_neg (by omega), if_neg (by omega)]
  · omega

/-- A length that fits a signed word is not negative. -/
theorem toInt_toInt32_ofNat_nonneg {n : Nat} (h : n ≤ 0x7FFFFFFF) :
    0 ≤ (UInt32.ofNat n).toInt32.toInt ∧ (UInt32.ofNat n).toNat = n := by
  have hn : (UInt32.ofNat n).toNat = n := by
    rw [UInt32.toNat_ofNat']
    omega
  refine ⟨?_, hn⟩
  rw [toInt_toInt32, hn, maxWireLength, if_pos h]
  omega

/-! ## Items -/

/-- What follows an admitted header is a frame once the payload is complete. -/
theorem decode_fields {w l t : UInt32} (hw : config.Opens w) (hl : 0 ≤ l.toInt32.toInt)
    (hm : l.toNat ≤ config.maxPayload) (body : Bytes) :
    decode config (wordBytes w ++ (wordBytes l ++ (wordBytes t ++ body))) =
      if body.length < l.toNat then .ok none
      else .ok (some (.frame ⟨t, body.take l.toNat⟩, body.drop l.toNat)) := by
  have hb : (wordBytes w ++ (wordBytes l ++ (wordBytes t ++ body))).drop headerSize = body := rfl
  rw [decode, parseHeader_fields hw, checkLength_of_le hl hm]
  simp only [Except.map, hb, List.length_take]
  rcases Nat.lt_or_ge body.length l.toNat with h | h
  · rw [if_pos h, if_pos (by omega)]
  · rw [if_neg (by omega), if_neg (by omega)]

/-- An item at the front of a buffer is taken, and what follows it is left. -/
theorem decode_of_spells {item : Item} {taken : Bytes} (h : Spells config item taken)
    (rest : Bytes) : decode config (taken ++ rest) = .ok (some (item, rest)) := by
  cases h with
  | keepalive => rfl
  | @frame w f hw hm hl =>
    obtain ⟨hn, hl'⟩ := toInt_toInt32_ofNat_nonneg hl
    rw [List.append_assoc, List.append_assoc, List.append_assoc, decode_fields hw hn (by omega),
      hl', if_neg (by simp), List.take_left, List.drop_left]

/-- What is refused is an error. -/
theorem decode_of_refuses {buffer : Bytes} {e : FrameError} (h : Refuses config buffer e) :
    decode config buffer = .error e := by
  cases h with
  | unknownProtocol hw hs => rw [decode, parseHeader_foreign hw hs]
  | invalidLength hw hl =>
    rw [List.append_assoc, List.append_assoc, decode, parseHeader_fields hw, checkLength_of_neg hl]
    rfl
  | payloadTooLarge hw hl hm =>
    rw [List.append_assoc, List.append_assoc, decode, parseHeader_fields hw,
      checkLength_of_gt hl hm]
    rfl

/-- What is cut short asks for more bytes. -/
theorem decode_of_cutShort {buffer : Bytes} (h : CutShort config buffer) :
    decode config buffer = .ok none := by
  cases h with
  | word _ hl => rw [decode, parseHeader_of_length_lt hl]
  | header hw hl => rw [decode, parseHeader_partial hw hl]
  | payload hw hl hm hp =>
    rw [List.append_assoc, List.append_assoc, decode_fields hw hl hm, if_pos hp]

/-- Every buffer with bytes in it opens with an item, or is refused, or is cut short. -/
theorem spells_or_refuses_or_cutShort (config : FrameConfig) {buffer : Bytes} (hb : buffer ≠ []) :
    (∃ item taken rest, Spells config item taken ∧ buffer = taken ++ rest) ∨
      (∃ e, Refuses config buffer e) ∨ CutShort config buffer := by
  rcases Nat.lt_or_ge buffer.length 4 with h | h
  · exact .inr (.inr (.word hb h))
  obtain ⟨w, b, rfl⟩ := exists_wordBytes_append h
  by_cases hz : w = 0
  · subst hz
    exact .inl ⟨.keepalive, [0, 0, 0, 0], b, .keepalive, rfl⟩
  by_cases hs : (w >>> 16).toUInt16 = config.protocol.signature
  case neg => exact .inr (.inl ⟨_, .unknownProtocol hz hs⟩)
  have hw : config.Opens w := ⟨hz, hs⟩
  rcases Nat.lt_or_ge b.length 8 with h | h
  · exact .inr (.inr (.header hw h))
  obtain ⟨l, b, rfl⟩ := exists_wordBytes_append (b := b) (by omega)
  rw [List.length_append, length_wordBytes] at h
  obtain ⟨t, body, rfl⟩ := exists_wordBytes_append (b := b) (by omega)
  rw [← List.append_assoc, ← List.append_assoc]
  by_cases hl : 0 ≤ l.toInt32.toInt
  case neg =>
    exact .inr (.inl ⟨.invalidLength l.toInt32.toInt, .invalidLength hw (Int.not_le.1 hl)⟩)
  rcases Nat.lt_or_ge config.maxPayload l.toNat with hm | hm
  · exact .inr (.inl ⟨.payloadTooLarge l.toNat config.maxPayload, .payloadTooLarge hw hl hm⟩)
  rcases Nat.lt_or_ge body.length l.toNat with hp | hp
  · exact .inr (.inr (.payload hw hl hm hp))
  · have hp : (body.take l.toNat).length = l.toNat := List.length_take_of_le hp
    have hle : l.toNat ≤ 0x7FFFFFFF := by
      rw [toInt_toInt32, maxWireLength] at hl
      have := l.toNat_lt
      split at hl <;> omega
    refine .inl ⟨.frame ⟨t, body.take l.toNat⟩, _, body.drop l.toNat,
      .frame hw (by rw [hp]; exact hm) (by rw [hp]; exact hle), ?_⟩
    simp only [hp, UInt32.ofNat_toNat, List.append_assoc, List.take_append_drop]

/-- Every buffer opens with an item, or is refused, or asks for more bytes. -/
theorem decode_cases (config : FrameConfig) (buffer : Bytes) :
    (∃ item taken rest, Spells config item taken ∧ buffer = taken ++ rest) ∨
      (∃ e, Refuses config buffer e) ∨ decode config buffer = .ok none := by
  by_cases hb : buffer = []
  · subst hb
    exact .inr (.inr rfl)
  · exact (spells_or_refuses_or_cutShort config hb).imp_right (.imp_right decode_of_cutShort)

/-- An item is taken off a buffer just when the buffer opens with it. -/
theorem decode_eq_item_iff {buffer rest : Bytes} {item : Item} :
    decode config buffer = .ok (some (item, rest)) ↔
      ∃ taken, Spells config item taken ∧ buffer = taken ++ rest := by
  constructor
  · intro h
    rcases decode_cases config buffer with ⟨item', taken, rest', hs, rfl⟩ | ⟨e, hr⟩ | hn
    · rw [decode_of_spells hs] at h
      cases h
      exact ⟨taken, hs, rfl⟩
    · rw [decode_of_refuses hr] at h
      cases h
    · rw [hn] at h
      cases h
  · rintro ⟨taken, hs, rfl⟩
    exact decode_of_spells hs rest

/-- An error is met just when the buffer is refused with it. -/
theorem decode_eq_error_iff {buffer : Bytes} {e : FrameError} :
    decode config buffer = .error e ↔ Refuses config buffer e := by
  constructor
  · intro h
    rcases decode_cases config buffer with ⟨item, taken, rest, hs, rfl⟩ | ⟨e', hr⟩ | hn
    · rw [decode_of_spells hs] at h
      cases h
    · rw [decode_of_refuses hr] at h
      cases h
      exact hr
    · rw [hn] at h
      cases h
  · exact decode_of_refuses

/-- More bytes are asked for just when the buffer neither opens with an item nor is refused. -/
theorem decode_eq_none_iff {buffer : Bytes} :
    decode config buffer = .ok none ↔
      (∀ item taken rest, Spells config item taken → buffer ≠ taken ++ rest) ∧
        ∀ e, ¬ Refuses config buffer e := by
  constructor
  · intro h
    refine ⟨fun item taken rest hs hb => ?_, fun e hr => ?_⟩
    · rw [decode_eq_item_iff.2 ⟨taken, hs, hb⟩] at h
      cases h
    · rw [decode_of_refuses hr] at h
      cases h
  · rintro ⟨hs, hr⟩
    rcases decode_cases config buffer with ⟨item, taken, rest, h, hb⟩ | ⟨e, h⟩ | h
    · exact absurd hb (hs item taken rest h)
    · exact absurd h (hr e)
    · exact h

/-! ## More bytes -/

/-- What is refused stays refused when more bytes come. -/
theorem Refuses.append {buffer : Bytes} {e : FrameError} (h : Refuses config buffer e)
    (more : Bytes) : Refuses config (buffer ++ more) e := by
  cases h with
  | unknownProtocol hw hs =>
    rw [List.append_assoc]
    exact .unknownProtocol hw hs
  | invalidLength hw hl =>
    rw [List.append_assoc]
    exact .invalidLength hw hl
  | payloadTooLarge hw hl hm =>
    rw [List.append_assoc]
    exact .payloadTooLarge hw hl hm

/-- An item at the front of a buffer is the same when more bytes come. -/
theorem decode_append_of_item {buffer rest : Bytes} {item : Item}
    (h : decode config buffer = .ok (some (item, rest))) (more : Bytes) :
    decode config (buffer ++ more) = .ok (some (item, rest ++ more)) := by
  obtain ⟨taken, hs, rfl⟩ := decode_eq_item_iff.1 h
  rw [List.append_assoc, decode_of_spells hs]

/-- An error is the same when more bytes come. -/
theorem decode_append_of_error {buffer : Bytes} {e : FrameError}
    (h : decode config buffer = .error e) (more : Bytes) :
    decode config (buffer ++ more) = .error e :=
  decode_of_refuses ((decode_eq_error_iff.1 h).append more)

/-! ## Writing what was read -/

/-- The bytes of a frame are what is written for it under the version that they open with. -/
theorem encodeFrame_of_spells {f : Frame} {taken : Bytes} (h : Spells config (.frame f) taken) :
    ∃ w, config.Opens w ∧ wordBytes w <+: taken ∧
      ∀ dst, encodeFrame (.ofHeaderWord w) f dst = .ok (dst ++ taken) := by
  cases h with
  | @frame w _ hw _ hl =>
    refine ⟨w, hw, ?_, fun dst => ?_⟩
    · simp only [List.append_assoc, List.prefix_append]
    · rw [encodeFrame_of_le hl, frameBytes, ProtocolVersion.headerWord_ofHeaderWord]

/-- A buffer off which no item is taken stays as it is. -/
theorem decodeAll_of_no_item {buffer : Bytes}
    (h : ∀ item rest, decode config buffer ≠ .ok (some (item, rest))) :
    (decodeAll config buffer).items = [] ∧ (decodeAll config buffer).rest = buffer := by
  unfold decodeAll
  split
  · exact ⟨rfl, rfl⟩
  · exact ⟨rfl, rfl⟩
  · rename_i item rest hd
    exact absurd hd (h item rest)

/-- `decode` follows the grammar. It takes an item just when the buffer opens with one, and leaves
what follows; it fails just when the buffer is refused; and it asks for more bytes otherwise. A
frame that was taken is written back to the very bytes, under the version that they carried. Where
nothing is taken the buffer stays as it is, and an error is met again whatever bytes come. -/
theorem decode_grammar (config : FrameConfig) (buffer : Bytes) :
    (∀ item rest, decode config buffer = .ok (some (item, rest)) ↔
      ∃ taken, Spells config item taken ∧ buffer = taken ++ rest) ∧
    (∀ e, decode config buffer = .error e ↔ Refuses config buffer e) ∧
    (decode config buffer = .ok none ↔
      (∀ item taken rest, Spells config item taken → buffer ≠ taken ++ rest) ∧
        ∀ e, ¬ Refuses config buffer e) ∧
    (∀ f rest, decode config buffer = .ok (some (.frame f, rest)) →
      ∃ w taken, config.Opens w ∧ wordBytes w <+: taken ∧ buffer = taken ++ rest ∧
        encodeFrame (.ofHeaderWord w) f [] = .ok taken) ∧
    ((∀ item rest, decode config buffer ≠ .ok (some (item, rest))) →
      (decodeAll config buffer).items = [] ∧ (decodeAll config buffer).rest = buffer) ∧
    (∀ e more, decode config buffer = .error e → decode config (buffer ++ more) = .error e) := by
  refine ⟨fun _ _ => decode_eq_item_iff, fun _ => decode_eq_error_iff, decode_eq_none_iff,
    fun f rest h => ?_, decodeAll_of_no_item, fun _ more h => decode_append_of_error h more⟩
  obtain ⟨taken, hs, hb⟩ := decode_eq_item_iff.1 h
  obtain ⟨w, hw, hp, he⟩ := encodeFrame_of_spells hs
  exact ⟨w, taken, hw, hp, hb, he []⟩

end

end PeerMessaging
