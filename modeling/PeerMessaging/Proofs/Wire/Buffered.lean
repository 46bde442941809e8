import PeerMessaging.Proofs.Wire.Lockstep
import PeerMessaging.Proofs.Wire.Writing
import PeerMessaging.Wire.StreamCodec

/-!
# One protocol on buffered and on plain streams

A stream codec appends to its buffer what a writer of the same settings queues, and refuses what the
writer refuses (`StreamCodec.performAll_eq_queueAll`). Reading a stream to its end takes off it
whole items, one behind another (`SpellsAll`), and what stands behind the last of them decides how
the reading ends (`Ends`): well if nothing does, short of an item if an item is cut there, and with
a violation if the bytes are refused. A stream can be cut into items and such a rest in one way only
(`SpellsAll.unique`), so this says how reading ends for every stream (`StreamCodec.readAll_ends`).
-/

namespace PeerMessaging

section
variable {config : FrameConfig}

/-! ## Streams of items -/

/-- The bytes are these items, one behind another. -/
inductive SpellsAll (config : FrameConfig) : List Item → Bytes → Prop
  | nil : SpellsAll config [] []
  | cons {item : Item} {items : List Item} {taken bytes : Bytes} : Spells config item taken →
      SpellsAll config items bytes → SpellsAll config (item :: items) (taken ++ bytes)

/-- How reading a stream ends when these bytes are left of it and no item opens them. -/
inductive Ends (config : FrameConfig) : Bytes → Option FrameError → Prop
  | clean : Ends config [] none
  | cutShort {part : Bytes} : CutShort config part → Ends config part (some .connectionClosed)
  | refused {rest : Bytes} {e : FrameError} : Refuses config rest e → Ends config rest (some e)

namespace SpellsAll

theorem append {items items' : List Item} {bytes bytes' : Bytes}
    (h : SpellsAll config items bytes) (h' : SpellsAll config items' bytes') :
    SpellsAll config (items ++ items') (bytes ++ bytes') := by
  induction h with
  | nil => exact h'
  | cons hs _ ih =>
    rw [List.append_assoc]
    exact .cons hs ih

/-- Items that stand one behind another are taken one after another. -/
theorem takes {items : List Item} {bytes : Bytes} (h : SpellsAll config items bytes)
    (rest : Bytes) : Takes config (bytes ++ rest) items rest := by
  induction h with
  | nil => exact .done
  | cons hs _ ih =>
    rw [List.append_assoc]
    exact .item (decode_of_spells hs _) ih

end SpellsAll

namespace Ends

variable {rest : Bytes} {error : Option FrameError}

/-- Reading ends well where nothing is left. -/
theorem none_iff : Ends config rest none ↔ rest = [] := by
  constructor
  · rintro ⟨⟩
    rfl
  · rintro rfl
    exact .clean

/-- Reading ends short of an item where one is cut. No violation is called so. -/
theorem connectionClosed_iff :
    Ends config rest (some .connectionClosed) ↔ CutShort config rest := by
  constructor
  · intro h
    cases h with
    | cutShort hc => exact hc
    | refused hr => cases hr
  · exact .cutShort

/-- Reading ends with any other error where the bytes are refused with it. -/
theorem some_iff {e : FrameError} (he : e ≠ .connectionClosed) :
    Ends config rest (some e) ↔ Refuses config rest e := by
  constructor
  · intro h
    cases h with
    | cutShort _ => exact absurd rfl he
    | refused hr => exact hr
  · exact .refused

/-- Where reading ends no item is taken. -/
theorem decode_ne_item (h : Ends config rest error) (item : Item) (last : Bytes) :
    decode config rest ≠ .ok (some (item, last)) := by
  cases h with
  | clean => nofun
  | cutShort hc => rw [decode_of_cutShort hc]; nofun
  | refused hr => rw [decode_of_refuses hr]; nofun

/-- A stream can end wherever no item can be taken. -/
theorem exists_of_decode_ne_item (h : ∀ item last, decode config rest ≠ .ok (some (item, last))) :
    ∃ error, Ends config rest error := by
  by_cases hb : rest = []
  · subst hb
    exact ⟨none, .clean⟩
  rcases spells_or_refuses_or_cutShort config hb with ⟨item, taken, last, hs, rfl⟩ | ⟨e, hr⟩ | hc
  · exact absurd (decode_of_spells hs last) (h item last)
  · exact ⟨some e, .refused hr⟩
  · exact ⟨_, .cutShort hc⟩

end Ends

/-- What is taken off a buffer are whole items from its front, and either the rest of it asks for
more bytes or it is refused with the error that was met. -/
theorem spellsAll_decodeAll (config : FrameConfig) (buffer : Bytes) :
    ∃ taken, buffer = taken ++ (decodeAll config buffer).rest ∧
      SpellsAll config (decodeAll config buffer).items taken ∧
      ∀ e, (decodeAll config buffer).error = some e →
        Refuses config (decodeAll config buffer).rest e := by
  fun_induction decodeAll config buffer with
  | case1 buffer e h =>
    refine ⟨[], rfl, .nil, fun e' he => ?_⟩
    cases he
    exact decode_eq_error_iff.1 h
  | case2 buffer h => exact ⟨[], rfl, .nil, nofun⟩
  | case3 buffer item rest h more ih =>
    obtain ⟨taken, hs, rfl⟩ := decode_eq_item_iff.1 h
    obtain ⟨taken', heq, hall, herror⟩ := ih
    refine ⟨taken ++ taken', ?_, .cons hs hall, herror⟩
    rw [List.append_assoc, ← heq]

namespace StreamCodec

/-! ## Reading to the end -/

variable {rest : Bytes} {error : Option FrameError}

/-- Where reading ends nothing is taken, and the answer says how it ended. -/
theorem decodeRest_of_ends (h : Ends config rest error) :
    decodeRest config rest = ⟨[], error, rest⟩ := by
  have hd : decodeEnd config rest =
      match error with
      | none => .ok none
      | some e => .error e := by
    cases h with
    | clean => rfl
    | refused hr => rw [decodeEnd, decode_of_refuses hr]
    | cutShort hc =>
      have hne : rest ≠ [] := by
        cases hc with
        | word hp _ => exact hp
        | header | payload => nofun
      rw [decodeEnd, decode_of_cutShort hc]
      exact if_neg (by simpa using hne)
  rw [decodeRest]
  split <;> rename_i hn <;> rw [hd] at hn <;> cases error <;> cases hn <;> rfl

/-- An item in front of a rest is taken, and then the rest is read. -/
theorem decodeRest_of_item {buffer : Bytes} {item : Item}
    (h : decode config buffer = .ok (some (item, rest))) :
    decodeRest config buffer =
      { decodeRest config rest with items := item :: (decodeRest config rest).items } := by
  have hd : decodeEnd config buffer = .ok (some (item, rest)) := by rw [decodeEnd, h]
  rw [decodeRest]
  split <;> rename_i hn <;> cases hd.symm.trans hn
  rfl

/-- Items in front of a rest are taken one after another. -/
theorem decodeRest_of_takes {buffer : Bytes} {items : List Item}
    (h : Takes config buffer items rest) :
    decodeRest config buffer =
      { decodeRest config rest with items := items ++ (decodeRest config rest).items } := by
  induction h with
  | done => rfl
  | item hd _ ih => rw [decodeRest_of_item hd, ih]; rfl

/-- Items and an end are read as what they are. -/
theorem decodeRest_of_spellsAll {items : List Item} {taken : Bytes}
    (h : SpellsAll config items taken) (hr : Ends config rest error) :
    decodeRest config (taken ++ rest) = ⟨items, error, rest⟩ := by
  rw [decodeRest_of_takes (h.takes rest), decodeRest_of_ends hr, List.append_nil]

/-- Whatever is left when the stream has ended is items and an end. -/
theorem decodeRest_ends (config : FrameConfig) (buffer : Bytes) :
    ∃ taken rest, buffer = taken ++ rest ∧
      SpellsAll config (decodeRest config buffer).items taken ∧
      Ends config rest (decodeRest config buffer).error := by
  generalize hn : buffer.length = n
  induction n using Nat.strongRecOn generalizing buffer with
  | ind n ih =>
    by_cases hd : ∃ item rest, decode config buffer = .ok (some (item, rest))
    case neg =>
      obtain ⟨error, he⟩ := Ends.exists_of_decode_ne_item fun item last h => hd ⟨item, last, h⟩
      rw [decodeRest_of_ends he]
      exact ⟨[], buffer, rfl, .nil, he⟩
    obtain ⟨item, rest, hd⟩ := hd
    obtain ⟨taken', last, heq, hall, hends⟩ := ih _ (hn ▸ decode_length_lt hd) rest rfl
    obtain ⟨taken, hs, rfl⟩ := decode_eq_item_iff.1 hd
    rw [decodeRest_of_item hd]
    refine ⟨taken ++ taken', last, ?_, .cons hs hall, hends⟩
    rw [List.append_assoc, ← heq]

/-- A stream that is read to its end, in whatever pieces it comes, is items and an end. -/
theorem readAll_ends (config : FrameConfig) (buffer : Bytes) (pieces : List Bytes) :
    ∃ taken rest, buffer ++ pieces.flatten = taken ++ rest ∧
      SpellsAll config (readAll config buffer pieces).items taken ∧
      Ends config rest (readAll config buffer pieces).error := by
  induction pieces generalizing buffer with
  | nil =>
    rw [List.flatten_nil, List.append_nil]
    exact decodeRest_ends config buffer
  | cons piece pieces ih =>
    obtain ⟨taken, heq, hall, herror⟩ := spellsAll_decodeAll config (buffer ++ piece)
    rw [List.flatten_cons, ← List.append_assoc, heq, readAll]
    dsimp only
    split
    · rename_i e he
      refine ⟨taken, _, List.append_assoc .., hall, ?_⟩
      rw [he]
      exact .refused ((herror e he).append _)
    · obtain ⟨taken', rest, heq', hall', hends⟩ := ih (decodeAll config (buffer ++ piece)).rest
      refine ⟨taken ++ taken', rest, ?_, hall.append hall', hends⟩
      rw [List.append_assoc, heq', List.append_assoc]

end StreamCodec

/-- A stream is cut into items and an end in one way only. -/
theorem SpellsAll.unique {items items' : List Item} {taken taken' rest rest' : Bytes}
    {error error' : Option FrameError} (h : SpellsAll config items taken)
    (hr : Ends config rest error) (h' : SpellsAll config items' taken')
    (hr' : Ends config rest' error') (heq : taken ++ rest = taken' ++ rest') :
    items = items' ∧ error = error' := by
  have hl := StreamCodec.decodeRest_of_spellsAll h hr
  rw [heq, StreamCodec.decodeRest_of_spellsAll h' hr', Drained.mk.injEq] at hl
  exact ⟨hl.1.symm, hl.2.1.symm⟩

/-- How reading a stream ends is the end that stands behind the items of the stream. -/
theorem StreamCodec.error_readAll_iff {pieces : List Bytes} {error : Option FrameError} :
    (readAll config [] pieces).error = error ↔
      ∃ items taken rest, SpellsAll config items taken ∧ Ends config rest error ∧
        pieces.flatten = taken ++ rest := by
  obtain ⟨taken, rest, heq, hall, hends⟩ := readAll_ends config [] pieces
  rw [List.nil_append] at heq
  constructor
  · rintro rfl
    exact ⟨_, taken, rest, hall, hends, heq⟩
  · rintro ⟨items, taken', rest', hall', hends', heq'⟩
    exact (hall.unique hends hall' hends' (heq ▸ heq')).2

/-- Of a stream that is items and an end a decoder hands out the items, however the stream is
cut. -/
theorem SpellsAll.items_feedAll {items : List Item} {taken rest : Bytes}
    {error : Option FrameError} (h : SpellsAll config items taken) (hr : Ends config rest error)
    {pieces : List Bytes} (heq : pieces.flatten = taken ++ rest) :
    ((Decoder.new config).feedAll pieces).1 = items := by
  obtain ⟨unfed, hfeed, -⟩ := Decoder.feed_flatten (Decoder.drain_new config) pieces
  have hdrain : ((Decoder.new config).feed pieces.flatten).1 =
      (decodeAll config pieces.flatten).items := Decoder.items_drain rfl
  rw [hfeed, heq, (h.takes rest).decodeAll_eq] at hdrain
  rw [hdrain, (decodeAll_of_no_item hr.decode_ne_item).1, List.append_nil]

/-! ## Writing -/

namespace FrameWriter

/-- Queues an item of either kind. -/
def queueItem (w : FrameWriter) : Item → Except FrameError Unit × FrameWriter
  | .keepalive => (.ok (), w.enqueueKeepalive)
  | .frame f => w.enqueue f

/-- Queues items one after another, whatever comes of each. The answers are what came of them. -/
def queueAll (w : FrameWriter) : List Item → List (Except FrameError Unit) × FrameWriter
  | [] => ([], w)
  | item :: items =>
    let (answer, w) := w.queueItem item
    let (answers, last) := w.queueAll items
    (answer :: answers, last)

end FrameWriter

namespace StreamCodec

/-- What a stream codec may be given to write: a frame, or an item of either kind. -/
inductive Call
  | frame (frame : Frame)
  | item (item : Item)
  deriving DecidableEq, Repr

/-- The item that is to be written. -/
def Call.sent : Call → Item
  | frame f => .frame f
  | item i => i

/-- Appends what it is given to a buffer. -/
def perform (config : FrameConfig) (dst : Bytes) : Call → Except FrameError Unit × Bytes
  | .frame f => appendFrame config f dst
  | .item i => appendItem config i dst

/-- Appends one thing after another, whatever comes of each. -/
def performAll (config : FrameConfig) (dst : Bytes) :
    List Call → List (Except FrameError Unit) × Bytes
  | [] => ([], dst)
  | call :: calls =>
    let (answer, dst) := perform config dst call
    let (answers, last) := performAll config dst calls
    (answer :: answers, last)

/-- A stream codec and a writer of the same settings both append the same bytes, or both refuse a
frame with the same error and leave everything as it is. -/
theorem perform_cases (w : FrameWriter) (dst : Bytes) (call : Call) :
    (∃ added, perform w.encoder.config dst call = (.ok (), dst ++ added) ∧
      w.queueItem call.sent = (.ok (), w.queue added)) ∨
    ∃ size max, perform w.encoder.config dst call = (.error (.payloadTooLarge size max), dst) ∧
      w.queueItem call.sent = (.error (.payloadTooLarge size max), w) := by
  have hframe (f : Frame) :
      (∃ added, perform w.encoder.config dst (.frame f) = (.ok (), dst ++ added) ∧
        w.enqueue f = (.ok (), w.queue added)) ∨
      ∃ size max, perform w.encoder.config dst (.frame f) =
          (.error (.payloadTooLarge size max), dst) ∧
        w.enqueue f = (.error (.payloadTooLarge size max), w) := by
    simp only [perform, appendFrame, FrameWriter.enqueue, Encoder.enqueue,
      PeerMessaging.appendFrame]
    by_cases hm : f.payload.length > w.encoder.config.maxPayload
    · simp only [if_pos hm]
      exact .inr ⟨_, _, rfl, rfl⟩
    by_cases hw : f.payload.length > maxWireLength
    · simp only [if_neg hm, if_pos hw]
      exact .inr ⟨_, _, rfl, rfl⟩
    · simp only [if_neg hm, if_neg hw]
      exact .inl ⟨_, rfl, rfl⟩
  rcases call with f | _ | f
  · exact hframe f
  · exact .inl ⟨keepaliveBytes, rfl, rfl⟩
  · exact hframe f

/-- Given the same things one after another, a stream codec and a writer of the same settings give
the same answers and append the same bytes. -/
theorem performAll_eq_queueAll (w : FrameWriter) (dst : Bytes) (calls : List Call) :
    (performAll w.encoder.config dst calls).1 = (w.queueAll (calls.map Call.sent)).1 ∧
      ∃ added, (performAll w.encoder.config dst calls).2 = dst ++ added ∧
        (w.queueAll (calls.map Call.sent)).2 = w.queue added := by
  induction calls generalizing w dst with
  | nil =>
    refine ⟨rfl, [], (List.append_nil dst).symm, ?_⟩
    simp only [List.map_nil, FrameWriter.queueAll, FrameWriter.queue, List.append_nil]
  | cons call calls ih =>
    simp only [List.map_cons, performAll, FrameWriter.queueAll]
    rcases perform_cases w dst call with ⟨added, hp, hq⟩ | ⟨size, max, hp, hq⟩ <;> rw [hp, hq]
    · obtain ⟨hanswers, more, hdst, hw⟩ := ih (w.queue added) (dst ++ added)
      refine ⟨congrArg _ hanswers, added ++ more, ?_, ?_⟩
      · rw [← List.append_assoc]
        exact hdst
      · rw [hw, FrameWriter.queue, FrameWriter.queue, FrameWriter.queue, List.append_assoc]
    · obtain ⟨hanswers, more, hdst, hw⟩ := ih w dst
      exact ⟨congrArg _ hanswers, more, hdst, hw⟩

/-- A stream codec speaks the protocol of writers and decoders.

Given the same things to write, it gives the answers of a writer of the same settings, whatever is
pending there, and appends to its buffer the bytes that are queued there; what is refused is a frame
that is too long, and the buffer is then left as it is.

Of a stream that comes in whatever pieces and is then closed it yields the items that a decoder
hands out, however the stream is cut for that. It ends well just when the stream is items one behind
another, as cut short just when the stream ends inside an item of which nothing is refused, and with
any other error just when the stream is refused with it behind some items. -/
theorem agrees_with_writer_and_decoder (config : FrameConfig) :
    (∀ (dst pending : Bytes) (output : OutputStream) (calls : List Call),
      let written := performAll config dst calls
      let queued := FrameWriter.queueAll ⟨⟨config, pending⟩, output⟩ (calls.map Call.sent)
      written.1 = queued.1 ∧
        ∃ added, written.2 = dst ++ added ∧ queued.2 = ⟨⟨config, pending ++ added⟩, output⟩) ∧
    (∀ (dst : Bytes) (call : Call) (e : FrameError), (perform config dst call).1 = .error e →
      (∃ size max, e = .payloadTooLarge size max) ∧ (perform config dst call).2 = dst) ∧
    ∀ pieces : List Bytes,
      let read := readAll config [] pieces
      (∀ cut : List Bytes, cut.flatten = pieces.flatten →
        read.items = ((Decoder.new config).feedAll cut).1) ∧
      (read.error = none ↔ ∃ items, SpellsAll config items pieces.flatten) ∧
      (read.error = some .connectionClosed ↔
        ∃ items taken part, SpellsAll config items taken ∧ CutShort config part ∧
          pieces.flatten = taken ++ part) ∧
      (∀ e, e ≠ .connectionClosed → (read.error = some e ↔
        ∃ items taken rest, SpellsAll config items taken ∧ Refuses config rest e ∧
          pieces.flatten = taken ++ rest)) := by
  refine ⟨fun dst pending output calls => ?_, fun dst call e he => ?_, fun pieces => ?_⟩
  · exact performAll_eq_queueAll ⟨⟨config, pending⟩, output⟩ dst calls
  · rcases perform_cases (.new config {}) dst call with ⟨added, hp, -⟩ | ⟨size, max, hp, -⟩ <;>
      simp only [FrameWriter.new, Encoder.new] at hp <;> rw [hp] at he ⊢ <;> cases he
    exact ⟨⟨size, max, rfl⟩, rfl⟩
  refine ⟨fun cut hcut => ?_, ?_, ?_, fun e he => ?_⟩
  · obtain ⟨taken, rest, heq, hall, hends⟩ := readAll_ends config [] pieces
    exact (hall.items_feedAll hends (hcut.trans heq)).symm
  · simp only [error_readAll_iff, Ends.none_iff]
    constructor
    · rintro ⟨items, taken, _, hall, rfl, heq⟩
      rw [heq, List.append_nil]
      exact ⟨items, hall⟩
    · rintro ⟨items, hall⟩
      exact ⟨items, _, [], hall, rfl, (List.append_nil _).symm⟩
  · simp only [error_readAll_iff, Ends.connectionClosed_iff]
  · simp only [error_readAll_iff, Ends.some_iff he]

/-- A frame that is too long, a keepalive with the beginning of a frame behind it in pieces that cut
their words, and a word that is foreign. -/
theorem agrees_with_writer_and_decoder_cutShort :
    (perform { maxPayload := 2 } [7] (.frame ⟨1, [1, 2, 3]⟩)).2 = [7] ∧
      (readAll {} [] [[0, 0], [0, 0, 0x2B], [0xAD, 0, 1, 0]]).items =
        ((Decoder.new {}).feedAll [[0, 0, 0, 0], [0x2B, 0xAD, 0, 1, 0]]).1 ∧
      (readAll {} [] [[0, 0], [0, 0, 0x2B], [0xAD, 0, 1, 0]]).error = some .connectionClosed ∧
      (readAll {} [] [[1, 2], [3, 4]]).error = some (.unknownProtocol 0x01020304 0x2BAD) := by
  have hopens : ({} : FrameConfig).Opens 0x2BAD0001 := ⟨by decide, by decide⟩
  have hforeign : FrameError.unknownProtocol 0x01020304 0x2BAD ≠ .connectionClosed := by decide
  have hread := (agrees_with_writer_and_decoder {}).2.2
  refine ⟨?_, (hread _).1 _ rfl, (hread _).2.2.1.2 ?_, ((hread _).2.2.2 _ hforeign).2 ?_⟩
  · exact ((agrees_with_writer_and_decoder { maxPayload := 2 }).2.1 [7] _ _ rfl).2
  · have hshort : [(0 : UInt8)].length < 8 := by decide
    exact ⟨[.keepalive], _, _, .cons .keepalive .nil, .header hopens hshort, rfl⟩
  · have hrefuses : Refuses {} (wordBytes 0x01020304 ++ []) (.unknownProtocol 0x01020304 0x2BAD) :=
      .unknownProtocol (by decide) (by decide)
    exact ⟨[], _, _, .nil, hrefuses, rfl⟩

end StreamCodec

end

end PeerMessaging
