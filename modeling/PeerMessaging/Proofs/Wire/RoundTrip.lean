import PeerMessaging.Proofs.Wire.Grammar

/-!
# Reading back what was written

A stream of items may be written by several senders, each under a version of its own
(`Outgoing.writeAll`). If a reader admits every one of them (`Outgoing.Fits`), then taking items off
what was written gives the items back, one for one, and leaves whatever was written behind them
(`takes_writeAll`). A version whose word is zero is left out, for its frames open like a keepalive.
-/

namespace PeerMessaging

/-- An item on its way out: a keepalive, or a data frame under the version of its sender. -/
inductive Outgoing
  | keepalive
  | frame (version : ProtocolVersion) (frame : Frame)
  deriving DecidableEq, Repr

namespace Outgoing

/-- The item that is to be read. -/
def item : Outgoing → Item
  | keepalive => .keepalive
  | frame _ f => .frame f

/-- Writes the item behind `dst`. -/
def write (dst : Bytes) : Outgoing → Except FrameError Bytes
  | keepalive => .ok (encodeKeepalive dst)
  | frame version f => encodeFrame version f dst

/-- Writes items one behind the other. -/
def writeAll (dst : Bytes) (sent : List Outgoing) : Except FrameError Bytes :=
  sent.foldlM write dst

/-- A reader admits the item: a frame has the reader's signature and a word that is not the
keepalive's, and its payload is within the reader's limit and within what a length can say. -/
inductive Fits (config : FrameConfig) : Outgoing → Prop
  | keepalive : Fits config .keepalive
  | frame {version : ProtocolVersion} {f : Frame} :
      version.signature = config.protocol.signature → version.headerWord ≠ 0 →
      f.payload.length ≤ config.maxPayload → f.payload.length ≤ 0x7FFFFFFF →
      Fits config (.frame version f)

end Outgoing

/-- Calling `decode` again and again yields these items and leaves this buffer. -/
inductive Takes (config : FrameConfig) : Bytes → List Item → Bytes → Prop
  | done {buffer : Bytes} : Takes config buffer [] buffer
  | item {buffer rest last : Bytes} {item : Item} {items : List Item} :
      decode config buffer = .ok (some (item, rest)) → Takes config rest items last →
      Takes config buffer (item :: items) last

section
variable {config : FrameConfig}

/-- An item that a reader admits is written as bytes that the grammar reads as the item. -/
theorem Outgoing.Fits.spells {s : Outgoing} (h : s.Fits config) :
    ∃ taken, Spells config s.item taken ∧ ∀ dst, s.write dst = .ok (dst ++ taken) := by
  cases h with
  | keepalive => exact ⟨_, .keepalive, fun _ => rfl⟩
  | @frame version f hs hw hm hl =>
    have hspells := spells_frameBytes hw hs (Nat.le_min.2 ⟨hm, hl⟩)
    exact ⟨_, hspells, encodeFrame_of_le hl⟩

/-- Items that a reader admits can all be written, and are taken off what was written whatever
stands behind them. -/
theorem takes_of_fits {sent : List Outgoing} (h : ∀ s ∈ sent, s.Fits config) (dst : Bytes) :
    ∃ bytes, Outgoing.writeAll dst sent = .ok (dst ++ bytes) ∧
      ∀ tail, Takes config (bytes ++ tail) (sent.map Outgoing.item) tail := by
  induction sent generalizing dst with
  | nil => exact ⟨[], by rw [List.append_nil]; rfl, fun _ => .done⟩
  | cons s rest ih =>
    obtain ⟨taken, hs, hw⟩ := (h s (.head _)).spells
    obtain ⟨bytes, hb, ht⟩ := ih (fun s hs => h s (.tail _ hs)) (dst ++ taken)
    refine ⟨taken ++ bytes, ?_, fun tail => ?_⟩
    · rw [Outgoing.writeAll, List.foldlM_cons, hw, ← List.append_assoc]
      exact hb
    · rw [List.append_assoc]
      exact .item (decode_of_spells hs _) (ht tail)

/-- Taking an item and going on is taking all items. -/
theorem decodeAll_of_item {buffer rest : Bytes} {item : Item}
    (h : decode config buffer = .ok (some (item, rest))) :
    decodeAll config buffer =
      { decodeAll config rest with items := item :: (decodeAll config rest).items } := by
  rw [decodeAll]
  split
  · rename_i hd
    cases h.symm.trans hd
  · rename_i hd
    cases h.symm.trans hd
  · rename_i hd
    cases h.symm.trans hd
    rfl

/-- Items taken one by one are the first that are taken all at once, and what is then left is
treated as if nothing had been before it. -/
theorem Takes.decodeAll_eq {buffer last : Bytes} {items : List Item}
    (h : Takes config buffer items last) :
    decodeAll config buffer =
      { decodeAll config last with items := items ++ (decodeAll config last).items } := by
  induction h with
  | done => rfl
  | item hd _ ih => rw [decodeAll_of_item hd, ih]; rfl

/-- Reading undoes writing over whole streams. Items that a reader admits, each under the version
of its sender, are read back in their order, whatever their payloads look like; the bytes behind
them are left, and are read as if they had come alone. -/
theorem takes_writeAll {sent : List Outgoing} (h : ∀ s ∈ sent, s.Fits config) (tail : Bytes) :
    ∃ bytes, Outgoing.writeAll [] sent = .ok bytes ∧
      Takes config (bytes ++ tail) (sent.map Outgoing.item) tail ∧
      decodeAll config (bytes ++ tail) =
        { decodeAll config tail with
          items := sent.map Outgoing.item ++ (decodeAll config tail).items } := by
  obtain ⟨bytes, hb, ht⟩ := takes_of_fits h []
  exact ⟨bytes, hb, ht tail, (ht tail).decodeAll_eq⟩

/-- Frames of other versions than the reader's: one whose payload looks like a keepalive and a
header, and one without a payload. -/
def lookalikes : List Outgoing :=
  [.frame ⟨0x2BAD, 7, 9⟩ ⟨2, [0, 0, 0, 0, 0x2B, 0xAD, 0, 1, 0, 0, 0, 5, 0, 0, 0, 1]⟩, .keepalive,
    .frame ⟨0x2BAD, 0, 0⟩ ⟨0, []⟩]

/-- The reader admits them, and they are read back although less than an item stands behind. -/
theorem takes_writeAll_lookalikes :
    (∀ s ∈ lookalikes, s.Fits {}) ∧
      ∃ bytes, Outgoing.writeAll [] lookalikes = .ok bytes ∧
        Takes {} (bytes ++ [0x2B, 0xAD, 0]) (lookalikes.map Outgoing.item) [0x2B, 0xAD, 0] ∧
        decodeAll {} (bytes ++ [0x2B, 0xAD, 0]) =
          { decodeAll {} [0x2B, 0xAD, 0] with
            items := lookalikes.map Outgoing.item ++ (decodeAll {} [0x2B, 0xAD, 0]).items } := by
  have h : ∀ s ∈ lookalikes, s.Fits {} := by
    intro s hs
    simp only [lookalikes, List.mem_cons, List.not_mem_nil, or_false] at hs
    rcases hs with rfl | rfl | rfl
    · exact .frame rfl (by decide) (by decide) (by decide)
    · exact .keepalive
    · exact .frame rfl (by decide) (by decide) (by decide)
  exact ⟨h, takes_writeAll h _⟩

end

end PeerMessaging
