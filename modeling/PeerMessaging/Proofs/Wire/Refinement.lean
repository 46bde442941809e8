import PeerMessaging.Proofs.Wire.Fragmentation
import PeerMessaging.Proofs.Wire.RoundTrip

/-!
# The resumable decoder and the plain one

A decoder that is not in the middle of a frame hands out what `decode` takes off its buffer
(`Decoder.decode_of_next_item`), and so what `decodeAll` takes off it (`Decoder.items_drain`). Of
the beginning of a stream that a sender has written it hands out the first items, whatever limit and
signature it holds them to (`items_decodeAll_prefix`), and of all of it all of them, if it admits
them (`items_decodeAll_flatMap`).
-/

namespace PeerMessaging

namespace Decoder

section
variable {d d' : Decoder}

/-- A frame of which less than all has come is not taken off a buffer either. -/
theorem decode_of_next_none (hp : d.pending = none) (h : d.next = (.ok none, d')) :
    decode d.config d.buffer = .ok none := by
  obtain ⟨config, buffer, pending⟩ := d
  cases hp
  cases hh : parseHeader config buffer with
  | error e =>
    simp only [next, hh] at h
    cases h
  | ok o =>
    rcases o with _ | _ | ⟨v, t, n⟩
    · rw [decode, hh]
    · simp only [next, hh] at h
      cases h
    · rw [decode, hh]
      simp only [next, hh] at h
      rcases Nat.lt_or_ge (buffer.drop headerSize).length n with hn | hn
      · simp only [List.length_take]
        rw [if_pos (by omega)]
      · rw [collect_of_le (p := { typeId := t, expected := n }) hn] at h
        cases h

/-- An error is the one that is met in the buffer. -/
theorem decode_of_next_error {e : FrameError} (hp : d.pending = none)
    (h : d.next = (.error e, d')) : decode d.config d.buffer = .error e := by
  obtain ⟨config, buffer, pending⟩ := d
  cases hp
  cases hh : parseHeader config buffer with
  | error e' =>
    simp only [next, hh] at h
    cases h
    rw [decode, hh]
  | ok o =>
    rcases o with _ | _ | ⟨v, t, n⟩ <;>
    · simp only [next, hh] at h
      cases h

/-- An item is the one that is taken off the buffer, and the same bytes are left. -/
theorem decode_of_next_item {item : Item} (hp : d.pending = none)
    (h : d.next = (.ok (some item), d')) :
    decode d.config d.buffer = .ok (some (item, d'.buffer)) ∧
      d' = { d with buffer := d'.buffer } := by
  obtain ⟨config, buffer, pending⟩ := d
  cases hp
  cases hh : parseHeader config buffer with
  | error e =>
    simp only [next, hh] at h
    cases h
  | ok o =>
    rcases o with _ | _ | ⟨v, t, n⟩
    · simp only [next, hh] at h
      cases h
    · simp only [next, hh] at h
      cases h
      rw [decode, hh]
      exact ⟨rfl, rfl⟩
    · simp only [next, hh] at h
      rcases Nat.lt_or_ge (buffer.drop headerSize).length n with hn | hn
      · rw [collect_of_gt (p := { typeId := t, expected := n }) hn] at h
        cases h
      · rw [collect_of_le (p := { typeId := t, expected := n }) hn] at h
        cases h
        refine ⟨?_, rfl⟩
        rw [decode, hh]
        simp only [List.length_take]
        rw [if_neg (by omega)]
        rfl

/-- A decoder that is not in the middle of a frame hands out the items of its buffer. -/
theorem items_drain (hp : d.pending = none) :
    d.drain.1 = (decodeAll d.config d.buffer).items := by
  fun_induction drain d with
  | case1 d e d' h =>
    rw [decodeAll]
    split <;> rename_i hd <;> cases (decode_of_next_error hp h).symm.trans hd
    rfl
  | case2 d d' h =>
    rw [decodeAll]
    split <;> rename_i hd <;> cases (decode_of_next_none hp h).symm.trans hd
    rfl
  | case3 d item d' h items error last hd ih =>
    obtain ⟨hi, heq⟩ := decode_of_next_item hp h
    have hp' : d'.pending = none := by rw [heq]; exact hp
    have hc : d'.config = d.config := by rw [heq]
    rw [decodeAll_of_item hi, ← hc, ← ih hp', hd]

end

end Decoder

/-! ## The beginning of a stream -/

section
variable {config : FrameConfig} {version : ProtocolVersion}

/-- A reader that takes an item off what a sender has written takes the sender's item, whatever the
reader's limit and signature are. -/
theorem decode_bytes_append (hv : version.headerWord ≠ 0) {item item' : Item}
    (hl : ∀ f, item = .frame f → f.payload.length ≤ maxWireLength) {rest rest' : Bytes}
    (h : decode config (item.bytes version ++ rest) = .ok (some (item', rest'))) :
    item' = item ∧ rest' = rest := by
  obtain ⟨taken, hs, hb⟩ := decode_eq_item_iff.1 h
  cases item with
  | keepalive =>
    cases hs with
    | keepalive => exact ⟨rfl, (List.append_cancel_left hb).symm⟩
    | frame hw =>
      simp only [Item.bytes, keepaliveBytes, List.append_assoc] at hb
      exact absurd (wordBytes_append_inj hb).1.symm hw.1
  | frame f =>
    simp only [Item.bytes, frameBytes, List.append_assoc] at hb
    cases hs with
    | keepalive =>
      have hw : _ ++ _ = wordBytes 0 ++ rest' := hb
      exact absurd (wordBytes_append_inj hw).1 hv
    | @frame w g hw _ hg =>
      simp only [List.append_assoc] at hb
      obtain ⟨-, hb⟩ := wordBytes_append_inj hb
      obtain ⟨hn, hb⟩ := wordBytes_append_inj hb
      obtain ⟨ht, hb⟩ := wordBytes_append_inj hb
      have hlen : f.payload.length = g.payload.length := by
        rw [← (toInt_toInt32_ofNat_nonneg (hl f rfl)).2, hn, (toInt_toInt32_ofNat_nonneg hg).2]
      obtain ⟨hp, hrest⟩ := List.append_inj hb hlen
      obtain ⟨t, p⟩ := f
      obtain ⟨t', p'⟩ := g
      cases ht
      cases hp
      exact ⟨rfl, hrest.symm⟩

/-- Of the beginning of what a sender has written a reader takes the first items. -/
theorem items_decodeAll_prefix (hv : version.headerWord ≠ 0) {items : List Item}
    (hl : ∀ f, .frame f ∈ items → f.payload.length ≤ maxWireLength) {arrived : Bytes}
    (h : arrived <+: items.flatMap (·.bytes version)) :
    (decodeAll config arrived).items <+: items := by
  induction items generalizing arrived with
  | nil =>
    cases List.prefix_nil.1 h
    have hno : ∀ item rest, decode config [] ≠ .ok (some (item, rest)) := nofun
    exact (decodeAll_of_no_item hno).1 ▸ List.prefix_rfl
  | cons item items ih =>
    by_cases hd : ∃ item' rest, decode config arrived = .ok (some (item', rest))
    case neg =>
      have hno : ∀ item' rest, decode config arrived ≠ .ok (some (item', rest)) :=
        fun item' rest h => hd ⟨item', rest, h⟩
      rw [(decodeAll_of_no_item hno).1]
      exact List.nil_prefix
    obtain ⟨item', rest, hd⟩ := hd
    obtain ⟨more, hm⟩ := h
    have hall := decode_append_of_item hd more
    rw [hm, List.flatMap_cons] at hall
    obtain ⟨rfl, hr⟩ := decode_bytes_append hv (fun f hf => hl f (hf ▸ .head _)) hall
    rw [decodeAll_of_item hd]
    exact List.cons_prefix_cons.2 ⟨rfl, ih (fun f hf => hl f (.tail _ hf)) ⟨more, hr⟩⟩

/-- An item that a reader admits is written as bytes that the grammar reads as the item. -/
theorem spells_bytes (hv : version.headerWord ≠ 0)
    (hs : version.signature = config.protocol.signature) {item : Item}
    (hl : ∀ f, item = .frame f → f.payload.length ≤ config.longest) :
    Spells config item (item.bytes version) := by
  cases item with
  | keepalive => exact .keepalive
  | frame f => exact spells_frameBytes hv hs (hl f rfl)

/-- Of all that a sender has written a reader that admits every item takes every item. -/
theorem items_decodeAll_flatMap {items : List Item}
    (h : ∀ item ∈ items, Spells config item (item.bytes version)) :
    (decodeAll config (items.flatMap (·.bytes version))).items = items := by
  induction items with
  | nil =>
    have hno : ∀ item rest, decode config [] ≠ .ok (some (item, rest)) := nofun
    exact (decodeAll_of_no_item hno).1
  | cons item items ih =>
    have hd := decode_of_spells (h item (.head _)) (items.flatMap (·.bytes version))
    rw [List.flatMap_cons, decodeAll_of_item hd, ih fun item hi => h item (.tail _ hi)]

end

end PeerMessaging
