import Mathlib.Algebra.GroupWithZero.Nat
import PeerMessaging.Proofs.Wire.Lockstep

/-!
# How frames are put together

A decoder may be given bytes, asked for items, given another limit and reset in any order. At any
time the bytes that it has been given since it was last reset are those of the items that it has
handed out since and those that it still holds (`Decoder.Ledger.Balanced`); a call keeps this
(`Decoder.Ledger.Balanced.after`), and so does every history. A frame that is being collected lacks
something, and it goes back to a call that found its header and held the announced length to the
limit of the time; from then on nothing but its payload is waited for (`Decoder.Begun`). Both are
brought together in `Decoder.bytes_accounted_for`.
-/

namespace PeerMessaging.Decoder

/-- The decoder after calls. -/
def run (d : Decoder) (calls : List Call) : Decoder := calls.foldl after d

theorem run_concat (d : Decoder) (calls : List Call) (c : Call) :
    d.run (calls ++ [c]) = (d.run calls).after c := by
  rw [run, List.foldl_append]
  rfl

/-- The bytes that a call adds. -/
def Call.bytes : Call → Bytes
  | push bytes => bytes
  | next | setMaxPayload _ | reset => []

/-- The limit after calls: the one set last. -/
def limit (max : Nat) : List Call → Nat
  | [] => max
  | .setMaxPayload max :: calls => limit max calls
  | _ :: calls => limit max calls

/-- The item that an answer hands out. -/
def itemOf? : Except FrameError (Option Item) → Option Item
  | .ok item => item
  | .error _ => none

/-- The items that are handed out in answer to calls. -/
def items (d : Decoder) (calls : List Call) : List Item := (d.answers calls).filterMap itemOf?

/-- The bytes of what a decoder holds: those buffered, and the header of the frame begun. -/
def held (d : Decoder) : Nat := d.bufferedLength + if d.pending.isSome then headerSize else 0

/-- What has passed through a decoder since it was last reset. -/
structure Ledger where
  /-- The bytes that have been added. -/
  pushed : Bytes := []
  /-- The items that have been handed out. -/
  handed : List Item := []

namespace Ledger

/-- What has passed through a decoder after a call that it is about to get. -/
def after (l : Ledger) (d : Decoder) : Call → Ledger
  | .push bytes => { l with pushed := l.pushed ++ bytes }
  | .next => { l with handed := l.handed ++ (itemOf? d.next.1).toList }
  | .setMaxPayload _ => l
  | .reset => {}

/-- What has passed through a decoder after calls. -/
def run (l : Ledger) (d : Decoder) : List Call → Ledger
  | [] => l
  | c :: calls => (l.after d c).run (d.after c) calls

/-- Every byte that has been added is a byte of an item that has been handed out or is held. -/
def Balanced (l : Ledger) (d : Decoder) : Prop :=
  l.pushed.length = (l.handed.map Item.wireSize).sum + d.held

end Ledger

/-! ## What a call does -/

section
variable {d d' : Decoder} {p : PartialFrame} {item : Item} {e : FrameError}

theorem length_received (p : PartialFrame) : p.received.length = p.latest.length :=
  List.length_reverse

/-- Bytes that are collected are held or handed out with the header of their frame. -/
theorem held_collect (d : Decoder) (p : PartialFrame) (buffer : Bytes) :
    ((d.collect p buffer).1.toList.map Item.wireSize).sum + (d.collect p buffer).2.held =
      headerSize + p.latest.length + buffer.length := by
  rcases Nat.lt_or_ge buffer.length p.remaining with h | h
  · rw [collect_of_gt h]
    simp [held, bufferedLength, PartialFrame.take]
    omega
  · rw [collect_of_le h]
    simp [held, bufferedLength, Item.wireSize, Frame.wireSize, length_received]
    omega

theorem held_push (d : Decoder) (bytes : Bytes) : (d.push bytes).held = d.held + bytes.length := by
  have hpending : (d.push bytes).pending = d.pending := rfl
  have hbuffer : (d.push bytes).buffer.length = d.buffer.length + bytes.length :=
    List.length_append
  simp only [held, bufferedLength, hpending, hbuffer]
  omega

/-- Taking an item hands bytes over and loses none. -/
theorem held_next (d : Decoder) :
    ((itemOf? d.next.1).toList.map Item.wireSize).sum + d.next.2.held = d.held := by
  obtain ⟨config, buffer, pending⟩ := d
  cases pending with
  | some p =>
    rw [next_of_pending rfl, itemOf?, held_collect]
    simp [held, bufferedLength]
    omega
  | none =>
    cases hh : parseHeader config buffer with
    | error e => simp [next, hh, itemOf?]
    | ok header =>
      rcases header with _ | _ | ⟨v, t, n⟩
      · simp [next, hh, itemOf?]
      · have hw : keepaliveSize ≤ buffer.length := wireSize_le_of_parseHeader hh
        simp [next, hh, itemOf?, held, bufferedLength, Item.wireSize]
        omega
      · have hw : headerSize ≤ buffer.length := wireSize_le_of_parseHeader hh
        rw [next_of_header hh rfl ⟨config, buffer, none⟩ rfl, itemOf?, held_collect]
        simp [held, bufferedLength]
        omega

/-- The next call goes on with a frame: with the one begun, of which the bytes not looked at are the
next, or with one whose header they open with. -/
inductive Collects (d : Decoder) : PartialFrame → Bytes → Prop
  | begun {p : PartialFrame} : d.pending = some p → Collects d p d.buffer
  | header {p : PartialFrame} {w : UInt32} {body : Bytes} : d.pending = none → d.config.Opens w →
      p.latest = [] → p.expected ≤ d.config.longest →
      d.buffer = wordBytes w ++ (wordBytes (.ofNat p.expected) ++ (wordBytes p.typeId ++ body)) →
      Collects d p body

/-- A call goes on with a frame, or hands out no frame and begins none. -/
theorem next_inv (d : Decoder) :
    (∃ p buffer, d.Collects p buffer ∧
      d.next = (.ok (d.collect p buffer).1, (d.collect p buffer).2)) ∨
    d.next.2.pending = none ∧ ∀ f, d.next.1 ≠ .ok (some (.frame f)) := by
  obtain ⟨config, buffer, pending⟩ := d
  cases pending with
  | some p => exact .inl ⟨p, buffer, .begun rfl, next_of_pending rfl⟩
  | none =>
    cases hh : parseHeader config buffer with
    | error e => exact .inr (by simp [next, hh])
    | ok header =>
      rcases header with _ | _ | ⟨v, t, n⟩
      · exact .inr (by simp [next, hh])
      · exact .inr (by simp [next, hh])
      · obtain ⟨w, body, hw, hn, hbuffer⟩ := eq_words_of_parseHeader hh
        have hbody : buffer.drop headerSize = body := by rw [hbuffer, drop_headerSize]
        exact .inl ⟨{ typeId := t, expected := n }, body, .header rfl hw rfl hn hbuffer,
          next_of_header hh hbody _ rfl⟩

/-- A frame is begun or goes on being collected only if nothing is handed out; then all bytes have
been looked at, and there are fewer than it lacks. -/
theorem of_pending_next {p' : PartialFrame} (h : d.next.2.pending = some p') :
    d.next.1 = .ok none ∧ ∃ p buffer, d.Collects p buffer ∧ buffer.length < p.remaining ∧
      p' = p.take buffer ∧ d.next.2.buffer = [] := by
  rcases d.next_inv with ⟨p, buffer, hcollects, hnext⟩ | ⟨hnone, -⟩
  · rw [hnext] at h ⊢
    rcases Nat.lt_or_ge buffer.length p.remaining with hlt | hge
    · rw [collect_of_gt hlt] at h ⊢
      cases h
      exact ⟨rfl, p, buffer, hcollects, hlt, rfl, rfl⟩
    · rw [collect_of_le hge] at h
      cases h
  · rw [hnone] at h
    cases h

/-- A frame is handed out once what it lacked has come. -/
theorem of_frame_next {f : Frame} (h : d.next.1 = .ok (some (.frame f))) :
    ∃ p buffer, d.Collects p buffer ∧ p.remaining ≤ buffer.length ∧
      f = ⟨p.typeId, p.received ++ buffer.take p.remaining⟩ := by
  rcases d.next_inv with ⟨p, buffer, hcollects, hnext⟩ | ⟨-, hno⟩
  · rw [hnext] at h
    rcases Nat.lt_or_ge buffer.length p.remaining with hlt | hge
    · rw [collect_of_gt hlt] at h
      cases h
    · rw [collect_of_le hge] at h
      cases h
      exact ⟨p, buffer, hcollects, hge, rfl⟩
  · exact absurd h (hno f)

theorem config_next (d : Decoder) : d.next.2.config = d.config := by
  obtain ⟨config, buffer, pending⟩ := d
  have hcollect (p : PartialFrame) (b : Bytes) :
      (collect ⟨config, buffer, pending⟩ p b).2.config = config := by
    rcases Nat.lt_or_ge b.length p.remaining with h | h
    · rw [collect_of_gt h]
    · rw [collect_of_le h]
  unfold next
  split
  · exact hcollect _ _
  · split
    · rfl
    · rfl
    · rfl
    · exact hcollect _ _

/-- The limit is the one set last, and no call changes another setting. -/
theorem config_run (d : Decoder) (calls : List Call) :
    (d.run calls).config = { d.config with maxPayload := limit d.config.maxPayload calls } := by
  induction calls generalizing d with
  | nil => rfl
  | cons c calls ih =>
    rw [run, List.foldl_cons, ← run, ih]
    cases c with
    | next => rw [after, config_next]; rfl
    | _ => rfl

end

/-! ## The balance -/

section
variable {l : Ledger} {d : Decoder}

/-- A call keeps the balance. -/
theorem Ledger.Balanced.after (h : l.Balanced d) (c : Call) :
    (l.after d c).Balanced (d.after c) := by
  rw [Ledger.Balanced] at h ⊢
  cases c with
  | push bytes =>
    show (l.pushed ++ bytes).length = (l.handed.map Item.wireSize).sum + (d.push bytes).held
    rw [held_push, List.length_append, h]
    omega
  | next =>
    have hnext := d.held_next
    simp only [Ledger.after, Decoder.after, List.map_append, List.sum_append]
    omega
  | setMaxPayload max => exact h
  | reset => rfl

/-- So do calls. -/
theorem Ledger.Balanced.run (h : l.Balanced d) (calls : List Call) :
    (l.run d calls).Balanced (d.run calls) := by
  induction calls generalizing l d with
  | nil => exact h
  | cons c calls ih => exact ih (h.after c)

end

/-! ## How a frame was begun -/

/-- A frame of a length was begun by the call behind `before`, and was then being collected during
further calls: that call found a header that announced the length, held it to the limit of the time
and left `body` for the payload. -/
structure Begun (config : FrameConfig) (before during : List Call) (typeId : UInt32) (length : Nat)
    (body : Bytes) : Prop where
  /-- No frame was being collected. -/
  idle : ((new config).run before).pending = none
  /-- The bytes not looked at opened with the header. -/
  header : ∃ w l, config.Opens w ∧ l.toNat = length ∧
    ((new config).run before).buffer = wordBytes w ++ wordBytes l ++ wordBytes typeId ++ body
  /-- The length was within the limit in force. -/
  admitted : length ≤ limit config.maxPayload before
  /-- Until the last of the further calls the frame was being collected, with the same length to
  come to. -/
  collecting : ∀ part, part <+: during → part ≠ during →
    ∃ p, ((new config).run (before ++ .next :: part)).pending = some p ∧ p.typeId = typeId ∧
      p.expected = length

section
variable {config : FrameConfig} {before during past : List Call} {typeId : UInt32} {length : Nat}
  {body : Bytes} {p : PartialFrame}

/-- While the frame is being collected a further call may come. -/
theorem Begun.concat (h : Begun config before during p.typeId p.expected body)
    (hp : ((new config).run (before ++ .next :: during)).pending = some p) (c : Call) :
    Begun config before (during ++ [c]) p.typeId p.expected body := by
  refine ⟨h.idle, h.header, h.admitted, fun part hpart hne => ?_⟩
  rcases List.prefix_concat_iff.1 hpart with rfl | hpart
  · exact absurd rfl hne
  · by_cases hall : part = during
    · subst hall
      exact ⟨p, hp, rfl, rfl⟩
    · exact h.collecting part hpart hall

/-- A header that opens the bytes not looked at begins a frame. -/
theorem Begun.of_header {w t : UInt32} {n : Nat} (hidle : ((new config).run past).pending = none)
    (hw : ((new config).run past).config.Opens w)
    (hn : n ≤ ((new config).run past).config.longest)
    (hbuffer : ((new config).run past).buffer =
      wordBytes w ++ (wordBytes (.ofNat n) ++ (wordBytes t ++ body))) :
    Begun config past [] t n body := by
  rw [config_run] at hw hn
  obtain ⟨hlimit, hword⟩ := Nat.le_min.1 hn
  refine ⟨hidle, ⟨w, .ofNat n, hw, ?_, ?_⟩, hlimit, fun part hpart hne => ?_⟩
  · rw [UInt32.toNat_ofNat', Nat.mod_eq_of_lt]
    rw [maxWireLength] at hword
    omega
  · rw [hbuffer, List.append_assoc, List.append_assoc]
  · exact absurd (List.prefix_nil.1 hpart) hne

/-- If a frame is being collected after calls, some of it is still to come, and it was begun by one
of the calls. What it has and what is not looked at is what stood behind its header and all that has
been added since. -/
def Midway (config : FrameConfig) (past : List Call) : Prop :=
  ∀ p, ((new config).run past).pending = some p → p.received.length < p.expected ∧
    ∃ before during body, past = before ++ .next :: during ∧
      Begun config before during p.typeId p.expected body ∧
      p.received ++ ((new config).run past).buffer = body ++ during.flatMap Call.bytes

namespace Midway

/-- A call that leaves the frame as it is and adds bytes keeps this. -/
theorem keep (h : Midway config past) {c : Call}
    (hpending : ((new config).run (past ++ [c])).pending = ((new config).run past).pending)
    (hbuffer : ((new config).run (past ++ [c])).buffer =
      ((new config).run past).buffer ++ c.bytes) : Midway config (past ++ [c]) := by
  intro p hp
  rw [hpending] at hp
  obtain ⟨hlacks, before, during, body, rfl, hbegun, hbytes⟩ := h p hp
  refine ⟨hlacks, before, during ++ [c], body, ?_, hbegun.concat hp c, ?_⟩
  · rw [List.append_assoc, List.cons_append]
  · rw [hbuffer, ← List.append_assoc, hbytes, List.flatMap_append, List.append_assoc,
      List.flatMap_singleton]

/-- The frame that a call for an item goes on with was begun by the call or by an earlier one. -/
theorem of_collects (h : Midway config past) {buffer : Bytes}
    (hcollects : ((new config).run past).Collects p buffer) :
    ∃ before during body, past ++ [.next] = before ++ .next :: during ∧
      Begun config before during p.typeId p.expected body ∧
      p.received ++ buffer = body ++ during.flatMap Call.bytes := by
  cases hcollects with
  | begun hp =>
    obtain ⟨-, before, during, body, rfl, hbegun, hbytes⟩ := h p hp
    refine ⟨before, during ++ [.next], body, ?_, hbegun.concat hp .next, ?_⟩
    · rw [List.append_assoc, List.cons_append]
    · rw [hbytes, List.flatMap_append, List.flatMap_singleton, Call.bytes, List.append_nil]
  | header hidle hw hlatest hlength hbuffer =>
    refine ⟨past, [], buffer, rfl, .of_header hidle hw hlength hbuffer, ?_⟩
    rw [PartialFrame.received, hlatest, List.flatMap_nil, List.append_nil]
    rfl

/-- A frame that is still being collected after a call for an item has taken what there was. -/
theorem next (h : Midway config past) : Midway config (past ++ [.next]) := by
  intro p' hp'
  rw [run_concat, after] at hp' ⊢
  obtain ⟨-, p, buffer, hcollects, hlt, rfl, hempty⟩ := of_pending_next hp'
  have hsum := p.length_add_remaining
  rw [PartialFrame.expected_take, hempty, List.append_nil, PartialFrame.received_take,
    List.take_of_length_le (Nat.le_of_lt hlt), List.length_append, length_received]
  exact ⟨by omega, h.of_collects hcollects⟩

/-- Every call keeps this. -/
theorem concat (h : Midway config past) (c : Call) : Midway config (past ++ [c]) := by
  cases c with
  | push bytes => exact h.keep (by rw [run_concat]; rfl) (by rw [run_concat]; rfl)
  | next => exact h.next
  | setMaxPayload max =>
    refine h.keep (by rw [run_concat]; rfl) ?_
    rw [run_concat, Call.bytes, List.append_nil]
    rfl
  | reset =>
    intro p hp
    rw [run_concat] at hp
    cases hp

/-- So does every history. -/
theorem of_calls (config : FrameConfig) (calls : List Call) : Midway config calls := by
  have hrun (past : List Call) (h : Midway config past) : Midway config (past ++ calls) := by
    induction calls generalizing past with
    | nil => rwa [List.append_nil]
    | cons c calls ih =>
      have := ih (past ++ [c]) (h.concat c)
      rwa [List.append_assoc] at this
  exact hrun [] nofun

end Midway

/-- A frame that is handed out was begun by the call that hands it out or by an earlier one, has the
length that its header announced, and is what stood behind the header and came after it. -/
theorem exists_begun_of_frame {f : Frame}
    (h : ((new config).run past).next.1 = .ok (some (.frame f))) :
    ∃ before during body, past ++ [.next] = before ++ .next :: during ∧
      Begun config before during f.typeId f.payload.length body ∧
      f.payload = (body ++ during.flatMap Call.bytes).take f.payload.length := by
  obtain ⟨p, buffer, hcollects, hle, hf⟩ := of_frame_next h
  have hlength : f.payload.length = p.expected := by
    rw [hf, List.length_append, length_received, List.length_take, Nat.min_eq_left hle,
      p.length_add_remaining]
  have hpayload : f.payload = (p.received ++ buffer).take p.expected := by
    rw [hf, ← p.length_add_remaining, ← length_received, List.take_length_add_append]
  have htype : f.typeId = p.typeId := by rw [hf]
  obtain ⟨before, during, body, hpast, hbegun, hbytes⟩ :=
    (Midway.of_calls config past).of_collects hcollects
  rw [hlength, htype]
  exact ⟨before, during, body, hpast, hbegun, by rw [hpayload, hbytes]⟩

end

/-! ## What ends -/

/-- Items are at least as long as a keepalive. -/
theorem keepaliveSize_le_wireSize (item : Item) : keepaliveSize ≤ item.wireSize := by
  cases item with
  | keepalive => exact Nat.le_refl _
  | frame f => exact Nat.le_trans (by decide) (Nat.le_add_right headerSize f.payload.length)

/-- A decoder that is asked often enough asks for more bytes or fails. -/
theorem exists_answer_ne_item {n : Nat} {d : Decoder} (h : d.held < keepaliveSize * n) :
    ∃ a ∈ d.answers (List.replicate n .next), itemOf? a = none := by
  induction n generalizing d with
  | zero => omega
  | succ n ih =>
    rw [List.replicate_succ, answers]
    cases hitem : itemOf? d.next.1 with
    | none => exact ⟨_, .head _, hitem⟩
    | some item =>
      have hheld := d.held_next
      have hsize := keepaliveSize_le_wireSize item
      rw [hitem, Option.toList_some, List.map_singleton, List.sum_singleton] at hheld
      rw [Nat.mul_succ] at h
      obtain ⟨a, ha, hnone⟩ := ih (d := d.after .next) (by rw [after]; omega)
      exact ⟨a, .tail _ ha, hnone⟩

/-! ## Limits set while a frame is being collected -/

/-- A frame begun goes on as it would with any other settings, whatever limits are set meanwhile. -/
theorem head?_items_of_pending {d d' : Decoder} {p : PartialFrame} (hp : d.pending = some p)
    (hp' : d'.pending = some p) (hbuffer : d.buffer = d'.buffer) {later : List Call}
    (hlater : .reset ∉ later) :
    (d.items later).head? = (d'.items (later.filter Call.feeds)).head? := by
  induction later generalizing d d' p with
  | nil => rfl
  | cons c later ih =>
    rw [List.mem_cons, not_or] at hlater
    cases c with
    | push bytes =>
      have hpush : (d.push bytes).buffer = (d'.push bytes).buffer := by rw [push, push, hbuffer]
      exact ih hp hp' hpush hlater.2
    | next =>
      rw [List.filter_cons_of_pos rfl, items, items, answers, answers, after, after,
        next_of_pending hp, next_of_pending hp', hbuffer]
      rcases Nat.lt_or_ge d'.buffer.length p.remaining with hlt | hge
      · rw [collect_of_gt hlt, collect_of_gt hlt]
        exact ih (p := p.take d'.buffer) rfl rfl rfl hlater.2
      · rw [collect_of_le hge, collect_of_le hge]
        rfl
    | setMaxPayload max => exact ih (d := d.setMaxPayload max) hp hp' hbuffer hlater.2
    | reset => exact absurd rfl hlater.1

/-- Every byte that a decoder is given is accounted for. After any calls on a new decoder:

* a frame that is being collected has received less than its header announced, so that what remains
  is the difference;
* after a call for an item that asks for more bytes in the middle of a frame all bytes have been
  looked at, and after one that hands out an item or fails no frame is being collected;
* the bytes added since the last reset are as many as the items handed out since take on the wire,
  those buffered, and the header of the frame that is being collected;
* an item that is handed out leaves less by its size, which is at least that of a keepalive, and
  asking over and over ends: once the calls could not all be answered with items, one is not;
* a frame that is handed out was begun by some call for an item: that call found a header which
  announced just the length of the payload and was within the limit last set before, and from then
  on the frame was being collected until the payload was complete, which is what stood behind the
  header and was added since;
* limits set while a frame is being collected make no difference to it. -/
theorem bytes_accounted_for (config : FrameConfig) (calls : List Call) :
    (∀ p, ((new config).run calls).pending = some p →
      p.received.length < p.expected ∧ p.remaining = p.expected - p.received.length) ∧
    (((new config).run calls).next.1 = .ok none →
      ((new config).run calls).next.2.pending.isSome →
      ((new config).run calls).next.2.buffer = []) ∧
    (((new config).run calls).next.1 ≠ .ok none →
      ((new config).run calls).next.2.pending = none) ∧
    (Ledger.run {} (new config) calls).pushed.length =
      ((Ledger.run {} (new config) calls).handed.map Item.wireSize).sum +
        ((new config).run calls).bufferedLength +
        (if ((new config).run calls).pending.isSome then headerSize else 0) ∧
    (∀ item, ((new config).run calls).next.1 = .ok (some item) →
      keepaliveSize ≤ item.wireSize ∧
      ((new config).run calls).next.2.held + item.wireSize = ((new config).run calls).held) ∧
    (∀ n, ((new config).run calls).held < keepaliveSize * n →
      ∃ a ∈ ((new config).run calls).answers (List.replicate n .next), ∀ item,
        a ≠ .ok (some item)) ∧
    (∀ f, ((new config).run calls).next.1 = .ok (some (.frame f)) →
      ∃ before during body, calls ++ [.next] = before ++ .next :: during ∧
        Begun config before during f.typeId f.payload.length body ∧
        f.payload = (body ++ during.flatMap Call.bytes).take f.payload.length) ∧
    (((new config).run calls).pending.isSome → ∀ later, .reset ∉ later →
      (((new config).run calls).items later).head? =
        (((new config).run calls).items (later.filter Call.feeds)).head?) := by
  generalize hd : (new config).run calls = d
  refine ⟨fun p hp => ?_, fun _ hsome => ?_, fun hne => ?_, ?_, fun item hitem => ?_,
    fun n hn => ?_, fun f hf => ?_, fun hsome later hlater => ?_⟩
  · obtain ⟨hlacks, -⟩ := Midway.of_calls config calls p (by rw [hd, hp])
    refine ⟨hlacks, ?_⟩
    rw [p.remaining_eq, length_received]
  · obtain ⟨p, hp⟩ := Option.isSome_iff_exists.1 hsome
    obtain ⟨-, p', buffer, -, -, -, hempty⟩ := of_pending_next hp
    exact hempty
  · cases hp : d.next.2.pending with
    | none => rfl
    | some p => exact absurd (of_pending_next hp).1 hne
  · have hbalanced : Ledger.Balanced {} (new config) := rfl
    have hrun := hbalanced.run calls
    rw [hd] at hrun
    rw [hrun, held, Nat.add_assoc]
  · have hheld := d.held_next
    rw [hitem] at hheld
    refine ⟨keepaliveSize_le_wireSize item, ?_⟩
    rw [← hheld, itemOf?, Option.toList_some, List.map_singleton, List.sum_singleton, Nat.add_comm]
  · obtain ⟨a, ha, hnone⟩ := exists_answer_ne_item hn
    refine ⟨a, ha, fun item hitem => ?_⟩
    rw [hitem] at hnone
    cases hnone
  · exact exists_begun_of_frame (by rw [hd, hf])
  · obtain ⟨p, hp⟩ := Option.isSome_iff_exists.1 hsome
    exact head?_items_of_pending hp hp rfl hlater

end PeerMessaging.Decoder
