import PeerMessaging.Proofs.Wire.Grammar
import PeerMessaging.Wire.Decoder

/-!
# A stream cut into pieces

A decoder gives the same answers however its bytes are cut. The reason is that pushing bytes and
taking items commute: an item or an error is what it was when bytes come behind it
(`Decoder.next_push_of_item`, `Decoder.next_push_of_error`), and a decoder that asked for more bytes
goes on with them as if it had not been asked before (`Decoder.next_push_of_none`). So draining
twice is draining once (`Decoder.drain_push`), and feeding pieces is feeding what they are pieces of
(`Decoder.feed_flatten`).
-/

namespace PeerMessaging

/-- A header, or what is refused in its place, is the same when more bytes come. -/
theorem parseHeader_append {config : FrameConfig} {buffer : Bytes}
    (h : parseHeader config buffer ≠ .ok none) (more : Bytes) :
    parseHeader config (buffer ++ more) = parseHeader config buffer := by
  rcases Nat.lt_or_ge buffer.length 4 with hb | hb
  · exact absurd (parseHeader_of_length_lt hb) h
  obtain ⟨w, b, rfl⟩ := exists_wordBytes_append hb
  rw [List.append_assoc]
  by_cases hz : w = 0
  · subst hz
    rw [parseHeader_keepalive, parseHeader_keepalive]
  by_cases hs : (w >>> 16).toUInt16 = config.protocol.signature
  case neg => rw [parseHeader_foreign hz hs, parseHeader_foreign hz hs]
  rcases Nat.lt_or_ge b.length 8 with hb | hb
  · exact absurd (parseHeader_partial ⟨hz, hs⟩ hb) h
  obtain ⟨l, b, rfl⟩ := exists_wordBytes_append (b := b) (by omega)
  rw [List.length_append, length_wordBytes] at hb
  obtain ⟨t, body, rfl⟩ := exists_wordBytes_append (b := b) (by omega)
  rw [List.append_assoc, List.append_assoc, parseHeader_fields ⟨hz, hs⟩,
    parseHeader_fields ⟨hz, hs⟩]

namespace Decoder

section
variable {d d' : Decoder}

/-! ## Pushing -/

@[simp] theorem push_nil (d : Decoder) : d.push [] = d := by
  rw [push, List.append_nil]

theorem push_push (d : Decoder) (a b : Bytes) : (d.push a).push b = d.push (a ++ b) := by
  rw [push, push, push, List.append_assoc]

/-! ## Collecting a payload -/

/-- A payload that is complete is handed out. -/
theorem collect_of_le {p : PartialFrame} {buffer : Bytes} (h : p.remaining ≤ buffer.length) :
    d.collect p buffer =
      (some (.frame ⟨p.typeId, p.received ++ buffer.take p.remaining⟩),
        { d with buffer := buffer.drop p.remaining, pending := none }) := by
  have hr : (p.take buffer).remaining = 0 := by
    rw [PartialFrame.remaining_take, Nat.sub_eq_zero_of_le h]
  simp only [collect, hr, if_pos, PartialFrame.received_take, PartialFrame.typeId_take]

/-- A payload that is not complete takes all there is. -/
theorem collect_of_gt {p : PartialFrame} {buffer : Bytes} (h : buffer.length < p.remaining) :
    d.collect p buffer = (none, { d with buffer := [], pending := some (p.take buffer) }) := by
  have hr : ¬ (p.take buffer).remaining = 0 := by
    rw [PartialFrame.remaining_take]
    exact Nat.sub_ne_zero_of_lt h
  simp only [collect, List.drop_of_length_le (Nat.le_of_lt h), if_neg hr]

/-- A complete payload leaves the bytes behind it, whatever they are. -/
theorem collect_append_of_some {p : PartialFrame} {buffer : Bytes} {item : Item}
    (h : d.collect p buffer = (some item, d')) (more : Bytes) :
    d.collect p (buffer ++ more) = (some item, d'.push more) := by
  rcases Nat.lt_or_ge buffer.length p.remaining with hr | hr
  · rw [collect_of_gt hr] at h
    cases h
  · rw [collect_of_le hr] at h
    cases h
    rw [collect_of_le (by rw [List.length_append]; omega), List.take_append_of_le_length hr,
      List.drop_append_of_le_length hr, push]

/-- Collecting in two goes is collecting in one. -/
theorem collect_append_of_none {p : PartialFrame} {buffer : Bytes}
    (h : d.collect p buffer = (none, d')) (more : Bytes) :
    ∃ p', d'.pending = some p' ∧
      d.collect p (buffer ++ more) = d'.collect p' (d'.buffer ++ more) := by
  rcases Nat.lt_or_ge buffer.length p.remaining with hr | hr
  case inr =>
    rw [collect_of_le hr] at h
    cases h
  rw [collect_of_gt hr] at h
  cases h
  refine ⟨_, rfl, ?_⟩
  have hp := p.remaining_take buffer
  rcases Nat.lt_or_ge (buffer ++ more).length p.remaining with hm | hm
  · rw [collect_of_gt hm, collect_of_gt (by rw [hp]; simp at hm ⊢; omega)]
    simp only [List.nil_append, PartialFrame.take_take]
  · rw [collect_of_le hm, collect_of_le (by rw [hp]; simp at hm ⊢; omega)]
    have ht : (buffer ++ more).take p.remaining =
        buffer ++ more.take (p.remaining - buffer.length) := by
      rw [List.take_append, List.take_of_length_le (Nat.le_of_lt hr)]
    have hd : (buffer ++ more).drop p.remaining = more.drop (p.remaining - buffer.length) := by
      rw [List.drop_append, List.drop_of_length_le (Nat.le_of_lt hr), List.nil_append]
    rw [ht, hd, PartialFrame.received_take, List.take_of_length_le (Nat.le_of_lt hr), hp,
      List.nil_append, List.append_assoc, PartialFrame.typeId_take]

/-- What a decoder has not looked at is of no consequence to the frame that it collects. -/
theorem collect_push (p : PartialFrame) (buffer more : Bytes) :
    (d.push more).collect p buffer = d.collect p buffer := by
  rcases Nat.lt_or_ge buffer.length p.remaining with h | h
  · rw [collect_of_gt h, collect_of_gt h, push]
  · rw [collect_of_le h, collect_of_le h, push]

/-! ## Taking an item -/

/-- A decoder that collects a frame goes on with it. -/
theorem next_of_pending {p : PartialFrame} (hp : d.pending = some p) :
    d.next = (.ok (d.collect p d.buffer).1, (d.collect p d.buffer).2) := by
  rw [next, hp]

/-- A call goes on collecting a frame, or fails, or hands out a keepalive, or does nothing for want
of a header; which of the first three it is does not depend on the bytes that come. -/
theorem next_cases (d : Decoder) :
    (∃ p buffer, ∀ more, (d.push more).next =
      (.ok (d.collect p (buffer ++ more)).1, (d.collect p (buffer ++ more)).2)) ∨
    (∃ e, ∀ more, (d.push more).next = (.error e, d.push more)) ∨
    (∃ buffer, d.pending = none ∧ ∀ more, (d.push more).next =
      (.ok (some .keepalive), { d with buffer := buffer ++ more })) ∨
    d.next = (.ok none, d) := by
  obtain ⟨config, buffer, pending⟩ := d
  cases pending with
  | some p =>
    refine .inl ⟨p, buffer, fun more => ?_⟩
    rw [next_of_pending (d := push _ more) rfl, collect_push]
    rfl
  | none =>
    cases hh : parseHeader config buffer with
    | error e =>
      refine .inr (.inl ⟨e, fun more => ?_⟩)
      have hm := parseHeader_append (by rw [hh]; nofun) more
      simp only [next, push, hm, hh]
    | ok o =>
      cases o with
      | none => exact .inr (.inr (.inr (by simp only [next, hh])))
      | some header =>
        have hm (more : Bytes) := parseHeader_append (by rw [hh]; nofun) more
        cases header with
        | keepalive =>
          have hw : keepaliveSize ≤ buffer.length := wireSize_le_of_parseHeader hh
          refine .inr (.inr (.inl ⟨buffer.drop keepaliveSize, rfl, fun more => ?_⟩))
          simp only [next, push, hm, hh]
          rw [List.drop_append_of_le_length hw]
        | frame v t n =>
          have hw : headerSize ≤ buffer.length := wireSize_le_of_parseHeader hh
          refine .inl ⟨{ typeId := t, expected := n }, buffer.drop headerSize, fun more => ?_⟩
          rw [← List.drop_append_of_le_length hw, ← collect_push _ _ more]
          simp only [next, push, hm, hh]

/-- An error changes nothing, and is the same when more bytes come. -/
theorem next_push_of_error {e : FrameError} (h : d.next = (.error e, d')) :
    d' = d ∧ ∀ more, (d.push more).next = (.error e, d.push more) := by
  rcases d.next_cases with ⟨p, buffer, hc⟩ | ⟨e', he⟩ | ⟨buffer, -, hk⟩ | hn
  · rw [← push_nil d, hc] at h
    cases h
  · have h' := he []
    rw [push_nil, h] at h'
    cases h'
    exact ⟨rfl, he⟩
  · rw [← push_nil d, hk] at h
    cases h
  · rw [hn] at h
    cases h

/-- An item is the same when more bytes come, and they are left behind it. -/
theorem next_push_of_item {item : Item} (h : d.next = (.ok (some item), d')) (more : Bytes) :
    (d.push more).next = (.ok (some item), d'.push more) := by
  rcases d.next_cases with ⟨p, buffer, hc⟩ | ⟨e, he⟩ | ⟨buffer, hp, hk⟩ | hn
  · rw [← push_nil d, hc, List.append_nil, Prod.mk.injEq, Except.ok.injEq] at h
    rw [hc, collect_append_of_some (Prod.ext h.1 h.2)]
  · rw [← push_nil d, he] at h
    cases h
  · rw [← push_nil d, hk] at h
    cases h
    rw [hk, push, List.append_nil, hp]
  · rw [hn] at h
    cases h

/-- A decoder that asked for more bytes goes on with them as if it had not been asked before. -/
theorem next_push_of_none (h : d.next = (.ok none, d')) (more : Bytes) :
    (d.push more).next = (d'.push more).next := by
  rcases d.next_cases with ⟨p, buffer, hc⟩ | ⟨e, he⟩ | ⟨buffer, hp, hk⟩ | hn
  · rw [← push_nil d, hc, List.append_nil, Prod.mk.injEq, Except.ok.injEq] at h
    obtain ⟨p', hp', hc'⟩ := collect_append_of_none (Prod.ext h.1 h.2) more
    rw [hc, hc', next_of_pending (d := d'.push more) hp', collect_push]
    rfl
  · rw [← push_nil d, he] at h
    cases h
  · rw [← push_nil d, hk] at h
    cases h
  · rw [hn] at h
    cases h
    rfl

/-- A decoder that asked for more bytes asks again. -/
theorem next_of_none (h : d.next = (.ok none, d')) : d'.next = (.ok none, d') := by
  have hn := next_push_of_none h []
  rw [push_nil, push_nil, h] at hn
  exact hn.symm

/-! ## Draining -/

theorem drain_of_error {e : FrameError} (h : d.next = (.error e, d')) :
    d.drain = ([], some e, d') := by
  rw [drain]
  split <;> rename_i hn <;> cases h.symm.trans hn
  rfl

theorem drain_of_none (h : d.next = (.ok none, d')) : d.drain = ([], none, d') := by
  rw [drain]
  split <;> rename_i hn <;> cases h.symm.trans hn
  rfl

theorem drain_of_item {item : Item} (h : d.next = (.ok (some item), d')) :
    d.drain = (item :: d'.drain.1, d'.drain.2) := by
  rw [drain]
  split <;> rename_i hn <;> cases h.symm.trans hn
  rfl

/-- Decoders that answer the next call alike are drained alike. -/
theorem drain_congr (h : d.next = d'.next) : d.drain = d'.drain := by
  rcases hd : d.next with ⟨_ | _ | item, last⟩
  · rw [drain_of_error hd, drain_of_error (h.symm.trans hd)]
  · rw [drain_of_none hd, drain_of_none (h.symm.trans hd)]
  · rw [drain_of_item hd, drain_of_item (h.symm.trans hd)]

/-- Draining again after more bytes have come is draining once. -/
theorem drain_push (d : Decoder) (more : Bytes) :
    (d.push more).drain =
      (d.drain.1 ++ (d.drain.2.2.push more).drain.1, (d.drain.2.2.push more).drain.2) := by
  fun_induction drain d with
  | case1 d e d' h =>
    obtain ⟨rfl, -⟩ := next_push_of_error h
    rfl
  | case2 d d' h => exact drain_congr (next_push_of_none h more)
  | case3 d item d' h items error last hd ih =>
    rw [drain_of_item (next_push_of_item h more), ih]
    rw [hd]
    rfl

/-- A drained decoder has nothing to hand out, and meets the error again that ended the draining. -/
theorem drain_drain (d : Decoder) : d.drain.2.2.drain = ([], d.drain.2) := by
  fun_induction drain d with
  | case1 d e d' h =>
    obtain ⟨rfl, -⟩ := next_push_of_error h
    exact drain_of_error h
  | case2 d d' h => exact drain_of_none (next_of_none h)
  | case3 d item d' h items error last hd ih =>
    rw [hd] at ih
    exact ih

/-- An error that ended the draining is met by every call from then on, whatever bytes come. -/
theorem next_of_drain_error {e : FrameError} (h : d.drain.2.1 = some e) (more : Bytes) :
    (d.drain.2.2.push more).next = (.error e, d.drain.2.2.push more) := by
  fun_induction drain d with
  | case1 d e' d' hn =>
    cases h
    obtain ⟨rfl, he⟩ := next_push_of_error hn
    exact he more
  | case2 => cases h
  | case3 d item d' hn items error last hd ih =>
    rw [hd] at ih
    exact ih h

/-! ## Feeding -/

/-- There is nothing in a decoder that has received nothing. -/
theorem drain_new (config : FrameConfig) : (new config).drain = ([], none, new config) :=
  drain_of_none rfl

/-- Feeding the pieces of a stream is feeding the stream, up to the first error: what is not fed
because of the error is the only difference. -/
theorem feed_flatten (hd : d.drain = ([], none, d)) (pieces : List Bytes) :
    ∃ unfed, d.feed pieces.flatten =
        ((d.feedAll pieces).1, (d.feedAll pieces).2.1, (d.feedAll pieces).2.2.push unfed) ∧
      ((d.feedAll pieces).2.1 = none → unfed = []) := by
  induction pieces generalizing d with
  | nil =>
    refine ⟨[], ?_, fun _ => rfl⟩
    rw [feed, List.flatten_nil, push_nil, hd, feedAll, push_nil]
  | cons piece pieces ih =>
    have hfeed : d.feed (piece :: pieces).flatten =
        ((d.feed piece).1 ++ ((d.feed piece).2.2.feed pieces.flatten).1,
          ((d.feed piece).2.2.feed pieces.flatten).2) := by
      rw [List.flatten_cons, feed, ← push_push, drain_push]
      rfl
    obtain ⟨items, error, last, hr⟩ : ∃ items error last, d.feed piece = (items, error, last) :=
      ⟨_, _, _, rfl⟩
    rw [hfeed, hr]
    cases error with
    | some e =>
      have he := next_of_drain_error (d := d.push piece) (e := e) (by rw [← feed, hr])
        pieces.flatten
      rw [← feed, hr] at he
      refine ⟨pieces.flatten, ?_, ?_⟩
      · rw [feedAll, hr, feed, drain_of_error he, List.append_nil]
      · rw [feedAll, hr]
        nofun
    | none =>
      have hn : last.drain = ([], none, last) := by
        have := drain_drain (d.push piece)
        rwa [← feed, hr] at this
      obtain ⟨unfed, hu, hnone⟩ := ih hn
      refine ⟨unfed, ?_, ?_⟩
      · rw [hu, feedAll, hr]
      · rw [feedAll, hr]
        exact hnone

end

/-! ## Calls -/

/-- What may be asked of a decoder. -/
inductive Call
  | push (bytes : Bytes)
  | next
  | setMaxPayload (max : Nat)
  | reset
  deriving DecidableEq, Repr

/-- The call adds bytes or takes an item. -/
def Call.feeds : Call → Bool
  | push _ | next => true
  | setMaxPayload _ | reset => false

/-- The decoder after a call. -/
def after (d : Decoder) : Call → Decoder
  | .push bytes => d.push bytes
  | .next => d.next.2
  | .setMaxPayload max => d.setMaxPayload max
  | .reset => d.reset

/-- What the calls that take an item are answered, one after another. -/
def answers (d : Decoder) : List Call → List (Except FrameError (Option Item))
  | [] => []
  | .next :: calls => d.next.1 :: answers (d.after .next) calls
  | call :: calls => answers (d.after call) calls

/-- A decoder that has met an error meets it whatever is pushed and however often it is asked. -/
theorem answers_of_error {d : Decoder} {e : FrameError}
    (hd : ∀ more, (d.push more).next = (.error e, d.push more)) {calls : List Call}
    (hc : ∀ c ∈ calls, c.feeds = true) : ∀ a ∈ d.answers calls, a = .error e := by
  induction calls generalizing d with
  | nil => exact nofun
  | cons call calls ih =>
    have hcalls := fun c h => hc c (.tail _ h)
    cases call with
    | push bytes =>
      refine ih (d := d.push bytes) (fun more => ?_) hcalls
      rw [push_push]
      exact hd _
    | next =>
      have hn := hd []
      rw [push_nil] at hn
      intro a ha
      rw [answers, after, hn] at ha
      rcases List.mem_cons.1 ha with rfl | ha
      · rfl
      · exact ih hd hcalls a ha
    | setMaxPayload max => exact absurd (hc _ (.head _)) nofun
    | reset => exact absurd (hc _ (.head _)) nofun

end Decoder

/-- A stream is decoded alike however it is cut. Fed the pieces of one cutting or of another, a new
decoder hands out the same items and meets the same error or none, and if it meets none it is left
the same, with the same bytes not looked at and the same frame begun. An error that a decoder has
met is all that it answers from then on, whatever is pushed, until its limit is set or it is
reset. -/
theorem feedAll_eq_of_flatten_eq (config : FrameConfig) {xs ys : List Bytes}
    (h : xs.flatten = ys.flatten) :
    ((Decoder.new config).feedAll xs).1 = ((Decoder.new config).feedAll ys).1 ∧
    ((Decoder.new config).feedAll xs).2.1 = ((Decoder.new config).feedAll ys).2.1 ∧
    (((Decoder.new config).feedAll xs).2.1 = none →
      ((Decoder.new config).feedAll xs).2.2 = ((Decoder.new config).feedAll ys).2.2) ∧
    ∀ (d d' : Decoder) (e : FrameError), d.next = (.error e, d') →
      ∀ calls : List Decoder.Call, ∀ a ∈ d'.answers (calls.takeWhile Decoder.Call.feeds),
        a = .error e := by
  obtain ⟨xs', hx, hxn⟩ := Decoder.feed_flatten (Decoder.drain_new config) xs
  obtain ⟨ys', hy, hyn⟩ := Decoder.feed_flatten (Decoder.drain_new config) ys
  rw [h, hy, Prod.mk.injEq, Prod.mk.injEq] at hx
  obtain ⟨hitems, herror, hlast⟩ := hx
  refine ⟨hitems.symm, herror.symm, fun hn => ?_, fun d d' e he calls => ?_⟩
  · rw [hxn hn, hyn (herror.trans hn), Decoder.push_nil, Decoder.push_nil] at hlast
    exact hlast.symm
  · obtain ⟨rfl, hmore⟩ := Decoder.next_push_of_error he
    exact Decoder.answers_of_error hmore (List.all_eq_true.1 List.all_takeWhile)

/-- A keepalive and a frame that is too long, with a cut inside every word. -/
def slivers : List Bytes :=
  [[0, 0], [0, 0, 0x2B, 0xAD, 0], [], [1, 0x7F], [0, 0, 0, 0, 0], [0, 1]]

/-- They are decoded as the whole of them is. -/
theorem feedAll_eq_of_flatten_eq_slivers :
    slivers.flatten = [slivers.flatten].flatten ∧
      ((Decoder.new {}).feedAll slivers).1 = ((Decoder.new {}).feedAll [slivers.flatten]).1 ∧
      ((Decoder.new {}).feedAll slivers).2.1 = ((Decoder.new {}).feedAll [slivers.flatten]).2.1 :=
  have h : slivers.flatten = [slivers.flatten].flatten := rfl
  ⟨h, (feedAll_eq_of_flatten_eq {} h).1, (feedAll_eq_of_flatten_eq {} h).2.1⟩

end PeerMessaging
