import PeerMessaging.Proofs.Link.Receiving
import PeerMessaging.Proofs.Link.Sending

/-!
# Delivery from one connection to another

Two connections with a stream between them (`Traffic`) are run by letting now one and now the other
make a move, of whatever kind, in whatever order (`Traffic.run`): a call, or a step of the loop with
whatever its socket calls come to. All that is assumed of the stream is that it carries bytes in
order: the receiver's reads bring the bytes that the sender's writes have put into it, cut anyhow
and however late. The messages that the receiver puts into its queue are then the first of those
that the sender has queued, without the ones that cannot be sent or understood (`pushed_prefix`).
-/

namespace PeerMessaging

/-! ## From bytes to bytes -/

section
variable {registry registry' : Registry} {config config' : FrameConfig}
  {queued pushed : List Message} {sent arrived : Bytes} {items : List Item}

/-- The frames that messages are sent as are not too long. -/
theorem length_le_of_opening
    (h : items.filterMap Item.frame? <+: queued.filterMap (registry.outgoing config)) :
    ∀ f, .frame f ∈ items → f.payload.length ≤ config.longest := by
  intro f hf
  have hmem : f ∈ items.filterMap Item.frame? := List.mem_filterMap.2 ⟨_, hf, rfl⟩
  obtain ⟨m, -, hm⟩ := List.mem_filterMap.1 (h.subset hmem)
  exact of_decide_eq_true (Option.filter_eq_some_iff.1 hm).2

/-- The messages that items are taken for are those that their frames are taken for. -/
theorem filterMap_message? (registry : Registry) (items : List Item) :
    items.filterMap registry.message? =
      (items.filterMap Item.frame?).filterMap registry.incoming :=
  List.filterMap_filterMap.symm

/-- What is taken from the beginning of what is sent is the beginning of it, message by message. -/
theorem TakenFrom.prefix (hv : config.protocol.headerWord ≠ 0)
    (hs : SentFrom registry config queued sent) (ht : TakenFrom registry' config' arrived pushed)
    (ha : arrived <+: sent) :
    pushed <+: (queued.filterMap (registry.outgoing config)).filterMap registry'.incoming := by
  obtain ⟨items, hi, hb⟩ := hs
  have hl : ∀ f, .frame f ∈ items → f.payload.length ≤ maxWireLength := fun f hf =>
    Nat.le_trans (length_le_of_opening hi f hf) (Nat.min_le_right ..)
  have hdecoded : (decodeAll config' arrived).items <+: items :=
    items_decodeAll_prefix hv hl (ha.trans hb)
  have hfirst := hdecoded.filterMap registry'.message?
  rw [filterMap_message? registry' items] at hfirst
  exact (List.IsPrefix.trans ht hfirst).trans (hi.filterMap _)

/-- What is taken from all that is sent is all of it, if the receiver admits what may be sent. -/
theorem filterMap_message?_decodeAll (hv : config.protocol.headerWord ≠ 0)
    (hs : config.protocol.signature = config'.protocol.signature)
    (hl : config.longest ≤ config'.longest)
    (hi : items.filterMap Item.frame? = queued.filterMap (registry.outgoing config)) :
    (decodeAll config' (items.flatMap (·.bytes config.protocol))).items.filterMap
        registry'.message? =
      (queued.filterMap (registry.outgoing config)).filterMap registry'.incoming := by
  have hspells : ∀ item ∈ items, Spells config' item (item.bytes config.protocol) := by
    rintro item hmem
    refine spells_bytes hv hs ?_
    rintro f rfl
    exact Nat.le_trans (length_le_of_opening ⟨[], by rw [List.append_nil, hi]⟩ f hmem) hl
  rw [items_decodeAll_flatMap hspells, filterMap_message?, hi]

end

/-! ## Two connections -/

/-- Two connections with a stream between them, as far as it goes from the one to the other. -/
structure Traffic where
  sender : Connection
  receiver : Connection
  /-- The bytes that the sender has written and the receiver has not read. -/
  flight : Bytes := []
  /-- The messages that have been queued to be sent. -/
  queued : List Message
  /-- The messages that have been received and taken. -/
  taken : List Message := []

/-- A move of one of two connections. -/
inductive Ply
  | sender (move : Move)
  | receiver (move : Move)

namespace Traffic

/-- Two connections that have just been started. -/
def start (a b : Connection) : Traffic :=
  { sender := a, receiver := b, queued := a.shared.outbound.messages }

/-- What comes of a move of one of two connections. There is none if a session would end by it, or
if reads would bring other bytes than the stream carries. -/
def next (t : Traffic) : Ply → Option Traffic
  | .sender m =>
    let sender := (t.sender.move m).connection
    if sender.desired = .initial then none
    else some { t with
      sender
      flight := t.flight ++ t.sender.writes m
      queued := t.queued ++ t.sender.queues m }
  | .receiver m =>
    let receiver := (t.receiver.move m).connection
    if receiver.desired = .initial ∨ ¬ m.offered <+: t.flight then none
    else some { t with
      receiver
      flight := t.receiver.leaves m ++ t.flight.drop m.offered.length
      taken := t.taken ++ t.receiver.takes m }

/-- What comes of moves, one after another. -/
def run (t : Traffic) : List Ply → Option Traffic
  | [] => some t
  | ply :: plies => (t.next ply).bind (run · plies)

/-- Nothing is on its way: the sender has a stream and nothing left to write, to encode or to take
from its queue, the stream carries nothing, and the receiver has a stream and no item left to hand
on. -/
def isAtRest (t : Traffic) : Bool :=
  t.sender.loop.any (fun l => l.writer.any (·.pending.isEmpty) && (heldMessages l.tasks).isEmpty) &&
    t.sender.shared.outbound.messages.isEmpty && t.flight.isEmpty &&
    t.receiver.loop.any fun l => l.reader.isSome && (heldItems l.tasks).isEmpty

/-- Every byte and every message is accounted for: what the sender has sent has arrived or is on its
way, and what the receiver has pushed has been taken or is in its queue. -/
def Accounted (a b : Connection) (t : Traffic) : Prop :=
  ∃ sent arrived pushed,
    t.sender.Sends a.registry a.config t.queued sent ∧
      t.receiver.Receives b.registry b.config arrived pushed ∧
      sent = arrived ++ t.flight ∧
      t.taken ++ t.receiver.shared.inbound.messages = b.shared.inbound.messages ++ pushed

section
variable {a b a₀ b₀ : Connection} {t t' : Traffic}

/-- Nothing is on its way at first. -/
theorem accounted_start (ha : a₀.Starts a) (hb : b₀.Starts b) : Accounted a b (start a b) :=
  ⟨[], [], [], .of_starts ha, .of_starts hb, rfl, (List.append_nil _).symm⟩

/-- A move leaves everything accounted for. -/
theorem Accounted.next {ply : Ply} (h : Accounted a b t) (ht : t.next ply = some t') :
    Accounted a b t' := by
  obtain ⟨sent, arrived, pushed, hs, hr, rfl, hq⟩ := h
  cases ply with
  | sender m =>
    simp only [Traffic.next] at ht
    split at ht
    · cases ht
    rename_i hm
    cases ht
    have hs' := hs.stride (Connection.move_stride hs.inSession.begun hm)
    refine ⟨_, arrived, pushed, hs', hr, ?_, hq⟩
    exact List.append_assoc ..
  | receiver m =>
    simp only [Traffic.next] at ht
    split at ht
    · cases ht
    rename_i hm
    obtain ⟨hm, ho⟩ := not_or.1 hm
    cases ht
    obtain ⟨got, more, hg, hi, hr'⟩ := hr.stride (Connection.move_stride hr.inSession.begun hm)
    obtain ⟨beyond, hflight⟩ := Decidable.not_not.1 ho
    refine ⟨_, arrived ++ got, pushed ++ more, hs, hr', ?_, ?_⟩
    · rw [← hflight, List.drop_left, hg, List.append_assoc, List.append_assoc]
    · rw [List.append_assoc, hi, ← List.append_assoc, hq, List.append_assoc]

/-- A run leaves everything accounted for. -/
theorem Accounted.run {plies : List Ply} (h : Accounted a b t) (ht : t.run plies = some t') :
    Accounted a b t' := by
  induction plies generalizing t with
  | nil =>
    cases ht
    exact h
  | cons ply plies ih =>
    obtain ⟨t₁, hnext, hrun⟩ := Option.bind_eq_some_iff.1 ht
    exact ih (h.next hnext) hrun

/-- At rest all that can be understood has been pushed, if the receiver admits what may be sent. -/
theorem eq_of_isAtRest (h : t.isAtRest = true) {queued pushed : List Message} {sent arrived : Bytes}
    (hv : a.config.frame.protocol.headerWord ≠ 0)
    (hs : a.config.frame.protocol.signature = b.config.frame.protocol.signature)
    (hl : a.config.frame.longest ≤ b.config.frame.longest)
    (hsends : t.sender.Sends a.registry a.config queued sent)
    (hreceives : t.receiver.Receives b.registry b.config arrived pushed)
    (hflight : sent = arrived ++ t.flight) :
    pushed = (queued.filterMap (a.registry.outgoing a.config.frame)).filterMap
      b.registry.incoming := by
  simp only [isAtRest, Bool.and_eq_true, Option.any_eq_true, List.isEmpty_iff] at h
  obtain ⟨⟨⟨⟨l, hloop, ⟨w, hw, hp⟩, hm⟩, hq⟩, hf⟩, l', hloop', hd, hi⟩ := h
  rw [hf, List.append_nil] at hflight
  subst hflight
  obtain ⟨items, hitems, rfl⟩ := (hsends.sending l hloop).eq_of_idle hw hp hm hq
  rw [(hreceives.receiving l' hloop').eq_of_idle hd hi]
  exact filterMap_message?_decodeAll hv hs hl hitems

end

end Traffic

/-- The messages that a connection puts into its queue are at every moment the first of those that
another has queued for it, in the same order, without those that the sender cannot encode or that
are too long and those that the receiver cannot decode. That is so however the calls and the steps
of the two loops fall between one another, and however the bytes are cut on their way. When nothing
is on its way any more and the receiver admits what the sender may send, they are all of them. What
has been pushed is known by what has been taken and what is in the queue. -/
theorem pushed_prefix {a b a₀ b₀ : Connection} (ha : a₀.Starts a) (hb : b₀.Starts b)
    (hv : a.config.frame.protocol.headerWord ≠ 0) {plies : List Ply} {t : Traffic}
    (ht : (Traffic.start a b).run plies = some t) :
    ∃ pushed,
      t.taken ++ t.receiver.shared.inbound.messages = b.shared.inbound.messages ++ pushed ∧
        pushed <+: (t.queued.filterMap (a.registry.outgoing a.config.frame)).filterMap
          b.registry.incoming ∧
        (t.isAtRest = true →
          a.config.frame.protocol.signature = b.config.frame.protocol.signature →
          a.config.frame.longest ≤ b.config.frame.longest →
          pushed = (t.queued.filterMap (a.registry.outgoing a.config.frame)).filterMap
            b.registry.incoming) := by
  obtain ⟨sent, arrived, pushed, hs, hr, hflight, hq⟩ := (Traffic.accounted_start ha hb).run ht
  exact ⟨pushed, hq, hr.takenFrom.prefix hv hs.sentFrom ⟨_, hflight.symm⟩,
    fun hrest hsig hlong => Traffic.eq_of_isAtRest hrest hv hsig hlong hs hr hflight⟩

/-! ## A conversation -/

/-- A registry with one codec. -/
def notes : Registry := ⟨[(1, .raw "note")]⟩

/-- A connection that has just begun to connect. -/
def caller : Connection where
  registry := notes
  shared := { lifecycle := ⟨.initial, .connecting⟩ }
  loop := some (.new notes {} ⟨"localhost", 4000⟩ 0)

/-- A connection that has just begun to listen. -/
def callee : Connection where
  registry := notes
  shared := { lifecycle := ⟨.initial, .opening⟩ }
  loop := some (.new notes {} ⟨"localhost", 4000⟩ 0)

/-- A step of a loop for which the stream has these bytes, and takes no more than 18. -/
def shortStep (bytes : Bytes) : Move :=
  .work {
    bind := .ok { ip := .v4 ⟨127, 0, 0, 1⟩, port := 4000 }
    accept := .ok true
    reads := (if bytes = [] then [] else [.data bytes]) ++ [.fail (.plain .timedOut)]
    writes := [⟨.accept 18, 0⟩, ⟨.fail (.plain .timedOut), 0⟩] }

/-- Three messages are queued, of which the second has no codec. The first is written and the third
begun, the first is read with the beginning of the third, and then the rest is written and read. -/
def conversation : List Ply :=
  [.sender (.send (.raw 1 [7])), .sender (.send (.raw 2 [8])), .sender (.send (.raw 1 []))] ++
    .replicate 15 (.sender (shortStep [])) ++ .replicate 14 (.receiver (shortStep [])) ++
    [.receiver (shortStep [0x2B, 0xAD, 0, 1, 0, 0, 0, 1, 0, 0, 0, 1, 7, 0x2B, 0xAD])] ++
    .replicate 8 (.sender (shortStep [])) ++ .replicate 9 (.receiver (shortStep [])) ++
    [.receiver (shortStep [0, 1, 0, 0, 0, 0, 0, 0, 0, 1])] ++
    .replicate 2 (.receiver (shortStep [])) ++ [.receiver .takeNext]

/-- It comes to rest, and the messages that have a codec have been pushed, of which one is taken. -/
theorem pushed_prefix_conversation :
    (Connection.withRegistry notes {}).Starts caller ∧
      (Connection.withRegistry notes {}).Starts callee ∧
      caller.config.frame.protocol.headerWord ≠ 0 ∧
      ∃ t, (Traffic.start caller callee).run conversation = some t ∧
        t.isAtRest = true ∧ t.taken.filterMap (notes.outgoing {}) = [⟨1, [7]⟩] ∧
        t.taken ++ t.receiver.shared.inbound.messages =
          (t.queued.filterMap (notes.outgoing {})).filterMap notes.incoming := by
  have ha : (Connection.withRegistry notes {}).Starts caller :=
    ⟨⟨"localhost", 4000⟩, 0, .inl rfl⟩
  have hb : (Connection.withRegistry notes {}).Starts callee :=
    ⟨⟨"localhost", 4000⟩, 0, .inr rfl⟩
  have hv : caller.config.frame.protocol.headerWord ≠ 0 := by decide
  have hrun : ((Traffic.start caller callee).run conversation).map
      (fun t => (t.isAtRest, t.taken.filterMap (notes.outgoing {}))) = some (true, [⟨1, [7]⟩]) := by
    decide +kernel
  obtain ⟨t, ht, hpair⟩ := Option.map_eq_some_iff.1 hrun
  obtain ⟨hrest, htaken⟩ := Prod.mk.inj hpair
  obtain ⟨pushed, hpushed, -, hall⟩ := pushed_prefix ha hb hv ht
  refine ⟨ha, hb, hv, t, ht, hrest, htaken, ?_⟩
  rw [hpushed]
  exact hall hrest rfl (Nat.le_refl _)

end PeerMessaging
