import PeerMessaging.Proofs.Link.Moves

/-!
# What a connection sends

The bytes that the stream has taken from a connection are the beginning of what the queued messages
are sent as, in the order of the queue and with keepalives between them (`SentFrom`). While the
connection has a stream, every queued message is in one place: it has become a frame or has been
passed over, it is held by the loop, or it is in the queue still; and every byte of the frames has
been taken or is to be written (`Sending`). A step moves messages and bytes from one place to the
next (`Sending.turn`).
-/

namespace PeerMessaging

/-! ## The sending side of a step -/

/-- What a step may do to what is being sent. -/
inductive Outflow (s : Shared) (l : Loop) (st : Step) : Prop
  /-- Nothing. -/
  | keep (hw : st.loop.writer = l.writer) (hs : st.sent = [])
      (hm : heldMessages st.loop.tasks = heldMessages l.tasks)
      (hq : st.shared.outbound = s.outbound)
  /-- Messages become frames, or bytes are taken. -/
  | move {w w' : Encoder} (items : List Item) (done : List Message) (hw : l.writer = some w)
      (hw' : st.loop.writer = some w') (hc : w'.config = w.config)
      (hi : items.filterMap Item.frame? = done.filterMap (l.registry.outgoing w.config))
      (hb : st.sent ++ w'.pending = w.pending ++ items.flatMap (·.bytes w.config.protocol))
      (hq : heldMessages l.tasks ++ s.outbound.messages =
        done ++ (heldMessages st.loop.tasks ++ st.shared.outbound.messages))
  /-- There is a stream to send to. -/
  | attach {rest : List Task} (ht : l.tasks = .act :: rest)
      (hc : s.lifecycle.current = .connecting ∨ s.lifecycle.current = .listening)
      (hw : st.loop.writer = some (.new l.config.streamConfig)) (hs : st.sent = [])
      (hl : st.shared.lifecycle = s.lifecycle)
      (ht' : st.loop.tasks = .advance .connected :: nextRound)
      (hq : st.shared.outbound = s.outbound)
  /-- There is no stream any more. -/
  | cease (hw : st.loop.writer = none) (hs : st.sent = [])
      (hm : heldMessages st.loop.tasks = [])
      (hq : st.loop.tasks = [] ∨ st.shared.outbound = s.outbound)
  /-- A message is lost that was held without a stream. -/
  | lose (hw : l.writer = none) (hm : heldMessages l.tasks ≠ [])

section
variable {registry : Registry} {config : ConnectionConfig} {calls : SocketCalls} {s s' : Shared}
  {l : Loop} {st : Step} {queued more : List Message} {sent : Bytes}

/-- A step does one of these. -/
theorem Turn.outflow (ho : Orderly l.tasks) (t : Turn calls s l st) : Outflow s l st := by
  cases t with
  | idle => exact .keep rfl rfl rfl rfl
  | tell plan ht hn hp =>
    have hm := (Task.held_of_tells hn).1
    exact .keep rfl rfl (heldMessages_plan ht (isPlain_of_tells hp) hm) rfl
  | announce plan ht hp =>
    exact .keep rfl rfl (heldMessages_plan ht (isPlain_of_tells hp) rfl) rfl
  | advance ht =>
    refine .keep rfl rfl ?_ rfl
    rw [ht]
    rfl
  | skip plan ht _ _ hm _ hp => exact .keep rfl rfl (heldMessages_plan ht hp hm) rfl
  | plan plan ht hp =>
    rw [ht] at ho
    have hr := held_of_isPlain (ho.rest_isPlain rfl)
    refine .keep rfl rfl ?_ rfl
    rw [ht, heldMessages_append, (held_of_isPlain hp).1]
    exact hr.1.symm
  | attach ht hc => exact .attach ht hc rfl rfl rfl rfl rfl
  | finish => exact .cease rfl rfl rfl (.inl rfl)
  | @collect rest w ht hw =>
    rw [ht] at ho
    have hr := (held_of_isPlain (ho.rest_isPlain rfl)).1
    refine .move [] [] hw hw rfl rfl (List.append_nil _).symm ?_
    rw [ht]
    change heldMessages rest ++ s.outbound.messages =
      (s.outbound.messages ++ heldMessages rest) ++ []
    rw [hr, List.append_nil, List.append_nil, List.nil_append]
  | @encode m ms rest w w' plan ht hw hc hb hp =>
    refine .move _ [m] hw rfl hc ?_ hb ?_
    · cases ho : l.registry.outgoing w.config m with
      | none => rw [List.filterMap_cons_none ho]; rfl
      | some f => rw [List.filterMap_cons_some ho]; rfl
    · rw [ht, heldMessages_append, (held_of_isPlain (isPlain_of_tells hp)).1]
      rfl
  | drop ht hw =>
    refine .lose hw ?_
    rw [ht]
    nofun
  | flush plan beats ht _ _ hm _ hw hc hk hb hp =>
    refine .move beats [] hw rfl hc hk hb ?_
    exact congrArg (· ++ _) (heldMessages_plan ht hp hm).symm
  | receive plan ht _ _ hp => exact .keep rfl rfl (heldMessages_plan ht hp rfl) rfl
  | dispatch plan ht _ hp =>
    refine .keep rfl rfl ?_ rfl
    rw [ht, heldMessages_append, (held_of_isPlain (isPlain_of_tells hp)).1]
    rfl
  | release ht =>
    rw [ht] at ho
    exact .cease rfl rfl (held_of_isPlain (ho.rest_isPlain rfl)).1 (.inr rfl)

/-! ## The ledger of the sending side -/

/-- The bytes are the beginning of what the messages are sent as, with keepalives between them. -/
def SentFrom (registry : Registry) (config : FrameConfig) (queued : List Message) (sent : Bytes) :
    Prop :=
  ∃ items : List Item,
    items.filterMap Item.frame? <+: queued.filterMap (registry.outgoing config) ∧
      sent <+: items.flatMap (·.bytes config.protocol)

/-- Where the queued messages and the bytes of their frames are. -/
inductive Sending (registry : Registry) (config : FrameConfig) (queued : List Message)
    (sent : Bytes) (s : Shared) (l : Loop) : Prop
  /-- There is no stream yet: the messages are in the queue. -/
  | before (hw : l.writer = none) (hm : heldMessages l.tasks = [])
      (hq : s.outbound.messages = queued) (hs : sent = [])
  /-- There is a stream: a message has been dealt with, is held or is in the queue, and a byte has
  been taken or is to be written. -/
  | during {w : Encoder} (items : List Item) (done : List Message) (hw : l.writer = some w)
      (hc : w.config = config)
      (hi : items.filterMap Item.frame? = done.filterMap (registry.outgoing config))
      (hq : done ++ (heldMessages l.tasks ++ s.outbound.messages) = queued)
      (hb : sent ++ w.pending = items.flatMap (·.bytes config.protocol)) (hl : Settled s l)
  /-- There is no stream any more. -/
  | behind (hw : l.writer = none) (hm : heldMessages l.tasks = [])
      (hb : SentFrom registry config queued sent) (hl : Settled s l)

namespace SentFrom

/-- Nothing is the beginning of anything. -/
theorem nil (registry : Registry) (config : FrameConfig) (queued : List Message) :
    SentFrom registry config queued [] := ⟨[], List.nil_prefix, List.nil_prefix⟩

/-- More messages behind the others change nothing. -/
theorem append {config : FrameConfig} (h : SentFrom registry config queued sent)
    (more : List Message) : SentFrom registry config (queued ++ more) sent := by
  obtain ⟨items, hi, hb⟩ := h
  refine ⟨items, hi.trans ?_, hb⟩
  rw [List.filterMap_append]
  exact List.prefix_append _ _

end SentFrom

namespace Sending

/-- Wherever the messages are, the bytes taken are the beginning of what they are sent as. -/
theorem sentFrom {config : FrameConfig} (h : Sending registry config queued sent s l) :
    SentFrom registry config queued sent := by
  cases h with
  | before _ _ _ hs => exact hs ▸ .nil ..
  | during items done _ _ hi hq hb _ =>
    refine ⟨items, ?_, ⟨_, hb⟩⟩
    rw [hi, ← hq, List.filterMap_append]
    exact List.prefix_append _ _
  | behind _ _ hb _ => exact hb

/-- With nothing left to write, to encode or to take from the queue, everything has been sent. -/
theorem eq_of_idle {config : FrameConfig} {w : Encoder}
    (h : Sending registry config queued sent s l) (hw : l.writer = some w) (hp : w.pending = [])
    (hm : heldMessages l.tasks = []) (hq : s.outbound.messages = []) :
    ∃ items : List Item,
      items.filterMap Item.frame? = queued.filterMap (registry.outgoing config) ∧
        sent = items.flatMap (·.bytes config.protocol) := by
  cases h with
  | before hn | behind hn => cases hn.symm.trans hw
  | during items done hw' _ hi hq' hb =>
    cases hw'.symm.trans hw
    rw [hm, hq, List.append_nil, List.append_nil] at hq'
    rw [hp, List.append_nil] at hb
    exact ⟨items, hq' ▸ hi, hb⟩

/-- Messages that are put into the queue are behind all others. -/
theorem of_shared {config : FrameConfig} (h : Sending registry config queued sent s l)
    (hq : s'.outbound.messages = s.outbound.messages ++ more) (hs : Settled s l → Settled s' l) :
    Sending registry config (queued ++ more) sent s' l := by
  cases h with
  | before hw hm hq' hsent => exact .before hw hm (by rw [hq, hq']) hsent
  | during items done hw hc hi hq' hb hl =>
    refine .during items done hw hc hi ?_ hb (hs hl)
    rw [hq, ← hq', List.append_assoc, List.append_assoc]
  | behind hw hm hb hl => exact .behind hw hm (hb.append more) (hs hl)

/-- Letting go of the stream leaves what has been sent. -/
theorem abandon {config : FrameConfig} (h : Sending registry config queued sent s l) :
    Sending registry config queued sent s l.abandon :=
  .behind rfl rfl h.sentFrom (.inl rfl)

/-- A step moves messages and bytes from one place to the next. -/
theorem turn (hu : Underway registry config s l)
    (h : Sending registry config.streamConfig queued sent s l) (t : Turn calls s l st) :
    Sending registry config.streamConfig queued (sent ++ st.sent) st.shared st.loop := by
  have settled (hl : Settled s l) := hl.turn hu.orderly t
  have hfrom := h.sentFrom
  cases t.outflow hu.orderly with
  | keep hw' hs' hm' hq' =>
    rw [hs', List.append_nil]
    cases h with
    | before hw hm hq hs =>
      exact .before (hw'.trans hw) (hm'.trans hm) (by rw [hq', hq]) hs
    | during items done hw hc hi hq hb hl =>
      exact .during items done (hw'.trans hw) hc hi (by rw [hm', hq', hq]) hb (settled hl)
    | behind hw hm hb hl => exact .behind (hw'.trans hw) (hm'.trans hm) hb (settled hl)
  | move items' done' hwriter hw' hc' hi' hb' hq' =>
    cases h with
    | before hw | behind hw => cases hw.symm.trans hwriter
    | during items done hw hc hi hq hb hl =>
      cases hw.symm.trans hwriter
      rw [hu.registry_eq, hc] at hi'
      refine .during (items ++ items') (done ++ done') hw' (hc'.trans hc) ?_ ?_ ?_ (settled hl)
      · rw [List.filterMap_append, List.filterMap_append, hi, hi']
      · rw [← hq, hq', List.append_assoc]
      · rw [List.flatMap_append, ← hb, List.append_assoc, List.append_assoc, hb', hc]
  | attach ht hc hw' hs' hl' ht' hq' =>
    cases h with
    | during _ _ _ _ _ _ _ hl | behind _ _ _ hl => exact (hl.not_attach ht hc).elim
    | before hw hm hq hs =>
      rw [hu.config_eq] at hw'
      refine .during [] [] hw' rfl rfl ?_ (by rw [hs, hs']; rfl)
        (hu.settled_of_attach ht hc hl' ht')
      rw [ht', hq', hq]
      rfl
  | cease hw' hs' hm' hq' =>
    rw [hs', List.append_nil]
    cases h with
    | before hw hm hq hs =>
      rcases hq' with hq' | hq'
      · exact .behind hw' hm' (hs ▸ .nil ..) (.inl hq')
      · exact .before hw' hm' (by rw [hq', hq]) hs
    | during _ _ _ _ _ _ _ hl | behind _ _ _ hl =>
      exact .behind hw' hm' hfrom (settled hl)
  | lose hwriter hm' =>
    cases h with
    | before _ hm | behind _ hm => exact absurd hm hm'
    | during _ _ hw => cases hw.symm.trans hwriter

end Sending

/-! ## The connection that sends -/

namespace Connection

/-- A connection that sends these messages, and from which the stream has taken these bytes. -/
structure Sends (registry : Registry) (config : ConnectionConfig) (queued : List Message)
    (sent : Bytes) (c : Connection) : Prop where
  inSession : c.InSession registry config
  sentFrom : SentFrom registry config.streamConfig queued sent
  sending : ∀ l, c.loop = some l → Sending registry config.streamConfig queued sent c.shared l

/-- A connection that has just been started sends what has been queued before. -/
theorem Sends.of_starts {c c' : Connection} (h : c.Starts c') :
    c'.Sends c'.registry c'.config c'.shared.outbound.messages [] := by
  obtain ⟨-, endpoint, now, hl⟩ := loop_of_starts h
  refine ⟨inSession_of_starts h, .nil .., fun l hl' => ?_⟩
  cases hl.symm.trans hl'
  exact .before rfl rfl rfl rfl

/-- What callers do to the connection puts messages behind all others. -/
theorem Sends.of_shared {c c' : Connection} (h : c.Sends registry config queued sent)
    (hc' : c'.InSession registry config) (hl : c'.loop = c.loop)
    (hq : c'.shared.outbound.messages = c.shared.outbound.messages ++ more)
    (hc : c'.shared.lifecycle.current = c.shared.lifecycle.current)
    (hd : c.desired.stage ≤ c'.desired.stage) :
    c'.Sends registry config (queued ++ more) sent where
  inSession := hc'
  sentFrom := h.sentFrom.append more
  sending l hl' := (h.sending l (hl ▸ hl')).of_shared hq (Settled.of_shared · hc hd)

/-- Whatever is done to the connection, it sends the messages that are queued. -/
theorem Sends.stride {c c' : Connection} {m : Move} (h : c.Sends registry config queued sent)
    (t : c.Stride m c') :
    c'.Sends registry config (queued ++ c.queues m) (sent ++ c.writes m) := by
  have hc' := h.inSession.stride t
  have unqueued : c.shared.outbound.messages = c.shared.outbound.messages ++ [] :=
    (List.append_nil _).symm
  cases t with
  | @work calls l hl hh =>
    have hturn := (h.sending l hl).turn (h.inSession.underway l hl) (l.step_turn calls c.shared)
    have hq : c.queues (.work calls) = [] := rfl
    rw [writes_work hl hh, hq, List.append_nil]
    refine ⟨hc', hturn.sentFrom, fun l' hl' => ?_⟩
    cases hl'
    exact hturn
  | send m =>
    have hw : c.writes (.send m) = [] := rfl
    rw [hw, List.append_nil, queues]
    unfold send at hc' ⊢
    split at hc'
    · rename_i hd
      rw [if_pos hd, if_pos hd, List.append_nil]
      exact h
    · rename_i hd
      rw [if_neg hd, if_neg hd]
      exact h.of_shared hc' rfl (MessageQueue.messages_push ..) rfl (Nat.le_refl _)
  | takeNext =>
    have hw : c.writes .takeNext = [] := rfl
    rw [hw, List.append_nil]
    exact h.of_shared hc' rfl unqueued rfl (Nat.le_refl _)
  | stay hq hc hd =>
    rw [hq.queues_eq, hq.writes_eq, List.append_nil sent]
    exact h.of_shared hc' rfl unqueued hc hd
  | stop hq hloop =>
    rw [hq.queues_eq, hq.writes_eq, List.append_nil, List.append_nil]
    refine ⟨hc', h.sentFrom, fun l hl => ?_⟩
    rcases hloop with rfl | rfl
    · cases hl
    · obtain ⟨l, hl', rfl⟩ := Option.map_eq_some_iff.1 hl
      exact (h.sending l hl').abandon

end Connection

end

end PeerMessaging
