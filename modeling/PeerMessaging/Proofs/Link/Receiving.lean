import PeerMessaging.Proofs.Link.Moves
import PeerMessaging.Proofs.Wire.Refinement

/-!
# What a connection receives

The messages that a connection puts into its queue are those that the bytes which have arrived are
decoded to, in order, as far as they have been handed on (`TakenFrom`). While the connection has a
stream, every byte has gone into the decoder, and every item that the decoder has handed out has
been dealt with or is held by the loop (`Receiving`). A step moves bytes and items from one place to
the next (`Receiving.turn`).
-/

namespace PeerMessaging

/-- The message that an item is taken for. -/
def Registry.message? (r : Registry) (item : Item) : Option Message := item.frame?.bind r.incoming

/-! ## The receiving side of a step -/

/-- What a step may do to what is being received. -/
inductive Inflow (calls : SocketCalls) (s : Shared) (l : Loop) (st : Step) : Prop
  /-- Nothing. -/
  | keep (hr : l.isReading = false) (hd : st.loop.reader = l.reader)
      (hi : heldItems st.loop.tasks = heldItems l.tasks) (hq : st.shared.inbound = s.inbound)
  /-- Bytes are decoded. -/
  | take {d : Decoder} (got : Bytes) (hr : l.isReading = true) (hd : l.reader = some d)
      (hi : heldItems l.tasks = []) (hd' : st.loop.reader = some (d.push got).drain.2.2)
      (hi' : heldItems st.loop.tasks = (d.push got).drain.1)
      (hg : carried calls.reads = got ++ carried st.unread) (hq : st.shared.inbound = s.inbound)
  /-- An item is handed on. -/
  | pass (item : Item) (hr : l.isReading = false) (hd : st.loop.reader = l.reader)
      (hi : heldItems l.tasks = item :: heldItems st.loop.tasks)
      (hq : st.shared.inbound.messages =
        s.inbound.messages ++ (l.registry.message? item).toList)
  /-- There is a stream to receive from. -/
  | attach {rest : List Task} (ht : l.tasks = .act :: rest)
      (hc : s.lifecycle.current = .connecting ∨ s.lifecycle.current = .listening)
      (hd : st.loop.reader = some (.new l.config.streamConfig))
      (hl : st.shared.lifecycle = s.lifecycle)
      (ht' : st.loop.tasks = .advance .connected :: nextRound)
      (hq : st.shared.inbound = s.inbound)
  /-- There is no stream any more. -/
  | cease (hr : l.isReading = false) (hd : st.loop.reader = none)
      (hi : heldItems st.loop.tasks = []) (hq : st.shared.inbound = s.inbound)

section
variable {registry : Registry} {config : ConnectionConfig} {calls : SocketCalls} {s s' : Shared}
  {l : Loop} {st : Step} {arrived : Bytes} {pushed : List Message}

/-- A step does one of these. -/
theorem Turn.inflow (ho : Orderly l.tasks) (t : Turn calls s l st) : Inflow calls s l st := by
  cases t with
  | idle ht => exact .keep (by simp only [Loop.isReading, ht]) rfl rfl rfl
  | tell plan ht hn hp =>
    refine .keep (Loop.isReading_of_tasks ht (Task.reads_of_tells hn)) rfl ?_ rfl
    exact heldItems_plan ht (isPlain_of_tells hp) (Task.held_of_tells hn).2
  | announce plan ht hp =>
    refine .keep (Loop.isReading_of_tasks ht rfl) rfl ?_ rfl
    exact heldItems_plan ht (isPlain_of_tells hp) rfl
  | advance ht =>
    refine .keep (Loop.isReading_of_tasks ht rfl) rfl ?_ rfl
    rw [ht]
    rfl
  | skip plan ht hr _ _ hi hp | flush plan _ ht hr _ _ hi _ _ _ _ hp =>
    exact .keep hr rfl (heldItems_plan ht hp hi) rfl
  | plan plan ht hp =>
    refine .keep (Loop.isReading_of_tasks ht rfl) rfl ?_ rfl
    rw [ht] at ho
    have hr := (held_of_isPlain (ho.rest_isPlain rfl)).2
    rw [ht, heldItems_append, (held_of_isPlain hp).2]
    exact hr.symm
  | attach ht hc => exact .attach ht hc rfl rfl rfl rfl
  | finish ht => exact .cease (Loop.isReading_of_tasks ht rfl) rfl rfl rfl
  | collect ht | drop ht =>
    refine .keep (Loop.isReading_of_tasks ht rfl) rfl ?_ rfl
    rw [ht]
    rfl
  | encode plan ht _ _ _ hp =>
    refine .keep (Loop.isReading_of_tasks ht rfl) rfl ?_ rfl
    rw [ht, heldItems_append, (held_of_isPlain (isPlain_of_tells hp)).2]
    rfl
  | receive plan ht hr hg hp =>
    rw [ht] at ho
    have hrest := ho.rest_isPlain rfl
    refine .take _ (by simp only [Loop.isReading, ht, hr]) hr ?_ rfl ?_ hg rfl
    · rw [ht]
      exact (held_of_isPlain hrest).2
    · have hp := (held_of_isPlain (List.forall_mem_append.2 ⟨hp, hrest⟩)).2
      exact (congrArg _ hp).trans (List.append_nil _)
  | dispatch plan ht hq hp =>
    refine .pass _ (Loop.isReading_of_tasks ht rfl) rfl ?_ hq
    rw [ht, heldItems_append, (held_of_isPlain (isPlain_of_tells hp)).2]
    rfl
  | release ht =>
    rw [ht] at ho
    exact .cease (Loop.isReading_of_tasks ht rfl) rfl (held_of_isPlain (ho.rest_isPlain rfl)).2 rfl

/-! ## The ledger of the receiving side -/

/-- The messages are the first of those that the bytes are decoded to. -/
def TakenFrom (registry : Registry) (config : FrameConfig) (arrived : Bytes)
    (pushed : List Message) : Prop :=
  pushed <+: (decodeAll config arrived).items.filterMap registry.message?

/-- Where the bytes that have arrived and the items they are decoded to are. -/
inductive Receiving (registry : Registry) (config : FrameConfig) (arrived : Bytes)
    (pushed : List Message) (s : Shared) (l : Loop) : Prop
  /-- There is no stream yet. -/
  | before (hd : l.reader = none) (hi : heldItems l.tasks = []) (ha : arrived = [])
      (hp : pushed = [])
  /-- There is a stream: the bytes have gone into the decoder, and an item has been dealt with or is
  held. -/
  | during (done : List Item)
      (hd : l.reader = some ((Decoder.new config).push arrived).drain.2.2)
      (hi : ((Decoder.new config).push arrived).drain.1 = done ++ heldItems l.tasks)
      (hp : pushed = done.filterMap registry.message?) (hl : Settled s l)
  /-- There is no stream any more. -/
  | behind (hd : l.reader = none) (hi : heldItems l.tasks = [])
      (hb : TakenFrom registry config arrived pushed) (hl : Settled s l)

/-- What a new decoder hands out is what is taken off the bytes that it has been given. -/
theorem items_drain_push (config : FrameConfig) (arrived : Bytes) :
    ((Decoder.new config).push arrived).drain.1 = (decodeAll config arrived).items :=
  Decoder.items_drain (d := (Decoder.new config).push arrived) rfl

namespace Receiving

/-- With a stream, and without an item left to hand on, all messages that have arrived have been
pushed. -/
theorem eq_of_idle {config : FrameConfig} (h : Receiving registry config arrived pushed s l)
    (hd : l.reader.isSome = true) (hi : heldItems l.tasks = []) :
    pushed = (decodeAll config arrived).items.filterMap registry.message? := by
  cases h with
  | before hn | behind hn =>
    rw [hn] at hd
    cases hd
  | during done _ hi' hp _ =>
    rw [items_drain_push, hi, List.append_nil] at hi'
    rw [hp, hi']

/-- Wherever the items are, the messages are the first of those that have arrived. -/
theorem takenFrom {config : FrameConfig} (h : Receiving registry config arrived pushed s l) :
    TakenFrom registry config arrived pushed := by
  cases h with
  | before _ _ _ hp => exact hp ▸ List.nil_prefix
  | during done hd hi hp hl =>
    rw [TakenFrom, hp, ← items_drain_push, hi, List.filterMap_append]
    exact List.prefix_append _ _
  | behind _ _ hb _ => exact hb

/-- What callers do to the connection leaves what is being received. -/
theorem of_shared {config : FrameConfig} (h : Receiving registry config arrived pushed s l)
    (hs : Settled s l → Settled s' l) : Receiving registry config arrived pushed s' l := by
  cases h with
  | before hd hi ha hp => exact .before hd hi ha hp
  | during done hd hi hp hl => exact .during done hd hi hp (hs hl)
  | behind hd hi hb hl => exact .behind hd hi hb (hs hl)

/-- Letting go of the stream leaves what has been received. -/
theorem abandon {config : FrameConfig} (h : Receiving registry config arrived pushed s l) :
    Receiving registry config arrived pushed s l.abandon :=
  .behind rfl rfl h.takenFrom (.inl rfl)

/-- A step moves bytes and items from one place to the next. -/
theorem turn (hu : Underway registry config s l)
    (h : Receiving registry config.streamConfig arrived pushed s l) (t : Turn calls s l st) :
    ∃ got more, carried calls.reads = got ++ carried (l.unread calls st) ∧
      st.shared.inbound.messages = s.inbound.messages ++ more ∧
      Receiving registry config.streamConfig (arrived ++ got) (pushed ++ more) st.shared
        st.loop := by
  have settled (hl : Settled s l) := hl.turn hu.orderly t
  have htaken := h.takenFrom
  -- A step that neither reads nor hands anything on changes nothing in the ledger's two ends.
  have unmoved (hr : l.isReading = false) (hq : st.shared.inbound = s.inbound)
      (h' : Receiving registry config.streamConfig arrived pushed st.shared st.loop) :
      ∃ got more, carried calls.reads = got ++ carried (l.unread calls st) ∧
        st.shared.inbound.messages = s.inbound.messages ++ more ∧
        Receiving registry config.streamConfig (arrived ++ got) (pushed ++ more) st.shared
          st.loop := by
    refine ⟨[], [], ?_, ?_, ?_⟩
    · rw [Loop.unread_of_not_reading hr, List.nil_append]
    · rw [hq, List.append_nil]
    · rw [List.append_nil, List.append_nil]
      exact h'
  cases t.inflow hu.orderly with
  | keep hr hd' hi' hq =>
    refine unmoved hr hq ?_
    cases h with
    | before hd hi ha hp => exact .before (hd'.trans hd) (hi'.trans hi) ha hp
    | during done hd hi hp hl =>
      exact .during done (hd'.trans hd) (by rw [hi', hi]) hp (settled hl)
    | behind hd hi hb hl => exact .behind (hd'.trans hd) (hi'.trans hi) hb (settled hl)
  | take got hr hreader hheld hd' hi' hg hq =>
    refine ⟨got, [], ?_, ?_, ?_⟩
    · rw [Loop.unread, hr]
      exact hg
    · rw [hq, List.append_nil]
    cases h with
    | before hd | behind hd => cases hd.symm.trans hreader
    | during done hd hi hp hl =>
      cases hd.symm.trans hreader
      rw [hheld, List.append_nil] at hi
      have hdrain := Decoder.drain_push ((Decoder.new config.streamConfig).push arrived) got
      rw [Decoder.push_push] at hdrain
      rw [List.append_nil]
      refine .during done ?_ ?_ hp (settled hl)
      · rw [hd', hdrain]
      · rw [hdrain, hi, hi']
  | pass item hr hd' hi' hq =>
    refine ⟨[], (l.registry.message? item).toList, ?_, hq, ?_⟩
    · rw [Loop.unread_of_not_reading hr, List.nil_append]
    cases h with
    | before _ hi | behind _ hi => cases hi.symm.trans hi'
    | during done hd hi hp hl =>
      rw [List.append_nil]
      refine .during (done ++ [item]) (hd'.trans hd) ?_ ?_ (settled hl)
      · rw [hi, hi', List.append_assoc]
        rfl
      · rw [hp, List.filterMap_append, hu.registry_eq]
        rfl
  | attach ht hc hd' hl' ht' hq =>
    refine unmoved (Loop.isReading_of_tasks ht rfl) hq ?_
    cases h with
    | during _ _ _ _ hl | behind _ _ _ hl => exact (hl.not_attach ht hc).elim
    | before hd hi ha hp =>
      subst ha hp
      rw [hu.config_eq] at hd'
      refine .during [] ?_ ?_ rfl (hu.settled_of_attach ht hc hl' ht')
      · rw [hd', Decoder.push_nil, Decoder.drain_new]
      · rw [Decoder.push_nil, Decoder.drain_new, ht']
        rfl
  | cease hr hd' hi' hq =>
    refine unmoved hr hq ?_
    cases h with
    | before _ _ ha hp => exact .before hd' hi' ha hp
    | during _ _ _ _ hl | behind _ _ _ hl => exact .behind hd' hi' htaken (settled hl)

end Receiving

/-! ## The connection that receives -/

namespace Connection

/-- A connection that has been brought these bytes, and has put these messages into its queue. -/
structure Receives (registry : Registry) (config : ConnectionConfig) (arrived : Bytes)
    (pushed : List Message) (c : Connection) : Prop where
  inSession : c.InSession registry config
  takenFrom : TakenFrom registry config.streamConfig arrived pushed
  receiving : ∀ l, c.loop = some l →
    Receiving registry config.streamConfig arrived pushed c.shared l

/-- A connection that has just been started has received nothing. -/
theorem Receives.of_starts {c c' : Connection} (h : c.Starts c') :
    c'.Receives c'.registry c'.config [] [] := by
  obtain ⟨-, endpoint, now, hl⟩ := loop_of_starts h
  refine ⟨inSession_of_starts h, List.nil_prefix, fun l hl' => ?_⟩
  cases hl.symm.trans hl'
  exact .before rfl rfl rfl rfl

/-- What callers do to the connection leaves what it has received. -/
theorem Receives.of_shared {c c' : Connection} (h : c.Receives registry config arrived pushed)
    (hc' : c'.InSession registry config) (hl : c'.loop = c.loop)
    (hc : c'.shared.lifecycle.current = c.shared.lifecycle.current)
    (hd : c.desired.stage ≤ c'.desired.stage) : c'.Receives registry config arrived pushed where
  inSession := hc'
  takenFrom := h.takenFrom
  receiving l hl' := (h.receiving l (hl ▸ hl')).of_shared (Settled.of_shared · hc hd)

/-- Whatever is done to the connection, it receives the messages that the bytes are decoded to. -/
theorem Receives.stride {c c' : Connection} {m : Move}
    (h : c.Receives registry config arrived pushed) (t : c.Stride m c') :
    ∃ got more, m.offered = got ++ c.leaves m ∧
      c.takes m ++ c'.shared.inbound.messages = c.shared.inbound.messages ++ more ∧
      c'.Receives registry config (arrived ++ got) (pushed ++ more) := by
  have hc' := h.inSession.stride t
  -- Only a step of the loop reads, and only a step of the loop puts messages into the queue.
  have unmoved (ho : m.offered = c.leaves m)
      (hi : c.takes m ++ c'.shared.inbound.messages = c.shared.inbound.messages)
      (hr : c'.Receives registry config arrived pushed) :
      ∃ got more, m.offered = got ++ c.leaves m ∧
        c.takes m ++ c'.shared.inbound.messages = c.shared.inbound.messages ++ more ∧
        c'.Receives registry config (arrived ++ got) (pushed ++ more) := by
    refine ⟨[], [], ho, ?_, ?_⟩
    · rw [hi, List.append_nil]
    · rw [List.append_nil, List.append_nil]
      exact hr
  cases t with
  | @work calls l hl hh =>
    obtain ⟨got, more, hg, hi, hr⟩ := (h.receiving l hl).turn (h.inSession.underway l hl)
      (l.step_turn calls c.shared)
    refine ⟨got, more, ?_, hi, hc', hr.takenFrom, fun l' hl' => ?_⟩
    · rw [leaves_work hl hh]
      exact hg
    · cases hl'
      exact hr
  | send m =>
    refine unmoved rfl ?_ ?_
    · unfold send
      split <;> rfl
    · unfold send at hc' ⊢
      split at hc'
      · rename_i hd
        rw [if_pos hd]
        exact h
      · rename_i hd
        rw [if_neg hd]
        exact h.of_shared hc' rfl rfl (Nat.le_refl _)
  | takeNext =>
    exact unmoved rfl c.shared.inbound.messages_pop (h.of_shared hc' rfl rfl (Nat.le_refl _))
  | stay hq hc hd =>
    refine unmoved hq.leaves_eq.symm ?_ (h.of_shared hc' rfl hc hd)
    rw [hq.takes_eq]
    rfl
  | stop hq hloop =>
    refine unmoved hq.leaves_eq.symm ?_ ⟨hc', h.takenFrom, fun l hl => ?_⟩
    · rw [hq.takes_eq]
      rfl
    · rcases hloop with rfl | rfl
      · cases hl
      · obtain ⟨l, hl', rfl⟩ := Option.map_eq_some_iff.1 hl
        exact (h.receiving l hl').abandon

end Connection

end

end PeerMessaging
