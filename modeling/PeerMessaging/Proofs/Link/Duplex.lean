import PeerMessaging.Proofs.Link.Exchange

/-!
# Two connections joined by channels

Two connections are joined by two channels of bytes, one each way (`Link`), and are run by letting
now the one and now the other make a move, of whatever kind (`Link.run`). All that is assumed of the
socket calls is that they are those to the two channels (`Move.abides`). Each way every byte,
message and item is accounted for (`Flows`). A connection that is connected exchanges frames
(`Connection.Engaged`), as long as the other one's settings suit it (`Party.Suits`): then nothing
malformed comes in, and no socket call fails (`Link.Engages.run`).
-/

namespace PeerMessaging

/-- The socket calls of a move, if it is a step of the loop, are those of a stream which has room
for so many bytes and holds these. -/
def Move.abides (room : Nat) (inbox : Bytes) : Move → Bool
  | work calls => calls.abide room inbox
  | _ => true

/-! ## Becoming connected -/

/-- A stream goes both ways, or there is none, after a step too. -/
theorem Turn.twoWay {calls : SocketCalls} {s : Shared} {l : Loop} {st : Step}
    (t : Turn calls s l st) (h : l.writer.isSome = l.reader.isSome) :
    st.loop.writer.isSome = st.loop.reader.isSome := by
  cases t with
  | attach | finish | release => rfl
  | encode _ _ hw | flush _ _ _ _ _ _ _ hw =>
    rw [hw] at h
    exact h
  | receive _ _ hr =>
    rw [hr] at h
    exact h
  | _ => exact h

namespace Connection

/-- The connection is connected, and is to stay so. -/
def isConnected (c : Connection) : Bool := c.shared.lifecycle = ⟨.connected, .connected⟩

/-- A session goes on, with a stream that goes both ways or with none. -/
structure Runs (c : Connection) : Prop where
  onCourse : ∃ verdict asked, c.OnCourse verdict asked
  twoWay : ∀ l, c.loop = some l → l.writer.isSome = l.reader.isSome

/-- The loop is connected and exchanges frames. -/
def Engaged (c : Connection) : Prop := ∃ l phase, c.loop = some l ∧ l.Engaged phase c.shared

section
variable {registry : Registry} {config : ConnectionConfig} {c c' : Connection} {m : Move}
  {l : Loop} {calls : SocketCalls}

/-- No move changes the codecs or the settings of a session. -/
theorem Stride.settings_eq (t : c.Stride m c') :
    c'.registry = c.registry ∧ c'.config = c.config := by
  cases t with
  | send =>
    unfold Connection.send
    split <;> exact ⟨rfl, rfl⟩
  | _ => exact ⟨rfl, rfl⟩

theorem runs_of_starts (h : c.Starts c') : c'.Runs := by
  obtain ⟨-, endpoint, now, hl⟩ := loop_of_starts h
  refine ⟨⟨_, _, onCourse_of_starts h⟩, fun l hl' => ?_⟩
  cases hl.symm.trans hl'
  rfl

theorem Runs.next (h : c.Runs) (hn : c.next m = some c') : c'.Runs := by
  obtain ⟨verdict, asked, hcourse⟩ := h.onCourse
  refine ⟨⟨_, _, (hcourse.next hn).1⟩, fun l hl => ?_⟩
  have hmove := beside_or_work hcourse.begun hn
  obtain ⟨-, -, rfl⟩ := next_eq_some hn
  rcases hmove with hm | ⟨calls, l₀, rfl, hl₀, hh⟩
  · rcases hm.loop_eq with heq | ⟨-, hnone⟩
    · exact h.twoWay l (heq ▸ hl)
    · cases hnone.symm.trans hl
  · rw [move_work calls hl₀ hh] at hl
    cases hl
    exact (l₀.step_turn calls c.shared).twoWay (h.twoWay l₀ hl₀)

/-- A loop that becomes connected in a step has a stream, and has just announced the state. -/
theorem Runs.engage (h : c.Runs) (hs : c.InSession registry config) (hl : c.loop = some l)
    (hn : c.shared.lifecycle ≠ ⟨.connected, .connected⟩)
    (hc : (l.step calls c.shared).shared.lifecycle = ⟨.connected, .connected⟩) :
    (l.step calls c.shared).loop.Engaged .beginning (l.step calls c.shared).shared := by
  obtain ⟨verdict, asked, -, hagenda⟩ := h.onCourse
  rw [hasStream, tasks, hl] at hagenda
  have hagenda : Agenda verdict asked l.reader.isSome c.shared.lifecycle l.tasks := hagenda
  cases ht : l.tasks with
  | nil =>
    rw [Loop.step_of_hasEnded (List.isEmpty_iff.2 ht)] at hc
    exact absurd hc hn
  | cons task rest =>
    have hmoves := (l.step_turn calls c.shared).lifecycle_eq ht
    rw [hc] at hmoves
    cases task with
    | announce =>
      rw [Task.moves, Lifecycle.apply_snd] at hmoves
      have hd : c.shared.lifecycle.desired = .connected :=
        (congrArg Lifecycle.desired hmoves).symm
      have hcurrent : c.shared.lifecycle.current ≠ c.shared.lifecycle.desired := by
        intro heq
        rw [hd] at heq
        exact hn (congrArg₂ Lifecycle.mk heq hd)
      rw [ht] at hagenda
      cases hagenda with
      | round hround hp =>
        obtain rfl : rest = [.act] := by rcases hround with hround | hround <;> cases hround; rfl
        rw [hd] at hp
        have hwriter := (h.twoWay l hl).trans hp.2
        rw [Loop.step_announce calls ht, if_neg hcurrent]
        exact ⟨congrArg₂ Lifecycle.mk hd hd, .tell rfl .act, hp.2, hwriter⟩
    | advance next =>
      rw [Task.moves, Lifecycle.tryRequest_eq] at hmoves
      split at hmoves
      · rename_i hp
        -- A transition to the connected state is asked for before the current state is that.
        have hb := (hs.underway l hl).behind _ _ ht (by rintro ⟨⟩)
        have hcurrent : c.shared.lifecycle.current = .connected :=
          (congrArg Lifecycle.current hmoves).symm
        have hnext : next = .connected := (congrArg Lifecycle.desired hmoves).symm
        subst hnext
        have hlt := ConnectionState.stage_lt_of_permits hp (by decide)
        rw [hcurrent] at hb
        exact absurd hlt (Nat.not_lt.2 hb)
      · exact absurd hmoves.symm hn
    | _ => exact absurd hmoves.symm hn

/-- A connection that is connected after a move exchanges frames. -/
theorem engaged_next {room : Nat} {inbox : Bytes} (hr : c.Runs)
    (hs : c.InSession registry config) (he : c.isConnected = true → c.Engaged)
    (ha : m.abides room inbox = true)
    (hclean : ∀ l, c.loop = some l → ∀ d, l.reader = some d → ∀ got, got <+: inbox →
      (d.push got).drain.2.1 = none)
    (hn : c.next m = some c') (hc : c'.isConnected = true) : c'.Engaged := by
  have hmove := beside_or_work hs.begun hn
  obtain ⟨-, -, rfl⟩ := next_eq_some hn
  have hc := of_decide_eq_true hc
  rcases hmove with hm | ⟨calls, l, rfl, hl, hh⟩
  · have hlifecycle := hm.lifecycle_eq
    have hsame : c.shared.lifecycle = ⟨.connected, .connected⟩ := by
      rw [hc] at hlifecycle
      split at hlifecycle
      · rw [Lifecycle.tryRequest_eq] at hlifecycle
        split at hlifecycle
        · cases congrArg Lifecycle.desired hlifecycle
        · exact hlifecycle.symm
      · exact hlifecycle.symm
    obtain ⟨l, phase, hl, hengaged⟩ := he (decide_eq_true hsame)
    rcases hm.loop_eq with heq | ⟨hi, -⟩
    · exact ⟨l, phase, heq.trans hl, hc, hengaged.exchange, hengaged.reader, hengaged.writer⟩
    · have hx := hengaged.exchange
      rw [← tasks_of_some hl, isIdle_iff.1 hi] at hx
      cases hx
  · rw [move_work calls hl hh] at hc ⊢
    by_cases hsame : c.shared.lifecycle = ⟨.connected, .connected⟩
    · obtain ⟨l', phase, hl', hengaged⟩ := he (decide_eq_true hsame)
      cases hl.symm.trans hl'
      obtain ⟨phase', -, hengaged'⟩ := hengaged.beat ha (hclean l hl)
      exact ⟨_, phase', rfl, hengaged'⟩
    · exact ⟨_, .beginning, rfl, hr.engage hs hl hsame hc⟩

end

end Connection

/-! ## Two connections -/

/-- One of two connections, with the channel that leads to it. -/
structure Party where
  connection : Connection
  /-- The bytes in the channel. -/
  inbox : Bytes := []
  /-- The most bytes that the channel holds. -/
  capacity : Nat
  /-- The messages that have been queued to be sent. -/
  queued : List Message
  /-- The bytes that have been written. -/
  written : Bytes := []
  /-- The bytes that have been read. -/
  read : Bytes := []
  /-- The items that have been handed on. -/
  handed : List Item := []

/-- Two connections that are joined by two channels. -/
structure Link where
  here : Party
  there : Party

/-- One or the other of two connections. -/
inductive Side
  | here
  | there
  deriving DecidableEq, Repr

namespace Party

/-- The room that is left in the channel. -/
def room (p : Party) : Nat := p.capacity - p.inbox.length

/-- The frames that the queued messages are sent as. -/
def accepted (p : Party) : List Frame :=
  p.queued.filterMap (p.connection.registry.outgoing p.connection.config.frame)

/-- The frames that have been dispatched. -/
def dispatched (p : Party) : List Frame := p.handed.filterMap Item.frame?

/-- The settings of one connection suit another that it sends to: it writes headers that are not
those of a keepalive and that the other knows, no frame is longer than the other allows, and the
channel to the other can hold something. -/
structure Suits (p q : Party) : Prop where
  word : p.connection.config.frame.protocol.headerWord ≠ 0
  signature_eq :
    p.connection.config.frame.protocol.signature = q.connection.config.frame.protocol.signature
  fits : ∀ f ∈ p.accepted, f.payload.length ≤ q.connection.config.frame.maxPayload
  capacity : 0 < q.capacity

instance (p q : Party) : Decidable (p.Suits q) :=
  decidable_of_iff
    (p.connection.config.frame.protocol.headerWord ≠ 0 ∧
      p.connection.config.frame.protocol.signature = q.connection.config.frame.protocol.signature ∧
      (∀ f ∈ p.accepted, f.payload.length ≤ q.connection.config.frame.maxPayload) ∧
      0 < q.capacity)
    ⟨fun ⟨hw, hs, hf, hc⟩ => ⟨hw, hs, hf, hc⟩, fun ⟨hw, hs, hf, hc⟩ => ⟨hw, hs, hf, hc⟩⟩

/-- Whether settings suit depends on them, on the frames and on the channel. -/
theorem Suits.congr {p p' q q' : Party} (h : p.Suits q)
    (hp : p'.connection.config = p.connection.config)
    (hq : q'.connection.config = q.connection.config) (hc : q'.capacity = q.capacity)
    (hf : ∀ f ∈ p'.accepted, f ∈ p.accepted) : p'.Suits q' where
  word := hp ▸ h.word
  signature_eq := by
    rw [hp, hq]
    exact h.signature_eq
  fits := fun f hmem => hq ▸ h.fits f (hf f hmem)
  capacity := hc ▸ h.capacity

/-- All that has been read has been handed on. -/
def HasHandedAll (p : Party) : Prop :=
  (decodeAll p.connection.config.streamConfig p.read).items = p.handed

end Party

namespace Link

/-- Two connections that have just been started, and channels that hold so much. -/
def start (a b : Connection) (toHere toThere : Nat) : Link where
  here := { connection := a, capacity := toHere, queued := a.shared.outbound.messages }
  there := { connection := b, capacity := toThere, queued := b.shared.outbound.messages }

/-- The two the other way round. -/
def swap (t : Link) : Link := ⟨t.there, t.here⟩

/-- The two as they are seen from one side. -/
def seen (t : Link) : Side → Link
  | .here => t
  | .there => t.swap

/-- What comes of a move of the connection that is here. There is none if its session would be over
by it, or if the socket calls are not those to the channels. -/
def nextHere (t : Link) (m : Move) : Option Link :=
  let c := t.here.connection
  if m.abides t.there.room t.here.inbox then
    (c.next m).map fun connection =>
      { here :=
          { t.here with
            connection
            inbox := t.here.inbox.drop (c.reads m).length
            queued := t.here.queued ++ c.queues m
            written := t.here.written ++ c.writes m
            read := t.here.read ++ c.reads m
            handed := t.here.handed ++ c.hands m }
        there := { t.there with inbox := t.there.inbox ++ c.writes m } }
  else none

/-- What comes of a move of one of two connections. -/
def next (t : Link) (side : Side) (m : Move) : Option Link :=
  ((t.seen side).nextHere m).map (·.seen side)

/-- What comes of moves, one after another. -/
def run (t : Link) : List (Side × Move) → Option Link
  | [] => some t
  | (side, m) :: plays => (t.next side m).bind (run · plays)

/-- How many bytes have been moved, from a writer into a channel or from a channel into a
decoder. -/
def moved (t : Link) : Nat :=
  t.here.written.length + t.here.read.length + (t.there.written.length + t.there.read.length)

/-- Both connections are connected. -/
def IsConnected (t : Link) : Prop :=
  t.here.connection.isConnected = true ∧ t.there.connection.isConnected = true

instance (t : Link) : Decidable t.IsConnected := inferInstanceAs (Decidable (_ ∧ _))

/-- Every frame has been dispatched, both ways. -/
def IsDelivered (t : Link) : Prop :=
  t.there.dispatched = t.here.accepted ∧ t.here.dispatched = t.there.accepted

instance (t : Link) : Decidable t.IsDelivered := inferInstanceAs (Decidable (_ ∧ _))

/-- The settings of each connection suit the other. -/
structure Matches (t : Link) : Prop where
  out : t.here.Suits t.there
  back : t.there.Suits t.here

instance (t : Link) : Decidable t.Matches :=
  decidable_of_iff (t.here.Suits t.there ∧ t.there.Suits t.here)
    ⟨fun ⟨hout, hback⟩ => ⟨hout, hback⟩, fun ⟨hout, hback⟩ => ⟨hout, hback⟩⟩

end Link

/-! ## One way -/

/-- Everything that goes from one connection to another is accounted for: what the one has written
has been read by the other or is in the channel. -/
structure Flows (p q : Party) : Prop where
  sends : p.connection.Sends p.connection.registry p.connection.config p.queued p.written
  hands : q.connection.Hands q.connection.registry q.connection.config q.read q.handed
  written_eq : p.written = q.read ++ q.inbox

section
variable {p q : Party} {l : Loop} {phase : Phase}

/-- What is written to a connection that the settings suit is well formed. -/
theorem Party.Suits.spells (h : p.Suits q) {items : List Item}
    (hi : items.filterMap Item.frame? <+: p.accepted) :
    ∀ item ∈ items, Spells q.connection.config.streamConfig item
      (item.bytes p.connection.config.frame.protocol) := by
  intro item hmem
  refine @spells_bytes q.connection.config.streamConfig _ h.word h.signature_eq _ ?_
  rintro f rfl
  have hf : f ∈ p.accepted := hi.subset (List.mem_filterMap.2 ⟨_, hmem, rfl⟩)
  have hle := length_le_of_opening hi f hmem
  exact Nat.le_min.2 ⟨h.fits f hf, Nat.le_trans hle (Nat.min_le_right ..)⟩

namespace Flows

/-- A decoder takes whatever comes from a connection whose settings suit. -/
theorem clean (h : Flows p q) (hs : p.Suits q) (hl : q.connection.loop = some l) {d : Decoder}
    (hd : l.reader = some d) {got : Bytes} (hg : got <+: q.inbox) :
    (d.push got).drain.2.1 = none := by
  cases h.hands.handing l hl with
  | before hn | behind hn => cases hn.symm.trans hd
  | during hd' =>
    cases hd'.symm.trans hd
    rw [error_drain_push]
    obtain ⟨items, hi, hb⟩ := h.sends.sentFrom
    refine error_decodeAll_prefix (hs.spells hi) (List.IsPrefix.trans ?_ hb)
    rw [h.written_eq]
    exact (List.prefix_append_right_inj _).2 hg

/-- What a connection that is connected has handed on are the first of the items that it has read,
and between two rounds all of them. -/
theorem handed_prefix (h : Flows p q) (hl : q.connection.loop = some l)
    (he : l.Engaged phase q.connection.shared) :
    q.handed <+: (decodeAll q.connection.config.streamConfig q.read).items ∧
      (l.tasks = nextRound → q.HasHandedAll) := by
  cases h.hands.handing l hl with
  | before hn | behind hn =>
    have hr := he.reader
    rw [hn] at hr
    cases hr
  | during _ hi =>
    refine ⟨⟨_, hi.symm⟩, fun ht => ?_⟩
    rw [ht] at hi
    exact hi.trans (List.append_nil _)

/-- With nothing left to write, nothing in the channel and nothing to hand on, every frame has been
dispatched. -/
theorem dispatched_eq (h : Flows p q) (hs : p.Suits q) (hl : p.connection.loop = some l)
    (hw : l.writer.isSome = true) (hb : l.backlog p.connection.shared = 0) (hi : q.inbox = [])
    (hq : q.HasHandedAll) : q.dispatched = p.accepted := by
  obtain ⟨items, hitems, hwritten⟩ := (h.sends.sending l hl).eq_of_backlog
    (h.sends.inSession.underway l hl).registry_eq hw hb
  have hread : q.read = items.flatMap (·.bytes p.connection.config.frame.protocol) := by
    have heq := h.written_eq
    rw [hi, List.append_nil] at heq
    exact heq.symm.trans hwritten
  have hspells := hs.spells ⟨[], (List.append_nil _).trans hitems⟩
  rw [Party.dispatched, ← hq, hread, items_decodeAll_flatMap hspells]
  exact hitems

end Flows

end

/-! ## Both ways -/

/-- What comes of a move, seen from the side that makes it. -/
structure Link.Moves (t : Link) (m : Move) (t' : Link) : Prop where
  abides : m.abides t.there.room t.here.inbox = true
  next : t.here.connection.next m = some t'.here.connection
  here_eq : t'.here =
    { t.here with
      connection := t'.here.connection
      inbox := t.here.inbox.drop (t.here.connection.reads m).length
      queued := t.here.queued ++ t.here.connection.queues m
      written := t.here.written ++ t.here.connection.writes m
      read := t.here.read ++ t.here.connection.reads m
      handed := t.here.handed ++ t.here.connection.hands m }
  there_eq : t'.there = { t.there with inbox := t.there.inbox ++ t.here.connection.writes m }

/-- Two sessions go on, and everything is accounted for. -/
structure Link.Sound (t : Link) : Prop where
  out : Flows t.here t.there
  back : Flows t.there t.here
  here_runs : t.here.connection.Runs
  there_runs : t.there.connection.Runs

/-- Each connection that is connected exchanges frames. -/
structure Link.Engages (t : Link) : Prop where
  here : t.here.connection.isConnected = true → t.here.connection.Engaged
  there : t.there.connection.isConnected = true → t.there.connection.Engaged

namespace Link

section
variable {t t' : Link} {m : Move} {side : Side} {plays plays' : List (Side × Move)}

theorem seen_seen (t : Link) (side : Side) : (t.seen side).seen side = t := by cases side <;> rfl

/-- What is so the other way round too is so from either side. -/
theorem seen_of_swap {P : Link → Prop} (hs : ∀ t, P t → P t.swap) (h : P t) (side : Side) :
    P (t.seen side) := by
  cases side
  · exact h
  · exact hs t h

/-- What every move of a run keeps is so after the run. -/
theorem run_induction {P : Link → Prop} (hr : t.run plays = some t')
    (hnext : ∀ u u' side m, (side, m) ∈ plays → u.next side m = some u' → P u → P u') (h : P t) :
    P t' := by
  induction plays generalizing t with
  | nil =>
    cases hr
    exact h
  | cons play plays ih =>
    obtain ⟨u, hn, hrest⟩ := Option.bind_eq_some_iff.1 hr
    exact ih hrest (fun u u' side m hp => hnext u u' side m (.tail _ hp))
      (hnext t u _ _ (.head _) hn h)

theorem moves_of_nextHere (h : t.nextHere m = some t') : t.Moves m t' := by
  unfold nextHere at h
  dsimp only at h
  split at h
  · rename_i ha
    obtain ⟨c, hc, rfl⟩ := Option.map_eq_some_iff.1 h
    exact ⟨ha, hc, rfl, rfl⟩
  · cases h

/-- A move that the connection can make can be made here if its socket calls are those to the
channels. -/
theorem exists_nextHere {c : Connection} (ha : m.abides t.there.room t.here.inbox = true)
    (hc : t.here.connection.next m = some c) : ∃ t', t.nextHere m = some t' := by
  simp only [nextHere, ha, if_true, hc, Option.map_some]
  exact ⟨_, rfl⟩

/-- A move is seen as one that is made here from the side that makes it. -/
theorem moves_of_next (h : t.next side m = some t') : (t.seen side).Moves m (t'.seen side) := by
  obtain ⟨u, hu, rfl⟩ := Option.map_eq_some_iff.1 h
  rw [seen_seen]
  exact moves_of_nextHere hu

theorem run_append : t.run (plays ++ plays') = (t.run plays).bind (·.run plays') := by
  induction plays generalizing t with
  | nil => rfl
  | cons play plays ih =>
    rw [List.cons_append, run, run, Option.bind_assoc]
    exact congrArg _ (funext fun _ => ih)

namespace Moves

/-- What is read comes from the channel. -/
theorem reads_prefix (h : t.Moves m t')
    (ho : m.offered = t.here.connection.reads m ++ t.here.connection.leaves m) :
    t.here.connection.reads m <+: t.here.inbox := by
  cases m with
  | work calls =>
    have ha := h.abides
    rw [Move.abides, SocketCalls.abide, Bool.and_eq_true] at ha
    have hinbox : Move.offered (.work calls) = t.here.inbox := carried_of_delivers ha.2
    rw [← hinbox]
    exact ⟨_, ho.symm⟩
  | _ =>
    have hnil := (List.append_eq_nil_iff.1 ho.symm).1
    rw [hnil]
    exact List.nil_prefix

/-- No move changes the codecs or the settings, or takes back what has been accepted. -/
theorem settings (h : t.Moves m t') (hb : 1 ≤ t.here.connection.desired.stage) :
    t'.here.connection.registry = t.here.connection.registry ∧
      t'.here.connection.config = t.here.connection.config ∧
      t'.here.accepted = t.here.accepted ++
        (t.here.connection.queues m).filterMap
          (t.here.connection.registry.outgoing t.here.connection.config.frame) := by
  obtain ⟨-, hd, hc⟩ := Connection.next_eq_some h.next
  have hstride := Connection.move_stride hb (hc ▸ hd)
  rw [← hc] at hstride
  obtain ⟨hr, hconfig⟩ := hstride.settings_eq
  refine ⟨hr, hconfig, ?_⟩
  rw [Party.accepted, hr, hconfig, h.here_eq, List.filterMap_append]
  rfl

/-- No move changes how much the channels hold, or anything else about the other connection. -/
theorem others_eq (h : t.Moves m t') :
    t'.here.capacity = t.here.capacity ∧ t'.there.connection = t.there.connection ∧
      t'.there.capacity = t.there.capacity ∧ t'.there.accepted = t.there.accepted := by
  rw [h.here_eq, h.there_eq]
  exact ⟨rfl, rfl, rfl, rfl⟩

/-- What goes out stays accounted for. -/
theorem out (h : t.Moves m t') (hf : Flows t.here t.there) : Flows t'.here t'.there := by
  obtain ⟨hr, hconfig, -⟩ := h.settings hf.sends.inSession.begun
  obtain ⟨-, hd, hc⟩ := Connection.next_eq_some h.next
  have hsends := hf.sends.stride
    (Connection.move_stride hf.sends.inSession.begun (hc ▸ hd))
  rw [← hc, ← hr, ← hconfig] at hsends
  refine ⟨?_, ?_, ?_⟩
  · rw [h.here_eq]
    exact hsends
  · rw [h.there_eq]
    exact hf.hands
  · rw [h.here_eq, h.there_eq]
    dsimp only
    rw [hf.written_eq, List.append_assoc]

/-- So does what comes in. -/
theorem back (h : t.Moves m t') (hf : Flows t.there t.here) : Flows t'.there t'.here := by
  obtain ⟨hr, hconfig, -⟩ := h.settings hf.hands.inSession.begun
  obtain ⟨ho, hhands⟩ := hf.hands.next h.next
  rw [← hr, ← hconfig] at hhands
  refine ⟨?_, ?_, ?_⟩
  · rw [h.there_eq]
    exact hf.sends
  · rw [h.here_eq]
    exact hhands
  · obtain ⟨rest, hinbox⟩ := h.reads_prefix ho
    rw [h.here_eq, h.there_eq]
    dsimp only
    rw [hf.written_eq, ← hinbox, List.drop_left, List.append_assoc]

/-- Two sessions go on. -/
theorem sound (h : t.Moves m t') (hs : t.Sound) : t'.Sound where
  out := h.out hs.out
  back := h.back hs.back
  here_runs := hs.here_runs.next h.next
  there_runs := by
    rw [h.there_eq]
    exact hs.there_runs

/-- Settings that suit after a move have suited before. -/
theorem suits (h : t.Moves m t') (hs : t.Sound) (hm : t'.Matches) : t.Matches := by
  obtain ⟨-, hconfig, haccepted⟩ := h.settings hs.out.sends.inSession.begun
  obtain ⟨hcapacity, hother, hroom, hsame⟩ := h.others_eq
  refine ⟨hm.out.congr hconfig.symm (congrArg _ hother.symm) hroom.symm fun f hf => ?_,
    hm.back.congr (congrArg _ hother.symm) hconfig.symm hcapacity.symm fun f hf => hsame ▸ hf⟩
  rw [haccepted]
  exact List.mem_append_left _ hf

/-- They do so after a move by which no message is queued. -/
theorem suits_of_queues (h : t.Moves m t') (hs : t.Sound) (hq : t.here.connection.queues m = [])
    (hm : t.Matches) : t'.Matches := by
  obtain ⟨-, hconfig, haccepted⟩ := h.settings hs.out.sends.inSession.begun
  obtain ⟨hcapacity, hother, hroom, hsame⟩ := h.others_eq
  rw [hq, List.filterMap_nil, List.append_nil] at haccepted
  exact ⟨hm.out.congr hconfig (congrArg _ hother) hroom fun f hf => haccepted ▸ hf,
    hm.back.congr (congrArg _ hother) hconfig hcapacity fun f hf => hsame ▸ hf⟩

/-- A connection that is connected exchanges frames after a move. -/
theorem engages (h : t.Moves m t') (hs : t.Sound) (hm : t.Matches) (he : t.Engages) :
    t'.Engages where
  here := Connection.engaged_next hs.here_runs hs.out.sends.inSession he.here h.abides
    (fun _ hl _ hd _ hg => hs.back.clean hm.back hl hd hg) h.next
  there := by
    rw [h.there_eq]
    exact he.there

end Moves

theorem Sound.swap (h : t.Sound) : t.swap.Sound := ⟨h.back, h.out, h.there_runs, h.here_runs⟩

theorem Matches.swap (h : t.Matches) : t.swap.Matches := ⟨h.back, h.out⟩

theorem Engages.swap (h : t.Engages) : t.swap.Engages := ⟨h.there, h.here⟩

theorem Sound.seen (h : t.Sound) (side : Side) : (t.seen side).Sound :=
  seen_of_swap (P := Sound) (fun _ h => h.swap) h side

theorem Matches.seen (h : t.Matches) (side : Side) : (t.seen side).Matches :=
  seen_of_swap (P := Matches) (fun _ h => h.swap) h side

theorem Engages.seen (h : t.Engages) (side : Side) : (t.seen side).Engages :=
  seen_of_swap (P := Engages) (fun _ h => h.swap) h side

/-- Two sessions go on, whoever makes a move. -/
theorem Sound.next (h : t.Sound) (hn : t.next side m = some t') : t'.Sound := by
  have hseen := ((moves_of_next hn).sound (h.seen side)).seen side
  rwa [seen_seen] at hseen

/-- Settings that suit after a move have suited before. -/
theorem Matches.of_next (h : t.Sound) (hn : t.next side m = some t') (hm : t'.Matches) :
    t.Matches := by
  have hseen := ((moves_of_next hn).suits (h.seen side) (hm.seen side)).seen side
  rwa [seen_seen] at hseen

/-- A connection that is connected exchanges frames. -/
theorem Engages.next (h : t.Engages) (hs : t.Sound) (hm : t.Matches)
    (hn : t.next side m = some t') : t'.Engages := by
  have hseen := ((moves_of_next hn).engages (hs.seen side) (hm.seen side) (h.seen side)).seen side
  rwa [seen_seen] at hseen

/-- Two sessions go on in a run. -/
theorem Sound.run (h : t.Sound) (hr : t.run plays = some t') : t'.Sound :=
  run_induction hr (fun _ _ _ _ _ hn h => h.next hn) h

/-- Settings that suit after a run have suited before. -/
theorem Matches.of_run (h : t.Sound) (hr : t.run plays = some t') (hm : t'.Matches) :
    t.Matches := by
  induction plays generalizing t with
  | nil =>
    cases hr
    exact hm
  | cons play plays ih =>
    obtain ⟨u, hn, hr⟩ := Option.bind_eq_some_iff.1 hr
    exact .of_next h hn (ih (h.next hn) hr)

/-- Each connection that is connected exchanges frames after a run, if the settings suit then. -/
theorem Engages.run (h : t.Engages) (hs : t.Sound) (hr : t.run plays = some t')
    (hm : t'.Matches) : t'.Engages := by
  induction plays generalizing t with
  | nil =>
    cases hr
    exact h
  | cons play plays ih =>
    have hmt : t.Matches := .of_run hs hr hm
    obtain ⟨u, hn, hr⟩ := Option.bind_eq_some_iff.1 hr
    exact ih (h.next hs hmt hn) (hs.next hn) hr

/-- Everything is accounted for at first. -/
theorem sound_start {a b a₀ b₀ : Connection} (ha : a₀.Starts a) (hb : b₀.Starts b)
    (toHere toThere : Nat) : (start a b toHere toThere).Sound where
  out := ⟨.of_starts ha, .of_starts hb, rfl⟩
  back := ⟨.of_starts hb, .of_starts ha, rfl⟩
  here_runs := Connection.runs_of_starts ha
  there_runs := Connection.runs_of_starts hb

end

end Link

end PeerMessaging
