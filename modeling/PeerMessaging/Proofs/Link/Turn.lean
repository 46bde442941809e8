import PeerMessaging.Link.Loop
import PeerMessaging.Proofs.Wire.Accounting

/-!
# What a step of the loop may be

A step of the loop carries out one task. `Turn` says once and for all what that can come to, as far
as the bytes and the messages are concerned that pass through the loop, and `Loop.step_turn` that it
can come to nothing else. Which messages go out as which frames is `Registry.outgoing`, and which
frames come in as which messages `Registry.incoming`.
-/

namespace PeerMessaging

/-! ## Messages and frames -/

/-- The frame that a message is sent as. There is none if it cannot be encoded or is too long. -/
def Registry.outgoing (r : Registry) (config : FrameConfig) (m : Message) : Option Frame :=
  (r.encode m).toOption.filter (·.payload.length ≤ config.longest)

/-- Why a frame is refused: it is too long. -/
def FrameConfig.refusal (config : FrameConfig) (f : Frame) : Option FrameError :=
  if f.payload.length > config.maxPayload then
    some (.payloadTooLarge f.payload.length config.maxPayload)
  else if f.payload.length > maxWireLength then
    some (.payloadTooLarge f.payload.length maxWireLength)
  else none

/-- The error that a message is reported with when it cannot be sent. -/
def Registry.refusal (r : Registry) (config : FrameConfig) (m : Message) :
    Option ConnectionError :=
  match r.encode m with
  | .error e => some (.ofRegistry e)
  | .ok f => (config.refusal f).map fun e => ⟨.invalidMessage, e.message, false, none⟩

/-- A frame is queued for writing unless it is refused. -/
theorem Encoder.enqueue_eq_error_iff {w : Encoder} {f : Frame} {e : FrameError} :
    (w.enqueue f).1 = .error e ↔ w.config.refusal f = some e := by
  unfold enqueue FrameConfig.refusal appendFrame
  split
  · simp
  · dsimp only
    split <;> simp

/-- The messages that are refused are those that there is no frame for. -/
theorem Registry.refusal_eq_none_iff {r : Registry} {config : FrameConfig} {m : Message} :
    r.refusal config m = none ↔ (r.outgoing config m).isSome = true := by
  unfold refusal outgoing
  cases r.encode m with
  | error e => simp [Except.toOption]
  | ok f =>
    have hlongest : f.payload.length ≤ config.longest ↔
        ¬ f.payload.length > config.maxPayload ∧ ¬ f.payload.length > maxWireLength := by
      rw [FrameConfig.longest]
      omega
    have hrefusal : config.refusal f = none ↔ f.payload.length ≤ config.longest := by
      rw [hlongest, FrameConfig.refusal]
      split
      · simp [*]
      · split <;> simp [*]
    simp [Except.toOption, Option.filter, hrefusal]

/-- The message that a frame is taken for. There is none if it cannot be decoded. -/
def Registry.incoming (r : Registry) (f : Frame) : Option Message := (r.decode f).toOption

/-- The data frame that an item is. -/
def Item.frame? : Item → Option Frame
  | frame f => some f
  | keepalive => none

/-! ## Tasks -/

namespace Task

/-- The messages that a task holds. -/
def messages : Task → List Message
  | encode rest => rest
  | _ => []

/-- The items that a task holds. -/
def items : Task → List Item
  | dispatch rest => rest
  | _ => []

/-- The task only tells listeners of something. -/
def tells : Task → Bool
  | notify .. | report _ => true
  | _ => false

/-- The task is part of the exchange of frames. -/
def exchanges : Task → Bool
  | collect | encode _ | write .. | receive | dispatch _ | keepalive => true
  | _ => false

/-- The task reads from the stream. -/
def reads : Task → Bool
  | receive => true
  | _ => false

/-- The task holds nothing and does not lead back to the beginning. -/
def isPlain : Task → Bool
  | encode _ | dispatch _ | advance .initial => false
  | _ => true

end Task

/-- The next step of the loop reads from a stream. -/
def Loop.isReading (l : Loop) : Bool :=
  match l.tasks, l.reader with
  | .receive :: _, some _ => true
  | _, _ => false

/-- The reads that a step leaves for later. -/
def Loop.unread (calls : SocketCalls) (l : Loop) (st : Step) : List ReadOutcome :=
  if l.isReading then st.unread else calls.reads

/-- A step that does not read leaves every read for later. -/
theorem Loop.unread_of_not_reading {calls : SocketCalls} {l : Loop} {st : Step}
    (h : l.isReading = false) : l.unread calls st = calls.reads := by
  rw [unread, h]
  rfl

/-- Only one of the tasks reads. -/
theorem Loop.isReading_of_tasks {l : Loop} {task : Task} {rest : List Task}
    (ht : l.tasks = task :: rest) (hn : task.reads = false) : l.isReading = false := by
  unfold isReading
  split
  · rename_i h _
    rw [ht] at h
    cases h
    cases hn
  · rfl

/-! ## Turns -/

/-- What a step of the loop may be. -/
inductive Turn (calls : SocketCalls) (s : Shared) (l : Loop) : Step → Prop
  /-- The loop has ended. -/
  | idle (ht : l.tasks = []) : Turn calls s l { shared := s, loop := l }
  /-- Listeners are told of something. -/
  | tell {task : Task} {rest : List Task} {lastError : Option ConnectionError}
      {raised : Option Event} {told : Option (Listener × Event)} (plan : List Task)
      (ht : l.tasks = task :: rest) (hn : task.tells = true) (hp : ∀ t ∈ plan, t.tells = true) :
      Turn calls s l
        { shared := { s with lastError }, loop := { l with tasks := plan ++ rest }, raised, told }
  /-- The pending state becomes the current one. -/
  | announce {rest : List Task} {raised : Option Event} (plan : List Task)
      (ht : l.tasks = .announce :: rest) (hp : ∀ t ∈ plan, t.tells = true) :
      Turn calls s l
        { shared := { s with lifecycle := s.lifecycle.apply.2 }
          loop := { l with tasks := plan ++ rest }
          raised }
  /-- A transition is asked for. -/
  | advance {next : ConnectionState} {rest : List Task} (ht : l.tasks = .advance next :: rest) :
      Turn calls s l
        { shared := { s with lifecycle := s.lifecycle.tryRequest next }
          loop := { l with tasks := rest } }
  /-- There is nothing to exchange. -/
  | skip {task : Task} {rest : List Task} (plan : List Task) (ht : l.tasks = task :: rest)
      (hr : l.isReading = false) (he : task.exchanges = true) (hm : task.messages = [])
      (hi : task.items = []) (hp : ∀ t ∈ plan, t.isPlain = true) :
      Turn calls s l { shared := s, loop := { l with tasks := plan ++ rest } }
  /-- A new round is planned. -/
  | plan {rest : List Task} {listener address : Option SocketAddress} (plan : List Task)
      (ht : l.tasks = .act :: rest) (hp : ∀ t ∈ plan, t.isPlain = true) :
      Turn calls s l
        { shared := { s with localAddress := address }
          loop := { l with listener, tasks := plan ++ nextRound } }
  /-- A new stream is taken over. -/
  | attach {rest : List Task} {listener address : Option SocketAddress} {time : Moment}
      (ht : l.tasks = .act :: rest)
      (hc : s.lifecycle.current = .connecting ∨ s.lifecycle.current = .listening) :
      Turn calls s l
        { shared := { s with localAddress := address }
          loop :=
            { l with
              listener
              reader := some (.new l.config.streamConfig)
              writer := some (.new l.config.streamConfig)
              lastKeepalive := time
              tasks := .advance .connected :: nextRound } }
  /-- The loop ends. -/
  | finish {rest : List Task} (ht : l.tasks = .act :: rest) :
      Turn calls s l
        { shared := { s with outbound := .empty }, loop := { l.release with tasks := [] } }
  /-- The messages to be sent are taken. -/
  | collect {rest : List Task} {w : Encoder} (ht : l.tasks = .collect :: rest)
      (hw : l.writer = some w) :
      Turn calls s l
        { shared := { s with outbound := .empty }
          loop := { l with tasks := .encode s.outbound.messages :: rest } }
  /-- A message is encoded, if it can be. -/
  | encode {m : Message} {ms : List Message} {rest : List Task} {w w' : Encoder} (plan : List Task)
      (ht : l.tasks = .encode (m :: ms) :: rest) (hw : l.writer = some w)
      (hc : w'.config = w.config)
      (hb : w'.pending = w.pending ++
        ((l.registry.outgoing w.config m).map Item.frame).toList.flatMap
          (·.bytes w.config.protocol))
      (hp : ∀ t ∈ plan, t.tells = true) :
      Turn calls s l
        { shared := s
          loop := { l with writer := some w', tasks := plan ++ .encode ms :: rest } }
  /-- A message is dropped for want of a stream. -/
  | drop {m : Message} {ms : List Message} {rest : List Task}
      (ht : l.tasks = .encode (m :: ms) :: rest) (hw : l.writer = none) :
      Turn calls s l { shared := s, loop := { l with tasks := .encode ms :: rest } }
  /-- The stream takes bytes, which may be those of a keepalive. -/
  | flush {task : Task} {rest : List Task} {w w' : Encoder} {time : Moment} {sent : Bytes}
      (plan : List Task) (beats : List Item) (ht : l.tasks = task :: rest)
      (hr : l.isReading = false) (he : task.exchanges = true) (hm : task.messages = [])
      (hi : task.items = []) (hw : l.writer = some w) (hc : w'.config = w.config)
      (hk : beats.filterMap Item.frame? = [])
      (hb : sent ++ w'.pending = w.pending ++ beats.flatMap (·.bytes w.config.protocol))
      (hp : ∀ t ∈ plan, t.isPlain = true) :
      Turn calls s l
        { shared := s
          loop := { l with writer := some w', lastKeepalive := time, tasks := plan ++ rest }
          sent }
  /-- Bytes are read, and taken for what they are. -/
  | receive {rest : List Task} {d : Decoder} {got : Bytes} {unread : List ReadOutcome}
      (plan : List Task) (ht : l.tasks = .receive :: rest) (hr : l.reader = some d)
      (hg : carried calls.reads = got ++ carried unread) (hp : ∀ t ∈ plan, t.isPlain = true) :
      Turn calls s l
        { shared := s
          loop :=
            { l with
              reader := some (d.push got).drain.2.2
              tasks := .dispatch (d.push got).drain.1 :: (plan ++ rest) }
          unread }
  /-- An item is handed on, if it is a message. -/
  | dispatch {item : Item} {items : List Item} {rest : List Task} {inbound : MessageQueue}
      {raised : Option Event} (plan : List Task) (ht : l.tasks = .dispatch (item :: items) :: rest)
      (hq : inbound.messages =
        s.inbound.messages ++ (item.frame?.bind l.registry.incoming).toList)
      (hp : ∀ t ∈ plan, t.tells = true) :
      Turn calls s l
        { shared := { s with inbound }
          loop := { l with tasks := plan ++ .dispatch items :: rest }
          raised }
  /-- The sockets are let go. -/
  | release {rest : List Task} (ht : l.tasks = .release :: rest) :
      Turn calls s l { shared := s, loop := { l.release with tasks := rest } }

namespace Loop

section
variable {calls : SocketCalls} {s : Shared} {l : Loop} {rest : List Task}

/-- What is planned after a fatal error holds nothing. -/
theorem isPlain_of_mem_failing {error : ConnectionError} {next : ConnectionState}
    (hn : next ≠ .initial) : ∀ t ∈ failing error next, t.isPlain = true := by
  cases next <;> simp_all [failing, Task.isPlain]

/-- A failed read does not lead back to the beginning. -/
theorem stateAfter_ne_initial (e : FrameError) : stateAfter e ≠ .initial := by
  unfold stateAfter
  split <;> nofun

/-- A stream that cannot be set up is a fatal error; any other is taken over. -/
theorem attach_turn (ht : l.tasks = .act :: rest)
    (hc : s.lifecycle.current = .connecting ∨ s.lifecycle.current = .listening)
    (kind : ErrorKind) (listener : Option SocketAddress) :
    Turn calls s l (attach kind calls s { l with listener, tasks := nextRound }) := by
  unfold attach
  dsimp only
  split
  · exact .attach ht hc
  · exact .plan (failing _ .error) ht (isPlain_of_mem_failing nofun)

/-- What the current state asks for is the plan of a round, a stream or the end. -/
theorem act_turn (ht : l.tasks = .act :: rest) :
    Turn calls s l (act calls s { l with tasks := rest }) := by
  have planned (plan : List Task) (hp : ∀ t ∈ plan, t.isPlain = true)
      (listener address : Option SocketAddress) :
      Turn calls s l
        { shared := { s with localAddress := address }
          loop := { l with listener, tasks := plan ++ nextRound } } := .plan plan ht hp
  unfold act
  dsimp only
  split
  · exact planned [] nofun _ _
  · rename_i hc
    split
    · exact attach_turn ht (.inl hc) _ _
    · exact planned (failing _ .error) (isPlain_of_mem_failing nofun) _ _
  · split
    · exact planned [.advance .listening] (by decide) _ _
    · exact planned (failing _ .error) (isPlain_of_mem_failing nofun) _ _
  · rename_i hc
    split
    · exact planned (failing _ .error) (isPlain_of_mem_failing nofun) _ _
    · split
      · exact planned [] nofun _ _
      · exact attach_turn ht (.inr hc) _ _
      · exact planned (failing _ .error) (isPlain_of_mem_failing nofun) _ _
  · exact planned [.collect, .write .exchange _] (by simp [Task.isPlain]) _ _
  · exact planned [.collect, .write .closing _, .release, .advance .closed]
      (by simp [Task.isPlain]) _ _
  · exact .finish ht
  · exact .finish ht

/-- A message that is queued for writing is queued as the frame it is sent as. -/
theorem encode_turn {m : Message} {ms : List Message} {w : Encoder}
    (ht : l.tasks = .encode (m :: ms) :: rest) (hw : l.writer = some w) :
    Turn calls s l
      { shared := s, loop := ({ l with tasks := .encode ms :: rest } : Loop).encode m w } := by
  unfold encode
  dsimp only
  -- Whatever a message is reported for, nothing is queued.
  have refused (e : ConnectionError) (hn : l.registry.outgoing w.config m = none) :
      Turn calls s l
        { shared := s
          loop := { l with writer := some w, tasks := [.report e] ++ .encode ms :: rest } } :=
    .encode [.report e] ht hw rfl (by rw [hn]; exact (List.append_nil _).symm)
      (by simp [Task.tells])
  split
  · rename_i e hf
    have h := refused (.ofRegistry e) (by rw [Registry.outgoing, hf]; rfl)
    rwa [← hw] at h
  · rename_i f hf
    rcases Nat.lt_or_ge w.config.longest f.payload.length with hl | hl
    · obtain ⟨e, he⟩ := w.enqueue_of_gt hl
      rw [he]
      refine refused _ ?_
      rw [Registry.outgoing, hf]
      exact Option.filter_eq_none_iff.2 fun g hg => by cases hg; simpa using hl
    · rw [w.enqueue_of_le hl]
      refine .encode [] ht hw rfl ?_ nofun
      have ho : l.registry.outgoing w.config m = some f := by
        rw [Registry.outgoing, hf]
        exact Option.filter_eq_some_iff.2 ⟨rfl, by simpa using hl⟩
      rw [ho]
      exact congrArg _ (List.append_nil _).symm

/-- What is written comes off the front of what was queued. -/
theorem write_turn {purpose : WritePurpose} {deadline : Moment}
    (ht : l.tasks = .write purpose deadline :: rest) :
    Turn calls s l (write purpose deadline calls s { l with tasks := rest }) := by
  unfold write
  dsimp only
  split
  · rename_i hw
    split
    · exact .skip [.receive, .keepalive] ht (isReading_of_tasks ht rfl) rfl rfl rfl (by decide)
    · exact .skip [] ht (isReading_of_tasks ht rfl) rfl rfl rfl nofun
  · rename_i w hw
    have hr := isReading_of_tasks ht rfl
    have hl := FrameWriter.queued_flushPending (some deadline)
      ⟨w, { writes := calls.writes, flushes := calls.flushes, now := calls.now }⟩
    generalize FrameWriter.flushPending _ _ = r at hl ⊢
    obtain ⟨result, w'⟩ := r
    dsimp only at hl ⊢
    have flushed (plan : List Task) (hp : ∀ t ∈ plan, t.isPlain = true) :
        Turn calls s l
          { shared := s
            loop := { l with writer := some w'.encoder, tasks := plan ++ rest }
            sent := w'.output.accepted } :=
      .flush plan [] ht hr rfl rfl rfl hw hl.2 rfl (hl.1.trans (List.append_nil _).symm) hp
    split
    · exact flushed [] nofun
    · exact flushed [.receive, .keepalive] (by decide)
    · exact flushed (failing _ .closing) (isPlain_of_mem_failing nofun)

/-- A keepalive is queued behind everything else, and written as anything else is. -/
theorem keepalive_turn (ht : l.tasks = .keepalive :: rest) :
    Turn calls s l (keepalive calls s { l with tasks := rest }) := by
  have hr := isReading_of_tasks ht rfl
  unfold keepalive
  dsimp only
  split
  · exact .skip [] ht hr rfl rfl rfl nofun
  rename_i w hw
  split
  · exact .skip [] ht hr rfl rfl rfl nofun
  have hl := FrameWriter.queued_flushPending (some (calls.now + l.config.writeTimeout))
    ⟨w.enqueueKeepalive, { writes := calls.writes, flushes := calls.flushes, now := calls.now }⟩
  generalize FrameWriter.flushPending _ _ = r at hl ⊢
  obtain ⟨result, w'⟩ := r
  dsimp only at hl ⊢
  have flushed (time : Moment) (plan : List Task) (hp : ∀ t ∈ plan, t.isPlain = true) :
      Turn calls s l
        { shared := s
          loop :=
            { l with writer := some w'.encoder, lastKeepalive := time, tasks := plan ++ rest }
          sent := w'.output.accepted } :=
    .flush plan [.keepalive] ht hr rfl rfl rfl hw hl.2 rfl hl.1 hp
  split
  · exact flushed _ [] nofun
  · exact flushed _ (failing _ .closing) (isPlain_of_mem_failing nofun)

/-- What is read is what the decoder makes of the bytes that the reads bring. -/
theorem receive_turn (ht : l.tasks = .receive :: rest) :
    Turn calls s l (receive calls s { l with tasks := rest }) := by
  unfold receive
  dsimp only
  split
  · rename_i hn
    have hr : l.isReading = false := by simp only [isReading, ht, hn]
    exact .skip [] ht hr rfl rfl rfl nofun
  rename_i d hr
  generalize (if l.writer.any Encoder.hasPending then receiveBurst else 1) = reads
  obtain ⟨got, hg, hitems, hlast⟩ := FrameReader.burst_eq_drain ⟨d, ⟨calls.reads, 0⟩⟩ reads
  generalize FrameReader.burst _ _ = b at hg hitems hlast ⊢
  obtain ⟨items, failure, r⟩ := b
  dsimp only at hg hitems hlast ⊢
  subst hitems
  rw [← hlast]
  cases failure with
  | none => exact .receive [] ht hr hg nofun
  | some e =>
    exact .receive (failing _ (stateAfter e)) ht hr hg
      (isPlain_of_mem_failing (stateAfter_ne_initial e))

/-- An item is handed on as the message it is taken for. -/
theorem dispatch_turn {item : Item} {items : List Item}
    (ht : l.tasks = .dispatch (item :: items) :: rest) :
    Turn calls s l (dispatch item s { l with tasks := .dispatch items :: rest }) := by
  have ignored (plan : List Task) (hp : ∀ t ∈ plan, t.tells = true)
      (hn : item.frame?.bind l.registry.incoming = none) :
      Turn calls s l { shared := s, loop := { l with tasks := plan ++ .dispatch items :: rest } } :=
    .dispatch plan ht (by rw [hn]; exact (List.append_nil _).symm) hp
  unfold dispatch
  split
  · exact ignored [] nofun rfl
  · rename_i f
    dsimp only
    split
    · rename_i m hm
      refine .dispatch [.notify .message s.listeners.registered] ht ?_ (by simp [Task.tells])
      have hi : l.registry.incoming f = some m := by
        rw [Registry.incoming, hm]
        rfl
      simp only [MessageQueue.messages_push, Item.frame?, Option.bind_some, hi, Option.toList_some]
    · rename_i e he
      refine ignored [.report _] (by simp [Task.tells]) ?_
      simp only [Item.frame?, Option.bind_some, Registry.incoming, he]
      rfl

/-- A step of the loop is one of the turns. -/
theorem step_turn (calls : SocketCalls) (s : Shared) (l : Loop) :
    Turn calls s l (l.step calls s) := by
  unfold step
  split
  · rename_i ht
    exact .idle ht
  rename_i task rest ht
  cases task with
  | announce =>
    dsimp only
    split
    · rename_i state lifecycle ha
      have hl : s.lifecycle.apply.2 = lifecycle := by rw [ha]
      subst hl
      exact .announce [.notify (.state state) s.listeners.registered] ht (by simp [Task.tells])
    · rename_i lifecycle ha
      have hl : s.lifecycle.apply.2 = s.lifecycle := by
        unfold Lifecycle.apply at ha ⊢
        split at ha
        · rw [if_pos ‹_›]
        · cases ha
      have h : Turn calls s l
          { shared := { s with lifecycle := s.lifecycle.apply.2 }
            loop := { l with tasks := rest } } :=
        .announce [] ht nofun
      rwa [hl] at h
  | act => exact act_turn ht
  | notify event listeners =>
    cases listeners with
    | nil => exact .tell [] ht rfl nofun
    | cons listener listeners =>
      exact .tell [.notify event listeners] ht rfl (by simp [Task.tells])
  | report error =>
    exact .tell [.notify (.error error) s.listeners.registered] ht rfl (by simp [Task.tells])
  | advance next => exact .advance ht
  | collect =>
    dsimp only
    split
    · rename_i hw
      obtain ⟨w, hw⟩ := Option.isSome_iff_exists.1 hw
      exact .collect ht hw
    · exact .skip [] ht (isReading_of_tasks ht rfl) rfl rfl rfl nofun
  | encode messages =>
    cases messages with
    | nil => exact .skip [] ht (isReading_of_tasks ht rfl) rfl rfl rfl nofun
    | cons m ms =>
      let kept : Loop := { l with tasks := .encode ms :: rest }
      change Turn calls s l { shared := s, loop := l.writer.elim kept (kept.encode m) }
      rcases l.writer.eq_none_or_eq_some with hw | ⟨w, hw⟩
      · have hk : l.writer.elim kept (kept.encode m) = kept :=
          congrArg (Option.elim · kept (kept.encode m)) hw
        rw [hk]
        exact .drop ht hw
      · have hk : l.writer.elim kept (kept.encode m) = kept.encode m w :=
          congrArg (Option.elim · kept (kept.encode m)) hw
        rw [hk]
        exact encode_turn ht hw
  | write purpose deadline => exact write_turn ht
  | receive => exact receive_turn ht
  | dispatch items =>
    cases items with
    | nil => exact .skip [] ht (isReading_of_tasks ht rfl) rfl rfl rfl nofun
    | cons item items => exact dispatch_turn ht
  | keepalive => exact keepalive_turn ht
  | release => exact .release ht

end

end Loop

end PeerMessaging
