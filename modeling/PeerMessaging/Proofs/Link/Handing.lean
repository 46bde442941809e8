import PeerMessaging.Proofs.Link.Verdict

/-!
# What a connection hands on

A loop hands on the items that it has read one by one (`Loop.hands`), whether they can be understood
or not. While there is a stream, the items handed on and those still held are together all that the
bytes read are decoded to, in order (`Handing`). A step moves bytes and items from one place to the
next (`Handing.turn`).
-/

namespace PeerMessaging

/-- The item that the next step of the loop hands on, if there is one. -/
def Loop.hands (l : Loop) : List Item :=
  match l.tasks with
  | .dispatch (item :: _) :: _ => [item]
  | _ => []

namespace Connection

/-- The items that a move hands on. -/
def hands (c : Connection) : Move → List Item
  | .work _ => c.loop.elim [] Loop.hands
  | _ => []

/-- The bytes that are read in a move. -/
def reads (c : Connection) (m : Move) : Bytes :=
  m.offered.take (m.offered.length - (c.leaves m).length)

/-- The bytes that a stream has for a move are those that are read and those that are left. -/
theorem reads_eq {c : Connection} {m : Move} {got : Bytes} (h : m.offered = got ++ c.leaves m) :
    c.reads m = got := by
  rw [reads, h, List.length_append, Nat.add_sub_cancel, List.take_left]

end Connection

section
variable {registry : Registry} {config : ConnectionConfig} {calls : SocketCalls} {s s' : Shared}
  {l : Loop} {st : Step} {task : Task} {rest : List Task} {arrived : Bytes} {handed : List Item}

/-! ## The ledger of the items -/

/-- Only a task that holds items hands one on. -/
theorem Loop.hands_of_items (ht : l.tasks = task :: rest) (hi : task.items = []) :
    l.hands = [] := by
  unfold hands
  split
  · rename_i h
    rw [ht] at h
    cases h
    cases hi
  · rfl

/-- What is handed on has been held. -/
theorem Loop.hands_prefix (l : Loop) : l.hands <+: heldItems l.tasks := by
  unfold hands
  split
  · rename_i item items rest h
    rw [h]
    exact ⟨items ++ heldItems rest, rfl⟩
  · exact List.nil_prefix

/-- A step that does not read hands on the first of the items held, or none. -/
theorem Turn.hands_append (ho : Orderly l.tasks) (t : Turn calls s l st)
    (hr : l.isReading = false) : l.hands ++ heldItems st.loop.tasks = heldItems l.tasks := by
  -- Behind a task that does more than tell nothing is held.
  have empty {task : Task} {rest : List Task} (ht : l.tasks = task :: rest)
      (hn : task.tells = false) (hi : task.items = []) : heldItems l.tasks = [] := by
    rw [ht] at ho ⊢
    rw [heldItems, List.flatMap_cons, hi]
    exact (held_of_isPlain (ho.rest_isPlain hn)).2
  cases t with
  | idle ht =>
    have hh : l.hands = [] := by rw [Loop.hands, ht]
    rw [hh, List.nil_append]
  | tell plan ht hn hp =>
    have hi := (Task.held_of_tells hn).2
    rw [Loop.hands_of_items ht hi]
    exact heldItems_plan ht (isPlain_of_tells hp) hi
  | announce plan ht hp =>
    rw [Loop.hands_of_items ht rfl]
    exact heldItems_plan ht (isPlain_of_tells hp) rfl
  | advance ht | collect ht | drop ht =>
    rw [Loop.hands_of_items ht rfl, ht]
    rfl
  | skip plan ht _ _ _ hi hp | flush plan _ ht _ _ _ hi _ _ _ _ hp =>
    rw [Loop.hands_of_items ht hi]
    exact heldItems_plan ht hp hi
  | plan plan ht hp =>
    rw [Loop.hands_of_items ht rfl, empty ht rfl rfl, List.nil_append, heldItems_append,
      (held_of_isPlain hp).2]
    rfl
  | attach ht | finish ht =>
    rw [Loop.hands_of_items ht rfl, empty ht rfl rfl]
    rfl
  | encode plan ht _ _ _ hp =>
    rw [Loop.hands_of_items ht rfl, ht, List.nil_append, heldItems_append,
      (held_of_isPlain (isPlain_of_tells hp)).2]
    rfl
  | receive plan ht hd =>
    simp only [Loop.isReading, ht, hd] at hr
    cases hr
  | dispatch plan ht _ hp =>
    rw [Loop.hands, ht, heldItems_append, (held_of_isPlain (isPlain_of_tells hp)).2]
    rfl
  | release ht =>
    rw [Loop.hands_of_items ht rfl, empty ht rfl rfl, List.nil_append]
    rw [ht] at ho
    exact (held_of_isPlain (ho.rest_isPlain rfl)).2

/-- Where the bytes that have arrived and the items they are decoded to are. -/
inductive Handing (config : FrameConfig) (arrived : Bytes) (handed : List Item) (s : Shared)
    (l : Loop) : Prop
  /-- There is no stream yet. -/
  | before (hd : l.reader = none) (hi : heldItems l.tasks = []) (ha : arrived = [])
      (hh : handed = [])
  /-- There is a stream: the bytes have gone into the decoder, and an item has been handed on or is
  held. -/
  | during (hd : l.reader = some ((Decoder.new config).push arrived).drain.2.2)
      (hi : (decodeAll config arrived).items = handed ++ heldItems l.tasks) (hl : Settled s l)
  /-- There is no stream any more. -/
  | behind (hd : l.reader = none) (hi : heldItems l.tasks = []) (hl : Settled s l)

namespace Handing

/-- What callers do to the connection leaves what is held. -/
theorem of_shared {config : FrameConfig} (h : Handing config arrived handed s l)
    (hs : Settled s l → Settled s' l) : Handing config arrived handed s' l := by
  cases h with
  | before hd hi ha hh => exact .before hd hi ha hh
  | during hd hi hl => exact .during hd hi (hs hl)
  | behind hd hi hl => exact .behind hd hi (hs hl)

/-- A step moves bytes and items from one place to the next. -/
theorem turn (hu : Underway registry config s l)
    (h : Handing config.streamConfig arrived handed s l) (t : Turn calls s l st) :
    ∃ got, carried calls.reads = got ++ carried (l.unread calls st) ∧
      Handing config.streamConfig (arrived ++ got) (handed ++ l.hands) st.shared st.loop := by
  have settled (hl : Settled s l) := hl.turn hu.orderly t
  have kept (hr : l.isReading = false) := t.hands_append hu.orderly hr
  have unread (hr : l.isReading = false)
      (h' : Handing config.streamConfig arrived (handed ++ l.hands) st.shared st.loop) :
      ∃ got, carried calls.reads = got ++ carried (l.unread calls st) ∧
        Handing config.streamConfig (arrived ++ got) (handed ++ l.hands) st.shared st.loop := by
    refine ⟨[], ?_, ?_⟩
    · rw [Loop.unread_of_not_reading hr, List.nil_append]
    · rwa [List.append_nil]
  have idle (hi : heldItems l.tasks = []) : l.hands = [] :=
    List.prefix_nil.1 (hi ▸ l.hands_prefix)
  cases t.inflow hu.orderly with
  | keep hr hd' | pass _ hr hd' =>
    have hkept := kept hr
    refine unread hr ?_
    cases h with
    | before hd hi ha hh =>
      rw [hi] at hkept
      refine .before (hd'.trans hd) (List.append_eq_nil_iff.1 hkept).2 ha ?_
      rw [hh, idle hi, List.append_nil]
    | during hd hi hl =>
      refine .during (hd'.trans hd) ?_ (settled hl)
      rw [hi, List.append_assoc, hkept]
    | behind hd hi hl =>
      rw [hi] at hkept
      exact .behind (hd'.trans hd) (List.append_eq_nil_iff.1 hkept).2 (settled hl)
  | take got hr hreader hheld hd' hi' hg =>
    refine ⟨got, ?_, ?_⟩
    · rw [Loop.unread, hr]
      exact hg
    rw [idle hheld, List.append_nil]
    cases h with
    | before hd | behind hd => cases hd.symm.trans hreader
    | during hd hi hl =>
      cases hd.symm.trans hreader
      have hdrain := Decoder.drain_push ((Decoder.new config.streamConfig).push arrived) got
      rw [Decoder.push_push] at hdrain
      refine .during ?_ ?_ (settled hl)
      · rw [hd', hdrain]
      · rw [← items_drain_push, hdrain, items_drain_push, hi, hheld, List.append_nil, hi']
  | attach ht hc hd' hl' ht' =>
    refine unread (Loop.isReading_of_tasks ht rfl) ?_
    cases h with
    | during _ _ hl | behind _ _ hl => exact (hl.not_attach ht hc).elim
    | before hd hi ha hh =>
      subst ha hh
      rw [hu.config_eq] at hd'
      refine .during ?_ ?_ (hu.settled_of_attach ht hc hl' ht')
      · rw [hd', Decoder.push_nil, Decoder.drain_new]
      · rw [idle hi, ← items_drain_push, Decoder.push_nil, Decoder.drain_new, ht']
        rfl
  | cease hr hd' hi' =>
    refine unread hr ?_
    cases h with
    | before _ hi ha hh => exact .before hd' hi' ha (by rw [hh, idle hi, List.append_nil])
    | during _ _ hl | behind _ _ hl => exact .behind hd' hi' (settled hl)

end Handing

/-! ## The connection that hands on -/

namespace Connection

/-- A connection that has read these bytes, and has handed on these items. -/
structure Hands (registry : Registry) (config : ConnectionConfig) (arrived : Bytes)
    (handed : List Item) (c : Connection) : Prop where
  inSession : c.InSession registry config
  handing : ∀ l, c.loop = some l → Handing config.streamConfig arrived handed c.shared l

variable {c c' : Connection} {m : Move}

/-- A connection that has just been started has handed on nothing. -/
theorem Hands.of_starts (h : c.Starts c') : c'.Hands c'.registry c'.config [] [] := by
  obtain ⟨-, endpoint, now, hl⟩ := loop_of_starts h
  refine ⟨inSession_of_starts h, fun l hl' => ?_⟩
  cases hl.symm.trans hl'
  exact .before rfl rfl rfl rfl

/-- Beside the loop nothing is handed on. -/
theorem Hands.beside (h : c.Hands registry config arrived handed) (hm : c.Beside m)
    (hc' : (c.move m).connection.InSession registry config) :
    (c.move m).connection.Hands registry config arrived handed := by
  refine ⟨hc', fun l hl => ?_⟩
  rcases hm.loop_eq with heq | ⟨-, hnone⟩
  · refine (h.handing l (heq ▸ hl)).of_shared (Settled.of_shared · ?_ ?_) <;> rw [hm.lifecycle_eq]
    · split
      · exact Lifecycle.current_tryRequest _ _
      · rfl
    · split
      · exact Lifecycle.stage_le_tryRequest _ nofun
      · exact Nat.le_refl _
  · cases hnone.symm.trans hl

/-- Whatever is done to the connection, the items that it hands on are those that the bytes are
decoded to. -/
theorem Hands.next (h : c.Hands registry config arrived handed) (hn : c.next m = some c') :
    m.offered = c.reads m ++ c.leaves m ∧
      c'.Hands registry config (arrived ++ c.reads m) (handed ++ c.hands m) := by
  obtain ⟨hh, hd, rfl⟩ := next_eq_some hn
  have hc' := h.inSession.stride (move_stride h.inSession.begun hd)
  -- Only a step of the loop reads or hands anything on.
  have unmoved (ho : m.offered = c.leaves m) (hnone : c.hands m = [])
      (hw : m.works = true → c.loop = none) :
      m.offered = c.reads m ++ c.leaves m ∧
        (c.move m).connection.Hands registry config (arrived ++ c.reads m)
          (handed ++ c.hands m) := by
    have hr : c.reads m = [] := reads_eq (by rw [List.nil_append, ho])
    rw [hr, hnone, List.append_nil, List.append_nil]
    exact ⟨ho, h.beside (beside_of_next h.inSession.begun hn hw) hc'⟩
  cases m with
  | work calls =>
    cases hl : c.loop with
    | none => exact unmoved (by rw [leaves, hl]; rfl) (by rw [hands, hl]; rfl) fun _ => hl
    | some l =>
      obtain ⟨got, hg, hhands⟩ := (h.handing l hl).turn (h.inSession.underway l hl)
        (l.step_turn calls c.shared)
      have ho : Move.offered (.work calls) = got ++ c.leaves (.work calls) := by
        rw [leaves_work hl hh]
        exact hg
      rw [reads_eq ho, hands, hl]
      refine ⟨ho, hc', fun l' hl' => ?_⟩
      rw [move_work calls hl hh] at hl' ⊢
      cases hl'
      exact hhands
  | _ => exact unmoved rfl rfl fun hw => absurd hw Bool.false_ne_true

end Connection

end

end PeerMessaging
