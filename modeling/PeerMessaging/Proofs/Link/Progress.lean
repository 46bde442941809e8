import PeerMessaging.Proofs.Link.Duplex

/-!
# Rounds in which nothing moves

Two connected loops that exchange frames go on doing so whatever steps they make (`Link.Busy.run`).
If a loop goes through a whole round and no byte is moved meanwhile, neither by it nor by the other
one, then it has nothing to read, and nothing to write unless there is no room
(`Link.spent_of_laps`). If that is so for both loops there is room, so that every frame has been
dispatched (`Link.delivered_of_spent`). Hence bytes are moved whenever both loops go through a
round, as long as a frame has not been dispatched (`Link.moves_or_delivers`,
`Link.moves_of_between`).
-/

namespace PeerMessaging

namespace Connection

/-- How many bytes are left to write. -/
def backlog (c : Connection) : Nat := c.loop.elim 0 (·.backlog c.shared)

/-- What the loop has still to do in its round, if it is connected. -/
def lapAhead (c : Connection) : Nat ×ₗ Nat := PeerMessaging.lapAhead c.shared c.tasks

/-- The time of a keepalive has come, and the move is the step that is to send it. -/
def isDue (c : Connection) : Move → Bool
  | .work calls => c.loop.any (·.isDue calls)
  | _ => false

end Connection

/-- A move that is a step of the loop is one with some socket calls. -/
theorem Move.exists_of_works {m : Move} (h : m.works = true) : ∃ calls, m = .work calls := by
  cases m with
  | work calls => exact ⟨calls, rfl⟩
  | _ => cases h

/-- The tasks are those of a new round. -/
def isNextRound : List Task → Bool
  | [.announce, .act] => true
  | _ => false

theorem isNextRound_iff {tasks : List Task} : isNextRound tasks = true ↔ tasks = nextRound := by
  refine ⟨fun h => ?_, fun h => h ▸ rfl⟩
  unfold isNextRound at h
  split at h
  · rfl
  · cases h

instance (tasks : List Task) : Decidable (tasks = nextRound) :=
  decidable_of_iff (isNextRound tasks = true) isNextRound_iff

namespace Link

/-- The two connections exchange frames with each other. -/
structure Busy (t : Link) : Prop where
  sound : t.Sound
  suits : t.Matches
  here : t.here.connection.Engaged
  there : t.there.connection.Engaged

/-- Both loops are about to begin a round. -/
def IsBetweenRounds (t : Link) : Prop :=
  t.here.connection.tasks = nextRound ∧ t.there.connection.tasks = nextRound

instance (t : Link) : Decidable t.IsBetweenRounds := inferInstanceAs (Decidable (_ ∧ _))

/-- In a run the loop of a side goes through a whole round: it begins one, and comes to the
beginning of the next. -/
def Laps (t : Link) (side : Side) (plays : List (Side × Move)) : Prop :=
  ∃ before m during after t₁ t₂,
    plays = before ++ (side, m) :: during ++ after ∧
      t.run before = some t₁ ∧ (t₁.seen side).here.connection.tasks = nextRound ∧
      t₁.run ((side, m) :: during) = some t₂ ∧ (t₂.seen side).here.connection.tasks = nextRound

section
variable {t t' : Link} {m : Move} {calls : SocketCalls} {side : Side}
  {plays : List (Side × Move)} {l : Loop} {phase : Phase} {ahead : Nat}

/-! ## Steps -/

theorem Busy.swap (h : t.Busy) : t.swap.Busy := ⟨h.sound.swap, h.suits.swap, h.there, h.here⟩

theorem Busy.seen (h : t.Busy) (side : Side) : (t.seen side).Busy :=
  seen_of_swap (P := Busy) (fun _ h => h.swap) h side

theorem moved_swap (t : Link) : t.swap.moved = t.moved := Nat.add_comm ..

theorem moved_seen (t : Link) (side : Side) : (t.seen side).moved = t.moved := by
  cases side
  · rfl
  · exact t.moved_swap

/-- Seen from the other side the two are the other way round. -/
theorem seen_of_ne {side' : Side} (h : side ≠ side') : t.seen side = (t.seen side').swap := by
  cases side <;> cases side' <;> first | rfl | exact absurd rfl h

/-- A move of one connection leaves the other one as it is. -/
theorem connection_of_ne {actor : Side} (hn : t.next actor m = some t') (h : actor ≠ side) :
    (t'.seen side).here.connection = (t.seen side).here.connection := by
  have hsame := (moves_of_next hn).others_eq.2.1
  rwa [seen_of_ne h, seen_of_ne h] at hsame

namespace Moves

/-- In a move those bytes are moved that are written or read in it. -/
theorem moved_eq (h : t.Moves m t') :
    t'.moved =
      t.moved + ((t.here.connection.writes m).length + (t.here.connection.reads m).length) := by
  rw [moved, moved, h.here_eq, h.there_eq]
  simp only [List.length_append]
  omega

/-- If nothing is moved, the channels hold what they have held, and nothing about the other side
changes. -/
theorem still (h : t.Moves m t') (hm : t'.moved = t.moved) :
    t.here.connection.writes m = [] ∧ t.here.connection.reads m = [] ∧
      t'.here.inbox = t.here.inbox ∧ t'.there = t.there := by
  have heq := h.moved_eq
  rw [hm] at heq
  have hzero := Nat.add_eq_zero_iff.1 (Nat.add_eq_left.1 heq.symm)
  have hw := List.eq_nil_of_length_eq_zero hzero.1
  have hr := List.eq_nil_of_length_eq_zero hzero.2
  refine ⟨hw, hr, ?_, ?_⟩
  · rw [h.here_eq, hr]
    rfl
  · rw [h.there_eq, hw, List.append_nil]

/-- A step is one of the exchange, and the loop goes on with it. -/
theorem beat (h : t.Moves (.work calls) t') (hb : t.Busy)
    (hl : t.here.connection.loop = some l) (he : l.Engaged phase t.here.connection.shared) :
    ∃ phase', Beat calls t.here.connection.shared l t.there.room t.here.inbox phase
        (l.step calls t.here.connection.shared) phase' ∧
      (l.step calls t.here.connection.shared).loop.Engaged phase'
        (l.step calls t.here.connection.shared).shared ∧
      t'.here.connection = t.here.connection.after (l.step calls t.here.connection.shared) := by
  obtain ⟨phase', hbeat, he'⟩ := he.beat h.abides fun _ hd _ hg =>
    hb.sound.back.clean hb.suits.back hl hd hg
  obtain ⟨hh, -, hc⟩ := Connection.next_eq_some h.next
  rw [Connection.move_work calls hl hh] at hc
  exact ⟨phase', hbeat, he', hc⟩

/-- Two loops that exchange frames do so after a step. -/
theorem busy (h : t.Moves (.work calls) t') (hb : t.Busy) : t'.Busy := by
  obtain ⟨l, phase, hl, he⟩ := hb.here
  obtain ⟨phase', -, he', hc⟩ := h.beat hb hl he
  refine ⟨h.sound hb.sound, h.suits_of_queues hb.sound rfl hb.suits, ?_, ?_⟩
  · rw [hc]
    exact ⟨_, phase', rfl, he'⟩
  · rw [h.there_eq]
    exact hb.there

end Moves

/-- Two loops that exchange frames do so after a step, whoever makes it. -/
theorem Busy.next (h : t.Busy) (hn : t.next side (.work calls) = some t') : t'.Busy := by
  have hseen := ((moves_of_next hn).busy (h.seen side)).seen side
  rwa [seen_seen] at hseen

/-- What has been moved stays moved. -/
theorem moved_le_next (hn : t.next side m = some t') : t.moved ≤ t'.moved := by
  have heq := (moves_of_next hn).moved_eq
  rw [moved_seen, moved_seen] at heq
  exact Nat.le.intro heq.symm

/-- So it does in a run. -/
theorem moved_le_run (hr : t.run plays = some t') : t.moved ≤ t'.moved :=
  run_induction (P := fun u => t.moved ≤ u.moved) hr
    (fun _ _ _ _ _ hn hle => Nat.le_trans hle (moved_le_next hn)) (Nat.le_refl _)

/-- Two loops that exchange frames do so after a run of steps. -/
theorem Busy.run (h : t.Busy) (hr : t.run plays = some t')
    (hw : ∀ play ∈ plays, play.2.works = true) : t'.Busy := by
  refine run_induction hr (fun u u' side m hp hn hb => ?_) h
  obtain ⟨calls, rfl⟩ := Move.exists_of_works (hw _ hp)
  exact hb.next hn

/-- What is so for one side, and is kept by every step of either loop in which nothing moves, is
kept by a run of such steps. -/
theorem still_induction {P : Link → Prop}
    (hhere : ∀ t t' calls, t.Busy → t.Moves (.work calls) t' → t'.moved = t.moved → P t → P t')
    (hthere : ∀ t t', t'.here = t.here → t'.there.room = t.there.room → P t → P t')
    (hb : t.Busy) (hr : t.run plays = some t') (hw : ∀ play ∈ plays, play.2.works = true)
    (hm : t'.moved = t.moved) (side : Side) (h : P (t.seen side)) : P (t'.seen side) := by
  -- If something has moved before a step of the run, it stays moved to the end.
  refine (run_induction (P := fun u => u.Busy ∧ t.moved ≤ u.moved ∧
    (u.moved = t.moved → P (u.seen side))) hr ?_ ⟨hb, Nat.le_refl _, fun _ => h⟩).2.2 hm
  rintro u u' actor m hp hn ⟨hb, hle, hkept⟩
  obtain ⟨calls, rfl⟩ := Move.exists_of_works (hw _ hp)
  have hle' := moved_le_next hn
  refine ⟨hb.next hn, Nat.le_trans hle hle', fun hm => ?_⟩
  have hmoves := moves_of_next hn
  have hstill : (u'.seen actor).moved = (u.seen actor).moved := by
    rw [moved_seen, moved_seen]
    omega
  have hu : P (u.seen side) := hkept (by omega)
  by_cases hside : actor = side
  · subst hside
    exact hhere _ _ calls (hb.seen actor) hmoves hstill hu
  · obtain ⟨-, -, hinbox, hsame⟩ := hmoves.still hstill
    have hcapacity := hmoves.others_eq.1
    rw [seen_of_ne hside, seen_of_ne hside] at hinbox hsame hcapacity
    have hroom : (u'.seen side).there.room = (u.seen side).there.room :=
      congrArg₂ (· - ·) hcapacity (congrArg List.length hinbox)
    exact hthere _ _ hsame hroom hu

/-! ## Rounds in which nothing moves -/

/-- The loop that is here has gone through all but so many phases of a round, or more, since
something moved. -/
def Clear (t : Link) (ahead : Nat) : Prop :=
  ∃ l phase, t.here.connection.loop = some l ∧ l.Engaged phase t.here.connection.shared ∧
    ahead ≤ phase.ahead ∧ l.Cleared t.there.room t.here.inbox ahead t.here.connection.shared

/-- The loop that is here has gone through a whole round since something moved, and has handed on
all that it has read. -/
structure Spent (t : Link) : Prop where
  clear : t.Clear 0
  hasHandedAll : t.here.HasHandedAll

namespace Moves

/-- A step in which nothing moves takes no phase back. -/
theorem clear (h : t.Moves (.work calls) t') (hb : t.Busy) (hm : t'.moved = t.moved)
    (hc : t.Clear ahead) : ∃ k ≤ ahead, t'.Clear k := by
  obtain ⟨l, phase, hl, he, ha, hcleared⟩ := hc
  obtain ⟨phase', hbeat, he', hconnection⟩ := h.beat hb hl he
  obtain ⟨hw, hr, hinbox, hthere⟩ := h.still hm
  have hh := (Connection.next_eq_some h.next).1
  rw [Connection.writes_work hl hh] at hw
  have hunread : carried (l.unread calls (l.step calls t.here.connection.shared)) =
      carried calls.reads := by
    have ho := (hb.sound.back.hands.next h.next).1
    rw [hr, List.nil_append, Connection.leaves_work hl hh] at ho
    exact ho.symm
  have hcleared' := hbeat.cleared hw hunread ha hcleared
  refine ⟨min ahead phase'.ahead, Nat.min_le_left .., _, phase', by rw [hconnection]; rfl, ?_,
    Nat.min_le_right .., ?_⟩
  · rw [hconnection]
    exact he'
  · rw [hconnection, hthere, hinbox]
    exact hcleared'

/-- With the first step of a round its phases begin. -/
theorem clear_of_nextRound (h : t.Moves (.work calls) t') (hb : t.Busy)
    (ht : t.here.connection.tasks = nextRound) : t'.Clear 4 := by
  obtain ⟨l, phase, hl, he⟩ := hb.here
  obtain ⟨phase', -, he', hconnection⟩ := h.beat hb hl he
  rw [Connection.tasks_of_some hl] at ht
  have hsame : t.here.connection.shared.lifecycle.current =
      t.here.connection.shared.lifecycle.desired := by rw [he.lifecycle_eq]
  have htasks : (l.step calls t.here.connection.shared).loop.tasks = [.act] := by
    rw [Loop.step_announce calls ht, if_pos hsame]
  have hx := he'.exchange
  rw [htasks] at hx
  refine ⟨_, phase', by rw [hconnection]; rfl, ?_, Nat.le_of_eq hx.leads_eq, ?_⟩
  · rw [hconnection]
    exact he'
  · exact ⟨fun h => absurd h (by decide), fun h => absurd h (by decide), nofun⟩

/-- No frame is accepted in a step. -/
theorem accepted_eq (h : t.Moves (.work calls) t') (hs : t.Sound) :
    t'.here.accepted = t.here.accepted :=
  (h.settings hs.out.sends.inSession.begun).2.2.trans (List.append_nil _)

/-- A step in which nothing moves hands on nothing if all has been handed on. -/
theorem hasHandedAll (h : t.Moves (.work calls) t') (hb : t.Busy) (hm : t'.moved = t.moved)
    (hh : t.here.HasHandedAll) : t'.here.HasHandedAll ∧ t'.here.handed = t.here.handed := by
  obtain ⟨-, hconfig, -⟩ := h.settings hb.sound.out.sends.inSession.begun
  obtain ⟨-, hr, -⟩ := h.still hm
  have hb' := h.busy hb
  obtain ⟨l, phase, hl, he⟩ := hb'.here
  have hprefix := (hb'.sound.back.handed_prefix hl he).1
  have hread : t'.here.read = t.here.read := by rw [h.here_eq, hr, List.append_nil]
  have hhanded : t'.here.handed = t.here.handed ++ t.here.connection.hands (.work calls) := by
    rw [h.here_eq]
  rw [Party.HasHandedAll] at hh ⊢
  rw [hconfig, hread, hh] at hprefix ⊢
  have heq : t'.here.handed = t.here.handed :=
    hprefix.eq_of_length_le (by rw [hhanded, List.length_append]; omega)
  exact ⟨heq.symm, heq⟩

/-- A loop that has gone through a round stays so as long as nothing moves. -/
theorem spent (h : t.Moves (.work calls) t') (hb : t.Busy) (hm : t'.moved = t.moved)
    (hs : t.Spent) : t'.Spent := by
  obtain ⟨k, hk, hc⟩ := h.clear hb hm hs.clear
  rw [Nat.le_zero.1 hk] at hc
  exact ⟨hc, (h.hasHandedAll hb hm hs.hasHandedAll).1⟩

end Moves

/-- What is known of the loop that is here does not depend on the other one but for the room in its
channel. -/
theorem Clear.congr (hh : t'.here = t.here) (hr : t'.there.room = t.there.room)
    (h : t.Clear ahead) : t'.Clear ahead := by
  rw [Clear, hh, hr]
  exact h

/-- A loop that goes through a round in which nothing moves is known to have nothing left to do. -/
theorem spent_of_laps (hb : t.Busy) (hr : t.run plays = some t')
    (hw : ∀ play ∈ plays, play.2.works = true) (hm : t'.moved = t.moved)
    (hl : t.Laps side plays) : (t'.seen side).Spent := by
  obtain ⟨before, m, during, after, t₁, t₂, rfl, hbefore, hbegin, hround, hend⟩ := hl
  have hafter : t₂.run after = some t' := by
    rw [run_append, run_append, hbefore, Option.bind_some, hround, Option.bind_some] at hr
    exact hr
  have hw₁ : ∀ play ∈ before, play.2.works = true := fun play hp =>
    hw play (List.mem_append_left _ (List.mem_append_left _ hp))
  have hw₂ : ∀ play ∈ (side, m) :: during, play.2.works = true := fun play hp =>
    hw play (List.mem_append_left _ (List.mem_append_right _ hp))
  have hw₃ : ∀ play ∈ after, play.2.works = true := fun play hp =>
    hw play (List.mem_append_right _ hp)
  have hb₁ := hb.run hbefore hw₁
  have hb₂ := hb₁.run hround hw₂
  have hle₁ := moved_le_run hbefore
  have hle₂ := moved_le_run hround
  have hle₃ := moved_le_run hafter
  obtain ⟨u, hn, hduring⟩ := Option.bind_eq_some_iff.1 hround
  obtain ⟨calls, rfl⟩ := Move.exists_of_works (hw₂ _ (.head _))
  have hle₄ := moved_le_next hn
  have hle₅ := moved_le_run hduring
  -- From the first step of the round on, no phase of it is taken back.
  have hclear : ∃ k ≤ 4, (t₂.seen side).Clear k := by
    refine still_induction (P := fun t => ∃ k ≤ 4, t.Clear k) ?_ ?_ (hb₁.next hn) hduring
      (fun play hp => hw₂ play (.tail _ hp)) (by omega) side
      ⟨4, Nat.le_refl 4, (moves_of_next hn).clear_of_nextRound (hb₁.seen side) hbegin⟩
    · rintro t t' calls hb hmoves hm ⟨k, hk, hc⟩
      obtain ⟨k', hk', hc'⟩ := hmoves.clear hb hm hc
      exact ⟨k', Nat.le_trans hk' hk, hc'⟩
    · rintro t t' hh hr ⟨k, hk, hc⟩
      exact ⟨k, hk, hc.congr hh hr⟩
  obtain ⟨k, -, l, phase, hloop, he, hk, hc⟩ := hclear
  rw [Connection.tasks_of_some hloop] at hend
  have hx := he.exchange
  rw [hend] at hx
  obtain rfl := hx.phase_of_nextRound
  obtain rfl := Nat.le_zero.1 hk
  have hspent : (t₂.seen side).Spent :=
    ⟨⟨l, .handing, hloop, he, hk, hc⟩,
      ((hb₂.seen side).sound.back.handed_prefix hloop he).2 hend⟩
  refine still_induction (P := Spent) (fun _ _ _ hb hmoves hm => hmoves.spent hb hm) ?_ hb₂ hafter
    hw₃ (by omega) side hspent
  intro t t' hh hr hs
  exact ⟨hs.clear.congr hh hr, hh ▸ hs.hasHandedAll⟩

/-- When both loops have nothing left to do, every frame has been dispatched. -/
theorem delivered_of_spent (hb : t.Busy) (h : t.Spent) (h' : t.swap.Spent) : t.IsDelivered := by
  obtain ⟨l, phase, hl, he, -, hc⟩ := h.clear
  obtain ⟨l', phase', hl', he', -, hc'⟩ := h'.clear
  have hinbox : t.here.inbox = [] := hc.read rfl
  have hinbox' : t.there.inbox = [] := hc'.read rfl
  have hroom : 0 < t.here.room := by
    rw [Party.room, hinbox]
    exact hb.suits.back.capacity
  have hroom' : 0 < t.there.room := by
    rw [Party.room, hinbox']
    exact hb.suits.out.capacity
  exact ⟨hb.sound.out.dispatched_eq hb.suits.out hl he.writer (hc.written (Nat.zero_le _) hroom')
      hinbox' h'.hasHandedAll,
    hb.sound.back.dispatched_eq hb.suits.back hl' he'.writer (hc'.written (Nat.zero_le _) hroom)
      hinbox h.hasHandedAll⟩

/-- A run in which both loops go through a round moves something, or all frames have been dispatched
in the end. -/
theorem moves_or_delivers (hb : t.Busy) (hr : t.run plays = some t')
    (hw : ∀ play ∈ plays, play.2.works = true) (hl : ∀ side, t.Laps side plays) :
    t.moved < t'.moved ∨ t'.IsDelivered := by
  rcases Nat.eq_or_lt_of_le (moved_le_run hr) with heq | hlt
  · exact .inr (delivered_of_spent (hb.run hr hw) (spent_of_laps hb hr hw heq.symm (hl .here))
      (spent_of_laps hb hr hw heq.symm (hl .there)))
  · exact .inl hlt

/-- Between two rounds nothing is on its way but what is to be moved: if nothing moves, no frame is
dispatched. -/
theorem dispatched_of_still (hb : t.Busy) (hr : t.run plays = some t')
    (hw : ∀ play ∈ plays, play.2.works = true) (hm : t'.moved = t.moved) (side : Side)
    (hn : (t.seen side).here.connection.tasks = nextRound) :
    (t'.seen side).here.dispatched = (t.seen side).here.dispatched ∧
      (t'.seen side).here.accepted = (t.seen side).here.accepted := by
  obtain ⟨l, phase, hl, he⟩ := (hb.seen side).here
  rw [Connection.tasks_of_some hl] at hn
  have hall : (t.seen side).here.HasHandedAll :=
    ((hb.seen side).sound.back.handed_prefix hl he).2 hn
  obtain ⟨-, hdispatched, haccepted⟩ := still_induction
    (P := fun u => u.here.HasHandedAll ∧ u.here.dispatched = (t.seen side).here.dispatched ∧
      u.here.accepted = (t.seen side).here.accepted)
    (fun u u' calls hb hmoves hm ⟨hall, hd, ha⟩ =>
      have ⟨hall', hhanded⟩ := hmoves.hasHandedAll hb hm hall
      ⟨hall', (congrArg (List.filterMap _) hhanded).trans hd,
        (hmoves.accepted_eq hb.sound).trans ha⟩)
    (fun u u' hh _ h => hh ▸ h) hb hr hw hm side ⟨hall, rfl, rfl⟩
  exact ⟨hdispatched, haccepted⟩

/-- A run from between two rounds in which both loops go through a round moves something, unless all
frames have been dispatched. -/
theorem moves_of_between (hb : t.Busy) (hr : t.run plays = some t')
    (hw : ∀ play ∈ plays, play.2.works = true) (hl : ∀ side, t.Laps side plays)
    (hn : t.IsBetweenRounds) (hd : ¬ t.IsDelivered) : t.moved < t'.moved := by
  rcases Nat.eq_or_lt_of_le (moved_le_run hr) with heq | hlt
  · obtain ⟨hhere, haccepted⟩ := dispatched_of_still hb hr hw heq.symm .here hn.1
    obtain ⟨hthere, haccepted'⟩ := dispatched_of_still hb hr hw heq.symm .there hn.2
    rcases moves_or_delivers hb hr hw hl with hlt | ⟨hout, hback⟩
    · exact hlt
    · exact absurd ⟨hthere.symm.trans (hout.trans haccepted),
        hhere.symm.trans (hback.trans haccepted')⟩ hd
  · exact hlt

end

end Link

end PeerMessaging
