import Mathlib.Order.OrderIsoNat
import PeerMessaging.Proofs.Link.Delivery
import PeerMessaging.Proofs.Link.Progress

/-!
# Traffic in both directions does not stall

Two connected loops may both have more to write than the channels between them have room for. Each
of them reads in every round, so the channels do not stay full, and the frames that are left to
write get through. Without a keepalive a byte that is left to write is moved twice at most
(`Link.Moves.moved_add_toMove`), which bounds how often something can be moved, and a loop that goes
on making steps goes through one round after another (`Link.Plays.exists_laps`). As something is
moved in each, all frames are dispatched in the end (`traffic_never_stalls`). Two loops that are
connected can always go on making steps (`Link.Busy.exists_plays`).
-/

namespace PeerMessaging

namespace Connection

variable {c : Connection} {l : Loop} {calls : SocketCalls}

/-- A keepalive is not due before its time. -/
theorem isDue_of_lt (hl : c.loop = some l)
    (hk : calls.now - l.lastKeepalive < l.config.keepaliveInterval) :
    c.isDue (.work calls) = false := by
  rw [isDue, hl, Option.any_some, Loop.isDue]
  split
  · exact decide_eq_false (Nat.not_le_of_lt hk)
  · rfl

/-- A step that does not end the session is a move of it. -/
theorem next_work (hl : c.loop = some l) (hh : c.halts (.work calls) = false)
    (hd : (l.step calls c.shared).shared.lifecycle.desired ≠ .initial) :
    c.next (.work calls) = some (c.after (l.step calls c.shared)) := by
  rw [next, move_work calls hl hh, hh]
  exact if_neg (not_or.2 ⟨Bool.false_ne_true, hd⟩)

end Connection

namespace Link

/-! ## What is still to be moved -/

/-- How often bytes have still to be moved: those that are left to write twice each, those that are
in a channel once. -/
def toMove (t : Link) : Nat :=
  2 * (t.here.connection.backlog + t.there.connection.backlog) +
    (t.here.inbox.length + t.there.inbox.length)

theorem toMove_swap (t : Link) : t.swap.toMove = t.toMove := by
  simp only [toMove, swap, Nat.add_comm]

theorem toMove_seen (t : Link) (side : Side) : (t.seen side).toMove = t.toMove := by
  cases side
  · rfl
  · exact t.toMove_swap

namespace Moves

variable {t t' : Link} {calls : SocketCalls}

/-- Without a keepalive no bytes come to those that are to be moved, and those that are moved are
not to be any more. -/
theorem moved_add_toMove (h : t.Moves (.work calls) t') (hb : t.Busy)
    (hd : t.here.connection.isDue (.work calls) = false) :
    t'.moved + t'.toMove = t.moved + t.toMove := by
  obtain ⟨l, phase, hl, he⟩ := hb.here
  obtain ⟨phase', hbeat, -, hc⟩ := h.beat hb hl he
  obtain ⟨beats, hbacklog, hdue⟩ := hbeat.backlog_eq
  obtain rfl : beats = 0 := by
    by_contra hn
    rw [Connection.isDue, hl, Option.any_some, (hdue hn).1] at hd
    cases hd
  have hwritten : (t.here.connection.writes (.work calls)).length + t'.here.connection.backlog =
      t.here.connection.backlog := by
    rw [Connection.writes_work hl (Connection.next_eq_some h.next).1, hc, Connection.backlog,
      Connection.backlog, hl]
    exact hbacklog
  have hread := (h.reads_prefix (hb.sound.back.hands.next h.next).1).length_le
  have hinbox : t'.here.inbox.length =
      t.here.inbox.length - (t.here.connection.reads (.work calls)).length := by
    rw [h.here_eq, List.length_drop]
  have hinbox' : t'.there.inbox.length =
      t.there.inbox.length + (t.here.connection.writes (.work calls)).length := by
    rw [h.there_eq, List.length_append]
  have hthere : t'.there.connection.backlog = t.there.connection.backlog :=
    congrArg _ h.others_eq.2.1
  have hmoved := h.moved_eq
  unfold toMove
  omega

/-- A step brings the end of the round nearer. -/
theorem lapAhead_lt (h : t.Moves (.work calls) t') (hb : t.Busy)
    (hn : t.here.connection.tasks ≠ nextRound) :
    t'.here.connection.lapAhead < t.here.connection.lapAhead := by
  obtain ⟨l, phase, hl, he⟩ := hb.here
  obtain ⟨phase', hbeat, he', hc⟩ := h.beat hb hl he
  rw [Connection.tasks_of_some hl] at hn
  rw [hc, Connection.lapAhead, Connection.lapAhead, Connection.tasks_of_some hl]
  exact hbeat.lapAhead_lt he.exchange he'.exchange hn

end Moves

/-! ## Round after round -/

/-- The links are those that come of endless plays, each of which is a step of a loop. No keepalive
falls due, and neither loop ever stops making steps. -/
structure Plays (t : Link) (plays : ℕ → Side × Move) (links : ℕ → Link) : Prop where
  zero : links 0 = t
  next : ∀ n, (links n).next (plays n).1 (plays n).2 = some (links (n + 1))
  works : ∀ n, (plays n).2.works = true
  quiet : ∀ n, ((links n).seen (plays n).1).here.connection.isDue (plays n).2 = false
  fair : ∀ side n, ∃ k, n ≤ k ∧ (plays k).1 = side

namespace Plays

variable {t : Link} {plays : ℕ → Side × Move} {links : ℕ → Link}

theorem busy (h : t.Plays plays links) (hb : t.Busy) (n : ℕ) : (links n).Busy := by
  induction n with
  | zero => exact h.zero.symm ▸ hb
  | succ n ih =>
    obtain ⟨calls, hm⟩ := Move.exists_of_works (h.works n)
    exact ih.next (hm ▸ h.next n)

/-- What comes of a stretch of the plays. -/
theorem run_stretch (h : t.Plays plays links) (n k : ℕ) :
    (links n).run ((List.range' n k).map plays) = some (links (n + k)) := by
  induction k generalizing n with
  | zero => rfl
  | succ k ih =>
    have hfirst : (links n).run ((List.range' n (k + 1)).map plays) =
        ((links n).next (plays n).1 (plays n).2).bind
          (·.run ((List.range' (n + 1) k).map plays)) := rfl
    rw [hfirst, h.next, Option.bind_some, ih, Nat.add_right_comm, Nat.add_assoc]

/-- A loop that goes on making steps comes to the beginning of a round. -/
theorem exists_round (h : t.Plays plays links) (hb : t.Busy) (side : Side) (n : ℕ) :
    ∃ k, n ≤ k ∧ (plays k).1 = side ∧
      ((links k).seen side).here.connection.tasks = nextRound := by
  by_contra hnever
  -- What the loop has still to do in its round would become less again and again.
  have hnears (k : ℕ) (hk : n ≤ k) :
      ((links (k + 1)).seen side).here.connection.lapAhead ≤
          ((links k).seen side).here.connection.lapAhead ∧
        ((plays k).1 = side → ((links (k + 1)).seen side).here.connection.lapAhead <
          ((links k).seen side).here.connection.lapAhead) := by
    by_cases hside : (plays k).1 = side
    · have hmoves := moves_of_next (h.next k)
      obtain ⟨calls, hm⟩ := Move.exists_of_works (h.works k)
      rw [hside, hm] at hmoves
      have hlt := hmoves.lapAhead_lt ((h.busy hb k).seen side) fun ht =>
        hnever ⟨k, hk, hside, ht⟩
      exact ⟨le_of_lt hlt, fun _ => hlt⟩
    · have hsame := connection_of_ne (h.next k) hside
      exact ⟨le_of_eq (congrArg Connection.lapAhead hsame), fun hs => absurd hs hside⟩
  have hanti : Antitone fun k => ((links (n + k)).seen side).here.connection.lapAhead :=
    antitone_nat_of_succ_le fun k => (hnears (n + k) (Nat.le_add_right ..)).1
  obtain ⟨i, hconst⟩ := WellFoundedLT.antitone_chain_condition hanti
  obtain ⟨k, hk, hside⟩ := h.fair side (n + i)
  obtain ⟨j, rfl⟩ := Nat.exists_eq_add_of_le ((Nat.le_add_right n i).trans hk)
  have hij : i ≤ j := Nat.le_of_add_le_add_left hk
  have hlt := (hnears (n + j) (Nat.le_add_right ..)).2 hside
  exact hlt.ne ((hconst (j + 1) (hij.trans j.le_succ)).symm.trans (hconst j hij))

/-- After a while either loop has gone through a round. -/
theorem exists_laps (h : t.Plays plays links) (hb : t.Busy) (side : Side) (n : ℕ) :
    ∃ m, n ≤ m ∧ ∀ m', m ≤ m' →
      (links n).Laps side ((List.range' n (m' - n)).map plays) := by
  obtain ⟨k₁, hk₁, hside, hbegin⟩ := h.exists_round hb side n
  obtain ⟨k₂, hk₂, -, hend⟩ := h.exists_round hb side (k₁ + 1)
  refine ⟨k₂, by omega, fun m' hm' => ?_⟩
  obtain ⟨i, rfl⟩ := Nat.exists_eq_add_of_le hk₁
  obtain ⟨j, rfl⟩ := Nat.exists_eq_add_of_le hk₂
  obtain ⟨k, rfl⟩ := Nat.exists_eq_add_of_le hm'
  have hsplit : List.range' n (n + i + 1 + j + k - n) =
      List.range' n i ++ (n + i) :: List.range' (n + i + 1) j ++
        List.range' (n + i + 1 + j) k := by
    have hlength : n + i + 1 + j + k - n = i + (j + 1 + k) := by omega
    rw [hlength, ← List.range'_append_1, ← List.range'_append_1, List.range'_succ,
      List.append_assoc, Nat.add_assoc (n + i), Nat.add_comm 1]
  have hround : (links (n + i)).run ((List.range' (n + i) (j + 1)).map plays) =
      some (links (n + i + 1 + j)) := by
    rw [h.run_stretch, Nat.add_assoc (n + i), Nat.add_comm 1]
  refine ⟨(List.range' n i).map plays, (plays (n + i)).2,
    (List.range' (n + i + 1) j).map plays, (List.range' (n + i + 1 + j) k).map plays,
    links (n + i), links (n + i + 1 + j), ?_, h.run_stretch n i, hbegin, ?_, hend⟩
  · rw [hsplit, List.map_append, List.map_append, List.map_cons, ← hside]
  · rw [← hside]
    exact hround

/-- At any time there has been moved what is not to be moved any more. -/
theorem moved_add_toMove (h : t.Plays plays links) (hb : t.Busy) (n : ℕ) :
    (links n).moved + (links n).toMove = t.moved + t.toMove := by
  induction n with
  | zero => rw [h.zero]
  | succ n ih =>
    have hmoves := moves_of_next (h.next n)
    have hquiet := h.quiet n
    obtain ⟨calls, hm⟩ := Move.exists_of_works (h.works n)
    rw [hm] at hmoves hquiet
    have heq := hmoves.moved_add_toMove ((h.busy hb n).seen _) hquiet
    rw [moved_seen, moved_seen, toMove_seen, toMove_seen] at heq
    exact heq.trans ih

/-- In the end all frames have been dispatched. -/
theorem exists_delivered (h : t.Plays plays links) (hb : t.Busy) :
    ∃ n, ∀ k, n ≤ k → (links k).IsDelivered := by
  have hsum := h.moved_add_toMove hb
  have hanti : Antitone fun n => (links n).toMove := antitone_nat_of_succ_le fun n => by
    have hle := moved_le_next (h.next n)
    have hn := hsum n
    have hn' := hsum (n + 1)
    omega
  -- From some time on nothing is moved any more.
  obtain ⟨n, hconst⟩ := WellFoundedLT.antitone_chain_condition hanti
  obtain ⟨m₁, hm₁, hlaps₁⟩ := h.exists_laps hb .here n
  obtain ⟨m₂, hm₂, hlaps₂⟩ := h.exists_laps hb .there n
  refine ⟨m₁ + m₂, fun k hk => ?_⟩
  have hn : n ≤ k := by omega
  have hstill : (links k).moved = (links n).moved := by
    have heq : (links n).toMove = (links k).toMove := hconst k hn
    have hsum_n := hsum n
    have hsum_k := hsum k
    omega
  have hrun := h.run_stretch n (k - n)
  rw [Nat.add_sub_cancel' hn] at hrun
  have hworks : ∀ play ∈ (List.range' n (k - n)).map plays, play.2.works = true := by
    intro play hp
    obtain ⟨i, -, rfl⟩ := List.mem_map.1 hp
    exact h.works i
  refine (moves_or_delivers (h.busy hb n) hrun hworks fun side => ?_).resolve_left
    (Nat.not_lt_of_le hstill.le)
  cases side
  · exact hlaps₁ k (by omega)
  · exact hlaps₂ k (by omega)

end Plays

end Link

/-! ## Steps that can always be made -/

/-- The socket calls of a stream which has room for so many bytes and holds these. It takes and
brings all that it can at once. -/
def SocketCalls.prompt (room : Nat) (inbox : Bytes) : SocketCalls where
  bind := .ok { ip := .v4 ⟨127, 0, 0, 1⟩, port := 4000 }
  accept := .ok true
  reads := (if inbox = [] then [] else [.data inbox]) ++ [.fail (.plain .timedOut)]
  writes := (if room = 0 then [] else [⟨.accept room, 0⟩]) ++ [⟨.fail (.plain .timedOut), 0⟩]

theorem SocketCalls.abide_prompt (room : Nat) (inbox : Bytes) :
    (prompt room inbox).abide room inbox = true := by
  have hw : admits room (prompt room inbox).writes = true := by
    rcases Nat.eq_zero_or_pos room with rfl | hr
    · rfl
    · rw [prompt, if_neg (Nat.ne_of_gt hr)]
      simp [admits, hr, IoError.isTimeout, IoError.kind]
  have hr : delivers inbox (prompt room inbox).reads = true := by
    cases inbox with
    | nil => rfl
    | cons byte inbox => simp [prompt, delivers, IoError.isTimeout, IoError.kind]
  rw [abide, hw, hr]
  rfl

/-- At the first moment of the clock no keepalive is due, and the clock can show the deadline of an
exchange of frames. -/
def ConnectionConfig.GoesOn (config : ConnectionConfig) : Prop :=
  0 < config.keepaliveInterval ∧ config.readTimeout ≤ Moment.last

instance (config : ConnectionConfig) : Decidable config.GoesOn :=
  inferInstanceAs (Decidable (_ ∧ _))

/-- At that moment a loop that is connected sets itself no other deadline. -/
theorem Loop.overruns_of_goesOn {calls : SocketCalls} {s : Shared} {l : Loop}
    (hg : l.config.GoesOn) (hc : s.lifecycle.current = .connected) (hnow : calls.now = 0) :
    l.overruns calls s = false := by
  unfold overruns allowance
  split
  · simp [Moment.after?, hnow, hg.2]
  · rename_i h
    cases hc.symm.trans h
  · cases l.writer <;> simp [Rests, hnow, hg.1]
  · rfl

namespace Link

/-- A step of one of the two loops, with a stream that takes and brings all that it can. -/
def prompt (t : Link) (side : Side) : Move :=
  .work (.prompt (t.seen side).there.room (t.seen side).here.inbox)

/-- Steps of the two loops in turn. -/
def inTurn (n : ℕ) : Side := if n % 2 = 0 then .here else .there

/-- What comes of them. -/
def alternating (t : Link) : ℕ → Link
  | 0 => t
  | n + 1 =>
    let u := alternating t n
    (u.next (inTurn n) (u.prompt (inTurn n))).getD u

section
variable {t t' : Link} {side : Side} {m : Move}

/-- A loop that exchanges frames can make a step. -/
theorem Busy.exists_next (h : t.Busy) (side : Side)
    (hg : (t.seen side).here.connection.config.GoesOn) :
    ∃ t', t.next side (t.prompt side) = some t' := by
  have hb := h.seen side
  obtain ⟨l, phase, hl, he⟩ := hb.here
  have ha := SocketCalls.abide_prompt (t.seen side).there.room (t.seen side).here.inbox
  obtain ⟨phase', -, he'⟩ := he.beat ha fun _ hd _ hg =>
    hb.sound.back.clean hb.suits.back hl hd hg
  have hhalts : (t.seen side).here.connection.halts (t.prompt side) = false := by
    rw [Link.prompt, Connection.halts, hl]
    refine Loop.overruns_of_goesOn ?_ (congrArg Lifecycle.current he.lifecycle_eq) rfl
    rw [(hb.sound.out.sends.inSession.underway l hl).config_eq]
    exact hg
  have hnext := Connection.next_work hl hhalts (fun hi => by
    cases (congrArg Lifecycle.desired he'.lifecycle_eq).symm.trans hi)
  obtain ⟨u, hu⟩ := exists_nextHere (m := t.prompt side) ha hnext
  exact ⟨u.seen side, Option.map_eq_some_iff.2 ⟨u, hu, rfl⟩⟩

/-- No move changes the settings of either connection. -/
theorem config_next (hs : t.Sound) {actor : Side} (hn : t.next actor m = some t') (side : Side) :
    (t'.seen side).here.connection.config = (t.seen side).here.connection.config := by
  by_cases hside : actor = side
  · subst hside
    exact ((moves_of_next hn).settings (hs.seen actor).out.sends.inSession.begun).2.1
  · exact congrArg Connection.config (connection_of_ne hn hside)

/-- Two loops that exchange frames can make steps for ever, and need not send a keepalive. -/
theorem Busy.exists_plays (h : t.Busy)
    (hg : ∀ side, (t.seen side).here.connection.config.GoesOn) :
    ∃ plays links, t.Plays plays links := by
  have hrun (n : ℕ) : (t.alternating n).Busy ∧
      ∀ side, ((t.alternating n).seen side).here.connection.config.GoesOn := by
    induction n with
    | zero => exact ⟨h, hg⟩
    | succ n ih =>
      obtain ⟨hb, hg⟩ := ih
      obtain ⟨u, hu⟩ := hb.exists_next (inTurn n) (hg (inTurn n))
      have heq : t.alternating (n + 1) = u := by rw [alternating, hu, Option.getD_some]
      rw [heq]
      exact ⟨hb.next hu, fun side => config_next hb.sound hu side ▸ hg side⟩
  refine ⟨fun n => (inTurn n, (t.alternating n).prompt (inTurn n)), t.alternating,
    rfl, fun n => ?_, fun _ => rfl, fun n => ?_, fun side n => ?_⟩
  · obtain ⟨u, hu⟩ := (hrun n).1.exists_next (inTurn n) ((hrun n).2 (inTurn n))
    rw [alternating, hu, Option.getD_some]
  · have hb := (hrun n).1.seen (inTurn n)
    obtain ⟨l, phase, hl, -⟩ := hb.here
    have hconfig := (hb.sound.out.sends.inSession.underway l hl).config_eq
    have hpos := ((hrun n).2 (inTurn n)).1
    rw [← hconfig] at hpos
    exact Connection.isDue_of_lt hl ((Nat.sub_le ..).trans_lt hpos)
  · cases side with
    | here => exact ⟨2 * n, by omega, if_pos (by omega)⟩
    | there => exact ⟨2 * n + 1, by omega, if_neg (by omega)⟩

/-- Two connections that are connected exchange frames with each other. -/
theorem busy_of_isConnected {a b a₀ b₀ : Connection} (ha : a₀.Starts a) (hb : b₀.Starts b)
    {toHere toThere : Nat} {past : List (Side × Move)}
    (ht : (start a b toHere toThere).run past = some t) (hc : t.IsConnected) (hm : t.Matches) :
    t.Busy := by
  have hsound := sound_start ha hb toHere toThere
  have hbegins {c₀ c : Connection} (h : c₀.Starts c) : c.isConnected = true → c.Engaged := by
    intro hconnected
    have hd : c.desired = .connected :=
      congrArg Lifecycle.desired (of_decide_eq_true hconnected)
    rcases Connection.desired_of_starts h with hd' | hd' <;> cases hd.symm.trans hd'
  have hengages := Engages.run ⟨hbegins ha, hbegins hb⟩ hsound ht hm
  exact ⟨hsound.run ht, hm, hengages.here hc.1, hengages.there hc.2⟩

end

end Link

/-! ## Traffic gets through -/

/-- Traffic in both directions does not stall. Take two connections that are connected and whose
settings suit each other, joined by channels that can hold something, at whatever moment and with
whatever left to write and in the channels. If both loops go through a round, bytes are moved into a
channel or out of one, unless all frames have been dispatched in the end; and if both begin between
two rounds, unless they had been before. So if no more is sent and no keepalive falls due, and both
loops go on making steps, there comes a time from which on all frames have been dispatched. -/
theorem traffic_never_stalls {a b a₀ b₀ : Connection} (ha : a₀.Starts a) (hb : b₀.Starts b)
    {toHere toThere : Nat} {past : List (Side × Move)} {t : Link}
    (ht : (Link.start a b toHere toThere).run past = some t) (hc : t.IsConnected)
    (hm : t.Matches) :
    (∀ plays t', t.run plays = some t' → (∀ play ∈ plays, play.2.works = true) →
      (∀ side, t.Laps side plays) →
      (t.moved < t'.moved ∨ t'.IsDelivered) ∧
        (t.IsBetweenRounds → ¬ t.IsDelivered → t.moved < t'.moved)) ∧
    ∀ plays links, t.Plays plays links → ∃ n, ∀ k, n ≤ k → (links k).IsDelivered := by
  have hbusy := Link.busy_of_isConnected ha hb ht hc hm
  refine ⟨fun plays t' hr hw hl => ⟨?_, ?_⟩, fun plays links h => h.exists_delivered hbusy⟩
  · exact Link.moves_or_delivers hbusy hr hw hl
  · exact Link.moves_of_between hbusy hr hw hl

/-- Steps of the loops, with streams that take and bring all that they can. -/
def Link.prompts (t : Link) : List Side → List (Side × Move)
  | [] => []
  | side :: sides =>
    (side, t.prompt side) :: (t.next side (t.prompt side)).elim [] (prompts · sides)

theorem Link.works_of_mem_prompts {t : Link} {sides : List Side} {play : Side × Move}
    (h : play ∈ t.prompts sides) : play.2.works = true := by
  induction sides generalizing t with
  | nil => cases h
  | cons side sides ih =>
    rw [prompts] at h
    cases h with
    | head => rfl
    | tail _ h =>
      cases hn : t.next side (t.prompt side) with
      | none =>
        rw [hn] at h
        cases h
      | some u =>
        rw [hn] at h
        exact ih h

/-- A message is queued on either side. -/
def letters : List (Side × Move) := [(.here, .send (.raw 1 [7])), (.there, .send (.raw 1 [8]))]

/-- The connections are made and the first bytes written, as many as the channels hold. -/
def crossing : List (Side × Move) :=
  letters ++ ((Link.start caller callee 8 8).run letters).elim [] fun t =>
    t.prompts (.replicate 14 .here ++ .replicate 18 .there)

/-- In the next round of either loop bytes are moved, and there is a way to go on from there in
which all frames are dispatched. -/
theorem traffic_never_stalls_crossing :
    (Connection.withRegistry notes {}).Starts caller ∧
      (Connection.withRegistry notes {}).Starts callee ∧
      ∃ t t' plays, (Link.start caller callee 8 8).run crossing = some t ∧ t.IsConnected ∧
        t.Matches ∧ t.IsBetweenRounds ∧ ¬ t.IsDelivered ∧ t.run plays = some t' ∧
        (∀ side, t.Laps side plays) ∧ t.moved < t'.moved ∧
        ∃ plays links, t.Plays plays links ∧ ∃ n, ∀ k, n ≤ k → (links k).IsDelivered := by
  have ha : (Connection.withRegistry notes {}).Starts caller :=
    ⟨⟨"localhost", 4000⟩, 0, .inl rfl⟩
  have hb : (Connection.withRegistry notes {}).Starts callee :=
    ⟨⟨"localhost", 4000⟩, 0, .inr rfl⟩
  have hrun : (((Link.start caller callee 8 8).run crossing).bind fun t =>
      (t.run (t.prompts (.replicate 8 .here))).bind fun u =>
        (u.run (u.prompts (.replicate 10 .there))).map fun t' =>
          (decide (t.IsConnected ∧ t.Matches ∧ t.IsBetweenRounds ∧ ¬ t.IsDelivered),
            decide (t.here.connection.config.GoesOn ∧ t.there.connection.config.GoesOn),
            decide u.IsBetweenRounds, decide t'.IsBetweenRounds)) =
      some (true, true, true, true) := by
    decide +kernel
  obtain ⟨t, ht, hrun⟩ := Option.bind_eq_some_iff.1 hrun
  obtain ⟨u, hu, hrun⟩ := Option.bind_eq_some_iff.1 hrun
  obtain ⟨t', ht', hrun⟩ := Option.map_eq_some_iff.1 hrun
  obtain ⟨hbegin, hrun⟩ := Prod.mk.inj hrun
  obtain ⟨hg, hrun⟩ := Prod.mk.inj hrun
  obtain ⟨hmiddle, hend⟩ := Prod.mk.inj hrun
  obtain ⟨hc, hm, hn, hd⟩ := of_decide_eq_true hbegin
  have hmiddle := of_decide_eq_true hmiddle
  have hplays : t.run (t.prompts (.replicate 8 .here) ++ u.prompts (.replicate 10 .there)) =
      some t' := by
    rw [Link.run_append, hu, Option.bind_some, ht']
  have hlaps : ∀ side,
      t.Laps side (t.prompts (.replicate 8 .here) ++ u.prompts (.replicate 10 .there)) := by
    intro side
    cases side
    · exact ⟨[], _, _, _, t, u, rfl, rfl, hn.1, hu, hmiddle.1⟩
    · exact ⟨_, _, _, [], u, t', (List.append_nil _).symm, hu, hmiddle.2, ht',
        (of_decide_eq_true hend).2⟩
  have hworks : ∀ play ∈ t.prompts (.replicate 8 .here) ++ u.prompts (.replicate 10 .there),
      play.2.works = true := by
    intro play hp
    rcases List.mem_append.1 hp with hp | hp <;> exact Link.works_of_mem_prompts hp
  have hbusy := Link.busy_of_isConnected ha hb ht hc hm
  obtain ⟨plays, links, hendless⟩ := hbusy.exists_plays fun side => by
    cases side
    · exact (of_decide_eq_true hg).1
    · exact (of_decide_eq_true hg).2
  obtain ⟨hrounds, hdelivers⟩ := traffic_never_stalls ha hb ht hc hm
  exact ⟨ha, hb, t, t', _, ht, hc, hm, hn, hd, hplays, hlaps,
    (hrounds _ _ hplays hworks hlaps).2 hn hd, plays, links, hendless,
    hdelivers plays links hendless⟩

end PeerMessaging
