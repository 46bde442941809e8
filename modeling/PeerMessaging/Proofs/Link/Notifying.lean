import PeerMessaging.Scenario.Audience

/-!
# Who is told of which event

A listener that is told of an event may do anything to the registrations: add listeners and remove
them, itself and those behind it included, any number of times and depending on what it finds
(`Script`). Others may do so between two events. All of that is written down in the order in which
it happens, and so is who is told of what (`Notifier.Entry`), and from what is written down follows
who is registered at any time (`Notifier.registered`). Every history keeps the journal in order
(`Notifier.Goes`), and an event is told to those who were registered when it was raised, one after
another, and to nobody else, whatever they do on being told (`Notifier.Delivers`,
`Notifier.delivers_run`).
-/

namespace PeerMessaging

/-- What is done at a notifier, one thing after another, by a listener that has been told of an
event or by anybody else. What is done next may depend on what came of it. At the end it is known
what the listeners remember. -/
inductive Script (κ : Type)
  | done (memory : κ)
  | add (l : Listener) (next : Script κ)
  | remove (id : Nat) (next : Bool → Script κ)
  /-- Looks who is registered. -/
  | look (next : Listeners → Script κ)
  /-- Takes events that wait in the channel of a listener. -/
  | receive (id count : Nat) (next : List Event → Script κ)
  /-- Gives up the receiving end of the channel of a listener. -/
  | hangUp (id : Nat) (next : Script κ)

/-- How listeners behave on being told of an event. -/
structure Conduct (κ : Type) where
  /-- The listener passes every event on into a channel of its own. -/
  isChannel : Nat → Bool
  /-- What any other listener does on an event that is of interest to it. -/
  callback : Listener → Event → κ → Script κ

/-- The listener reacts to the event itself, and does not pass it on. -/
def Conduct.reacts {κ : Type} (conduct : Conduct κ) (t : Listener × Event) : Bool :=
  !conduct.isChannel t.1.id && t.1.interest.covers t.2

/-- What is written down of what happens at a notifier. -/
inductive Notifier.Entry
  | added (l : Listener)
  | removed (id : Nat) (found : Bool)
  | raised (event : Event)
  | told (l : Listener) (event : Event)
  /-- The listener begins to react to what it has been told. -/
  | reacted (l : Listener) (event : Event)
  /-- The events have been taken from the channel of a listener. -/
  | received (id : Nat) (events : List Event)

/-- Those who listen, their channels, what they remember, and what has happened so far. -/
structure Notifier (κ : Type) where
  listeners : Listeners
  channels : Nat → EventChannel
  memory : κ
  journal : List Notifier.Entry := []

/-! ## Removals -/

namespace Listeners

/-- Those who remain stay in their order. -/
theorem sublist_remove (ls : Listeners) (id : Nat) :
    (ls.remove id).2.registered.Sublist ls.registered := List.filter_sublist

/-- A removal takes every registration of the listener away, and only those. -/
theorem count_remove (ls : Listeners) (id : Nat) (l : Listener) :
    (ls.remove id).2.registered.count l = if l.id = id then 0 else ls.registered.count l := by
  split
  · rename_i hl
    exact List.count_eq_zero.2 (by simp [remove, hl])
  · rename_i hl
    exact List.count_filter (decide_eq_true hl)

theorem remove_found_iff (ls : Listeners) (id : Nat) :
    (ls.remove id).1 = true ↔ ∃ l ∈ ls.registered, l.id = id := by
  simp [remove]

end Listeners

namespace Notifier

/-! ## Histories -/

/-- What happens at a notifier from outside. -/
inductive Act (κ : Type)
  | perform (script : κ → Script κ)
  | raise (event : Event)

/-- The event that is raised. -/
def Act.event? {κ : Type} : Act κ → Option Event
  | perform _ => none
  | raise e => some e

section
variable {κ : Type}

/-- Writes something down. -/
def note (n : Notifier κ) (entry : Entry) : Notifier κ :=
  { n with journal := n.journal ++ [entry] }

/-- From now on this is what the listeners remember. -/
def remember (n : Notifier κ) (memory : κ) : Notifier κ := { n with memory }

/-- Changes the channel of a listener. -/
def setChannel (n : Notifier κ) (id : Nat) (channel : EventChannel) : Notifier κ :=
  { n with channels := fun i => if i = id then channel else n.channels i }

/-- Registers a listener. -/
def add (n : Notifier κ) (l : Listener) : Notifier κ :=
  { n with listeners := n.listeners.add l }.note (.added l)

/-- Removes a listener; the answer tells whether it was registered. -/
def remove (n : Notifier κ) (id : Nat) : Bool × Notifier κ :=
  let (found, listeners) := n.listeners.remove id
  (found, { n with listeners }.note (.removed id found))

/-- Takes up to `count` of the events that wait in the channel of a listener. -/
def receive (n : Notifier κ) (id count : Nat) : List Event × Notifier κ :=
  let (events, channel) := (n.channels id).take count
  (events, (n.setChannel id channel).note (.received id events))

/-- Gives up the receiving end of the channel of a listener. -/
def hangUp (n : Notifier κ) (id : Nat) : Notifier κ := n.setChannel id (n.channels id).drop

/-- Does what a script says. -/
def perform (n : Notifier κ) : Script κ → Notifier κ
  | .done memory => n.remember memory
  | .add l next => (n.add l).perform next
  | .remove id next => (n.remove id).2.perform (next (n.remove id).1)
  | .look next => n.perform (next n.listeners)
  | .receive id count next => (n.receive id count).2.perform (next (n.receive id count).1)
  | .hangUp id next => (n.hangUp id).perform next

/-- Tells a listener of an event. -/
def tell (conduct : Conduct κ) (l : Listener) (event : Event) (n : Notifier κ) : Notifier κ :=
  if conduct.isChannel l.id then
    (n.setChannel l.id ((n.channels l.id).send event)).note (.told l event)
  else if l.interest.covers event then
    ((n.note (.told l event)).note (.reacted l event)).perform (conduct.callback l event n.memory)
  else n.note (.told l event)

/-- Raises an event. -/
def raise (conduct : Conduct κ) (event : Event) (n : Notifier κ) : Notifier κ :=
  Listeners.raise listeners (tell conduct) event (n.note (.raised event))

/-- What comes of an act. -/
def act (conduct : Conduct κ) (n : Notifier κ) : Act κ → Notifier κ
  | .perform script => n.perform (script n.memory)
  | .raise event => n.raise conduct event

/-- What comes of acts, one after another. -/
def run (conduct : Conduct κ) (n : Notifier κ) (acts : List (Act κ)) : Notifier κ :=
  acts.foldl (act conduct) n

end

/-! ## Journals -/

/-- Who is registered after what is written down in an entry. -/
def registeredAfter (now : List Listener) : Entry → List Listener
  | .added l => now ++ [l]
  | .removed id _ => now.filter (·.id ≠ id)
  | _ => now

/-- Who is registered after what is written down, if these were registered before. -/
def registered (start : List Listener) (journal : List Entry) : List Listener :=
  journal.foldl registeredAfter start

/-- The events that were raised. -/
def events (journal : List Entry) : List Event :=
  journal.filterMap fun
    | .raised e => some e
    | _ => none

/-- Who was told of what. -/
def tellings (journal : List Entry) : List (Listener × Event) :=
  journal.filterMap fun
    | .told l e => some (l, e)
    | _ => none

/-- Who has reacted to what. -/
def reactions (journal : List Entry) : List (Listener × Event) :=
  journal.filterMap fun
    | .reacted l e => some (l, e)
    | _ => none

/-- The events that a listener was told of. -/
def toldTo (id : Nat) (journal : List Entry) : List Event :=
  ((tellings journal).filter (·.1.id = id)).map (·.2)

/-- The events that were taken from the channel of a listener. -/
def receivedFrom (id : Nat) (journal : List Entry) : List Event :=
  journal.flatMap fun
    | .received i es => if i = id then es else []
    | _ => []

/-- What is written down until the next event is raised. -/
def untilNext (journal : List Entry) : List Entry :=
  journal.takeWhile fun
    | .raised _ => false
    | _ => true

/-- The events that are raised, each as often as a listener is registered at that time. -/
def heard (id : Nat) (now : List Listener) : List Entry → List Event
  | [] => []
  | .raised e :: rest => List.replicate (now.countP (·.id = id)) e ++ heard id now rest
  | entry :: rest => heard id (registeredAfter now entry) rest

/-- Every removal has found a registration just when there was one. -/
def Answered (start : List Listener) (journal : List Entry) : Prop :=
  ∀ before id found after, journal = before ++ .removed id found :: after →
    (found = true ↔ ∃ l ∈ registered start before, l.id = id)

/-- Nobody is told of anything before an event is raised. Of each event are told those who were
registered when it was raised, one after another, and nobody else. -/
structure Delivers (start : List Listener) (journal : List Entry) : Prop where
  untold : tellings (untilNext journal) = []
  told : ∀ before e after, journal = before ++ .raised e :: after →
    tellings (untilNext after) = (registered start before).map (·, e)

section
variable {start : List Listener} {a b journal : List Entry} {id : Nat}

@[simp]
theorem registered_append :
    registered start (a ++ b) = registered (registered start a) b := List.foldl_append ..

@[simp]
theorem tellings_append : tellings (a ++ b) = tellings a ++ tellings b := List.filterMap_append ..

@[simp]
theorem reactions_append : reactions (a ++ b) = reactions a ++ reactions b :=
  List.filterMap_append ..

@[simp]
theorem events_append : events (a ++ b) = events a ++ events b := List.filterMap_append ..

@[simp]
theorem receivedFrom_append :
    receivedFrom id (a ++ b) = receivedFrom id a ++ receivedFrom id b := List.flatMap_append ..

@[simp]
theorem toldTo_append : toldTo id (a ++ b) = toldTo id a ++ toldTo id b := by
  rw [toldTo, tellings_append, List.filter_append, List.map_append]
  rfl

/-- An entry of two journals, one behind the other, stands in the first or in the second. -/
theorem split_append {before after : List Entry} {entry : Entry}
    (h : a ++ b = before ++ entry :: after) :
    (∃ rest, a = before ++ entry :: rest ∧ after = rest ++ b) ∨
      ∃ more, before = a ++ more ∧ b = more ++ entry :: after := by
  rcases List.append_eq_append_iff.1 h with ⟨more, hbefore, hb⟩ | ⟨rest, ha, hafter⟩
  · exact .inr ⟨more, hbefore, hb⟩
  · cases rest with
    | nil => exact .inr ⟨[], by simpa using ha.symm, hafter.symm⟩
    | cons _ rest =>
      cases hafter
      exact .inl ⟨rest, ha, rfl⟩

theorem Answered.append (h : Answered start a) (h' : Answered (registered start a) b) :
    Answered start (a ++ b) := by
  intro before id found after hsplit
  rcases split_append hsplit with ⟨rest, ha, -⟩ | ⟨more, rfl, hb⟩
  · exact h before id found rest ha
  · rw [registered_append]
    exact h' more id found after hb

/-- Before the next event nobody is told of anything more if that is so behind what is written
down. -/
theorem tellings_untilNext_append (h : tellings (untilNext b) = []) :
    tellings (untilNext (a ++ b)) = tellings (untilNext a) := by
  induction a with
  | nil => exact h
  | cons entry a ih =>
    cases entry with
    | raised e => rfl
    | told l e => exact congrArg ((l, e) :: ·) ih
    | _ => exact ih

theorem Delivers.append (h : Delivers start a) (h' : Delivers (registered start a) b) :
    Delivers start (a ++ b) where
  untold := (tellings_untilNext_append h'.untold).trans h.untold
  told before e after hsplit := by
    rcases split_append hsplit with ⟨rest, ha, rfl⟩ | ⟨more, rfl, hb⟩
    · rw [tellings_untilNext_append h'.untold]
      exact h.told before e rest ha
    · rw [registered_append]
      exact h'.told more e after hb

/-- What is written down while no event is raised is all there is until the next one. -/
theorem untilNext_eq (h : events journal = []) : untilNext journal = journal := by
  induction journal with
  | nil => rfl
  | cons entry journal ih =>
    cases entry with
    | raised e => cases h
    | _ => exact congrArg (_ :: ·) (ih h)

/-- No event is raised and nobody is told of anything. -/
theorem Delivers.of_quiet (hevents : events journal = []) (htold : tellings journal = []) :
    Delivers start journal where
  untold := by rw [untilNext_eq hevents, htold]
  told before e after hsplit := by
    rw [hsplit, events_append] at hevents
    cases (List.append_eq_nil_iff.1 hevents).2

/-- One event is raised, and those are told of it who are registered. -/
theorem Delivers.of_raise {e : Event} (hevents : events journal = [])
    (htold : tellings journal = start.map (·, e)) : Delivers start (.raised e :: journal) where
  untold := rfl
  told before e' after hsplit := by
    cases before with
    | nil =>
      cases hsplit
      rw [untilNext_eq hevents]
      exact htold
    | cons _ before =>
      have hjournal : journal = before ++ .raised e' :: after := (List.cons.inj hsplit).2
      rw [hjournal, events_append] at hevents
      cases (List.append_eq_nil_iff.1 hevents).2

/-- Some events may be told of before one is raised. After that a listener is told of what is raised
while it is registered. -/
theorem toldTo_eq_append_heard (id : Nat) (told : ∀ before e after,
    journal = before ++ .raised e :: after →
      tellings (untilNext after) = (registered start before).map (·, e)) :
    toldTo id journal = toldTo id (untilNext journal) ++ heard id start journal := by
  induction journal generalizing start with
  | nil => rfl
  | cons entry journal ih =>
    have hrest : toldTo id journal =
        toldTo id (untilNext journal) ++ heard id (registeredAfter start entry) journal :=
      ih fun before e after hsplit =>
        told (entry :: before) e after (congrArg (entry :: ·) hsplit)
    cases entry with
    | raised e =>
      -- What is told until the next event is told of this one.
      have hnow : toldTo id (untilNext journal) =
          List.replicate (start.countP (·.id = id)) e := by
        rw [toldTo, told [] e journal rfl, registered, List.foldl_nil, List.filter_map,
          List.map_map, List.countP_eq_length_filter]
        exact List.map_const ..
      exact hrest.trans (congrArg (· ++ _) hnow)
    | told l e =>
      have hfirst (j : List Entry) : toldTo id (.told l e :: j) =
          (if l.id = id then [e] else []) ++ toldTo id j := by
        by_cases hl : l.id = id <;> simp [toldTo, tellings, hl]
      refine (hfirst journal).trans ?_
      rw [hrest, ← List.append_assoc]
      exact congrArg (· ++ _) (hfirst (untilNext journal)).symm
    | _ => exact hrest

/-- What a listener is told of is what is raised while it is registered. -/
theorem Delivers.toldTo_eq (h : Delivers start journal) (id : Nat) :
    toldTo id journal = heard id start journal := by
  rw [toldTo_eq_append_heard id h.told, toldTo, h.untold]
  rfl

/-- A listener that is registered once at any time hears every event that is raised, once. -/
theorem heard_eq_events (honce : ∀ before after, journal = before ++ after →
    (registered start before).countP (·.id = id) = 1) :
    heard id start journal = events journal := by
  induction journal generalizing start with
  | nil => rfl
  | cons entry journal ih =>
    have hrest : heard id (registeredAfter start entry) journal = events journal :=
      ih fun before after hsplit =>
        honce (entry :: before) after (congrArg (entry :: ·) hsplit)
    cases entry with
    | raised e =>
      have hnow : start.countP (·.id = id) = 1 := honce [] _ rfl
      rw [heard, hnow]
      exact congrArg (e :: ·) hrest
    | _ => exact hrest

end

/-! ## What is written down -/

/-- From one notifier to another this is written down. It says who is registered then, what removals
have found, who has reacted, and what has become of the events in a channel. -/
structure Goes {κ : Type} (conduct : Conduct κ) (n : Notifier κ) (journal : List Entry)
    (n' : Notifier κ) : Prop where
  journal_eq : n'.journal = n.journal ++ journal
  registered_eq : n'.listeners.registered = registered n.listeners.registered journal
  answered : Answered n.listeners.registered journal
  reactions_eq : reactions journal = (tellings journal).filter conduct.reacts
  channel (id : Nat) (hid : conduct.isChannel id = true)
    (hopen : (n'.channels id).dropped = false) :
    (n.channels id).dropped = false ∧
      (n.channels id).waiting ++ toldTo id journal =
        receivedFrom id journal ++ (n'.channels id).waiting

section
variable {κ : Type} {conduct : Conduct κ} {n n' n'' : Notifier κ} {a b journal : List Entry}
  {l : Listener} {e : Event} {id count : Nat}

/-- Nothing is removed. -/
theorem Answered.of_notMem {start : List Listener}
    (h : ∀ id found, Entry.removed id found ∉ journal) : Answered start journal := by
  rintro before id found after rfl
  exact absurd (List.mem_append_right _ (.head _)) (h id found)

namespace Goes

/-- Nothing is written down. -/
theorem of_eq (hjournal : n'.journal = n.journal) (hlisteners : n'.listeners = n.listeners)
    (hchannels : ∀ id, n'.channels id = n.channels id ∨ (n'.channels id).dropped = true) :
    Goes conduct n [] n' where
  journal_eq := by rw [hjournal, List.append_nil]
  registered_eq := by rw [hlisteners]; rfl
  answered := .of_notMem nofun
  reactions_eq := rfl
  channel id _ hopen := by
    rcases hchannels id with hsame | hdropped
    · rw [hsame] at hopen ⊢
      exact ⟨hopen, List.append_nil _⟩
    · cases hdropped.symm.trans hopen

theorem trans (h : Goes conduct n a n') (h' : Goes conduct n' b n'') :
    Goes conduct n (a ++ b) n'' where
  journal_eq := by rw [h'.journal_eq, h.journal_eq, List.append_assoc]
  registered_eq := by rw [h'.registered_eq, h.registered_eq, registered_append]
  answered := h.answered.append (h.registered_eq ▸ h'.answered)
  reactions_eq := by
    rw [reactions_append, h.reactions_eq, h'.reactions_eq, tellings_append, List.filter_append]
  channel id hid hopen := by
    obtain ⟨hopen', hlater⟩ := h'.channel id hid hopen
    obtain ⟨hopen'', hearlier⟩ := h.channel id hid hopen'
    refine ⟨hopen'', ?_⟩
    rw [toldTo_append, ← List.append_assoc, hearlier, List.append_assoc, hlater,
      receivedFrom_append, List.append_assoc]

theorem hangUp (n : Notifier κ) (id : Nat) : Goes conduct n [] (n.hangUp id) := by
  refine .of_eq rfl rfl fun i => ?_
  by_cases hi : i = id
  · exact .inr (by simp [Notifier.hangUp, setChannel, hi, EventChannel.drop])
  · exact .inl (if_neg hi)

theorem raised (n : Notifier κ) (e : Event) : Goes conduct n [.raised e] (n.note (.raised e)) where
  journal_eq := rfl
  registered_eq := rfl
  answered := .of_notMem (by simp)
  reactions_eq := rfl
  channel _ _ hopen := ⟨hopen, List.append_nil _⟩

theorem add (n : Notifier κ) (l : Listener) : Goes conduct n [.added l] (n.add l) where
  journal_eq := rfl
  registered_eq := rfl
  answered := .of_notMem (by simp)
  reactions_eq := rfl
  channel _ _ hopen := ⟨hopen, List.append_nil _⟩

theorem remove (n : Notifier κ) (id : Nat) :
    Goes conduct n [.removed id (n.remove id).1] (n.remove id).2 where
  journal_eq := rfl
  registered_eq := rfl
  answered := by
    intro before id' found after hsplit
    cases before with
    | nil =>
      cases hsplit
      exact n.listeners.remove_found_iff id
    | cons _ before => cases before <;> cases hsplit
  reactions_eq := rfl
  channel _ _ hopen := ⟨hopen, List.append_nil _⟩

theorem receive (n : Notifier κ) (id count : Nat) :
    Goes conduct n [.received id (n.receive id count).1] (n.receive id count).2 where
  journal_eq := rfl
  registered_eq := rfl
  answered := .of_notMem (by simp)
  reactions_eq := rfl
  channel i _ hopen := by
    by_cases hi : i = id
    · subst hi
      simp_all [Notifier.receive, Notifier.note, setChannel, EventChannel.take, toldTo, tellings,
        receivedFrom]
    · simp_all [Notifier.receive, Notifier.note, setChannel, toldTo, tellings, receivedFrom,
        Ne.symm hi]

end Goes

/-- Something happens, but no event is raised, and nobody is told of anything. -/
def Quietly (conduct : Conduct κ) (n n' : Notifier κ) : Prop :=
  ∃ journal, Goes conduct n journal n' ∧ events journal = [] ∧ tellings journal = []

theorem Quietly.trans (h : Quietly conduct n n') (h' : Quietly conduct n' n'') :
    Quietly conduct n n'' := by
  obtain ⟨a, hgoes, hevents, htold⟩ := h
  obtain ⟨b, hgoes', hevents', htold'⟩ := h'
  exact ⟨a ++ b, hgoes.trans hgoes', by rw [events_append, hevents, hevents', List.nil_append],
    by rw [tellings_append, htold, htold', List.nil_append]⟩

/-- A script is carried out quietly. -/
theorem quietly_perform (conduct : Conduct κ) (n : Notifier κ) (script : Script κ) :
    Quietly conduct n (n.perform script) := by
  induction script generalizing n with
  | done memory => exact ⟨[], .of_eq rfl rfl fun _ => .inl rfl, rfl, rfl⟩
  | add l next ih => exact Quietly.trans ⟨_, .add n l, rfl, rfl⟩ (ih (n.add l))
  | remove id next ih =>
    exact Quietly.trans ⟨_, .remove n id, rfl, rfl⟩ (ih (n.remove id).1 (n.remove id).2)
  | look next ih => exact ih n.listeners n
  | receive id count next ih =>
    exact Quietly.trans ⟨_, .receive n id count, rfl, rfl⟩
      (ih (n.receive id count).1 (n.receive id count).2)
  | hangUp id next ih => exact Quietly.trans ⟨_, .hangUp n id, rfl, rfl⟩ (ih (n.hangUp id))

/-- A channel that has not been given up keeps what is sent. -/
theorem waiting_send {c : EventChannel} (h : (c.send e).dropped = false) :
    c.dropped = false ∧ (c.send e).waiting = c.waiting ++ [e] := by
  unfold EventChannel.send at h ⊢
  split at h
  · rename_i hdropped
    cases hdropped.symm.trans h
  · rename_i hdropped
    exact ⟨h, by rw [if_neg hdropped]⟩

/-- A listener that passes events on sends what it is told of. -/
theorem Goes.send (h : conduct.isChannel l.id = true) (n : Notifier κ) (e : Event) :
    Goes conduct n [.told l e]
      ((n.setChannel l.id ((n.channels l.id).send e)).note (.told l e)) where
  journal_eq := rfl
  registered_eq := rfl
  answered := .of_notMem (by simp)
  reactions_eq := by simp [reactions, tellings, Conduct.reacts, h]
  channel i _ hopen := by
    by_cases hi : i = l.id
    · subst hi
      simp only [note, setChannel, if_pos] at hopen ⊢
      obtain ⟨hopen, hwaiting⟩ := waiting_send hopen
      exact ⟨hopen, by simp [hwaiting, toldTo, tellings, receivedFrom]⟩
    · simp_all [note, setChannel, toldTo, tellings, receivedFrom, Ne.symm hi]

/-- What any other listener is told of does not come into a channel. -/
theorem toldTo_of_not_channel (h : ¬ conduct.isChannel l.id = true)
    (hid : conduct.isChannel id = true) : toldTo id [.told l e] = [] := by
  have hne : l.id ≠ id := fun hl => h (hl ▸ hid)
  simp [toldTo, tellings, hne]

/-- It does not react to an event that is of no interest to it. -/
theorem Goes.ignore (h : ¬ conduct.isChannel l.id = true) (hc : ¬ l.interest.covers e = true)
    (n : Notifier κ) : Goes conduct n [.told l e] (n.note (.told l e)) where
  journal_eq := rfl
  registered_eq := rfl
  answered := .of_notMem (by simp)
  reactions_eq := by simp [reactions, tellings, Conduct.reacts, hc]
  channel i hid hopen := ⟨hopen, by rw [toldTo_of_not_channel h hid]; exact List.append_nil _⟩

/-- It does react to any other event. -/
theorem Goes.react (h : ¬ conduct.isChannel l.id = true) (hc : l.interest.covers e = true)
    (n : Notifier κ) :
    Goes conduct n [.told l e, .reacted l e] ((n.note (.told l e)).note (.reacted l e)) where
  journal_eq := List.append_assoc ..
  registered_eq := rfl
  answered := .of_notMem (by simp)
  reactions_eq := by simp [reactions, tellings, Conduct.reacts, h, hc]
  channel i hid hopen := by
    have htold : toldTo i [.told l e, .reacted l e] = [] := toldTo_of_not_channel h hid
    exact ⟨hopen, by rw [htold]; exact List.append_nil _⟩

/-- A listener is told of an event, and whatever it does on that, nobody else is. -/
theorem goes_tell (conduct : Conduct κ) (l : Listener) (e : Event) (n : Notifier κ) :
    ∃ journal, Goes conduct n journal (n.tell conduct l e) ∧ events journal = [] ∧
      tellings journal = [(l, e)] := by
  unfold tell
  split
  · rename_i h
    exact ⟨_, .send h n e, rfl, rfl⟩
  · rename_i h
    split
    · rename_i hc
      obtain ⟨journal, hgoes, hevents, htold⟩ := quietly_perform conduct
        ((n.note (.told l e)).note (.reacted l e)) (conduct.callback l e n.memory)
      exact ⟨_, (Goes.react h hc n).trans hgoes, by rw [events_append, hevents]; rfl,
        by rw [tellings_append, htold]; rfl⟩
    · rename_i hc
      exact ⟨_, .ignore h hc n, rfl, rfl⟩

/-- Some listeners are told of an event, one after another, and whatever they do on that, nobody
else is. -/
theorem goes_foldl_tell (conduct : Conduct κ) (ls : List Listener) (e : Event) (n : Notifier κ) :
    ∃ journal, Goes conduct n journal (ls.foldl (fun n l => n.tell conduct l e) n) ∧
      events journal = [] ∧ tellings journal = ls.map (·, e) := by
  induction ls generalizing n with
  | nil => exact ⟨[], .of_eq rfl rfl fun _ => .inl rfl, rfl, rfl⟩
  | cons l ls ih =>
    obtain ⟨first, hfirst, hevents, htold⟩ := goes_tell conduct l e n
    obtain ⟨rest, hrest, hevents', htold'⟩ := ih (n.tell conduct l e)
    exact ⟨first ++ rest, hfirst.trans hrest, by rw [events_append, hevents, hevents']; rfl,
      by rw [tellings_append, htold, htold']; rfl⟩

/-- An act delivers the event that it raises, if it raises one. -/
theorem delivers_act (conduct : Conduct κ) (n : Notifier κ) (act : Act κ) :
    ∃ journal, Goes conduct n journal (n.act conduct act) ∧
      events journal = act.event?.toList ∧ Delivers n.listeners.registered journal := by
  cases act with
  | perform script =>
    obtain ⟨journal, hgoes, hevents, htold⟩ := quietly_perform conduct n (script n.memory)
    exact ⟨journal, hgoes, hevents, .of_quiet hevents htold⟩
  | raise e =>
    obtain ⟨journal, hgoes, hevents, htold⟩ :=
      goes_foldl_tell conduct n.listeners.registered e (n.note (.raised e))
    exact ⟨.raised e :: journal, (Goes.raised n e).trans hgoes, congrArg (e :: ·) hevents,
      .of_raise hevents htold⟩

/-- So do acts. -/
theorem delivers_run (conduct : Conduct κ) (n : Notifier κ) (acts : List (Act κ)) :
    ∃ journal, Goes conduct n journal (n.run conduct acts) ∧
      events journal = acts.filterMap Act.event? ∧ Delivers n.listeners.registered journal := by
  induction acts generalizing n with
  | nil => exact ⟨[], .of_eq rfl rfl fun _ => .inl rfl, rfl, .of_quiet rfl rfl⟩
  | cons act acts ih =>
    obtain ⟨first, hfirst, hevents, hdelivers⟩ := delivers_act conduct n act
    obtain ⟨rest, hrest, hevents', hdelivers'⟩ := ih (n.act conduct act)
    refine ⟨first ++ rest, hfirst.trans hrest, ?_,
      hdelivers.append (hfirst.registered_eq ▸ hdelivers')⟩
    rw [events_append, hevents, hevents']
    cases h : act.event? <;> simp [h]

end

end Notifier

end PeerMessaging
