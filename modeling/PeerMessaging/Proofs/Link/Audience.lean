import PeerMessaging.Proofs.Link.Notifying

/-!
# Events in an audience

An audience is a notifier. Its listeners behave as their parts say (`Audience.conduct`), what they
remember is who has which part and what has been logged, and everything that is done in an audience
(`Audience.Act`) is an act at the notifier, which has the registrations and the channels
(`Notifier.audience`, `Audience.shows_run`). So what comes of events and of changes while they are
delivered comes of them in an audience (`Notifier.events_reach_registered`).
-/

namespace PeerMessaging

/-- The audience at a notifier whose listeners remember its members and its log. -/
def Notifier.audience (n : Notifier Audience) : Audience :=
  { n.memory with
    listeners := n.listeners
    members := n.memory.members.mapIdx fun id m => { m with channel := n.channels id } }

namespace Audience

/-- What is done in an audience. -/
inductive Act
  | make (label : String) (part : Part) (reaction : Reaction)
  | react (reaction : Reaction)
  | raise (event : Event)
  | takeEvents (label : String)
  | dropChannel (label : String)

/-- The event that is raised. -/
def Act.event? : Act → Option Event
  | raise event => some event
  | _ => none

/-- What comes of an act. -/
def act (a : Audience) : Act → Audience
  | .make label part reaction => a.make label part reaction
  | .react reaction => a.react reaction
  | .raise event => a.raise event
  | .takeEvents label => (a.takeEvents label).2
  | .dropChannel label => a.dropChannel label

/-- What comes of acts, one after another. -/
def run (a : Audience) (acts : List Act) : Audience := acts.foldl act a

/-- The parts of the members. -/
def parts (a : Audience) : List Part := a.members.map (·.part)

/-- Registers the listener of a label, and remembers the audience. -/
def adding (a : Audience) (label : String) : Script Audience :=
  match a.find? label with
  | some id => .add (a.listenerAt id) (.done a)
  | none => .done a

/-- Reacts, and remembers the audience. -/
def reacting (a : Audience) : Reaction → Script Audience
  | .nothing => .done a
  | .add label => a.adding label
  | .remove label =>
    match a.find? label with
    | some id => .remove id fun _ => .done a
    | none => .done a
  | .make label part reaction => (a.make label part reaction).adding label

/-- How the members behave. -/
def conduct (a : Audience) : Conduct Audience where
  isChannel id := a.parts[id]? = some .channel
  callback l event now :=
    match now.members[l.id]? with
    | some m => { now with log := now.log ++ [(m.label, event)] }.reacting m.reaction
    | none => .done now

/-! ## What an audience keeps -/

/-- The listener is a member, and it is interested in what its part is about. -/
def Known (a : Audience) (l : Listener) : Prop :=
  ∃ part, a.parts[l.id]? = some part ∧ part.interest = l.interest

/-- Members keep their parts, and nobody but members is registered. -/
structure Keeps (a b : Audience) : Prop where
  part : ∀ {id : Nat} {part : Part}, a.parts[id]? = some part → b.parts[id]? = some part
  known : (∀ l ∈ a.listeners.registered, a.Known l) → ∀ l ∈ b.listeners.registered, b.Known l

section
variable {a b c final : Audience} {l : Listener} {label : String} {id : Nat}

theorem Known.mono (h : a.Known l) (hab : Keeps a b) : b.Known l := by
  obtain ⟨part, hpart, hinterest⟩ := h
  exact ⟨part, hab.part hpart, hinterest⟩

/-- The listener of a label is a member. -/
theorem known_listenerAt (h : a.find? label = some id) : a.Known (a.listenerAt id) := by
  have hlabel := List.find?_some h
  cases hm : a.members[id]? with
  | none => simp [hm] at hlabel
  | some m => exact ⟨m.part, by simp [parts, listenerAt, hm], by simp [listenerAt, hm]⟩

namespace Keeps

protected theorem refl (a : Audience) : Keeps a a := ⟨id, id⟩

theorem trans (h : Keeps a b) (h' : Keeps b c) : Keeps a c := ⟨h'.part ∘ h.part, h'.known ∘ h.known⟩

/-- Members have been added, if there is any change to them, and there is none to the
registrations. -/
theorem of_parts (more : List Part) (hparts : b.parts = a.parts ++ more)
    (hlisteners : b.listeners = a.listeners) : Keeps a b := by
  have hpart {id : Nat} {part : Part} (h : a.parts[id]? = some part) :
      b.parts[id]? = some part := by
    obtain ⟨hlt, rfl⟩ := List.getElem?_eq_some_iff.1 h
    rw [hparts, List.getElem?_append_left hlt, List.getElem?_eq_getElem hlt]
  refine ⟨hpart, fun hknown l hl => ?_⟩
  obtain ⟨part, h, hinterest⟩ := hknown l (hlisteners ▸ hl)
  exact ⟨part, hpart h, hinterest⟩

theorem make (a : Audience) (label : String) (part : Part) (reaction : Reaction) :
    Keeps a (a.make label part reaction) :=
  .of_parts [part] (by simp [parts, Audience.make]) rfl

theorem withChannel (a : Audience) (id : Nat) (f : EventChannel → EventChannel) :
    Keeps a (a.withChannel id f) := by
  refine .of_parts [] ?_ rfl
  rw [List.append_nil]
  refine List.ext_getElem? fun i => ?_
  simp only [parts, Audience.withChannel, List.getElem?_map, List.getElem?_modify]
  cases a.members[i]? <;> simp [apply_ite Member.part]

theorem add (a : Audience) (label : String) : Keeps a (a.add label) := by
  unfold Audience.add
  split
  · rename_i hfind
    refine ⟨id, fun hknown l hl => ?_⟩
    rcases List.mem_append.1 hl with hl | hl
    · exact hknown l hl
    · obtain rfl := List.mem_singleton.1 hl
      exact known_listenerAt hfind
  · exact .refl a

theorem remove (a : Audience) (label : String) : Keeps a (a.remove label).2 := by
  unfold Audience.remove
  split
  · exact ⟨id, fun hknown l hl => hknown l ((List.mem_filter.1 hl).1)⟩
  · exact .refl a

theorem react (a : Audience) (reaction : Reaction) : Keeps a (a.react reaction) := by
  cases reaction with
  | nothing => exact .refl a
  | add label => exact .add a label
  | remove label => exact .remove a label
  | make label part reaction => exact (Keeps.make a label part reaction).trans (.add _ label)

theorem tell (a : Audience) (l : Listener) (event : Event) : Keeps a (tell l event a) := by
  unfold Audience.tell
  split
  · exact .refl a
  · rename_i m _
    split
    · split
      · exact .withChannel a l.id _
      · have hlog : Keeps a { a with log := a.log ++ [(m.label, event)] } := ⟨id, id⟩
        exact hlog.trans (.react _ m.reaction)
    · exact .refl a

theorem foldl_tell (a : Audience) (ls : List Listener) (event : Event) :
    Keeps a (ls.foldl (fun a l => Audience.tell l event a) a) := by
  induction ls generalizing a with
  | nil => exact .refl a
  | cons l ls ih => exact (Keeps.tell a l event).trans (ih _)

theorem act (a : Audience) (act : Act) : Keeps a (a.act act) := by
  cases act with
  | make label part reaction => exact .make a label part reaction
  | react reaction => exact .react a reaction
  | raise event => exact .foldl_tell a _ event
  | takeEvents label =>
    change Keeps a (a.takeEvents label).2
    unfold takeEvents
    split
    · exact .refl a
    · exact .withChannel a _ fun c => (c.take _).2
  | dropChannel label =>
    change Keeps a (a.dropChannel label)
    unfold dropChannel
    split
    · exact .withChannel a _ _
    · exact .refl a

theorem run (a : Audience) (acts : List Act) : Keeps a (a.run acts) := by
  induction acts generalizing a with
  | nil => exact .refl a
  | cons act acts ih => exact (Keeps.act a act).trans (ih _)

end Keeps

end

/-! ## The notifier of an audience -/

/-- The audience is the one at the notifier, and only its members have used their channels. -/
structure Shows (n : Notifier Audience) (a : Audience) : Prop where
  audience_eq : n.audience = a
  unused : ∀ id, a.members.length ≤ id → n.channels id = {}

section
variable {n : Notifier Audience} {a final now : Audience} {l : Listener} {event : Event}
  {label : String} {id : Nat}

theorem members_audience (n : Notifier Audience) (id : Nat) : n.audience.members[id]? =
    (n.memory.members[id]?).map fun m => { m with channel := n.channels id } :=
  List.getElem?_mapIdx

theorem length_audience (n : Notifier Audience) :
    n.audience.members.length = n.memory.members.length := List.length_mapIdx

theorem lt_of_find? (h : a.find? label = some id) : id < a.members.length := by
  obtain ⟨part, hpart, -⟩ := known_listenerAt h
  simpa [parts, listenerAt] using (List.getElem?_eq_some_iff.1 hpart).1

namespace Shows

theorem find?_eq (h : Shows n a) (label : String) : n.memory.find? label = a.find? label := by
  rw [← h.audience_eq]
  simp [find?, length_audience, members_audience, Option.any_map]

theorem listenerAt_eq (h : Shows n a) (id : Nat) : n.memory.listenerAt id = a.listenerAt id := by
  rw [← h.audience_eq]
  cases hm : n.memory.members[id]? <;> simp [listenerAt, members_audience, hm]

theorem listeners_eq (h : Shows n a) : n.listeners = a.listeners :=
  congrArg Audience.listeners h.audience_eq

theorem log_eq (h : Shows n a) : n.memory.log = a.log := by
  rw [← h.audience_eq]
  rfl

theorem note (h : Shows n a) (entry : Notifier.Entry) : Shows (n.note entry) a :=
  ⟨h.audience_eq, h.unused⟩

theorem setListeners (h : Shows n a) (listeners : Listeners) :
    Shows { n with listeners } { a with listeners } :=
  ⟨congrArg (fun a : Audience => { a with listeners }) h.audience_eq, h.unused⟩

theorem setLog (h : Shows n a) (log : List (String × Event)) :
    Shows (n.remember { n.memory with log }) { a with log } :=
  ⟨congrArg (fun a : Audience => { a with log }) h.audience_eq, h.unused⟩

theorem setChannel (h : Shows n a) (hid : id < a.members.length)
    (f : EventChannel → EventChannel) :
    Shows (n.setChannel id (f (n.channels id))) (a.withChannel id f) where
  audience_eq := by
    have hmembers : (n.setChannel id (f (n.channels id))).audience.members =
        (n.audience.withChannel id f).members := by
      refine List.ext_getElem? fun i => ?_
      simp only [members_audience, withChannel, List.getElem?_modify, Notifier.setChannel]
      by_cases hi : i = id
      · cases n.memory.members[i]? <;> simp [hi]
      · cases n.memory.members[i]? <;> simp [hi, Ne.symm hi]
    rw [← h.audience_eq]
    exact congrArg (fun members => { n.audience with members }) hmembers
  unused i hi := by
    have hle : a.members.length ≤ i := by simpa [withChannel] using hi
    exact (if_neg (by omega)).trans (h.unused i hle)

theorem make (h : Shows (n.remember now) a) (label : String) (part : Part) (reaction : Reaction) :
    Shows (n.remember (now.make label part reaction)) (a.make label part reaction) where
  audience_eq := by
    have hnew : n.channels now.members.length = {} :=
      h.unused _ (by rw [← h.audience_eq]; exact Nat.le_of_eq (length_audience _))
    rw [← h.audience_eq]
    simp [Notifier.audience, Notifier.remember, Audience.make, List.mapIdx_concat, hnew]
  unused i hi := h.unused i (Nat.le_of_succ_le (by simpa [Audience.make] using hi))

theorem adding (h : Shows (n.remember now) a) (label : String) :
    Shows (n.perform (now.adding label)) (a.add label) := by
  have hfind : now.find? label = a.find? label := h.find?_eq label
  simp only [Audience.adding, Audience.add, hfind]
  cases a.find? label with
  | none => exact h
  | some id =>
    have hl : now.listenerAt id = a.listenerAt id := h.listenerAt_eq id
    simp only [hl, ← h.listeners_eq]
    exact (h.setListeners _).note _

theorem reacting (h : Shows (n.remember now) a) (reaction : Reaction) :
    Shows (n.perform (now.reacting reaction)) (a.react reaction) := by
  cases reaction with
  | nothing => exact h
  | add label => exact h.adding label
  | remove label =>
    have hfind : now.find? label = a.find? label := h.find?_eq label
    simp only [Audience.reacting, react, remove, hfind]
    cases a.find? label with
    | none => exact h
    | some id =>
      simp only [← h.listeners_eq]
      exact (h.setListeners _).note _
  | make label part reaction => exact (h.make label part reaction).adding label

/-- A member is told of an event in the audience as it is at the notifier. -/
theorem tell (h : Shows n a) (hl : a.Known l) (hfinal : Keeps a final) (event : Event) :
    Shows (n.tell final.conduct l event) (tell l event a) := by
  obtain ⟨part, hpart, hinterest⟩ := hl
  have hchannel : final.conduct.isChannel l.id = decide (part = .channel) := by
    simp [conduct, hfinal.part hpart]
  obtain ⟨m, hm, rfl⟩ : ∃ m, a.members[l.id]? = some m ∧ m.part = part := by
    simpa [parts] using hpart
  obtain ⟨m', hm', rfl⟩ : ∃ m', n.memory.members[l.id]? = some m' ∧
      { m' with channel := n.channels l.id } = m := by
    rw [← h.audience_eq, members_audience] at hm
    simpa using hm
  unfold Notifier.tell Audience.tell
  simp only [hm, hchannel]
  by_cases hpart : m'.part = .channel
  · have hcovers : l.interest.covers event = true := by
      rw [← hinterest, hpart]
      rfl
    simp only [hpart, hcovers, if_pos, decide_true]
    have hsend := h.setChannel (List.getElem?_eq_some_iff.1 hm).1 fun c => c.send event
    exact hsend.note _
  · simp only [hpart, decide_false, Bool.false_eq_true, if_false]
    split
    · have hcallback : final.conduct.callback l event n.memory =
          { n.memory with log := n.memory.log ++ [(m'.label, event)] }.reacting m'.reaction := by
        simp [conduct, hm']
      rw [hcallback]
      rw [← h.log_eq]
      exact Shows.reacting (((h.note _).note _).setLog _) m'.reaction
    · exact h.note _

theorem foldl_tell (h : Shows n a) {ls : List Listener} (hls : ∀ l ∈ ls, a.Known l) (event : Event)
    (hfinal : Keeps (ls.foldl (fun a l => Audience.tell l event a) a) final) :
    Shows (ls.foldl (fun n l => n.tell final.conduct l event) n)
      (ls.foldl (fun a l => Audience.tell l event a) a) := by
  induction ls generalizing n a with
  | nil => exact h
  | cons l ls ih =>
    have hkeeps : Keeps a (Audience.tell l event a) := .tell a l event
    exact ih (h.tell (hls l (.head _)) (hkeeps.trans ((Keeps.foldl_tell _ ls event).trans hfinal))
      event) (fun l' hl' => (hls l' (.tail _ hl')).mono hkeeps) hfinal

/-- An act in the audience is an act at the notifier. -/
theorem act (h : Shows n a) (hknown : ∀ l ∈ a.listeners.registered, a.Known l) (act : Act)
    (hfinal : Keeps (a.act act) final) :
    ∃ act' : Notifier.Act Audience, act'.event? = act.event? ∧
      Shows (n.act final.conduct act') (a.act act) := by
  have hremember : Shows (n.remember n.memory) a := h
  cases act with
  | make label part reaction =>
    exact ⟨.perform fun now => .done (now.make label part reaction), rfl,
      hremember.make label part reaction⟩
  | react reaction =>
    exact ⟨.perform fun now => now.reacting reaction, rfl, hremember.reacting reaction⟩
  | raise event =>
    refine ⟨.raise event, rfl, ?_⟩
    have hraised := h.note (.raised event)
    simp only [Notifier.act, Notifier.raise, Listeners.raise, hraised.listeners_eq]
    exact hraised.foldl_tell hknown event hfinal
  | takeEvents label =>
    simp only [Audience.act, takeEvents]
    cases hfind : a.find? label with
    | none => exact ⟨.perform .done, rfl, h⟩
    | some id =>
      have htake (count : Nat) := h.setChannel (lt_of_find? hfind) fun c => (c.take count).2
      exact ⟨.perform fun now => .receive id _ fun _ => .done now, rfl, (htake _).note _⟩
  | dropChannel label =>
    simp only [Audience.act, dropChannel]
    cases hfind : a.find? label with
    | none => exact ⟨.perform .done, rfl, h⟩
    | some id =>
      exact ⟨.perform fun now => .hangUp id (.done now), rfl,
        h.setChannel (lt_of_find? hfind) EventChannel.drop⟩

end Shows

/-- What is done in an audience is done at its notifier. -/
theorem shows_run (h : Shows n a) (hknown : ∀ l ∈ a.listeners.registered, a.Known l)
    (acts : List Act) : ∃ acts' : List (Notifier.Act Audience),
      acts'.filterMap Notifier.Act.event? = acts.filterMap Act.event? ∧
        Shows (n.run (a.run acts).conduct acts') (a.run acts) := by
  -- The members behave as their parts say in the end, for they keep them.
  suffices hrun : ∀ final, Keeps (a.run acts) final → ∃ acts' : List (Notifier.Act Audience),
      acts'.filterMap Notifier.Act.event? = acts.filterMap Act.event? ∧
        Shows (n.run final.conduct acts') (a.run acts) from hrun _ (.refl _)
  induction acts generalizing n a with
  | nil => exact fun _ _ => ⟨[], rfl, h⟩
  | cons act acts ih =>
    intro final hfinal
    have hkeeps : Keeps (a.act act) final := (Keeps.run (a.act act) acts).trans hfinal
    obtain ⟨act', hevent, hact⟩ := h.act hknown act hkeeps
    obtain ⟨acts', hevents, hacts⟩ := ih hact ((Keeps.act a act).known hknown) final hfinal
    exact ⟨act' :: acts', by simp only [List.filterMap_cons, hevent, hevents], hacts⟩

end

end Audience

/-- Whatever listeners do to the registrations while they are told of an event, and whatever is done
in between: an event is told to those who were registered when it was raised, once for each
registration, in the order of the registrations, and to nobody else. They react only to what is of
interest to them, and from a channel come the events in the order in which they were raised, all of
them if its listener is always registered once. A removal takes away every registration of a
listener, and no other. All of that is so in an audience. -/
theorem Notifier.events_reach_registered {κ : Type} (conduct : Conduct κ) (n : Notifier κ)
    (acts : List (Notifier.Act κ)) :
    (∃ journal : List Notifier.Entry,
      (n.run conduct acts).journal = n.journal ++ journal ∧
      events journal = acts.filterMap Notifier.Act.event? ∧
      (n.run conduct acts).listeners.registered = registered n.listeners.registered journal ∧
      Delivers n.listeners.registered journal ∧
      Answered n.listeners.registered journal ∧
      reactions journal = (tellings journal).filter conduct.reacts ∧
      ∀ id, conduct.isChannel id = true → ((n.run conduct acts).channels id).dropped = false →
        (n.channels id).waiting ++ heard id n.listeners.registered journal =
          receivedFrom id journal ++ ((n.run conduct acts).channels id).waiting ∧
        ((∀ before after, journal = before ++ after →
            (registered n.listeners.registered before).countP (·.id = id) = 1) →
          heard id n.listeners.registered journal = events journal)) ∧
    (∀ (ls : Listeners) (id : Nat),
      (ls.remove id).2.registered.Sublist ls.registered ∧
      (∀ l, (ls.remove id).2.registered.count l =
        if l.id = id then 0 else ls.registered.count l) ∧
      ((ls.remove id).1 = true ↔ ∃ l ∈ ls.registered, l.id = id)) ∧
    ∀ deeds : List Audience.Act, ∃ acts' : List (Notifier.Act Audience),
      acts'.filterMap Notifier.Act.event? = deeds.filterMap Audience.Act.event? ∧
      (Notifier.run (({} : Audience).run deeds).conduct ⟨{}, fun _ => {}, {}, []⟩ acts').audience =
        ({} : Audience).run deeds := by
  refine ⟨?_, fun ls id => ⟨ls.sublist_remove id, ls.count_remove id, ls.remove_found_iff id⟩,
    fun deeds => ?_⟩
  · obtain ⟨journal, hgoes, hevents, hdelivers⟩ := delivers_run conduct n acts
    refine ⟨journal, hgoes.journal_eq, hevents, hgoes.registered_eq, hdelivers, hgoes.answered,
      hgoes.reactions_eq, fun id hid hopen => ⟨?_, heard_eq_events⟩⟩
    rw [← hdelivers.toldTo_eq id]
    exact (hgoes.channel id hid hopen).2
  · obtain ⟨acts', hevents, hshows⟩ := Audience.shows_run (n := ⟨{}, fun _ => {}, {}, []⟩)
      ⟨rfl, fun _ _ => rfl⟩ nofun deeds
    exact ⟨acts', hevents, hshows.audience_eq⟩

/-- The first removes the next when it is told of a state. The next is told of that state
nevertheless, but not of the state after it. -/
example : (({} : Audience).run
    [.make "next" .recorder .nothing, .react (.make "first" .recorder (.remove "next")),
      .react (.add "next"), .raise (.state .listening), .raise (.state .connected)]).log =
    [("first", .state .listening), ("next", .state .listening),
      ("first", .state .connected)] := by
  cbv

end PeerMessaging
