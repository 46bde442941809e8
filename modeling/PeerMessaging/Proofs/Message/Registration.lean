import PeerMessaging.Message.Registry

/-!
# Histories of registries

A registry takes up codecs in any order and under any ids, is cloned, and goes on beside its clones
(`Registry.Action`). What each of the registries knows is decided by the calls that it has seen,
those of the registry it was cloned from included (`Registry.seen`): the first call that uses an id
gives it its codec, and the ids are listed in ascending order (`Registry.Follows`). A call keeps
this (`Registry.Follows.perform`), and so does every history (`Registry.follows_run`), however the
calls on the registries are mixed (`Registry.first_registration_stays`).
-/

namespace PeerMessaging.Registry

/-! ## Entries in order -/

section
variable {entries : List (UInt32 × Codec)} {typeId id : UInt32} {codec : Codec}

theorem mem_map_insertEntry :
    id ∈ (insertEntry typeId codec entries).map (·.1) ↔ id = typeId ∨ id ∈ entries.map (·.1) := by
  induction entries with
  | nil => simp [insertEntry]
  | cons entry entries ih =>
    rw [insertEntry]
    split
    · rw [List.map_cons, List.mem_cons]
    · rw [List.map_cons, List.mem_cons, ih, List.map_cons, List.mem_cons]
      exact or_left_comm

/-- An entry under a new id is put where the ids stay in ascending order. -/
theorem pairwise_insertEntry (h : (entries.map (·.1)).Pairwise (· < ·))
    (hn : typeId ∉ entries.map (·.1)) :
    ((insertEntry typeId codec entries).map (·.1)).Pairwise (· < ·) := by
  induction entries with
  | nil => exact List.pairwise_singleton ..
  | cons entry entries ih =>
    rw [List.map_cons, List.pairwise_cons] at h
    rw [List.map_cons, List.mem_cons, not_or] at hn
    rw [insertEntry]
    split
    · rename_i hlt
      rw [List.map_cons, List.map_cons, List.pairwise_cons, List.pairwise_cons]
      refine ⟨fun id hid => ?_, h⟩
      rcases List.mem_cons.1 hid with rfl | hid
      · exact hlt
      · exact UInt32.lt_trans hlt (h.1 id hid)
    · rename_i hge
      rw [List.map_cons, List.pairwise_cons]
      refine ⟨fun id hid => ?_, ih h.2 hn.2⟩
      rcases mem_map_insertEntry.1 hid with rfl | hid
      · exact UInt32.lt_of_le_of_ne (UInt32.not_lt.1 hge) (Ne.symm hn.1)
      · exact h.1 id hid

theorem lookup_cons_eq (entries : List (UInt32 × Codec)) (k id : UInt32) (c : Codec) :
    ((k, c) :: entries).lookup id = if k = id then some c else entries.lookup id := by
  rw [List.lookup_cons]
  split <;> rename_i h
  · rw [if_pos (eq_of_beq h).symm]
  · rw [if_neg (ne_of_beq_false h).symm]

/-- An entry under a new id is found under it, and the others are found as before. -/
theorem lookup_insertEntry (hn : typeId ∉ entries.map (·.1)) (codec : Codec) (id : UInt32) :
    (insertEntry typeId codec entries).lookup id =
      if typeId = id then some codec else entries.lookup id := by
  induction entries with
  | nil => exact lookup_cons_eq [] typeId id codec
  | cons entry entries ih =>
    obtain ⟨k, c⟩ := entry
    rw [List.map_cons, List.mem_cons, not_or] at hn
    rw [insertEntry]
    split
    · exact lookup_cons_eq _ typeId id codec
    · rw [lookup_cons_eq, lookup_cons_eq, ih hn.2]
      by_cases h : k = id
      · rw [if_pos h, if_pos h, if_neg fun he => hn.1 (he.trans h.symm)]
      · rw [if_neg h, if_neg h]

/-- The ids are those under which a codec is found. -/
theorem mem_typeIds_iff {r : Registry} : id ∈ r.typeIds ↔ (r.find? id).isSome := by
  rw [find?, List.lookup_isSome_iff, typeIds, List.mem_map]
  simp only [beq_iff_eq, @eq_comm _ id]

end

/-! ## Messages and frames -/

section
variable {r : Registry} {m : Message} {f : Frame} {codec : Codec}

/-- A message is encoded by the codec of its id. -/
theorem encode_of_some (h : r.find? m.typeId = some codec) :
    r.encode m =
      match codec.encode m.body with
      | .ok payload => .ok ⟨m.typeId, payload⟩
      | .error cause => .error (.encode m.typeId cause) := by
  rw [encode, h]
  cases hc : codec.encode m.body <;> simp only [hc]

/-- A frame is decoded by the codec of its id. -/
theorem decode_of_some (h : r.find? f.typeId = some codec) :
    r.decode f =
      match codec.decode f.payload with
      | .ok body => .ok ⟨f.typeId, body⟩
      | .error cause => .error (.decode f.typeId cause) := by
  rw [decode, h]
  cases hc : codec.decode f.payload <;> simp only [hc]

/-- A message is refused as unknown just when its id is not listed. -/
theorem encode_eq_unknownType_iff :
    (∃ id, r.encode m = .error (.unknownType id)) ↔ m.typeId ∉ r.typeIds := by
  rw [mem_typeIds_iff]
  cases h : r.find? m.typeId with
  | none => simp [encode, h]
  | some codec =>
    rw [encode_of_some h]
    cases codec.encode m.body <;> simp

/-- A frame is refused as unknown just when its id is not listed. -/
theorem decode_eq_unknownType_iff :
    (∃ id, r.decode f = .error (.unknownType id)) ↔ f.typeId ∉ r.typeIds := by
  rw [mem_typeIds_iff]
  cases h : r.find? f.typeId with
  | none => simp [decode, h]
  | some codec =>
    rw [decode_of_some h]
    cases codec.decode f.payload <;> simp

end

/-! ## Calls and clones -/

/-- How a registry is given a codec. -/
inductive Call
  | register (typeId : UInt32) (codec : Codec)
  /-- With a codec that other registries may hold too. -/
  | registerShared (typeId : UInt32) (codec : Codec)
  | registerNamed (codec : Codec)

namespace Call

/-- The id that a call uses. -/
def typeId : Call → UInt32
  | register typeId _ | registerShared typeId _ => typeId
  | registerNamed codec => typeIdOfName codec.typeName

/-- The codec that a call brings. -/
def codec : Call → Codec
  | register _ codec | registerShared _ codec | registerNamed codec => codec

/-- What a call that is not refused answers: the id, if the caller has not given it. -/
def answer : Call → Option UInt32
  | register _ _ | registerShared _ _ => none
  | registerNamed codec => some (typeIdOfName codec.typeName)

end Call

/-- What comes of a call. -/
def perform (r : Registry) : Call → Except RegistryError (Option UInt32) × Registry
  | .register typeId codec | .registerShared typeId codec =>
    let (result, r) := r.register typeId codec
    (result.map fun () => none, r)
  | .registerNamed codec =>
    let (result, r) := r.registerNamed codec
    (result.map some, r)

/-- An action in a history of registries, which are known by their numbers. -/
inductive Action
  | call (number : Nat) (call : Call)
  /-- The clone is given the next number. -/
  | clone (number : Nat)

/-- The registries after an action. -/
def after (registries : List Registry) : Action → List Registry
  | .call i c => registries.modify i fun r => (r.perform c).2
  | .clone i => registries ++ registries[i]?.toList

/-- The registries after actions, from a single one on that is empty. -/
def run (actions : List Action) : List Registry := actions.foldl after [empty]

/-- The calls that the registries have seen after an action. -/
def seenAfter (seen : List (List Call)) : Action → List (List Call)
  | .call i c => seen.modify i (· ++ [c])
  | .clone i => seen ++ seen[i]?.toList

/-- The calls that each registry has seen after actions. A clone has seen what the registry had seen
of which it was made. -/
def seen (actions : List Action) : List (List Call) := actions.foldl seenAfter [[]]

/-- The first of some calls that uses an id. -/
def first? (calls : List Call) (id : UInt32) : Option Call := calls.find? (·.typeId = id)

section
variable {r : Registry} {calls : List Call} {c : Call} {id : UInt32}

/-- A call under an id that is taken is refused before anything is registered. -/
theorem perform_of_some {existing : Codec} (h : r.find? c.typeId = some existing) :
    r.perform c = (.error (.duplicateType c.typeId existing.typeName), r) := by
  cases c <;> simp only [Call.typeId] at h <;>
    simp only [perform, registerNamed, register, h, Except.map, Call.typeId]

/-- Any other call adds its codec. -/
theorem perform_of_none (h : r.find? c.typeId = none) :
    r.perform c = (.ok c.answer, ⟨insertEntry c.typeId c.codec r.entries⟩) := by
  cases c <;> simp only [Call.typeId] at h <;>
    simp only [perform, registerNamed, register, h, Except.map, Call.typeId, Call.answer,
      Call.codec]

/-! ## What a registry knows -/

/-- The registry knows what these calls have brought: the codec under an id is that of the first
call that used it, and the ids are in ascending order. -/
structure Follows (r : Registry) (calls : List Call) : Prop where
  find?_eq : ∀ id, r.find? id = (first? calls id).map (·.codec)
  pairwise : r.typeIds.Pairwise (· < ·)

namespace Follows

theorem empty : Follows empty [] := ⟨fun _ => rfl, .nil⟩

/-- The ids are those that calls have used. -/
theorem mem_typeIds_iff (h : r.Follows calls) : id ∈ r.typeIds ↔ ∃ c ∈ calls, c.typeId = id := by
  rw [Registry.mem_typeIds_iff, h.find?_eq, Option.isSome_map, first?, List.find?_isSome]
  simp only [decide_eq_true_iff]

/-- A call is refused if an earlier one has used its id. -/
theorem perform_of_some {first : Call} (h : r.Follows calls)
    (hf : first? calls c.typeId = some first) :
    r.perform c = (.error (.duplicateType c.typeId first.codec.typeName), r) :=
  Registry.perform_of_some (by rw [h.find?_eq, hf]; rfl)

/-- A call is not refused if no earlier one has used its id. -/
theorem perform_of_none (h : r.Follows calls) (hf : first? calls c.typeId = none) :
    (r.perform c).1 = .ok c.answer := by
  rw [Registry.perform_of_none (by rw [h.find?_eq, hf]; rfl)]

/-- A call by name answers the hash of the name. -/
theorem typeId_of_registerNamed (h : r.Follows calls) {codec : Codec}
    (ha : (r.perform (.registerNamed codec)).1 = .ok (some id)) :
    id = typeIdOfName codec.typeName := by
  cases hf : first? calls (Call.registerNamed codec).typeId with
  | none =>
    rw [h.perform_of_none hf] at ha
    cases ha
    rfl
  | some first =>
    rw [h.perform_of_some hf] at ha
    cases ha

/-- A registry goes on knowing what calls have brought. -/
theorem perform (h : r.Follows calls) (c : Call) : (r.perform c).2.Follows (calls ++ [c]) := by
  have hfirst (id : UInt32) : first? (calls ++ [c]) id =
      (first? calls id).or (if c.typeId = id then some c else none) := by
    rw [first?, List.find?_append, List.find?_singleton, first?]
    simp only [decide_eq_true_iff]
  cases hf : first? calls c.typeId with
  | some first =>
    rw [h.perform_of_some hf]
    refine ⟨fun id => ?_, h.pairwise⟩
    rw [hfirst, h.find?_eq]
    by_cases hid : c.typeId = id
    · subst hid
      rw [hf]
      rfl
    · rw [if_neg hid, Option.or_none]
  | none =>
    have hnone : r.find? c.typeId = none := by rw [h.find?_eq, hf]; rfl
    have hnew : c.typeId ∉ r.typeIds := by
      rw [Registry.mem_typeIds_iff, hnone]
      nofun
    rw [Registry.perform_of_none hnone]
    refine ⟨fun id => ?_, pairwise_insertEntry h.pairwise hnew⟩
    have hlookup : find? ⟨insertEntry c.typeId c.codec r.entries⟩ id =
        if c.typeId = id then some c.codec else r.find? id := lookup_insertEntry hnew c.codec id
    rw [hlookup, hfirst, h.find?_eq]
    by_cases hid : c.typeId = id
    · subst hid
      rw [if_pos rfl, if_pos rfl, hf]
      rfl
    · rw [if_neg hid, if_neg hid, Option.or_none]

/-- A message goes to the codec of the first call that has used its id. -/
theorem encode_of_first? (h : r.Follows calls) {m : Message} {first : Call}
    (hf : first? calls m.typeId = some first) :
    r.encode m =
      match first.codec.encode m.body with
      | .ok payload => .ok ⟨m.typeId, payload⟩
      | .error cause => .error (.encode m.typeId cause) :=
  encode_of_some (by rw [h.find?_eq, hf]; rfl)

/-- A frame goes to the codec of the first call that has used its id. -/
theorem decode_of_first? (h : r.Follows calls) {f : Frame} {first : Call}
    (hf : first? calls f.typeId = some first) :
    r.decode f =
      match first.codec.decode f.payload with
      | .ok body => .ok ⟨f.typeId, body⟩
      | .error cause => .error (.decode f.typeId cause) :=
  decode_of_some (by rw [h.find?_eq, hf]; rfl)

end Follows

end

/-! ## Histories -/

section
variable {registries : List Registry} {seen : List (List Call)}

/-- There are as many registries as records of calls, and each knows what its calls have brought. -/
structure AllFollow (registries : List Registry) (seen : List (List Call)) : Prop where
  length_eq : registries.length = seen.length
  follows : ∀ {i : Nat} {r : Registry} {calls : List Call}, registries[i]? = some r →
    seen[i]? = some calls → r.Follows calls

namespace AllFollow

/-- Every registry has a record. -/
theorem exists_seen (h : AllFollow registries seen) {i : Nat} {r : Registry}
    (hr : registries[i]? = some r) : ∃ calls, seen[i]? = some calls ∧ r.Follows calls := by
  have hi : i < seen.length := h.length_eq ▸ (List.getElem?_eq_some_iff.1 hr).1
  exact ⟨_, List.getElem?_eq_getElem hi, h.follows hr (List.getElem?_eq_getElem hi)⟩

/-- A new registry and its record may be put behind the others. -/
theorem concat (h : AllFollow registries seen) {r : Registry} {calls : List Call}
    (hr : r.Follows calls) : AllFollow (registries ++ [r]) (seen ++ [calls]) := by
  refine ⟨by simp [h.length_eq], fun {j r' calls'} hr' hc' => ?_⟩
  rcases Nat.lt_trichotomy j registries.length with hj | rfl | hj
  · rw [List.getElem?_append_left hj] at hr'
    rw [List.getElem?_append_left (h.length_eq ▸ hj)] at hc'
    exact h.follows hr' hc'
  · rw [List.getElem?_concat_length] at hr'
    rw [h.length_eq, List.getElem?_concat_length] at hc'
    cases hr'
    cases hc'
    exact hr
  · rw [List.getElem?_eq_none (by simp; omega)] at hr'
    cases hr'

/-- An action keeps this. -/
theorem after (h : AllFollow registries seen) (a : Action) :
    AllFollow (after registries a) (seenAfter seen a) := by
  cases a with
  | call i c =>
    refine ⟨by simp [Registry.after, seenAfter, h.length_eq], fun {j r calls} hr hc => ?_⟩
    rw [Registry.after, List.getElem?_modify, Option.map_eq_map, Option.map_eq_some_iff] at hr
    rw [seenAfter, List.getElem?_modify, Option.map_eq_map, Option.map_eq_some_iff] at hc
    obtain ⟨r₀, hr₀, rfl⟩ := hr
    obtain ⟨calls₀, hc₀, rfl⟩ := hc
    have h₀ := h.follows hr₀ hc₀
    by_cases hij : i = j
    · rw [if_pos hij, if_pos hij]
      exact h₀.perform c
    · rw [if_neg hij, if_neg hij]
      exact h₀
  | clone i =>
    rw [Registry.after, seenAfter]
    cases hr : registries[i]? with
    | none =>
      have hi := List.getElem?_eq_none_iff.1 hr
      rw [List.getElem?_eq_none (h.length_eq ▸ hi), Option.toList_none, List.append_nil,
        Option.toList_none, List.append_nil]
      exact h
    | some r =>
      obtain ⟨calls, hc, hf⟩ := h.exists_seen hr
      rw [hc]
      exact h.concat hf

end AllFollow

end

/-- Every history keeps this. -/
theorem follows_run (actions : List Action) : AllFollow (run actions) (seen actions) := by
  have hfold (registries : List Registry) (calls : List (List Call))
      (h : AllFollow registries calls) :
      AllFollow (actions.foldl after registries) (actions.foldl seenAfter calls) := by
    induction actions generalizing registries calls with
    | nil => exact h
    | cons a actions ih => exact ih _ _ (h.after a)
  refine hfold [empty] [[]] ⟨rfl, fun {i r calls} hr hc => ?_⟩
  match i, hr, hc with
  | 0, rfl, rfl => exact .empty

/-- A registry is changed only by calls on it. -/
theorem getElem?_run_concat_of_ne {actions : List Action} {i : Nat} {r : Registry}
    (hr : (run actions)[i]? = some r) {a : Action} (ha : ∀ c, a ≠ .call i c) :
    (run (actions ++ [a]))[i]? = some r := by
  rw [run, List.foldl_append, ← run, List.foldl_cons, List.foldl_nil]
  cases a with
  | call j c =>
    have hij : j ≠ i := fun h => ha c (h ▸ rfl)
    rw [after, List.getElem?_modify, hr]
    simp only [Option.map_eq_map, Option.map_some, if_neg hij]
  | clone j =>
    rw [after, List.getElem?_append_left (List.getElem?_eq_some_iff.1 hr).1, hr]

/-- A clone is what it was made of. -/
theorem getElem?_run_clone {actions : List Action} {i : Nat} {r : Registry}
    (hr : (run actions)[i]? = some r) :
    (run (actions ++ [.clone i]))[(run actions).length]? = some r := by
  rw [run, List.foldl_append, ← run, List.foldl_cons, List.foldl_nil, after, hr]
  exact List.getElem?_concat_length

/-- The first registration stays, and one that is refused changes nothing. After any history of
calls on a registry and on clones made of it at any point, each registry is decided by the calls
that it has seen:

* under an id it holds the codec of the first call that used the id;
* a call is refused just when its id has been used, for the reason that the id is taken by the codec
  of that first call, and changes nothing then; a call that is not refused answers the id if it is
  by name, and that is the hash of the name;
* the ids are listed in ascending order, and are those that have been used;
* actions that are not calls on the registry, those on its clones among them, leave it as it is, and
  a clone begins as the registry that it is made of;
* a message or a frame is refused as unknown just when its id is not listed, and otherwise goes to
  the codec of the first call that used the id. -/
theorem first_registration_stays {actions : List Action} {i : Nat} {r : Registry}
    (hr : (run actions)[i]? = some r) :
    ∃ calls, (seen actions)[i]? = some calls ∧
      (∀ id, r.find? id = (first? calls id).map (·.codec)) ∧
      (∀ c : Call,
        (first? calls c.typeId = none → (r.perform c).1 = .ok c.answer) ∧
        ∀ first, first? calls c.typeId = some first →
          r.perform c = (.error (.duplicateType c.typeId first.codec.typeName), r)) ∧
      (∀ (codec : Codec) (id : UInt32), (r.perform (.registerNamed codec)).1 = .ok (some id) →
        id = (textBytes codec.typeName).foldl (fun h b => (h ^^^ b.toUInt32) * 16777619)
          2166136261) ∧
      (r.typeIds.Pairwise (· < ·) ∧ (∀ id, id ∈ r.typeIds ↔ ∃ c ∈ calls, c.typeId = id) ∧
        r.size = r.typeIds.length) ∧
      (∀ a : Action, (∀ c, a ≠ .call i c) → (run (actions ++ [a]))[i]? = some r) ∧
      (run (actions ++ [.clone i]))[(run actions).length]? = some r ∧
      (∀ m : Message,
        ((∃ id, r.encode m = .error (.unknownType id)) ↔ m.typeId ∉ r.typeIds) ∧
        ∀ first, first? calls m.typeId = some first →
          r.encode m =
            match first.codec.encode m.body with
            | .ok payload => .ok ⟨m.typeId, payload⟩
            | .error cause => .error (.encode m.typeId cause)) ∧
      ∀ f : Frame,
        ((∃ id, r.decode f = .error (.unknownType id)) ↔ f.typeId ∉ r.typeIds) ∧
        ∀ first, first? calls f.typeId = some first →
          r.decode f =
            match first.codec.decode f.payload with
            | .ok body => .ok ⟨f.typeId, body⟩
            | .error cause => .error (.decode f.typeId cause) := by
  obtain ⟨calls, hc, h⟩ := (follows_run actions).exists_seen hr
  refine ⟨calls, hc, h.find?_eq, fun c => ⟨h.perform_of_none, fun first => h.perform_of_some⟩,
    fun codec id => h.typeId_of_registerNamed, ⟨h.pairwise, fun id => h.mem_typeIds_iff, ?_⟩,
    fun a => getElem?_run_concat_of_ne hr, getElem?_run_clone hr,
    fun m => ⟨encode_eq_unknownType_iff, fun first => h.encode_of_first?⟩,
    fun f => ⟨decode_eq_unknownType_iff, fun first => h.decode_of_first?⟩⟩
  exact List.length_map _ |>.symm

/-- A registry whose clone is given another codec under the same id. -/
def contested : List Action :=
  [.call 0 (.register 7 (.raw "first")), .clone 0, .call 1 (.registerShared 7 (.raw "second")),
    .call 0 (.register 3 (.raw "other"))]

/-- The clone still holds the codec that it was cloned with, and not the one registered later on the
registry that it was made of. -/
theorem first_registration_stays_contested :
    (run contested)[1]? = some ⟨[(7, .raw "first")]⟩ ∧
      ∃ calls, (seen contested)[1]? = some calls ∧
        ∀ id, find? ⟨[(7, .raw "first")]⟩ id = (first? calls id).map (·.codec) := by
  have h : (run contested)[1]? = some ⟨[(7, .raw "first")]⟩ := rfl
  obtain ⟨calls, hc, hfind, -⟩ := first_registration_stays h
  exact ⟨h, calls, hc, hfind⟩

end PeerMessaging.Registry
