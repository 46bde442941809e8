import PeerMessaging.Proofs.Message.Registration

/-!
# Messages made by name

Names are turned into type ids by a hash, so that two names may have the same id, and a codec of any
name may be registered under the id of another. A message can still be made by a name only where the
codec under the id of the name has this very name (`Registry.hasTypeName_iff`). That codec stays, in
the registry and in whatever is cloned from it later (`Registry.Heir`, `Registry.Heir.find?_eq`). So
the message is encoded by it wherever it is encoded, and no other name with the same id can be used
instead (`Registry.named_message_keeps_its_codec`).
-/

namespace PeerMessaging.Registry

/-! ## Names -/

section
variable {r : Registry} {name : String} {body : Body}

/-- A name can be used if the codec under its id has it. -/
theorem hasTypeName_iff :
    r.hasTypeName name = true ↔
      ∃ codec, r.find? (typeIdOfName name) = some codec ∧ codec.typeName = name := by
  rw [hasTypeName, Option.any_eq_true]
  simp only [decide_eq_true_iff]

/-- A message is made by a name that can be used, under the id of the name. -/
theorem message_of_hasTypeName (h : r.hasTypeName name = true) :
    r.message name body = .ok ⟨typeIdOfName name, body⟩ := if_pos h

/-- No message is made by another name. -/
theorem message_of_not_hasTypeName (h : r.hasTypeName name = false) :
    r.message name body = .error (.unknownTypeName name) :=
  if_neg (Bool.not_eq_true _ ▸ h)

/-- A message is made by a name just when the name can be used. -/
theorem exists_message_iff : (∃ m, r.message name body = .ok m) ↔ r.hasTypeName name = true := by
  cases h : r.hasTypeName name with
  | true => exact ⟨fun _ => rfl, fun _ => ⟨_, message_of_hasTypeName h⟩⟩
  | false =>
    rw [message_of_not_hasTypeName h]
    simp

/-- A codec that is registered by name is found under the id of its name. -/
theorem find?_perform_registerNamed {codec : Codec} {id : UInt32}
    (h : (r.perform (.registerNamed codec)).1 = .ok (some id)) :
    (r.perform (.registerNamed codec)).2.find? (typeIdOfName codec.typeName) = some codec := by
  have hid : (Call.registerNamed codec).typeId = typeIdOfName codec.typeName := rfl
  cases hfind : r.find? (typeIdOfName codec.typeName) with
  | some existing =>
    rw [perform_of_some (c := .registerNamed codec) hfind] at h
    cases h
  | none =>
    have hnew : typeIdOfName codec.typeName ∉ r.typeIds := by
      rw [mem_typeIds_iff, hfind]
      nofun
    rw [perform_of_none (c := .registerNamed codec) hfind, hid, find?,
      lookup_insertEntry hnew, if_pos rfl]
    rfl

end

/-! ## What stays -/

/-- When a history has gone on, a registry is an heir of one that there was before if it has seen
all that the other had seen, and that before anything else. -/
def Heir (actions later : List Action) (i j : Nat) : Prop :=
  ∃ calls calls', (seen actions)[i]? = some calls ∧ (seen (actions ++ later))[j]? = some calls' ∧
    calls <+: calls'

section
variable {actions later : List Action} {i j : Nat} {r r' : Registry} {calls : List Call}

/-- An action adds to what a registry has seen. -/
theorem exists_seenAfter {lists : List (List Call)} (h : lists[i]? = some calls) (a : Action) :
    ∃ calls', (seenAfter lists a)[i]? = some calls' ∧ calls <+: calls' := by
  cases a with
  | call k c =>
    rw [seenAfter, List.getElem?_modify, h, Option.map_eq_map, Option.map_some]
    by_cases hk : k = i
    · rw [if_pos hk]
      exact ⟨_, rfl, List.prefix_append ..⟩
    · rw [if_neg hk]
      exact ⟨_, rfl, List.prefix_rfl⟩
  | clone k =>
    refine ⟨calls, ?_, List.prefix_rfl⟩
    rw [seenAfter, List.getElem?_append_left (List.getElem?_eq_some_iff.1 h).1, h]

/-- So do actions. -/
theorem exists_foldl_seenAfter {lists : List (List Call)} (h : lists[i]? = some calls)
    (later : List Action) :
    ∃ calls', (later.foldl seenAfter lists)[i]? = some calls' ∧ calls <+: calls' := by
  induction later generalizing lists calls with
  | nil => exact ⟨calls, h, List.prefix_rfl⟩
  | cons a later ih =>
    obtain ⟨calls', h', hprefix⟩ := exists_seenAfter h a
    obtain ⟨last, hlast, hprefix'⟩ := ih h'
    exact ⟨last, hlast, hprefix.trans hprefix'⟩

namespace Heir

/-- A registry is its own heir. -/
theorem self (hr : (run actions)[i]? = some r) (later : List Action) : Heir actions later i i := by
  obtain ⟨calls, hseen, -⟩ := (follows_run actions).exists_seen hr
  obtain ⟨calls', hseen', hprefix⟩ := exists_foldl_seenAfter hseen later
  refine ⟨calls, calls', hseen, ?_, hprefix⟩
  rw [seen, List.foldl_append]
  exact hseen'

/-- A clone of an heir is an heir. -/
theorem clone (h : Heir actions later i j) :
    Heir actions (later ++ [.clone j]) i (run (actions ++ later)).length := by
  obtain ⟨calls, calls', hseen, hseen', hprefix⟩ := h
  refine ⟨calls, calls', hseen, ?_, hprefix⟩
  rw [(follows_run _).length_eq, ← List.append_assoc, seen, List.foldl_append, ← seen,
    List.foldl_cons, List.foldl_nil, seenAfter, hseen']
  exact List.getElem?_concat_length

/-- An heir holds every codec that the other held. -/
theorem find?_eq (h : Heir actions later i j) (hr : (run actions)[i]? = some r)
    (hr' : (run (actions ++ later))[j]? = some r') {id : UInt32} {codec : Codec}
    (hfind : r.find? id = some codec) : r'.find? id = some codec := by
  obtain ⟨calls, calls', hseen, hseen', more, rfl⟩ := h
  have hfollows := (follows_run actions).follows hr hseen
  have hfollows' := (follows_run (actions ++ later)).follows hr' hseen'
  rw [hfollows.find?_eq, Option.map_eq_some_iff] at hfind
  obtain ⟨first, hfirst, rfl⟩ := hfind
  have hfirst' : first? (calls ++ more) id = some first := by
    rw [first?, List.find?_append, ← first?, hfirst, Option.some_or]
  rw [hfollows'.find?_eq, hfirst']
  rfl

end Heir

end

/-- A message that is made by name is never handled by the codec of another type. After any history
of calls on a registry and its clones, whatever the names and ids that codecs are registered under:

* a name can be used just when the codec under its id has this name, and that is the codec of the
  first call that has used the id;
* a message is made by a name just when the name can be used;
* such a message is encoded by a codec of the name, by the registry and by its heirs, whatever has
  happened to them since;
* a name can be used from its registration on;
* of two names with one id only one can be used, now and from now on;
* the registry is its own heir, and the clones of its heirs are its heirs. -/
theorem named_message_keeps_its_codec {actions : List Action} {i : Nat} {r : Registry}
    (hr : (run actions)[i]? = some r) (name : String) (body : Body) :
    ((r.hasTypeName name = true ↔
        ∃ codec, r.find? (typeIdOfName name) = some codec ∧ codec.typeName = name) ∧
      ∃ calls, (seen actions)[i]? = some calls ∧
        (r.hasTypeName name = true ↔
          ∃ first, first? calls (typeIdOfName name) = some first ∧ first.codec.typeName = name)) ∧
    ((∃ m, r.message name body = .ok m) ↔ r.hasTypeName name = true) ∧
    (∀ m, r.message name body = .ok m → m = ⟨typeIdOfName name, body⟩ ∧
      ∃ codec, codec.typeName = name ∧
        ∀ later j r', Heir actions later i j → (run (actions ++ later))[j]? = some r' →
          r'.find? m.typeId = some codec ∧
          r'.encode m =
            match codec.encode body with
            | .ok payload => .ok ⟨typeIdOfName name, payload⟩
            | .error cause => .error (.encode (typeIdOfName name) cause)) ∧
    (∀ codec id, (r.perform (.registerNamed codec)).1 = .ok (some id) →
      ∀ later j r', Heir (actions ++ [.call i (.registerNamed codec)]) later i j →
        (run (actions ++ [.call i (.registerNamed codec)] ++ later))[j]? = some r' →
        r'.hasTypeName codec.typeName = true) ∧
    (∀ other, other ≠ name → typeIdOfName other = typeIdOfName name → r.hasTypeName name = true →
      ∀ later j r', Heir actions later i j → (run (actions ++ later))[j]? = some r' →
        r'.hasTypeName other = false) ∧
    (∀ later, Heir actions later i i) ∧
    ∀ later j, Heir actions later i j →
      Heir actions (later ++ [.clone j]) i (run (actions ++ later)).length := by
  obtain ⟨calls, hseen, hfollows⟩ := (follows_run actions).exists_seen hr
  refine ⟨⟨hasTypeName_iff, calls, hseen, ?first⟩, exists_message_iff, ?made, ?registered,
    ?collides, Heir.self hr, fun later j => Heir.clone⟩
  case first =>
    rw [hasTypeName_iff, hfollows.find?_eq]
    constructor
    · rintro ⟨codec, hcodec, rfl⟩
      obtain ⟨first, hfirst, rfl⟩ := Option.map_eq_some_iff.1 hcodec
      exact ⟨first, hfirst, rfl⟩
    · rintro ⟨first, hfirst, rfl⟩
      exact ⟨first.codec, by rw [hfirst]; rfl, rfl⟩
  case made =>
    intro m hm
    have hname := exists_message_iff.1 ⟨m, hm⟩
    rw [message_of_hasTypeName hname] at hm
    cases hm
    obtain ⟨codec, hfind, hcodec⟩ := hasTypeName_iff.1 hname
    refine ⟨rfl, codec, hcodec, fun later j r' hheir hr' => ?_⟩
    have hfind' := hheir.find?_eq hr hr' hfind
    exact ⟨hfind', encode_of_some hfind'⟩
  case registered =>
    intro codec id hid later j r' hheir hr'
    have hcall : (run (actions ++ [.call i (.registerNamed codec)]))[i]? =
        some (r.perform (.registerNamed codec)).2 := by
      rw [run, List.foldl_append, ← run, List.foldl_cons, List.foldl_nil, after,
        List.getElem?_modify, hr]
      simp only [Option.map_eq_map, Option.map_some, if_pos]
    exact hasTypeName_iff.2
      ⟨codec, hheir.find?_eq hcall hr' (find?_perform_registerNamed hid), rfl⟩
  case collides =>
    intro other hne hid hname later j r' hheir hr'
    obtain ⟨codec, hfind, rfl⟩ := hasTypeName_iff.1 hname
    have hfind' := hheir.find?_eq hr hr' hfind
    refine Bool.not_eq_true _ |>.mp fun hother => ?_
    obtain ⟨codec', hfind'', rfl⟩ := hasTypeName_iff.1 hother
    rw [hid, hfind'] at hfind''
    cases hfind''
    exact hne rfl

/-- Two names with one id, and an id that is taken by a codec of another name. -/
def contestedNames : List Action :=
  [.call 0 (.registerNamed (.raw "costarring")), .call 0 (.registerNamed (.raw "liquid")),
    .call 0 (.register (typeIdOfName "demo.Chat") (.raw "demo.Other"))]

/-- The registry that comes of them. -/
def firstNameOnly : Registry :=
  ⟨[(0x5E4DAA9D, .raw "costarring"), (0x7D625B2E, .raw "demo.Other")]⟩

/-- The name that came first can be used. The other one with the same id cannot, now or later. -/
theorem named_message_keeps_its_codec_contested :
    (run contestedNames)[0]? = some firstNameOnly ∧
      typeIdOfName "liquid" = typeIdOfName "costarring" ∧
      (∃ m, firstNameOnly.message "costarring" (.raw [7]) = .ok m) ∧
      ∀ later r', (run (contestedNames ++ later))[0]? = some r' →
        r'.hasTypeName "liquid" = false := by
  have hr : (run contestedNames)[0]? = some firstNameOnly := rfl
  have hid : typeIdOfName "liquid" = typeIdOfName "costarring" := by decide
  have hname : firstNameOnly.hasTypeName "costarring" = true := by decide
  obtain ⟨-, hmade, -, -, hcollides, hself, -⟩ :=
    named_message_keeps_its_codec hr "costarring" (.raw [7])
  exact ⟨hr, hid, hmade.2 hname, fun later r' =>
    hcollides "liquid" (by decide) hid hname later 0 r' (hself later)⟩

end PeerMessaging.Registry
