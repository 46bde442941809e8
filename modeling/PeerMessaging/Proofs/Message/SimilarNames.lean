import Mathlib.Logic.ExistsUnique
import PeerMessaging.Proofs.Message.Registration

/-!
# Type ids of similar names

The hash behind a type id may well be the same for two names. It never is for two that differ in
just one byte: a step of the hash can be undone, so that it keeps different states apart
(`hashStep_left_inj`) and takes different bytes to different states (`hashStep_right_inj`), and what
follows keeps them apart (`foldl_hashStep_inj`). So two codecs of such names never stand in each
other's way in a registry (`Registry.similar_names_registered`).
-/

namespace PeerMessaging

/-! ## The hash -/

section
variable {h h' : UInt32} {b c : UInt8} {start rest : Bytes}

/-- Multiplying by the prime can be undone, as it is odd. -/
theorem mul_hashPrime_inj : h * hashPrime = h' * hashPrime ↔ h = h' := by
  refine ⟨fun he => ?_, fun he => by rw [he]⟩
  have hinverse : hashPrime * 0x359C449B = 1 := by decide
  calc
    h = h * hashPrime * 0x359C449B := by rw [UInt32.mul_assoc, hinverse, UInt32.mul_one]
    _ = h' * hashPrime * 0x359C449B := by rw [he]
    _ = h' := by rw [UInt32.mul_assoc, hinverse, UInt32.mul_one]

/-- A byte keeps different states of the hash apart. -/
theorem hashStep_left_inj : hashStep h b = hashStep h' b ↔ h = h' := by
  rw [hashStep, hashStep, mul_hashPrime_inj, UInt32.xor_left_inj]

/-- From one state different bytes lead to different states. -/
theorem hashStep_right_inj : hashStep h b = hashStep h c ↔ b = c := by
  rw [hashStep, hashStep, mul_hashPrime_inj, UInt32.xor_right_inj, UInt8.toUInt32_inj]

/-- Bytes keep different states of the hash apart, however many there are. -/
theorem foldl_hashStep_inj : rest.foldl hashStep h = rest.foldl hashStep h' ↔ h = h' := by
  induction rest generalizing h h' with
  | nil => exact Iff.rfl
  | cons b rest ih => rw [List.foldl_cons, List.foldl_cons, ih, hashStep_left_inj]

/-- One byte in the place of another changes the hash. -/
theorem hashBytes_inj :
    hashBytes (start ++ b :: rest) = hashBytes (start ++ c :: rest) ↔ b = c := by
  rw [hashBytes, hashBytes, List.foldl_append, List.foldl_append, List.foldl_cons, List.foldl_cons,
    foldl_hashStep_inj, hashStep_right_inj]

end

/-! ## Names that differ in one byte -/

/-- The byte strings have one length and differ at one place only. -/
def DifferInOneByte (a b : Bytes) : Prop := a.length = b.length ∧ ∃! i : Nat, a[i]? ≠ b[i]?

/-- They have the same bytes before and behind that place. -/
theorem differInOneByte_iff {a b : Bytes} :
    DifferInOneByte a b ↔
      ∃ start x y rest, x ≠ y ∧ a = start ++ x :: rest ∧ b = start ++ y :: rest := by
  constructor
  · rintro ⟨hlength, i, hi, hunique⟩
    have hsame (j : Nat) (hj : j ≠ i) : a[j]? = b[j]? :=
      Decidable.byContradiction fun hne => hj (hunique j hne)
    have hia : i < a.length := by
      refine Nat.lt_of_not_le fun hle => hi ?_
      rw [List.getElem?_eq_none hle, List.getElem?_eq_none (hlength ▸ hle)]
    have hib : i < b.length := hlength ▸ hia
    have hstart : a.take i = b.take i := by
      refine List.ext_getElem? fun j => ?_
      rw [List.getElem?_take, List.getElem?_take]
      split
      · exact hsame j (by omega)
      · rfl
    have hrest : a.drop (i + 1) = b.drop (i + 1) := by
      refine List.ext_getElem? fun j => ?_
      rw [List.getElem?_drop, List.getElem?_drop]
      exact hsame _ (by omega)
    refine ⟨a.take i, a[i], b[i], a.drop (i + 1), fun hxy => hi ?_, ?_, ?_⟩
    · rw [List.getElem?_eq_getElem hia, List.getElem?_eq_getElem hib, hxy]
    · rw [← List.drop_eq_getElem_cons hia, List.take_append_drop]
    · rw [hstart, hrest, ← List.drop_eq_getElem_cons hib, List.take_append_drop]
  · rintro ⟨start, x, y, rest, hxy, rfl, rfl⟩
    refine ⟨by simp, start.length, by simpa using hxy, fun i hi => ?_⟩
    refine Decidable.byContradiction fun hne => hi ?_
    rcases Nat.lt_or_ge i start.length with hlt | hge
    · rw [List.getElem?_append_left hlt, List.getElem?_append_left hlt]
    · obtain ⟨k, rfl⟩ := Nat.exists_eq_add_of_lt (Nat.lt_of_le_of_ne hge (Ne.symm hne))
      rw [List.getElem?_append_right hge, List.getElem?_append_right hge,
        show start.length + k + 1 - start.length = k + 1 by omega, List.getElem?_cons_succ,
        List.getElem?_cons_succ]

/-- Such names have different type ids. -/
theorem typeIdOfName_ne {name other : String}
    (h : DifferInOneByte (textBytes name) (textBytes other)) :
    typeIdOfName name ≠ typeIdOfName other := by
  obtain ⟨start, x, y, rest, hxy, hname, hother⟩ := differInOneByte_iff.1 h
  rw [typeIdOfName, typeIdOfName, hname, hother]
  exact fun he => hxy (hashBytes_inj.1 he)

namespace Registry

/-! ## Their codecs -/

/-- A registry takes up one codec by its name and then another by its own, and holds both. -/
def TakesUp (r : Registry) (first second : Codec) : Prop :=
  ∃ r₁ r₂, r.registerNamed first = (.ok (typeIdOfName first.typeName), r₁) ∧
    r₁.registerNamed second = (.ok (typeIdOfName second.typeName), r₂) ∧
    r₂.find? (typeIdOfName first.typeName) = some first ∧
    r₂.find? (typeIdOfName second.typeName) = some second

section
variable {r : Registry} {codec first second : Codec}

/-- A codec whose id is free is taken up by name. It is found under its id, and whatever is found
under another id is found as before. -/
theorem registerNamed_of_none (h : r.find? (typeIdOfName codec.typeName) = none) :
    ∃ r', r.registerNamed codec = (.ok (typeIdOfName codec.typeName), r') ∧
      ∀ id, r'.find? id =
        if typeIdOfName codec.typeName = id then some codec else r.find? id := by
  have hnew : typeIdOfName codec.typeName ∉ r.typeIds := by
    rw [mem_typeIds_iff, h]
    nofun
  refine ⟨⟨insertEntry (typeIdOfName codec.typeName) codec r.entries⟩, ?_, fun id => ?_⟩
  · rw [registerNamed, register, h]
    rfl
  · exact lookup_insertEntry hnew codec id

/-- Two codecs whose ids are free and differ are both taken up. -/
theorem takesUp_of_ne (hne : typeIdOfName first.typeName ≠ typeIdOfName second.typeName)
    (hfirst : r.find? (typeIdOfName first.typeName) = none)
    (hsecond : r.find? (typeIdOfName second.typeName) = none) : r.TakesUp first second := by
  obtain ⟨r₁, h₁, hfind₁⟩ := registerNamed_of_none hfirst
  have hfree : r₁.find? (typeIdOfName second.typeName) = none := by
    rw [hfind₁, if_neg hne, hsecond]
  obtain ⟨r₂, h₂, hfind₂⟩ := registerNamed_of_none hfree
  refine ⟨r₁, r₂, h₁, h₂, ?_, ?_⟩
  · rw [hfind₂, if_neg hne.symm, hfind₁, if_pos rfl]
  · rw [hfind₂, if_pos rfl]

end

/-- Two names of one length that differ in one byte only have different type ids, whatever stands
before and behind that byte. So any registry in which both ids are free takes up a codec of either
name by its name, in either order, and then holds both. -/
theorem similar_names_registered {name other : String}
    (h : DifferInOneByte (textBytes name) (textBytes other)) :
    typeIdOfName name ≠ typeIdOfName other ∧
      ∀ (r : Registry) (codec codec' : Codec), codec.typeName = name → codec'.typeName = other →
        r.hasType (typeIdOfName name) = false → r.hasType (typeIdOfName other) = false →
        r.TakesUp codec codec' ∧ r.TakesUp codec' codec := by
  have hne := typeIdOfName_ne h
  refine ⟨hne, ?_⟩
  rintro r codec codec' rfl rfl hfree hfree'
  rw [hasType, Option.isSome_eq_false_iff, Option.isNone_iff_eq_none] at hfree hfree'
  exact ⟨takesUp_of_ne hne hfree hfree', takesUp_of_ne hne.symm hfree' hfree⟩

/-- Two names that differ in the second byte of an accented letter, in a registry that has a codec
already. -/
theorem similar_names_registered_accented :
    DifferInOneByte (textBytes "demo.é1") (textBytes "demo.è1") ∧
      typeIdOfName "demo.é1" ≠ typeIdOfName "demo.è1" ∧
      TakesUp ⟨[(7, .raw "demo.è2")]⟩ (.raw "demo.è1") (.refusing "demo.é1" "no") := by
  have h : DifferInOneByte (textBytes "demo.é1") (textBytes "demo.è1") :=
    differInOneByte_iff.2
      ⟨textBytes "demo." ++ [0xC3], 0xA9, 0xA8, textBytes "1", by decide, by decide, by decide⟩
  obtain ⟨hne, htakes⟩ := similar_names_registered h
  exact ⟨h, hne, (htakes _ (.refusing "demo.é1" "no") (.raw "demo.è1") rfl rfl (by decide)
    (by decide)).2⟩

end Registry

end PeerMessaging
