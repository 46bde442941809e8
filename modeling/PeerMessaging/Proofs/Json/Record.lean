import PeerMessaging.Json.Record
import PeerMessaging.Proofs.Json.Integer
import PeerMessaging.Proofs.Json.Text

/-!
# Records are read back

A field is read as a value if that is what its kind makes of the bytes written for it, whatever ends
a numeral behind them (`Json.FieldValue.ReadsAs`): integers and texts are read as they are. A member
is read with its field (`Json.readMember_writeMember`), and the members behind it add theirs to what
has been found, by induction on the fields (`Json.readMembers_append`). So a record with fields of
different names is read as the values of its fields in order (`Json.parseRecord_writeRecord`), and
refused for the first field that cannot be read (`Json.parseRecord_of_failsAs`).
-/

namespace PeerMessaging.Json

open JsonText

/-! ## What is found by name -/

section
variable {β γ : Type} {l : List (String × β)} {k : String} {v : β}

/-- If no name stands twice, what stands with a name is found by it. -/
theorem lookup_of_mem (hl : (l.map (·.1)).Nodup) (h : (k, v) ∈ l) : l.lookup k = some v := by
  obtain ⟨l₁, l₂, rfl⟩ := List.append_of_mem h
  refine List.lookup_eq_some_iff.2 ⟨l₁, l₂, rfl, fun p hp => ?_⟩
  rw [List.map_append, List.nodup_append] at hl
  have hne : p.1 ≠ k := hl.2.2 _ (List.mem_map_of_mem hp) _ (.head _)
  exact bne_iff_ne.2 hne.symm

/-- What stands in front with a new name is not found by the others. -/
theorem lookup_cons_of_mem {found : List (String × γ)} {w : γ} (hk : k ∉ l.map (·.1))
    {p : String × β} (hp : p ∈ l) : ((k, w) :: found).lookup p.1 = found.lookup p.1 := by
  have hne : p.1 ≠ k := by
    rintro rfl
    exact hk (List.mem_map_of_mem hp)
  rw [List.lookup_cons, beq_eq_false_iff_ne.2 hne]

end

/-! ## Blanks -/

section
variable {b : UInt8} {rest : Bytes}

/-- What does not begin with a blank has none to be dropped. -/
theorem skipBlank_cons (h : ¬ (b = 32 ∨ b = 9 ∨ b = 10 ∨ b = 13)) :
    skipBlank (b :: rest) = b :: rest := if_neg h

/-- No minus sign and no digit is a blank. -/
theorem not_blank_of_numeral (h : b = byte '-' ∨ isDigit b = true) :
    ¬ (b = 32 ∨ b = 9 ∨ b = 10 ∨ b = 13) := by
  rintro (rfl | rfl | rfl | rfl) <;> revert h <;> decide

/-- A comma ends a numeral. -/
theorem endsNumeral_comma : EndsNumeral (byte ',' :: rest) := by
  rintro b tail ⟨⟩
  decide

/-- A closing brace ends a numeral. -/
theorem endsNumeral_brace : EndsNumeral (byte '\x7d' :: rest) := by
  rintro b tail ⟨⟩
  decide

end

/-! ## Fields -/

/-- What is written for the value of a field is read as a value of a kind. -/
def FieldValue.ReadsAs (v : FieldValue) (kind : FieldKind) (v' : FieldValue) : Prop :=
  ∀ rest, EndsNumeral rest → readField kind (v.write ++ rest) = .ok (v', rest)

/-- What is written for the value of a field is refused where a kind is expected. -/
def FieldValue.FailsAs (v : FieldValue) (kind : FieldKind) (fault : JsonFault) : Prop :=
  ∀ rest, readField kind (v.write ++ rest) = .error fault

/-- An integer of 32 bits is read as it is. -/
theorem readsAs_int32 (n : Int32) : (FieldValue.int32 n).ReadsAs .int32 (.int32 n) := by
  intro rest hr
  have hlow : -0x80000000 ≤ n.toInt := Int32.le_toInt n
  have hhigh : n.toInt < 0x80000000 := Int32.toInt_lt n
  have hnumber := number_writeInt (n := n.toInt) (by omega) (by omega) maxLevels hr
  have hfield : fieldOfNumber? .int32 (.integer n.toInt) = some (.int32 n) := by
    rw [fieldOfNumber?, if_pos ⟨hlow, hhigh⟩, Int32.ofInt_toInt]
  obtain ⟨b, tail, h, hb⟩ := exists_writeInt n.toInt
  rw [h, List.cons_append] at hnumber
  rw [FieldValue.write, h, List.cons_append, readField, skipBlank_cons (not_blank_of_numeral hb)]
  simp only [reduceCtorEq, if_false, if_pos hb, hnumber, hfield]

/-- A text is read as it is. -/
theorem readsAs_text (s : String) : (FieldValue.text s).ReadsAs .text (.text s) := by
  intro rest _
  obtain ⟨tail, h, hread⟩ := read_write s rest
  rw [FieldValue.write, h, readField, skipBlank_cons (by decide)]
  simp only [if_true, hread]
  rfl

/-! ## Members -/

/-- The fields of a record have the names and kinds of a type, and are read as others. -/
inductive FieldsReadAs :
    RecordType → List (String × FieldValue) → List (String × FieldValue) → Prop
  | nil : FieldsReadAs [] [] []
  | cons {name kind v v' type fields read} (head : FieldValue.ReadsAs v kind v')
    (tail : FieldsReadAs type fields read) :
    FieldsReadAs ((name, kind) :: type) ((name, v) :: fields) ((name, v') :: read)

section
variable {type todo : RecordType} {found read : List (String × FieldValue)}
  {fields : List (String × FieldValue)} {name : String} {kind : FieldKind} {v v' : FieldValue}
  {fault : JsonFault} {rest : Bytes} {fuel : Nat}

/-- A member that is a field is read as its value is, if the field has not been found before. -/
theorem readMember_eq (v : FieldValue) (rest : Bytes) (fuel : Nat)
    (htype : type.lookup name = some kind) (hfound : found.lookup name = none) :
    readMember type fuel found (writeMember name v.write ++ rest) =
      (readField kind (v.write ++ rest)).map fun (v', rest) => ((name, v') :: found, rest) := by
  obtain ⟨tail, h, hread⟩ := read_write name (byte ':' :: (v.write ++ rest))
  have hquote : keyQuote (quote :: tail) = .ok ((), tail) := rfl
  have hcolon : colon (byte ':' :: (v.write ++ rest)) = .ok ((), v.write ++ rest) := rfl
  rw [writeMember, List.append_assoc, List.cons_append, h, readMember]
  simp only [hquote, hread, htype, hfound, Option.isSome_none, Bool.false_eq_true, if_false, hcolon]

/-- A member is read with its field. -/
theorem readMember_writeMember (htype : type.lookup name = some kind)
    (hfound : found.lookup name = none) (hv : v.ReadsAs kind v') (hr : EndsNumeral rest) :
    readMember type fuel found (writeMember name v.write ++ rest) =
      .ok ((name, v') :: found, rest) := by
  rw [readMember_eq v rest fuel htype hfound, hv rest hr]
  rfl

/-- A member is refused with its field. -/
theorem readMember_of_failsAs (htype : type.lookup name = some kind)
    (hfound : found.lookup name = none) (hv : v.FailsAs kind fault) :
    readMember type fuel found (writeMember name v.write ++ rest) = .error fault := by
  rw [readMember_eq v rest fuel htype hfound, hv rest]
  rfl

/-- What is read has the names of the type. -/
theorem FieldsReadAs.names (h : FieldsReadAs type fields read) :
    read.map (·.1) = type.map (·.1) := by
  induction h with
  | nil => rfl
  | cons _ _ ih => rw [List.map_cons, List.map_cons, ih]

/-- The fields are there once what is read for each of them is found. -/
theorem FieldsReadAs.collect?_eq (h : FieldsReadAs type fields read)
    (hfound : ∀ p ∈ read, found.lookup p.1 = some p.2) :
    collect? type found = some (read.map (·.2)) := by
  induction h with
  | nil => rfl
  | cons _ _ ih =>
    have hhead := hfound _ (.head _)
    have htail := ih fun p hp => hfound p (.tail _ hp)
    rw [collect?] at htail
    simp only [collect?, List.mapM_cons, hhead, htail]
    rfl

/-- What is written for the members behind the first one. -/
def writeMembersBehind (fields : List (String × FieldValue)) : Bytes :=
  fields.flatMap fun p => byte ',' :: writeMember p.1 p.2.write

/-- A member begins with a quote. -/
theorem exists_writeMember (name : String) (value rest : Bytes) :
    ∃ tail, writeMember name value ++ rest = quote :: tail := by
  obtain ⟨tail, h, -⟩ := read_write name (byte ':' :: (value ++ rest))
  exact ⟨tail, by rw [writeMember, List.append_assoc, List.cons_append, h]⟩

/-- A comma stands between each part and the next. -/
theorem separated_cons (part : Bytes) (parts : List Bytes) :
    separated (part :: parts) = part ++ parts.flatMap (byte ',' :: ·) := by
  induction parts generalizing part with
  | nil => rw [separated, List.flatMap_nil, List.append_nil]
  | cons next parts ih =>
    rw [separated, ih, List.flatMap_cons, List.cons_append]
    exact List.cons_ne_nil next parts

/-- A record is written as its first member, the others and the braces around them. -/
theorem writeRecord_cons :
    writeRecord ((name, v) :: fields) = byte '\x7b' ::
      (writeMember name v.write ++ (writeMembersBehind fields ++ [byte '\x7d'])) := by
  rw [writeRecord, List.map_cons, separated_cons, List.flatMap_map, List.cons_append,
    List.append_assoc]
  rfl

/-- Each member behind the first one takes a byte. -/
theorem length_le_writeMembersBehind (fields : List (String × FieldValue)) :
    fields.length ≤ (writeMembersBehind fields).length := by
  induction fields with
  | nil => exact Nat.le_refl 0
  | cons p fields ih =>
    rw [writeMembersBehind, List.flatMap_cons, ← writeMembersBehind, List.length_append]
    simp only [List.length_cons]
    omega

/-- Behind a field stands the comma of the next one or what ends a numeral anyway. -/
theorem endsNumeral_behind (fields : List (String × FieldValue)) (hr : EndsNumeral rest) :
    EndsNumeral (writeMembersBehind fields ++ rest) := by
  cases fields with
  | nil => exact hr
  | cons p fields => exact endsNumeral_comma

/-- The next member is read behind its comma. -/
theorem readMembers_comma (type : RecordType) (found : List (String × FieldValue)) (rest : Bytes)
    (fuel : Nat) :
    readMembers type found (byte ',' :: rest) (fuel + 1) =
      match readMember type fuel found rest with
      | .error e => .error e
      | .ok (found, rest) => readMembers type found rest fuel := by
  rw [readMembers, skipBlank_cons (by decide)]
  rfl

/-- The members behind the first one are read: each adds its field to those found before it, which
have other names. -/
theorem readMembers_append (h : FieldsReadAs todo fields read)
    (hnames : (todo.map (·.1)).Nodup) (htype : ∀ p ∈ todo, type.lookup p.1 = some p.2)
    (hfound : ∀ p ∈ todo, found.lookup p.1 = none) (hr : EndsNumeral rest) :
    readMembers type found (writeMembersBehind fields ++ rest) (fuel + fields.length) =
      readMembers type (read.reverse ++ found) rest fuel := by
  induction h generalizing found with
  | nil => rfl
  | @cons name kind v v' todo fields read hv _ ih =>
    rw [List.map_cons, List.nodup_cons] at hnames
    have hmember : readMember type (fuel + fields.length) found (writeMember name v.write ++
        (writeMembersBehind fields ++ rest)) = .ok ((name, v') :: found, _) :=
      readMember_writeMember (htype _ (.head _)) (hfound _ (.head _)) hv
        (endsNumeral_behind fields hr)
    have hfresh : ∀ p ∈ todo, ((name, v') :: found).lookup p.1 = none := by
      intro p hp
      rw [lookup_cons_of_mem hnames.1 hp]
      exact hfound p (.tail _ hp)
    rw [writeMembersBehind, List.flatMap_cons, ← writeMembersBehind, List.append_assoc,
      List.cons_append, List.length_cons, ← Nat.add_assoc, readMembers_comma]
    simp only [hmember, ih hnames.2 (fun p hp => htype p (.tail _ hp)) hfresh]
    rw [List.reverse_cons, List.append_assoc, List.singleton_append]

/-! ## Records -/

/-- An object is read member by member, with fuel enough for all of them. -/
theorem exists_readRecord_eq (type : RecordType) (name : String) (v : FieldValue)
    (fields : List (String × FieldValue)) :
    ∃ fuel, readRecord type (writeRecord ((name, v) :: fields)) =
      match readMember type (fuel + 1 + fields.length) []
        (writeMember name v.write ++ (writeMembersBehind fields ++ [byte '\x7d'])) with
      | .error e => .error e
      | .ok (found, rest) => readMembers type found rest (fuel + 1 + fields.length) := by
  obtain ⟨tail, hmember⟩ := exists_writeMember name v.write
    (writeMembersBehind fields ++ [byte '\x7d'])
  have hfuel : fields.length < fuelFor tail := by
    have hcount := length_le_writeMembersBehind fields
    have hbytes := congrArg List.length hmember
    simp only [List.length_append, List.length_cons] at hbytes
    rw [fuelFor]
    omega
  refine ⟨fuelFor tail - fields.length - 1, ?_⟩
  rw [show fuelFor tail - fields.length - 1 + 1 + fields.length = fuelFor tail by omega,
    writeRecord_cons, hmember, readRecord, skipBlank_cons (by decide)]
  simp only [if_neg (show ¬ byte '\x7b' = byte '[' by decide), if_true, readObject]
  rw [skipBlank_cons (by decide)]
  exact if_neg (show ¬ quote = byte '\x7d' by decide)

/-- The first members of an object are read, each with its field, and the others are still to
come. -/
theorem exists_readRecord_append (h : FieldsReadAs todo fields read) (hne : fields ≠ [])
    (hnames : (todo.map (·.1)).Nodup) (htype : ∀ p ∈ todo, type.lookup p.1 = some p.2)
    (others : List (String × FieldValue)) :
    ∃ fuel, readRecord type (writeRecord (fields ++ others)) =
      readMembers type read.reverse (writeMembersBehind others ++ [byte '\x7d'])
        (fuel + 1 + others.length) := by
  cases h with
  | nil => exact absurd rfl hne
  | @cons name kind v v' todo fields read hv htail =>
    rw [List.map_cons, List.nodup_cons] at hnames
    obtain ⟨fuel, hrecord⟩ := exists_readRecord_eq type name v (fields ++ others)
    have hfirst : readMember type (fuel + 1 + (fields ++ others).length) []
        (writeMember name v.write ++ (writeMembersBehind (fields ++ others) ++ [byte '\x7d'])) =
          .ok ([(name, v')], _) :=
      readMember_writeMember (htype _ (.head _)) rfl hv (endsNumeral_behind _ endsNumeral_brace)
    have hfresh : ∀ p ∈ todo, [(name, v')].lookup p.1 = none := fun p hp =>
      lookup_cons_of_mem hnames.1 hp
    have hrest : readMembers type [(name, v')]
        (writeMembersBehind fields ++ (writeMembersBehind others ++ [byte '\x7d']))
        (fuel + 1 + others.length + fields.length) = readMembers type (read.reverse ++ [(name, v')])
          (writeMembersBehind others ++ [byte '\x7d']) (fuel + 1 + others.length) :=
      readMembers_append htail hnames.2 (fun p hp => htype p (.tail _ hp)) hfresh
        (endsNumeral_behind others endsNumeral_brace)
    refine ⟨fuel, ?_⟩
    rw [List.cons_append, hrecord]
    simp only [hfirst]
    rw [List.length_append, Nat.add_comm fields.length, ← Nat.add_assoc, writeMembersBehind,
      List.flatMap_append, List.append_assoc, ← writeMembersBehind, ← writeMembersBehind, hrest,
      List.reverse_cons]

/-- An object is read as what its fields are read as. -/
theorem readRecord_writeRecord (h : FieldsReadAs type fields read)
    (hnames : (type.map (·.1)).Nodup) :
    readRecord type (writeRecord fields) = .ok (read.map (·.2), []) := by
  have hread : (read.map (·.1)).Nodup := h.names ▸ hnames
  have hall : collect? type read.reverse = some (read.map (·.2)) := by
    refine h.collect?_eq fun p hp => lookup_of_mem ?_ (List.mem_reverse.2 hp)
    rw [List.map_reverse]
    exact List.pairwise_reverse.2 (hread.imp Ne.symm)
  by_cases hne : fields = []
  · subst hne
    cases h
    rfl
  · obtain ⟨fuel, hrecord⟩ :=
      exists_readRecord_append h hne hnames (fun p hp => lookup_of_mem hnames hp) []
    rw [List.append_nil] at hrecord
    rw [hrecord, writeMembersBehind, List.flatMap_nil, List.nil_append, List.length_nil,
      Nat.add_zero, readMembers, skipBlank_cons (by decide)]
    simp only [if_true, hall]

/-- An object is refused for the first field that cannot be read, whatever the others are. -/
theorem readRecord_of_failsAs (h : FieldsReadAs todo fields read) (hnames : (todo.map (·.1)).Nodup)
    (htype : ∀ p ∈ todo, type.lookup p.1 = some p.2) (hname : name ∉ todo.map (·.1))
    (hkind : type.lookup name = some kind) (hv : v.FailsAs kind fault)
    (others : List (String × FieldValue)) :
    readRecord type (writeRecord (fields ++ (name, v) :: others)) = .error fault := by
  have hnew : read.reverse.lookup name = none := by
    rw [List.lookup_eq_none_iff]
    intro p hp
    refine bne_iff_ne.2 ?_
    rintro rfl
    exact hname (h.names ▸ List.mem_map_of_mem (List.mem_reverse.1 hp))
  by_cases hne : fields = []
  · subst hne
    cases h
    obtain ⟨fuel, hrecord⟩ := exists_readRecord_eq type name v others
    rw [List.nil_append, hrecord, readMember_of_failsAs hkind rfl hv]
  · obtain ⟨fuel, hrecord⟩ := exists_readRecord_append h hne hnames htype ((name, v) :: others)
    rw [hrecord, writeMembersBehind, List.flatMap_cons, List.cons_append, List.cons_append,
      List.append_assoc, List.length_cons, ← Nat.add_assoc, readMembers_comma,
      readMember_of_failsAs hkind hnew hv]

/-- A text that is written for a record is read as what the fields are read as. -/
theorem parseRecord_writeRecord (h : FieldsReadAs type fields read)
    (hnames : (type.map (·.1)).Nodup) :
    parseRecord type (writeRecord fields) = .ok (read.map (·.2)) := by
  rw [parseRecord, readRecord_writeRecord h hnames]
  rfl

/-- A text that is written for a record is refused for the first field that cannot be read. -/
theorem parseRecord_of_failsAs (h : FieldsReadAs todo fields read)
    (hnames : (todo.map (·.1)).Nodup) (htype : ∀ p ∈ todo, type.lookup p.1 = some p.2)
    (hname : name ∉ todo.map (·.1)) (hkind : type.lookup name = some kind)
    (hv : v.FailsAs kind fault) (others : List (String × FieldValue)) :
    parseRecord type (writeRecord (fields ++ (name, v) :: others)) = .error fault := by
  rw [parseRecord, readRecord_of_failsAs h hnames htype hname hkind hv others]
  rfl

/-- The members stand in the order of the fields, without blanks. -/
example : writeRecord [("x", .int32 3), ("y", .int32 (-4))] = ascii "\x7b\"x\":3,\"y\":-4\x7d" := by
  cbv

end

end PeerMessaging.Json
