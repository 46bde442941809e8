import PeerMessaging.Proofs.Json.Record
import PeerMessaging.Proofs.Message.Registration

/-!
# Messages come back

A codec keeps the bodies of some kinds if it takes each of them and makes of the payload a body that
is known beforehand, and refuses all other bodies (`Codec.Keeps`). Raw codecs keep bytes, whichever
type they had, as raw bodies; a JSON codec keeps the bodies of its form if the form reads what it
writes (`Codec.Form.Fits.keeps`), as those of positions and of lines of a conversation do. So a
registry encodes a message under its type id and decodes the frame to the message, or refuses its
body (`Registry.messages_come_back`).
-/

namespace PeerMessaging

/-! ## Codecs -/

namespace Codec

/-- A codec keeps the bodies of some kinds: each is taken, and is read back as another one. Every
other body is refused as not of the type that is expected. -/
structure Keeps (codec : Codec) (kept : Body.Kind → Prop) (back : Body → Body)
    (expected : String) : Prop where
  /-- A body of one of the kinds is taken and read back. -/
  taken : ∀ body, kept body.kind →
    ∃ payload, codec.encode body = .ok payload ∧ codec.decode payload = .ok (back body)
  /-- A body of another kind is refused. -/
  refused : ∀ body, ¬ kept body.kind → codec.encode body = .error (.typeMismatch expected)

/-- A list of bytes comes back as a raw body. -/
def rawBack : Body → Body
  | .octets bytes => .raw bytes
  | body => body

/-- Raw codecs keep bytes. -/
theorem keeps_raw (name : String) :
    (raw name).Keeps (fun kind => kind = .raw ∨ kind = .octets) rawBack "Bytes" where
  taken body h := by
    cases body with
    | raw bytes => exact ⟨bytes, rfl, rfl⟩
    | octets bytes => exact ⟨bytes, rfl, rfl⟩
    | _ => rcases h with h | h <;> cases h
  refused body h := by
    cases body with
    | raw bytes => exact absurd (.inl rfl) h
    | octets bytes => exact absurd (.inr rfl) h
    | _ => rfl

namespace Form
variable {α : Type} {form : Form α} {kind : Body.Kind}

/-- The bodies of a form are those of a kind. -/
structure Fits (form : Form α) (kind : Body.Kind) : Prop where
  /-- A body of the kind holds a value. -/
  holds : ∀ body, body.kind = kind → ∃ a, form.ofBody? body = some a ∧ form.toBody a = body
  /-- A body of another kind holds none. -/
  other : ∀ body, body.kind ≠ kind → form.ofBody? body = none

/-- A codec of a form that reads what it writes keeps the bodies of the form. -/
theorem Fits.keeps (h : form.Fits kind) (hform : ∀ a, form.parse (form.write a) = .ok a)
    (name : String) : (ofForm form name).Keeps (· = kind) id form.label where
  taken body hb := by
    obtain ⟨a, hof, hto⟩ := h.holds body hb
    refine ⟨form.write a, by simp only [ofForm, hof], ?_⟩
    simp only [ofForm, hform a, hto, id]
  refused body hb := by
    have hof := h.other body hb
    simp only [ofForm, hof]

/-- Positions stand in bodies of their own kind. -/
theorem fits_position (label : String) : (positionForm label).Fits .position where
  holds body h := by
    cases body with
    | position p => exact ⟨p, rfl, rfl⟩
    | _ => cases h
  other body h := by
    cases body with
    | position p => exact absurd rfl h
    | _ => rfl

/-- Lines of a conversation stand in bodies of their own kind. -/
theorem fits_chat (label : String) : (chatForm label).Fits .chat where
  holds body h := by
    cases body with
    | chat c => exact ⟨c, rfl, rfl⟩
    | _ => cases h
  other body h := by
    cases body with
    | chat c => exact absurd rfl h
    | _ => rfl

/-- A value is made of the fields that a record is read as. -/
theorem parseFields_writeRecord {type : Json.RecordType} {make : List Json.FieldValue → Option α}
    {fields read : List (String × Json.FieldValue)} {a : α}
    (h : Json.FieldsReadAs type fields read) (hnames : (type.map (·.1)).Nodup)
    (hmake : make (read.map (·.2)) = some a) :
    parseFields type make (Json.writeRecord fields) = .ok a := by
  simp only [parseFields, Json.parseRecord_writeRecord h hnames, hmake]

/-- A position is read back. -/
theorem parse_write_position (label : String) (p : Position) :
    (positionForm label).parse ((positionForm label).write p) = .ok p :=
  parseFields_writeRecord
    (.cons (Json.readsAs_int32 p.x) (.cons (Json.readsAs_int32 p.y) .nil)) (by decide) rfl

/-- A line of a conversation is read back. -/
theorem parse_write_chat (label : String) (c : Chat) :
    (chatForm label).parse ((chatForm label).write c) = .ok c :=
  parseFields_writeRecord
    (.cons (Json.readsAs_text c.sender) (.cons (Json.readsAs_text c.text) .nil)) (by decide) rfl

end Form

/-- The codec of positions keeps them. -/
theorem keeps_position (label name : String) :
    (position label name).Keeps (· = .position) id label :=
  (Form.fits_position label).keeps (Form.parse_write_position label) name

/-- The codec of lines of a conversation keeps them. -/
theorem keeps_chat (label name : String) : (chat label name).Keeps (· = .chat) id label :=
  (Form.fits_chat label).keeps (Form.parse_write_chat label) name

end Codec

/-! ## Registries -/

namespace Registry
variable {r : Registry} {m : Message} {codec : Codec} {kept : Body.Kind → Prop}
  {back : Body → Body} {expected : String}

/-- A message is encoded under its type id, and the frame is decoded to another message. -/
def Returns (r : Registry) (m m' : Message) : Prop :=
  ∃ f, r.encode m = .ok f ∧ f.typeId = m.typeId ∧ r.decode f = .ok m'

/-- A message whose body the codec of its id keeps comes back under the id. -/
theorem returns_of_keeps (h : r.find? m.typeId = some codec)
    (hc : codec.Keeps kept back expected) (hk : kept m.body.kind) :
    r.Returns m ⟨m.typeId, back m.body⟩ := by
  obtain ⟨payload, hencode, hdecode⟩ := hc.taken m.body hk
  refine ⟨⟨m.typeId, payload⟩, ?_, rfl, ?_⟩
  · simp only [encode_of_some h, hencode]
  · have hfind : r.find? (Frame.mk m.typeId payload).typeId = some codec := h
    simp only [decode_of_some hfind, hdecode]

/-- A message whose body the codec of its id does not keep is refused. -/
theorem encode_of_not_keeps (h : r.find? m.typeId = some codec)
    (hc : codec.Keeps kept back expected) (hk : ¬ kept m.body.kind) :
    r.encode m = .error (.encode m.typeId (.typeMismatch expected)) := by
  simp only [encode_of_some h, hc.refused m.body hk]

/-- Bytes under a raw codec come back as a raw body, and positions and lines of a conversation under
the codecs of their forms come back as they are, whatever they hold. Every other body is refused as
not of the type of the codec. -/
theorem messages_come_back (r : Registry) (m : Message) :
    (∀ name, r.find? m.typeId = some (.raw name) →
      (∀ bytes, m.body = .raw bytes ∨ m.body = .octets bytes →
        r.Returns m ⟨m.typeId, .raw bytes⟩) ∧
      (m.body.kind ≠ .raw → m.body.kind ≠ .octets →
        r.encode m = .error (.encode m.typeId (.typeMismatch "Bytes")))) ∧
    (∀ label name, r.find? m.typeId = some (.position label name) →
      (m.body.kind = .position → r.Returns m m) ∧
      (m.body.kind ≠ .position →
        r.encode m = .error (.encode m.typeId (.typeMismatch label)))) ∧
    ∀ label name, r.find? m.typeId = some (.chat label name) →
      (m.body.kind = .chat → r.Returns m m) ∧
      (m.body.kind ≠ .chat → r.encode m = .error (.encode m.typeId (.typeMismatch label))) := by
  refine ⟨fun name h => ?raw, fun label name h => ?position, fun label name h => ?chat⟩
  case raw =>
    have hc := Codec.keeps_raw name
    refine ⟨fun bytes hb => ?_, fun hraw hoctets =>
      encode_of_not_keeps h hc (not_or.2 ⟨hraw, hoctets⟩)⟩
    obtain ⟨id, body⟩ := m
    rcases hb with rfl | rfl
    · exact returns_of_keeps h hc (.inl rfl)
    · exact returns_of_keeps h hc (.inr rfl)
  case position =>
    have hc := Codec.keeps_position label name
    exact ⟨returns_of_keeps h hc, encode_of_not_keeps h hc⟩
  case chat =>
    have hc := Codec.keeps_chat label name
    exact ⟨returns_of_keeps h hc, encode_of_not_keeps h hc⟩

/-- A codec of each kind, under ids at both ends and between. -/
def ofEachKind : Registry :=
  ⟨[(0, .raw "demo.Blob"), (7, .position "Position" "demo.Position"),
    (0xFFFFFFFF, .chat "Chat" "demo.Chat")]⟩

/-- Numbers at the ends of their range, and strings with everything that has to be escaped. -/
theorem messages_come_back_ofEachKind :
    ofEachKind.Returns ⟨0, .octets [0, 34, 255]⟩ ⟨0, .raw [0, 34, 255]⟩ ∧
    ofEachKind.encode ⟨0, .number 42⟩ = .error (.encode 0 (.typeMismatch "Bytes")) ∧
    ofEachKind.Returns ⟨7, .position ⟨-2147483648, 2147483647⟩⟩
      ⟨7, .position ⟨-2147483648, 2147483647⟩⟩ ∧
    ofEachKind.encode ⟨7, .text "a string"⟩ = .error (.encode 7 (.typeMismatch "Position")) ∧
    ofEachKind.Returns ⟨0xFFFFFFFF, .chat ⟨"\"\\/", "\x00\t\x1f\n é 😀"⟩⟩
      ⟨0xFFFFFFFF, .chat ⟨"\"\\/", "\x00\t\x1f\n é 😀"⟩⟩ ∧
    ofEachKind.encode ⟨0xFFFFFFFF, .nothing⟩ =
      .error (.encode 0xFFFFFFFF (.typeMismatch "Chat")) :=
  ⟨((messages_come_back _ _).1 _ rfl).1 _ (.inr rfl),
    ((messages_come_back _ ⟨0, .number 42⟩).1 "demo.Blob" rfl).2 (by decide) (by decide),
    ((messages_come_back _ _).2.1 _ _ rfl).1 rfl,
    ((messages_come_back _ ⟨7, .text "a string"⟩).2.1 _ "demo.Position" rfl).2 (by decide),
    ((messages_come_back _ _).2.2 _ _ rfl).1 rfl,
    ((messages_come_back _ ⟨0xFFFFFFFF, .nothing⟩).2.2 _ "demo.Chat" rfl).2 (by decide)⟩

end Registry

end PeerMessaging
