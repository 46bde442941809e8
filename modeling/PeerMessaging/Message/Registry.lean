import PeerMessaging.Message.Codec
import PeerMessaging.Message.TypeId
import PeerMessaging.Wire.Frame

/-!
# The registry of codecs

A `Registry` holds a codec for each message type id. The first codec registered under an id stays;
another one is refused (`Registry.register`). A codec can be registered under the id of its own type
name (`Registry.registerNamed`), and only then can messages be made by that name
(`Registry.message`). The entries are kept in the order of the ids.
-/

namespace PeerMessaging

/-- Why a registry refused something. -/
inductive RegistryError
  /-- No codec has this id. -/
  | unknownType (typeId : UInt32)
  /-- No codec is registered by this name. -/
  | unknownTypeName (name : String)
  /-- The id is taken by a codec of this name. -/
  | duplicateType (typeId : UInt32) (existing : String)
  /-- The codec refused the body. -/
  | encode (typeId : UInt32) (cause : CodecError)
  /-- The codec refused the payload. -/
  | decode (typeId : UInt32) (cause : CodecError)
  deriving DecidableEq, Repr

namespace RegistryError

/-- The text of an error. -/
def message : RegistryError → String
  | unknownType typeId => "unknown message type " ++ toString typeId.toNat
  | unknownTypeName name => "unknown message type name '" ++ name ++ "'"
  | duplicateType typeId existing =>
    "message type " ++ toString typeId.toNat ++ " already registered as '" ++ existing ++ "'"
  | encode typeId cause =>
    "failed to encode message type " ++ toString typeId.toNat ++ ": " ++ cause.message
  | decode typeId cause =>
    "failed to decode message type " ++ toString typeId.toNat ++ ": " ++ cause.message

/-- The texts of the errors behind an error. -/
def causes : RegistryError → List String
  | encode _ cause | decode _ cause => cause.message :: cause.causes
  | _ => []

end RegistryError

/-- Codecs by message type id, in the order of the ids. -/
structure Registry where
  entries : List (UInt32 × Codec) := []

namespace Registry

/-- A registry without codecs. -/
def empty : Registry := {}

instance : Inhabited Registry := ⟨empty⟩

/-- The codec of a type id. -/
def find? (r : Registry) (typeId : UInt32) : Option Codec := r.entries.lookup typeId

/-- Puts an entry in its place. -/
def insertEntry (typeId : UInt32) (codec : Codec) :
    List (UInt32 × Codec) → List (UInt32 × Codec)
  | [] => [(typeId, codec)]
  | (id, c) :: rest =>
    if typeId < id then (typeId, codec) :: (id, c) :: rest
    else (id, c) :: insertEntry typeId codec rest

/-- Registers a codec under an id that is not taken. -/
def register (r : Registry) (typeId : UInt32) (codec : Codec) :
    Except RegistryError Unit × Registry :=
  match r.find? typeId with
  | some existing => (.error (.duplicateType typeId existing.typeName), r)
  | none => (.ok (), ⟨insertEntry typeId codec r.entries⟩)

/-- A registry that refuses a codec stays as it is. -/
theorem register_of_ne_ok {r : Registry} {typeId : UInt32} {codec : Codec}
    (h : (r.register typeId codec).1 ≠ .ok ()) : (r.register typeId codec).2 = r := by
  unfold register at h ⊢
  cases hf : r.find? typeId with
  | some existing => rfl
  | none =>
    rw [hf] at h
    exact absurd rfl h

/-- Registers a codec under the id of its type name. -/
def registerNamed (r : Registry) (codec : Codec) : Except RegistryError UInt32 × Registry :=
  let typeId := typeIdOfName codec.typeName
  let called := r.register typeId codec
  (called.1.map fun () => typeId, called.2)

/-- There is a codec for a type id. -/
def hasType (r : Registry) (typeId : UInt32) : Bool := (r.find? typeId).isSome

/-- There is a codec of this very name under the id of the name. -/
def hasTypeName (r : Registry) (name : String) : Bool :=
  (r.find? (typeIdOfName name)).any (·.typeName = name)

/-- The name of the type with an id. -/
def typeName? (r : Registry) (typeId : UInt32) : Option String := (r.find? typeId).map (·.typeName)

/-- Makes a message of a type known by name. -/
def message (r : Registry) (name : String) (body : Body) : Except RegistryError Message :=
  if r.hasTypeName name then .ok ⟨typeIdOfName name, body⟩ else .error (.unknownTypeName name)

/-- Encodes a message. -/
def encode (r : Registry) (m : Message) : Except RegistryError Frame :=
  match r.find? m.typeId with
  | none => .error (.unknownType m.typeId)
  | some codec =>
    match codec.encode m.body with
    | .error cause => .error (.encode m.typeId cause)
    | .ok payload => .ok ⟨m.typeId, payload⟩

/-- Decodes a frame. -/
def decode (r : Registry) (f : Frame) : Except RegistryError Message :=
  match r.find? f.typeId with
  | none => .error (.unknownType f.typeId)
  | some codec =>
    match codec.decode f.payload with
    | .error cause => .error (.decode f.typeId cause)
    | .ok body => .ok ⟨f.typeId, body⟩

/-- The type ids, ascending. -/
def typeIds (r : Registry) : List UInt32 := r.entries.map (·.1)

/-- How many codecs there are. -/
def size (r : Registry) : Nat := r.entries.length

/-- How a registry is shown. -/
def describe (r : Registry) : String :=
  "\x7b" ++ ", ".intercalate (r.entries.map fun (id, codec) =>
    toString id.toNat ++ ": " ++ quoted codec.typeName) ++ "\x7d"

end Registry

end PeerMessaging
