import PeerMessaging.Bytes

/-!
# Message type ids

A message type is known on the wire by a 32-bit id. A type that has a name needs no agreed id: both
peers take the hash of the name (`typeIdOfName`), which is the 32-bit FNV-1a hash of its UTF-8
bytes.
-/

namespace PeerMessaging

/-- The multiplier of the hash. -/
def hashPrime : UInt32 := 16777619

/-- The value that the hash starts from. -/
def hashBasis : UInt32 := 2166136261

/-- Takes one byte into a hash. -/
def hashStep (h : UInt32) (b : UInt8) : UInt32 := (h ^^^ b.toUInt32) * hashPrime

/-- The FNV-1a hash of a byte string. -/
def hashBytes (bytes : Bytes) : UInt32 := bytes.foldl hashStep hashBasis

/-- The type id of a message type that is known by name. -/
def typeIdOfName (name : String) : UInt32 := hashBytes (textBytes name)

end PeerMessaging
