import PeerMessaging.Bytes
import PeerMessaging.Text.Hex

/-!
# Protocol versions

Every data frame opens with a word that names the protocol: a signature in the high 16 bits, then
the major and the minor version (`ProtocolVersion.headerWord`). Packing and unpacking undo each
other (`ProtocolVersion.ofHeaderWord_headerWord`, `ProtocolVersion.headerWord_ofHeaderWord`). A peer
is accepted by its signature alone (`ProtocolVersion.accepts`).
-/

namespace PeerMessaging

/-- A protocol's signature and version. -/
structure ProtocolVersion where
  signature : UInt16
  major : UInt8
  minor : UInt8
  deriving DecidableEq, Repr

namespace ProtocolVersion

/-- The version that a connection speaks when nothing else is asked for. -/
def standard : ProtocolVersion := ⟨0x2BAD, 0, 1⟩

instance : Inhabited ProtocolVersion := ⟨standard⟩

/-- The word written in front of every data frame. -/
def headerWord (v : ProtocolVersion) : UInt32 :=
  .ofNat (v.signature.toNat * 0x10000 + v.major.toNat * 0x100 + v.minor.toNat)

/-- The version that a word names. -/
def ofHeaderWord (w : UInt32) : ProtocolVersion where
  signature := .ofNat (w.toNat / 0x10000)
  major := .ofNat (w.toNat / 0x100)
  minor := .ofNat w.toNat

/-- A word names this protocol if it has its signature, whatever version it carries. -/
def accepts (v : ProtocolVersion) (w : UInt32) : Bool := (ofHeaderWord w).signature = v.signature

/-- The version as people read it. -/
def text (v : ProtocolVersion) : String :=
  "0x" ++ hex 4 v.signature.toNat ++ " v" ++ toString v.major.toNat ++ "." ++
    toString v.minor.toNat

theorem toNat_headerWord (v : ProtocolVersion) :
    v.headerWord.toNat = v.signature.toNat * 0x10000 + v.major.toNat * 0x100 + v.minor.toNat := by
  have := v.signature.toNat_lt
  have := v.major.toNat_lt
  have := v.minor.toNat_lt
  simp only [headerWord, UInt32.toNat_ofNat']
  omega

/-- A version is read back from its word. -/
theorem ofHeaderWord_headerWord (v : ProtocolVersion) : ofHeaderWord v.headerWord = v := by
  have := v.signature.toNat_lt
  have := v.major.toNat_lt
  have := v.minor.toNat_lt
  obtain ⟨s, a, b⟩ := v
  simp only [ofHeaderWord, toNat_headerWord, mk.injEq, ← UInt16.toNat_inj, ← UInt8.toNat_inj,
    UInt16.toNat_ofNat', UInt8.toNat_ofNat'] at *
  omega

/-- A word is written back from its version. -/
theorem headerWord_ofHeaderWord (w : UInt32) : (ofHeaderWord w).headerWord = w := by
  have := w.toNat_lt
  simp only [ofHeaderWord, ← UInt32.toNat_inj, toNat_headerWord, UInt16.toNat_ofNat',
    UInt8.toNat_ofNat']
  omega

/-- A version's own word is accepted by every version of the same signature. -/
theorem accepts_headerWord {v w : ProtocolVersion} (h : w.signature = v.signature) :
    v.accepts w.headerWord = true := by
  simp [accepts, ofHeaderWord_headerWord, h]

end ProtocolVersion

end PeerMessaging
