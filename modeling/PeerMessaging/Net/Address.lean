import PeerMessaging.Text.Hex

/-!
# Addresses

A socket address is an address of either family with a port (`SocketAddress`), and with a zone where
an address means something in one network only. An IPv6 address is written in its canonical form:
groups in hexadecimal without leading zeros, and the longest run of zero groups left out, the first
of several as long (`IPv6.text`). An address that stands for an IPv4 address ends in that address.
-/

namespace PeerMessaging

/-- An IPv4 address, as four bytes. -/
structure IPv4 where
  a : UInt8
  b : UInt8
  c : UInt8
  d : UInt8
  deriving DecidableEq, Repr

/-- An IPv4 address as it is written. -/
def IPv4.text (ip : IPv4) : String :=
  ".".intercalate ([ip.a, ip.b, ip.c, ip.d].map fun x => toString x.toNat)

/-- An IPv6 address, as eight groups. -/
structure IPv6 where
  groups : Vector UInt16 8
  deriving DecidableEq

namespace IPv6

/-- The IPv4 address that an address stands for. -/
def mapped? (ip : IPv6) : Option IPv4 :=
  match ip.groups.toList with
  | [0, 0, 0, 0, 0, 0xffff, hi, lo] =>
    some ⟨.ofNat (hi.toNat / 256), .ofNat hi.toNat, .ofNat (lo.toNat / 256), .ofNat lo.toNat⟩
  | _ => none

/-- A run of groups: where it starts and how long it is. -/
structure Run where
  start : Nat
  length : Nat
  deriving DecidableEq, Repr

/-- The longest run of zeros in a list, the first of several as long. `index` is the place of the
first element, `here` the run that ends before it, and `best` the longest so far. -/
def longestZeros (index : Nat) (here best : Run) : List UInt16 → Run
  | [] => best
  | g :: rest =>
    if g = 0 then
      let here : Run := if here.length = 0 then ⟨index, 1⟩ else ⟨here.start, here.length + 1⟩
      longestZeros (index + 1) here (if best.length < here.length then here else best) rest
    else longestZeros (index + 1) ⟨0, 0⟩ best rest

/-- Groups as they are written. -/
def groupsText (gs : List UInt16) : String := ":".intercalate (gs.map fun g => hex 1 g.toNat)

/-- An IPv6 address as it is written. A single zero group is not left out. -/
def text (ip : IPv6) : String :=
  match ip.mapped? with
  | some v4 => "::ffff:" ++ v4.text
  | none =>
    let gs := ip.groups.toList
    let zeros := longestZeros 0 ⟨0, 0⟩ ⟨0, 0⟩ gs
    if 1 < zeros.length then
      groupsText (gs.take zeros.start) ++ "::" ++ groupsText (gs.drop (zeros.start + zeros.length))
    else groupsText gs

end IPv6

/-- An address of either family. -/
inductive IpAddress
  | v4 (ip : IPv4)
  | v6 (ip : IPv6)
  deriving DecidableEq

/-- An address as it is written. -/
def IpAddress.text : IpAddress → String
  | .v4 ip => ip.text
  | .v6 ip => ip.text

/-- The IPv4 address that an address stands for, or the address itself. -/
def IpAddress.mapped : IpAddress → IpAddress
  | .v4 ip => .v4 ip
  | .v6 ip => ip.mapped?.elim (.v6 ip) .v4

/-- The address stands for every address of a host. -/
def IpAddress.isAny : IpAddress → Bool
  | .v4 ip => ip = ⟨0, 0, 0, 0⟩
  | .v6 ip => ip.groups.toList.all (· = 0)

/-- Whoever listens on the first address is reached under the second. The address that stands for
all others does so for its own family, and that of IPv6 for IPv4 too. -/
def IpAddress.covers (own other : IpAddress) : Bool :=
  own.mapped = other.mapped ||
    match own.mapped, other.mapped with
    | .v4 a, .v4 _ => (IpAddress.v4 a).isAny
    | .v6 a, _ => (IpAddress.v6 a).isAny
    | .v4 _, .v6 _ => false

/-- The address means something in one network only. -/
def IpAddress.isLinkLocal : IpAddress → Bool
  | .v4 _ => false
  | .v6 ip => ip.groups[0] &&& 0xffc0 = 0xfe80

/-- The address stands for a group of IPv6 hosts, to which there are no streams. -/
def IpAddress.isMulticastV6 : IpAddress → Bool
  | .v4 _ => false
  | .v6 ip => ip.groups[0] &&& 0xff00 = 0xff00

/-- An address and a port. -/
structure SocketAddress where
  ip : IpAddress
  port : UInt16
  /-- The zone in which an IPv6 address is valid; none in particular if it is zero. -/
  zone : UInt32 := 0
  deriving DecidableEq

namespace SocketAddress

/-- The address is an IPv6 address. -/
def isV6 (s : SocketAddress) : Bool :=
  match s.ip with
  | .v4 _ => false
  | .v6 _ => true

/-- The address cannot be reached without a zone. -/
def lacksZone (s : SocketAddress) : Bool := s.ip.isLinkLocal && s.zone = 0

/-- A socket address as it is written; an IPv6 address stands in brackets, with its zone. -/
def text (s : SocketAddress) : String :=
  let zone := if s.zone = 0 then "" else "%" ++ toString s.zone.toNat
  (if s.isV6 then "[" ++ s.ip.text ++ zone ++ "]" else s.ip.text) ++ ":" ++ toString s.port.toNat

end SocketAddress

end PeerMessaging
