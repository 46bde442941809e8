import PeerMessaging.Net.Address

/-!
# Address literals

An address can be given by its digits. `IPv4.parse?` takes four decimal numbers below 256 without
leading zeros; `IPv6.parse?` takes eight groups of up to four hexadecimal digits, of which one run
may be left out as two colons and the last two may be given as an IPv4 address. A host may also
spell an IPv4 address by fewer and longer numbers, and an IPv6 address with a zone
(`HostAddress.parse?`).
-/

namespace PeerMessaging.Literal

/-- The value of a digit in a base up to sixteen. -/
def digit? (base : Nat) (c : Char) : Option Nat :=
  let n :=
    if '0' ≤ c ∧ c ≤ '9' then c.toNat - 48
    else if 'a' ≤ c ∧ c ≤ 'f' then c.toNat - 87
    else if 'A' ≤ c ∧ c ≤ 'F' then c.toNat - 55
    else base
  if n < base then some n else none

/-- Takes the digits at the front. -/
def digits (base : Nat) : List Char → List Nat × List Char
  | [] => ([], [])
  | c :: rest =>
    match digit? base c with
    | some d =>
      let (ds, rest) := digits base rest
      (d :: ds, rest)
    | none => ([], c :: rest)

/-- Takes a number of at most `width` digits below `bound`. A number that has reached the bound is
not followed any further. -/
def number (base width bound : Nat) (zeros : Bool) (s : List Char) : Option (Nat × List Char) :=
  let (ds, rest) := digits base s
  let n := ds.foldl (fun n d => min bound (n * base + d)) 0
  if ds.isEmpty || width < ds.length || bound ≤ n then none
  else if !zeros && ds.head? = some 0 && 1 < ds.length then none
  else some (n, rest)

/-- Takes a character. -/
def char (c : Char) : List Char → Option (List Char)
  | [] => none
  | d :: rest => if c = d then some rest else none

/-- Takes a separator in front of every part but the first. -/
def separator (c : Char) (index : Nat) (s : List Char) : Option (List Char) :=
  if index = 0 then some s else char c s

/-- Takes a decimal byte. -/
def octet (s : List Char) : Option (UInt8 × List Char) :=
  (number 10 3 256 false s).map fun (n, rest) => (.ofNat n, rest)

/-- Takes an IPv4 address. -/
def ipv4 (s : List Char) : Option (IPv4 × List Char) := do
  let (a, s) ← octet s
  let (b, s) ← octet (← char '.' s)
  let (c, s) ← octet (← char '.' s)
  let (d, s) ← octet (← char '.' s)
  return (⟨a, b, c, d⟩, s)

/-- What a run of groups is read as. -/
structure Groups where
  groups : List UInt16
  /-- It ends in an IPv4 address. -/
  endsInV4 : Bool
  rest : List Char

/-- Takes groups with colons between them, at most `limit`. Where two more are allowed, an IPv4
address may end them. -/
def groups (index : Nat) (s : List Char) : Nat → Groups
  | 0 => ⟨[], false, s⟩
  | limit + 1 =>
    let v4 := if 1 ≤ limit then (separator ':' index s).bind ipv4 else none
    match v4 with
    | some (ip, rest) =>
      ⟨[.ofNat (ip.a.toNat * 256 + ip.b.toNat), .ofNat (ip.c.toNat * 256 + ip.d.toNat)], true,
        rest⟩
    | none =>
      match (separator ':' index s).bind (number 16 4 0x10000 true) with
      | none => ⟨[], false, s⟩
      | some (g, rest) =>
        let more := groups (index + 1) rest limit
        { more with groups := .ofNat g :: more.groups }

/-- The IPv6 address of eight groups. -/
def ofGroups? (gs : List UInt16) : Option IPv6 :=
  if h : gs.length = 8 then some ⟨⟨gs.toArray, by simp [h]⟩⟩ else none

/-- Takes an IPv6 address. -/
def ipv6 (s : List Char) : Option (IPv6 × List Char) := do
  let front := groups 0 s 8
  if front.groups.length = 8 then
    return (← ofGroups? front.groups, front.rest)
  if front.endsInV4 then none
  let s ← char ':' (← char ':' front.rest)
  let back := groups 0 s (8 - (front.groups.length + 1))
  let zeros := List.replicate (8 - front.groups.length - back.groups.length) 0
  return (← ofGroups? (front.groups ++ zeros ++ back.groups), back.rest)

/-- Takes the zone behind an IPv6 address. -/
def zone (s : List Char) : Option (UInt32 × List Char) := do
  let s ← char '%' s
  (number 10 s.length 0x100000000 true s).map fun (n, rest) => (.ofNat n, rest)

/-- Takes a number that is hexadecimal behind `0x`, octal behind a zero, and else decimal. -/
def anyBase (s : List Char) : Option (Nat × List Char) :=
  match s with
  | '0' :: 'x' :: rest | '0' :: 'X' :: rest => number 16 rest.length 0x100000000 true rest
  | '0' :: _ => number 8 s.length 0x100000000 true s
  | _ => number 10 s.length 0x100000000 true s

/-- Takes the rest of an IPv4 address of which `front` is known, in at most so many numbers. The
last of them fills what is left of the address. -/
def fill (front : Nat) (s : List Char) : Nat → Option Nat
  | 0 => none
  | count + 1 => do
    let (n, rest) ← anyBase s
    match rest with
    | [] => if n < 256 ^ (count + 1) then some (front * 256 ^ (count + 1) + n) else none
    | '.' :: rest => if n < 256 then fill (front * 256 + n) rest count else none
    | _ => none

/-- Reads an IPv4 address given by up to four numbers. -/
def parts (s : List Char) : Option IPv4 :=
  (fill 0 s 4).map fun n =>
    ⟨.ofNat (n / 0x1000000), .ofNat (n / 0x10000), .ofNat (n / 0x100), .ofNat n⟩

/-- The whole text has to be taken. -/
def whole {α : Type} : Option (α × List Char) → Option α
  | some (a, []) => some a
  | _ => none

end PeerMessaging.Literal

namespace PeerMessaging

/-- Reads an IPv4 address. -/
def IPv4.parse? (s : String) : Option IPv4 := Literal.whole (Literal.ipv4 s.toList)

/-- Reads an IPv6 address. -/
def IPv6.parse? (s : String) : Option IPv6 := Literal.whole (Literal.ipv6 s.toList)

/-- Reads an address of either family. -/
def IpAddress.parse? (s : String) : Option IpAddress :=
  match IPv4.parse? s with
  | some ip => some (.v4 ip)
  | none => (IPv6.parse? s).map .v6

/-- Reads a socket address: an IPv4 address, or an IPv6 address in brackets and perhaps with a zone,
and a port. -/
def SocketAddress.parse? (s : String) : Option SocketAddress :=
  let port (s : List Char) : Option UInt16 := do
    let s ← Literal.char ':' s
    Literal.whole ((Literal.number 10 s.length 0x10000 true s).map
      fun (n, rest) => (.ofNat n, rest))
  match Literal.ipv4 s.toList with
  | some (ip, rest) => (port rest).map fun p => { ip := .v4 ip, port := p }
  | none => do
    let (ip, rest) ← Literal.ipv6 (← Literal.char '[' s.toList)
    let (zone, rest) := (Literal.zone rest).getD (0, rest)
    let p ← port (← Literal.char ']' rest)
    return { ip := .v6 ip, port := p, zone }

/-- An address with a zone, as a host is known by it. -/
structure HostAddress where
  ip : IpAddress
  /-- The zone in which an IPv6 address is valid; none in particular if it is zero. -/
  zone : UInt32 := 0
  deriving DecidableEq

/-- Reads an address as a host may be given by it: as it is written, an IPv4 address by fewer
numbers, or an IPv6 address with a zone. -/
def HostAddress.parse? (s : String) : Option HostAddress :=
  match IpAddress.parse? s, Literal.parts s.toList with
  | some ip, _ => some { ip }
  | none, some ip => some { ip := .v4 ip }
  | none, none => do
    let (ip, rest) ← Literal.ipv6 s.toList
    return { ip := .v6 ip, zone := ← Literal.whole (Literal.zone rest) }

end PeerMessaging
