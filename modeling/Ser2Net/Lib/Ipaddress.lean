import Ser2Net.Lib.PyValue

namespace Ser2Net.Lib.Ipaddress

open PyText

/-!
# Python's `ipaddress`

The parsers behind `ipaddress.ip_address` and `ipaddress.ip_network(_, strict=False)`, and
the classification of an address as multicast or reserved.  They are those of Python 3.12:
no leading zeros in an octet, scope ids in IPv6, an IPv4-mapped address classified as the
IPv4 address it maps.
-/

/-- An IPv4 or IPv6 address; the scope id is part of an IPv6 address. -/
inductive Address
  | v4 (ip : Nat)
  | v6 (ip : Nat) (scopeId : Option (List Char))
  deriving DecidableEq, Repr

/-- A network: its first address and its prefix length. -/
inductive Network
  | v4 (ip : Nat) (prefixlen : Nat)
  | v6 (ip : Nat) (prefixlen : Nat)
  deriving DecidableEq, Repr

/-- The number written by ASCII decimal digits. -/
def decimal (l : List Char) : Nat := ofDigits (l.map fun c => c.toNat - '0'.toNat)

/-- `_parse_octet`. -/
def parseOctet (l : List Char) : Option Nat :=
  if l = [] ∨ !l.all Char.isDigit ∨ 3 < l.length then none
  else if l ≠ ['0'] ∧ l.head? = some '0' then none
  else if 255 < decimal l then none
  else some (decimal l)

/-- `_BaseV4._ip_int_from_string`. -/
def parseV4 (l : List Char) : Option Nat :=
  match l.splitOn '.' with
  | [a, b, c, d] => do
    let a ← parseOctet a
    let b ← parseOctet b
    let c ← parseOctet c
    let d ← parseOctet d
    return ((a * 256 + b) * 256 + c) * 256 + d
  | _ => none

/-- The value of an ASCII hex digit. -/
def hexValue (c : Char) : Option Nat :=
  if c.isDigit then some (c.toNat - '0'.toNat)
  else if 'a' ≤ c ∧ c ≤ 'f' then some (c.toNat - 'a'.toNat + 10)
  else if 'A' ≤ c ∧ c ≤ 'F' then some (c.toNat - 'A'.toNat + 10)
  else none

/-- `_parse_hextet`. -/
def parseHextet (l : List Char) : Option Nat :=
  if l = [] ∨ 4 < l.length then none
  else (l.mapM hexValue).map fun ds => ds.foldl (fun acc d => acc * 16 + d) 0

/-- A run of hextets as one number. -/
def parseHextets (parts : List (List Char)) : Option Nat :=
  (parts.mapM parseHextet).map fun hs => hs.foldl (fun acc h => acc * 0x10000 + h) 0

/-- The parts with an IPv4-style last part written as two hextets. -/
def expandV4Suffix (parts : List (List Char)) : Option (List (List Char)) :=
  match parts.getLast? with
  | some last =>
    if '.' ∈ last then
      (parseV4 last).map fun ip =>
        parts.dropLast ++ [Nat.toDigits 16 (ip / 0x10000 % 0x10000), Nat.toDigits 16 (ip % 0x10000)]
    else some parts
  | none => some parts

/-- The inner parts that are empty: the places of a `::`. -/
def skips (parts : List (List Char)) : List Nat :=
  (List.range parts.length).filter fun i => 0 < i && i + 1 < parts.length && parts[i]? == some []

/-- The hextets on one side of the `::`; an empty end part is allowed only as part of it. -/
def beside (side : List (List Char)) (endPart : Option (List Char)) : Option (List (List Char)) :=
  if endPart = some [] then (if side.length = 1 then some [] else none) else some side

/-- `_BaseV6._ip_int_from_string`. -/
def parseV6 (l : List Char) : Option Nat := do
  let parts := l.splitOn ':'
  if parts.length < 3 then none
  else
    let parts ← expandV4Suffix parts
    if 9 < parts.length then none
    else
      match skips parts with
      | [] => if parts.length = 8 then parseHextets parts else none
      | [i] => do
        let hi ← beside (parts.take i) parts.head?
        let lo ← beside (parts.drop (i + 1)) parts.getLast?
        if 8 ≤ hi.length + lo.length then none
        else
          let h ← parseHextets hi
          let l ← parseHextets lo
          return h * 0x10000 ^ (8 - hi.length) + l
      | _ => none

/-- `_split_scope_id`. -/
def splitScopeId (l : List Char) : Option (List Char × Option (List Char)) :=
  match partition '%' l with
  | none => some (l, none)
  | some (addr, scope) => if scope = [] ∨ '%' ∈ scope then none else some (addr, some scope)

/-- `IPv6Address(text)`. -/
def addressV6 (l : List Char) : Option (Nat × Option (List Char)) := do
  if '/' ∈ l then none
  else
    let (addr, scope) ← splitScopeId l
    let ip ← parseV6 addr
    return (ip, scope)

/-- `ipaddress.ip_address(text)`; `none` is `ValueError`. -/
def ofText (l : List Char) : Option Address :=
  match parseV4 l with
  | some ip => some (.v4 ip)
  | none => (addressV6 l).map fun (ip, scope) => .v6 ip scope

/-- `ipaddress.ip_address(n)` of an int. -/
def ofInt (n : Int) : Option Address :=
  if n < 0 then none
  else if n < 2 ^ 32 then some (.v4 n.toNat)
  else if n < 2 ^ 128 then some (.v6 n.toNat none)
  else none

/-- `ipaddress.ip_address(v)`.  A value that is neither text nor an int is read through
    its `str`, which never is an address. -/
def ipAddress : Json → Option Address
  | .str s => ofText s.toList
  | .int n => ofInt n
  | .bool b => ofInt (if b then 1 else 0)
  | _ => none

/-- `IPv4Address.is_multicast`: 224.0.0.0/4. -/
def v4IsMulticast (ip : Nat) : Bool := ip / 2 ^ 28 == 14

/-- `IPv4Address.is_reserved`: 240.0.0.0/4. -/
def v4IsReserved (ip : Nat) : Bool := ip / 2 ^ 28 == 15

/-- `_IPv6Constants._reserved_networks`: the first sixteen bits and the prefix length. -/
def v6Reserved : List (Nat × Nat) :=
  [(0x0000, 8), (0x0100, 8), (0x0200, 7), (0x0400, 6), (0x0800, 5), (0x1000, 4), (0x4000, 3),
    (0x6000, 3), (0x8000, 3), (0xa000, 3), (0xc000, 3), (0xe000, 4), (0xf000, 5), (0xf800, 6),
    (0xfe00, 9)]

/-- `IPv6Address.ipv4_mapped`. -/
def ipv4Mapped (ip : Nat) : Option Nat :=
  if ip / 2 ^ 32 = 0xffff then some (ip % 2 ^ 32) else none

/-- `is_multicast`. -/
def Address.isMulticast : Address → Bool
  | .v4 ip => v4IsMulticast ip
  | .v6 ip _ =>
    match ipv4Mapped ip with
    | some m => v4IsMulticast m
    | none => ip / 2 ^ 120 == 0xff

/-- `is_reserved`. -/
def Address.isReserved : Address → Bool
  | .v4 ip => v4IsReserved ip
  | .v6 ip _ =>
    match ipv4Mapped ip with
    | some m => v4IsReserved m
    | none => v6Reserved.any fun (net, len) => ip / 2 ^ (128 - len) == net / 2 ^ (16 - len)

/-- `str(ip) in ("0.0.0.0", "::")`: the wildcard of either family. -/
def Address.isWildcard : Address → Bool
  | .v4 ip => ip == 0
  | .v6 ip scope => ip == 0 && scope == none

/-! ### Networks -/

/-- `_prefix_from_prefix_string`. -/
def prefixFromPrefixString (width : Nat) (l : List Char) : Option Nat :=
  if l = [] ∨ !l.all Char.isDigit ∨ maxStrDigits < l.length then none
  else if decimal l ≤ width then some (decimal l) else none

/-- `_prefix_from_ip_int`: the length of a netmask of leading ones. -/
def prefixFromIpInt (mask : Nat) : Option Nat :=
  (List.range 33).find? fun p => mask == 2 ^ 32 - 2 ^ (32 - p)

/-- `_BaseV4._make_netmask`: a length, a netmask or a hostmask. -/
def makeNetmaskV4 (l : List Char) : Option Nat :=
  match prefixFromPrefixString 32 l with
  | some p => some p
  | none => do
    let mask ← parseV4 l
    match prefixFromIpInt mask with
    | some p => some p
    | none => prefixFromIpInt (2 ^ 32 - 1 - mask)

/-- The first address of the network of prefix length `p` around `ip`. -/
def networkBase (width p ip : Nat) : Nat := ip / 2 ^ (width - p) * 2 ^ (width - p)

/-- `IPv4Network(addr/mask, strict=False)`. -/
def networkV4 (addr : List Char) (mask : Option (List Char)) : Option Network := do
  let ip ← parseV4 addr
  let p ← match mask with
    | none => some 32
    | some m => makeNetmaskV4 m
  return .v4 (networkBase 32 p ip) p

/-- `IPv6Network(addr/mask, strict=False)`. -/
def networkV6 (addr : List Char) (mask : Option (List Char)) : Option Network := do
  let (ip, _) ← addressV6 addr
  let p ← match mask with
    | none => some 128
    | some m => prefixFromPrefixString 128 m
  return .v6 (networkBase 128 p ip) p

/-- `ipaddress.ip_network(text, strict=False)`; `none` is `ValueError`. -/
def ipNetwork (s : String) : Option Network :=
  match s.toList.splitOn '/' with
  | [addr] => (networkV4 addr none).or (networkV6 addr none)
  | [addr, mask] => (networkV4 addr (some mask)).or (networkV6 addr (some mask))
  | _ => none

example : ipAddress (.str "fe80::1%eth0") = some (.v6 (0xfe80 * 2 ^ 112 + 1) (some "eth0".toList)) := by
  decide +kernel
example : ipNetwork "10.1.2.3/0.0.255.255" = some (.v4 0x0a010000 16) := by decide +kernel

end Ser2Net.Lib.Ipaddress
