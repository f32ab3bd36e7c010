import Ser2Net.Lib.Ipaddress
import Ser2Net.Lib.PyStr

namespace Ser2Net.Lib.Ipaddress

open PyText

/-!
# The text of an address

`str(ip)` of Python's `ipaddress`: dotted octets for IPv4, hextets with the longest run of
zeros left out for IPv6.
-/

/-- `ip.version == 6 and ip.is_loopback`. -/
def Address.isV6Loopback : Address → Bool
  | .v4 _ => false
  | .v6 ip _ => ip == 1

/-- `_BaseV4._string_from_ip_int`. -/
def strV4 (ip : Nat) : List Char :=
  join ['.'] ([ip / 2 ^ 24 % 256, ip / 2 ^ 16 % 256, ip / 2 ^ 8 % 256, ip % 256].map ofNat)

/-- The eight hextets of an address. -/
def hextets (ip : Nat) : List Nat :=
  [ip / 2 ^ 112 % 2 ^ 16, ip / 2 ^ 96 % 2 ^ 16, ip / 2 ^ 80 % 2 ^ 16, ip / 2 ^ 64 % 2 ^ 16,
    ip / 2 ^ 48 % 2 ^ 16, ip / 2 ^ 32 % 2 ^ 16, ip / 2 ^ 16 % 2 ^ 16, ip % 2 ^ 16]

/-- The loop of `_compress_hextets`: start and length of the run of zeros that the loop is in
    and of the longest one so far. -/
def longestZeros (index : Nat) (run best : Nat × Nat) : List (List Char) → Nat × Nat
  | [] => best
  | h :: rest =>
    if h = ['0'] then
      let run := (if run.2 = 0 then index else run.1, run.2 + 1)
      longestZeros (index + 1) run (if best.2 < run.2 then run else best) rest
    else longestZeros (index + 1) (0, 0) best rest

/-- `_compress_hextets`. -/
def compressHextets (hs : List (List Char)) : List (List Char) :=
  let (start, len) := longestZeros 0 (0, 0) (0, 0) hs
  if 1 < len then
    (if start = 0 then [[]] else []) ++ hs.take start ++ [[]] ++ hs.drop (start + len) ++
      (if start + len = hs.length then [[]] else [])
  else hs

/-- `_BaseV6._string_from_ip_int`. -/
def strV6 (ip : Nat) : List Char :=
  join [':'] (compressHextets ((hextets ip).map (Nat.toDigits 16)))

/-- `str(ip)`. -/
def Address.str : Address → List Char
  | .v4 ip => strV4 ip
  | .v6 ip none => strV6 ip
  | .v6 ip (some scope) => strV6 ip ++ '%' :: scope

example : strV6 (0xfe80 * 2 ^ 112 + 1) = "fe80::1".toList := by decide +kernel
example : strV6 0 = "::".toList := by decide +kernel
example : strV6 (2 ^ 112 + 2 ^ 32) = "1::1:0:0".toList := by decide +kernel

end Ser2Net.Lib.Ipaddress
