import Ser2Net.Lib.Ipaddress

namespace Ser2Net.Lib.Ipaddress

open PyText

/-!
# Addresses in networks

`addr in net` of Python's `ipaddress`, the IPv4 address behind an IPv4-mapped one, and the
range of the numbers that the parsers return: a text never reads as an address outside its
family, so the network of prefix length 0 holds every address of its family.
-/

/-- The address, or the IPv4 address that it maps. -/
def Address.unmapped : Address → Address
  | .v4 ip => .v4 ip
  | .v6 ip scope =>
    match ipv4Mapped ip with
    | some m => .v4 m
    | none => .v6 ip scope

/-- `addr in net`: never across the two families. -/
def Network.contains : Network → Address → Bool
  | .v4 net p, .v4 ip => networkBase 32 p ip == net
  | .v6 net p, .v6 ip _ => networkBase 128 p ip == net
  | _, _ => false

/-- The number of an address is one of its family. -/
def Address.InRange : Address → Prop
  | .v4 ip => ip < 2 ^ 32
  | .v6 ip _ => ip < 2 ^ 128

/-! ### What the parsers return -/

/-- An octet is a byte. -/
theorem parseOctet_lt {l : List Char} {n : Nat} (h : parseOctet l = some n) : n < 256 := by
  unfold parseOctet at h
  split_ifs at h with _ _ hlarge
  have hn : decimal l = n := by simpa using h
  omega

/-- An IPv4 address has 32 bits. -/
theorem parseV4_lt {l : List Char} {ip : Nat} (h : parseV4 l = some ip) : ip < 2 ^ 32 := by
  unfold parseV4 at h
  split at h
  · simp only [Option.bind_eq_bind, Option.bind_eq_some_iff, Option.pure_def,
      Option.some.injEq] at h
    obtain ⟨a, ha, b, hb, c, hc, d, hd, rfl⟩ := h
    have ha := parseOctet_lt ha
    have hb := parseOctet_lt hb
    have hc := parseOctet_lt hc
    have hd := parseOctet_lt hd
    omega
  · cases h

/-- Digits below the base make a number below its power. -/
theorem foldl_digits_lt {base : Nat} (ds : List Nat) (acc k : Nat) (hacc : acc < base ^ k)
    (hds : ∀ d ∈ ds, d < base) :
    ds.foldl (fun acc d => acc * base + d) acc < base ^ (k + ds.length) := by
  induction ds generalizing acc k with
  | nil => simpa using hacc
  | cons d rest ih =>
    have hd : d < base := hds d (by simp)
    have hnext : acc * base + d < base ^ (k + 1) := by
      have hstep : (acc + 1) * base ≤ base ^ k * base := Nat.mul_le_mul_right _ hacc
      rw [pow_succ]
      nlinarith
    have := ih (acc * base + d) (k + 1) hnext fun x hx => hds x (by simp [hx])
    simpa [Nat.add_assoc, Nat.add_comm 1] using this

/-- A hexadecimal digit. -/
theorem hexValue_lt {c : Char} {n : Nat} (h : hexValue c = some n) : n < 16 := by
  unfold hexValue at h
  split_ifs at h with hdigit hlower hupper
  · have hle : c.toNat ≤ 57 := by
      simp only [Char.isDigit, Bool.and_eq_true, decide_eq_true_eq] at hdigit
      exact hdigit.2
    have hn : c.toNat - '0'.toNat = n := by simpa using h
    have : '0'.toNat = 48 := rfl
    omega
  · have hle : c.toNat ≤ 'f'.toNat := hlower.2
    have hn : c.toNat - 'a'.toNat + 10 = n := by simpa using h
    have : 'f'.toNat = 102 ∧ 'a'.toNat = 97 := ⟨rfl, rfl⟩
    omega
  · have hle : c.toNat ≤ 'F'.toNat := hupper.2
    have hn : c.toNat - 'A'.toNat + 10 = n := by simpa using h
    have : 'F'.toNat = 70 ∧ 'A'.toNat = 65 := ⟨rfl, rfl⟩
    omega

/-- What holds of every parsed part holds of the parts. -/
theorem forall_mem_of_mapM {α β : Type} {f : α → Option β} {p : β → Prop}
    (hf : ∀ a b, f a = some b → p b) {l : List α} {r : List β} (h : l.mapM f = some r) :
    (∀ b ∈ r, p b) ∧ r.length = l.length := by
  induction l generalizing r with
  | nil =>
    obtain rfl : r = [] := by simpa using h.symm
    simp
  | cons a rest ih =>
    simp only [List.mapM_cons, Option.bind_eq_bind, Option.bind_eq_some_iff, Option.pure_def,
      Option.some.injEq] at h
    obtain ⟨b, hb, bs, hbs, rfl⟩ := h
    obtain ⟨hall, hlen⟩ := ih hbs
    refine ⟨?_, by simp [hlen]⟩
    intro x hx
    rcases List.mem_cons.mp hx with rfl | hx
    · exact hf a x hb
    · exact hall x hx

/-- A group of an IPv6 address has 16 bits. -/
theorem parseHextet_lt {l : List Char} {n : Nat} (h : parseHextet l = some n) : n < 0x10000 := by
  unfold parseHextet at h
  split_ifs at h with hshort
  simp only [Option.map_eq_some_iff] at h
  obtain ⟨ds, hds, rfl⟩ := h
  obtain ⟨hall, hlen⟩ := forall_mem_of_mapM (fun _ _ => hexValue_lt) hds
  have hlt := foldl_digits_lt ds 0 0 (by norm_num) hall
  have hfour : ds.length ≤ 4 := by
    have := not_or.mp hshort
    omega
  have hpow : (16 : Nat) ^ (0 + ds.length) ≤ 16 ^ 4 := Nat.pow_le_pow_right (by norm_num) (by omega)
  calc _ < 16 ^ (0 + ds.length) := hlt
    _ ≤ 16 ^ 4 := hpow
    _ = 0x10000 := by norm_num

/-- Groups in a row. -/
theorem parseHextets_lt {parts : List (List Char)} {n : Nat} (h : parseHextets parts = some n) :
    n < 0x10000 ^ parts.length := by
  simp only [parseHextets, Option.map_eq_some_iff] at h
  obtain ⟨hs, hhs, rfl⟩ := h
  obtain ⟨hall, hlen⟩ := forall_mem_of_mapM (fun _ _ => parseHextet_lt) hhs
  have := foldl_digits_lt hs 0 0 (by norm_num) hall
  rwa [Nat.zero_add, hlen] at this

/-- An IPv6 address has 128 bits. -/
theorem parseV6_lt {l : List Char} {ip : Nat} (h : parseV6 l = some ip) : ip < 2 ^ 128 := by
  have hpow : (0x10000 : Nat) ^ 8 = 2 ^ 128 := by norm_num
  unfold parseV6 at h
  dsimp only at h
  split_ifs at h
  simp only [Option.bind_eq_bind, Option.bind_eq_some_iff] at h
  obtain ⟨parts, -, h⟩ := h
  split at h
  · cases h
  split at h
  · split_ifs at h with height
    have := parseHextets_lt h
    rwa [height, hpow] at this
  · simp only [Option.bind_eq_some_iff] at h
    obtain ⟨hi, -, lo, -, h⟩ := h
    split_ifs at h with hlen
    simp only [Option.bind_eq_some_iff, Option.pure_def, Option.some.injEq] at h
    obtain ⟨a, ha, b, hb, rfl⟩ := h
    have ha := parseHextets_lt ha
    have hb : b < 0x10000 ^ (8 - hi.length) :=
      (parseHextets_lt hb).trans_le (Nat.pow_le_pow_right (by norm_num) (by omega))
    -- the hextets before the gap stand above all that can follow them
    have hsum : (a + 1) * 0x10000 ^ (8 - hi.length) ≤ 0x10000 ^ hi.length * 0x10000 ^ (8 - hi.length) :=
      Nat.mul_le_mul_right _ ha
    have height : hi.length + (8 - hi.length) = 8 := by omega
    rw [← pow_add, height, hpow] at hsum
    nlinarith
  · cases h

/-- A text reads as an address of its family. -/
theorem inRange_of_ofText {l : List Char} {a : Address} (h : ofText l = some a) : a.InRange := by
  unfold ofText at h
  split at h
  · next ip hip =>
    obtain rfl : Address.v4 ip = a := by simpa using h
    exact parseV4_lt hip
  · simp only [Option.map_eq_some_iff] at h
    obtain ⟨⟨ip, scope⟩, hip, rfl⟩ := h
    unfold addressV6 at hip
    split_ifs at hip
    simp only [Option.bind_eq_bind, Option.bind_eq_some_iff, Option.pure_def,
      Option.some.injEq, Prod.mk.injEq] at hip
    obtain ⟨_, _, n, hn, rfl, rfl⟩ := hip
    exact parseV6_lt hn

/-- An unmapped address is in its range. -/
theorem Address.InRange.unmapped {a : Address} (h : a.InRange) : a.unmapped.InRange := by
  cases a with
  | v4 ip => exact h
  | v6 ip scope =>
    by_cases hmapped : ip / 2 ^ 32 = 0xffff
    · have : (Address.v6 ip scope).unmapped = .v4 (ip % 2 ^ 32) := by
        simp only [Address.unmapped, ipv4Mapped, if_pos hmapped]
      rw [this]
      exact Nat.mod_lt ip (by norm_num)
    · have : (Address.v6 ip scope).unmapped = .v6 ip scope := by
        simp only [Address.unmapped, ipv4Mapped, if_neg hmapped]
      rwa [this]

/-- The network of prefix length 0 holds every address of its family. -/
theorem contains_zero_v4 (a : Address) (h : a.InRange) :
    (Network.v4 0 0).contains a = true ↔ ∃ ip, a = .v4 ip := by
  cases a with
  | v4 ip =>
    have hzero : networkBase 32 0 ip = 0 := by
      show ip / 2 ^ 32 * 2 ^ 32 = 0
      rw [Nat.div_eq_of_lt h, Nat.zero_mul]
    simp [Network.contains, hzero]
  | v6 ip scope => simp [Network.contains]

/-- `::/0` holds the IPv6 addresses and no other. -/
theorem contains_zero_v6 (a : Address) (h : a.InRange) :
    (Network.v6 0 0).contains a = true ↔ ∃ ip scope, a = .v6 ip scope := by
  cases a with
  | v4 ip => simp [Network.contains]
  | v6 ip scope =>
    have hzero : networkBase 128 0 ip = 0 := by
      show ip / 2 ^ 128 * 2 ^ 128 = 0
      rw [Nat.div_eq_of_lt h, Nat.zero_mul]
    simp [Network.contains, hzero]

end Ser2Net.Lib.Ipaddress
