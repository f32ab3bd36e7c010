import Ser2Net.Config.Basic
import Ser2Net.Lib.IpRange

namespace Ser2Net.Engine.Access

open Ser2Net.Lib Ser2Net.Lib.Ipaddress Ser2Net.Config

/-!
# Engine — the list of allowed clients

A runner and a Modbus gateway parse `allowed_client_ips` when they are made and ask the
result about every client.  Both drop the entries that do not parse and both admit everyone
when nothing is left.

* `runnerAdmits_texts`, `gatewayAdmits_eq` — who is admitted, in terms of the entries;
* `Covers` — what an entry is documented to mean: a bare wildcard means every client;
* `admits_iff_covered_iff` — a list is served as documented exactly when some entry of it
  parses and a wildcard in it is one of the client's own family or comes with an entry that
  holds the client.
-/

/-- `_parse_nets`, `MappingRunner._parse_allowed`: `ValueError` is suppressed per entry. -/
def parseNets : List Json → CfgM (List Network)
  | [] => .ok []
  | c :: rest => do
    let v ← normalizeCidr c
    let nets ← parseNets rest
    return (ipNetwork v).toList ++ nets

/-- `_ip_in_nets`. -/
def ipInNets (ip : String) (nets : List Network) : Bool :=
  if nets = [] then false
  else
    match ofText ip.toList with
    | some addr => nets.any fun net => net.contains addr.unmapped
    | none => false

/-- `MappingRunner._client_allowed`. -/
def clientAllowed (allowedNets : List Network) (ip : String) : Bool :=
  if allowedNets = [] then true else ipInNets ip allowedNets

/-- The runner made for a list of entries, asked about one client. -/
def runnerAdmits (allowedClientIps : List Json) (ip : String) : CfgM Bool := do
  let nets ← parseNets allowedClientIps
  return clientAllowed nets ip

/-- The gateway's own test, `if self._allowed and not _ip_in_nets(…)`, asked about one
    client. -/
def gatewayAdmits (allowedClientIps : List Json) (ip : String) : CfgM Bool := do
  let nets ← parseNets allowedClientIps
  return !(nets ≠ [] && !ipInNets ip nets)

/-! ### What the entries parse to -/

/-- `normalize_cidr` of a text. -/
def normalized (entry : String) : String :=
  let v := PyText.strip entry
  if v = "0.0.0.0" then "0.0.0.0/0" else if v = "::" then "::/0" else v

theorem normalizeCidr_str (entry : String) : normalizeCidr (.str entry) = .ok (normalized entry) :=
  rfl

/-- Texts never make the parsing fail. -/
theorem parseNets_texts (entries : List String) :
    parseNets (entries.map .str) = .ok (entries.filterMap fun e => ipNetwork (normalized e)) := by
  induction entries with
  | nil => rfl
  | cons e rest ih =>
    simp only [List.map_cons, parseNets, normalizeCidr_str, ih]
    cases he : ipNetwork (normalized e) with
    | none => simp [he, pure, Except.pure, bind, Except.bind]
    | some net => simp [he, pure, Except.pure, bind, Except.bind]

/-- The runner and the gateway decide alike. -/
theorem gatewayAdmits_eq (allowedClientIps : List Json) (ip : String) :
    gatewayAdmits allowedClientIps ip = runnerAdmits allowedClientIps ip := by
  unfold gatewayAdmits runnerAdmits
  cases parseNets allowedClientIps with
  | error e => rfl
  | ok nets =>
    show Except.ok _ = Except.ok _
    unfold clientAllowed
    by_cases hempty : nets = [] <;> simp [hempty]

/-- A client is admitted when no entry parses, or when a parsed one holds it. -/
theorem runnerAdmits_texts (entries : List String) {ip : String} {client : Address}
    (hip : ofText ip.toList = some client) :
    ∃ b, runnerAdmits (entries.map .str) ip = .ok b ∧
      (b = true ↔ (∀ e ∈ entries, ipNetwork (normalized e) = none) ∨
        ∃ e ∈ entries, ∃ net, ipNetwork (normalized e) = some net ∧
          net.contains client.unmapped = true) := by
  refine ⟨_, by rw [runnerAdmits, parseNets_texts]; rfl, ?_⟩
  unfold clientAllowed ipInNets
  rw [hip]
  -- no entry is a network: the list of networks is empty, and an empty list admits everybody
  by_cases hnone : ∀ e ∈ entries, ipNetwork (normalized e) = none
  · have hempty : entries.filterMap (fun e => ipNetwork (normalized e)) = [] :=
      List.filterMap_eq_nil_iff.mpr hnone
    rw [if_pos hempty]
    exact iff_of_true rfl (.inl hnone)
  · have hne : entries.filterMap (fun e => ipNetwork (normalized e)) ≠ [] := by
      rwa [Ne, List.filterMap_eq_nil_iff]
    rw [if_neg hne, if_neg hne, List.any_eq_true]
    simp only [List.mem_filterMap]
    constructor
    · rintro ⟨net, ⟨e, he, hnet⟩, hin⟩
      exact .inr ⟨e, he, net, hnet, hin⟩
    · rintro (h | ⟨e, he, net, hnet, hin⟩)
      · exact absurd h hnone
      · exact ⟨net, ⟨e, he, hnet⟩, hin⟩

/-! ### What the entries mean -/

/-- An entry written as the bare wildcard of either family. -/
def IsWildcard (entry : String) : Prop :=
  PyText.strip entry = "0.0.0.0" ∨ PyText.strip entry = "::"

/-- An entry that is a valid address or CIDR around the client. -/
def Lists (entry : String) (client : Address) : Prop :=
  ∃ net, ipNetwork (PyText.strip entry) = some net ∧ net.contains client.unmapped = true

/-- What the documentation lets an entry admit: a bare wildcard stands for every client. -/
def Covers (entry : String) (client : Address) : Prop := IsWildcard entry ∨ Lists entry client

/-- An entry written as the wildcard of the client's own family. -/
def OwnWildcard (entry : String) (client : Address) : Prop :=
  match client.unmapped with
  | .v4 _ => PyText.strip entry = "0.0.0.0"
  | .v6 _ _ => PyText.strip entry = "::"

/-- An entry admits a client through what it parses to. -/
def Admits (entry : String) (client : Address) : Prop :=
  OwnWildcard entry client ∨ (¬ IsWildcard entry ∧ Lists entry client)

theorem ipNetwork_normalized_v4 {entry : String} (h : PyText.strip entry = "0.0.0.0") :
    ipNetwork (normalized entry) = some (.v4 0 0) := by
  have : normalized entry = "0.0.0.0/0" := by simp [normalized, h]
  rw [this]
  decide +kernel

theorem ipNetwork_normalized_v6 {entry : String} (h : PyText.strip entry = "::") :
    ipNetwork (normalized entry) = some (.v6 0 0) := by
  have : normalized entry = "::/0" := by simp [normalized, h]
  rw [this]
  decide +kernel

theorem normalized_of_not_wildcard {entry : String} (h : ¬ IsWildcard entry) :
    normalized entry = PyText.strip entry := by
  obtain ⟨hv4, hv6⟩ := not_or.mp h
  simp [normalized, hv4, hv6]

/-- What a parsed entry holds: the wildcards every address of their own family. -/
theorem normalized_holds_iff {entry : String} {client : Address} (hrange : client.InRange) :
    (∃ net, ipNetwork (normalized entry) = some net ∧ net.contains client.unmapped = true) ↔
      Admits entry client := by
  have hrange := hrange.unmapped
  unfold Admits
  by_cases hv4 : PyText.strip entry = "0.0.0.0"
  · rw [ipNetwork_normalized_v4 hv4]
    have hwild : IsWildcard entry := .inl hv4
    simp only [Option.some.injEq, exists_eq_left', contains_zero_v4 _ hrange, hwild, not_true,
      false_and, or_false]
    unfold OwnWildcard
    cases client.unmapped <;> simp [hv4]
  · by_cases hv6 : PyText.strip entry = "::"
    · rw [ipNetwork_normalized_v6 hv6]
      have hwild : IsWildcard entry := .inr hv6
      simp only [Option.some.injEq, exists_eq_left', contains_zero_v6 _ hrange, hwild, not_true,
        false_and, or_false]
      unfold OwnWildcard
      cases client.unmapped <;> simp [hv6]
    · have hplain : ¬ IsWildcard entry := not_or.mpr ⟨hv4, hv6⟩
      rw [normalized_of_not_wildcard hplain]
      have hown : ¬ OwnWildcard entry client := by
        unfold OwnWildcard
        cases client.unmapped <;> simp [hv4, hv6]
      simp only [hown, hplain, not_false_iff, true_and, false_or]
      exact Iff.rfl

/-- The condition under which a list is served as documented: some entry of it parses, and a
    wildcard in it comes with the wildcard of the client's own family or with another entry
    that holds the client. -/
def Served (entries : List String) (client : Address) : Prop :=
  (∃ e ∈ entries, (ipNetwork (normalized e)).isSome) ∧
    ((∃ e ∈ entries, IsWildcard e) →
      ∃ e ∈ entries, Admits e client)

theorem Admits.covers {entry : String} {client : Address} (h : Admits entry client) :
    Covers entry client := by
  rcases h with hown | ⟨-, hlists⟩
  · refine .inl ?_
    unfold OwnWildcard at hown
    split at hown
    · exact .inl hown
    · exact .inr hown
  · exact .inr hlists

/-- An entry that covers anyone parses. -/
theorem Covers.parses {entry : String} {client : Address} (h : Covers entry client) :
    ipNetwork (normalized entry) ≠ none := by
  by_cases hwild : IsWildcard entry
  · rcases hwild with hv4 | hv6
    · simp [ipNetwork_normalized_v4 hv4]
    · simp [ipNetwork_normalized_v6 hv6]
  · obtain ⟨net, hnet, -⟩ := h.resolve_left hwild
    simp [normalized_of_not_wildcard hwild, hnet]

/-- Admission and coverage agree on a list of entries exactly when it is `Served`. -/
theorem admitted_iff_covered_iff (entries : List String) (client : Address) :
    (((∀ e ∈ entries, ipNetwork (normalized e) = none) ∨ ∃ e ∈ entries, Admits e client) ↔
        ∃ e ∈ entries, Covers e client) ↔
      Served entries client := by
  constructor
  · intro h
    have hsome : ¬ ∀ e ∈ entries, ipNetwork (normalized e) = none := by
      intro hnone
      obtain ⟨e, he, hcovers⟩ := h.mp (.inl hnone)
      exact hcovers.parses (hnone e he)
    refine ⟨?_, ?_⟩
    · push Not at hsome
      obtain ⟨e, he, hparses⟩ := hsome
      exact ⟨e, he, Option.isSome_iff_ne_none.mpr hparses⟩
    · rintro ⟨e, he, hwild⟩
      exact (h.mpr ⟨e, he, .inl hwild⟩).resolve_left hsome
  · rintro ⟨⟨e₀, he₀, hsome⟩, hwild⟩
    constructor
    · rintro (hnone | ⟨e, he, hadmits⟩)
      · simp [hnone e₀ he₀] at hsome
      · exact ⟨e, he, hadmits.covers⟩
    · rintro ⟨e, he, hcovers⟩
      -- a wildcard needs the entry of its family, any other entry stands for itself
      by_cases hw : IsWildcard e
      · exact .inr (hwild ⟨e, he, hw⟩)
      · exact .inr ⟨e, he, .inr ⟨hw, hcovers.resolve_left hw⟩⟩

/-- The runner and the gateway made for a list of texts admit a client exactly when an entry
    covers it. -/
def AsDocumented (entries : List String) (ip : String) (client : Address) : Prop :=
  ∃ b, runnerAdmits (entries.map .str) ip = .ok b ∧ gatewayAdmits (entries.map .str) ip = .ok b ∧
    (b = true ↔ ∃ e ∈ entries, Covers e client)

/-- Non-empty or not, a list is handled as documented for a client if and only if it is
    `Served`. -/
theorem admits_iff_covered_iff (entries : List String) (ip : String) (client : Address)
    (hip : ofText ip.toList = some client) :
    AsDocumented entries ip client ↔ Served entries client := by
  obtain ⟨b, hb, hiff⟩ := runnerAdmits_texts entries hip
  have hholds : ∀ e, (∃ net, ipNetwork (normalized e) = some net ∧
      net.contains client.unmapped = true) ↔ Admits e client :=
    fun e => normalized_holds_iff (inRange_of_ofText hip)
  simp only [hholds] at hiff
  rw [← admitted_iff_covered_iff, ← hiff]
  constructor
  · rintro ⟨b', hb', -, h⟩
    obtain rfl : b = b' := by simpa [hb] using hb'
    exact h
  · exact fun h => ⟨b, hb, by rw [gatewayAdmits_eq, hb], h⟩

/-- A list that mixes the two families serves an IPv4 client. -/
theorem admits_iff_covered_iff_mixed :
    AsDocumented ["::", "10.0.0.0/8"] "10.1.2.3" (.v4 0x0a010203) ↔
      Served ["::", "10.0.0.0/8"] (.v4 0x0a010203) :=
  admits_iff_covered_iff _ _ _ (by decide +kernel)

/-- A list without any entry that parses admits everyone, and the wildcard of one family
    refuses the clients of the other. -/
theorem not_asDocumented :
    (¬ AsDocumented ["10.0.0.0/33"] "192.0.2.7" (.v4 0xc0000207)) ∧
      ¬ AsDocumented ["0.0.0.0"] "2001:db8::1" (.v6 (0x20010db8 * 2 ^ 96 + 1) none) := by
  refine ⟨?_, ?_⟩
  · rintro ⟨b, hb, -, hiff⟩
    have hadmits : runnerAdmits (["10.0.0.0/33"].map .str) "192.0.2.7" = .ok true := by
      decide +kernel
    obtain rfl : true = b := by
      rw [hadmits] at hb
      exact Except.ok.inj hb
    obtain ⟨e, he, hcovers⟩ := hiff.mp rfl
    obtain rfl : e = "10.0.0.0/33" := List.mem_singleton.mp he
    exact hcovers.parses (by decide +kernel)
  · rintro ⟨b, hb, -, hiff⟩
    have hrefuses : runnerAdmits (["0.0.0.0"].map .str) "2001:db8::1" = .ok false := by
      decide +kernel
    obtain rfl : false = b := by
      rw [hrefuses] at hb
      exact Except.ok.inj hb
    have hcovered : ∃ e ∈ ["0.0.0.0"], Covers e (.v6 (0x20010db8 * 2 ^ 96 + 1) none) :=
      ⟨"0.0.0.0", by simp, .inl (.inl (by decide +kernel))⟩
    exact absurd (hiff.mpr hcovered) (by decide)

end Ser2Net.Engine.Access
