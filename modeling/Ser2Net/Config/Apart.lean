import Ser2Net.Config.App
import Ser2Net.Lib.PyEq

namespace Ser2Net.Config

open Ser2Net.Lib

/-!
# Config — what the cross-mapping checks keep apart

The loop of `AppConfig.validate` over the mappings compares bind addresses by their text and
lets mappings of one id share a device.  For any two positions of an accepted configuration:

* `TextApart` — two listeners of one transport and port have different texts as addresses,
  and neither is written `0.0.0.0` or `::`;
* `SharersAgree` — two enabled mappings that name one device have one id;
* `validate_apart` — the loop is complete for both: they hold of every pair;
* `kept_apart_iff` — the addresses themselves and the devices are apart exactly when no pair
  spells an address in two ways or a wildcard in another way, and no two mappings of one id
  share a device.
-/

/-- The mapping binds a port. -/
def MappingConfig.binds (c : MappingConfig) : Bool := c.kind.eqStr "net" && c.network.listens

/-- Both bind the same port of the same transport. -/
def SamePort (a b : MappingConfig) : Prop :=
  a.binds = true ∧ b.binds = true ∧ a.network.proto = b.network.proto ∧
    a.network.port.pyEq b.network.port = true

/-- Both are enabled and open these devices, which are one. -/
def SharedDevice (a b : MappingConfig) (d e : Json) : Prop :=
  a.enabled = true ∧ b.enabled = true ∧ d ∈ a.devices ∧ e ∈ b.devices ∧ d.pyEq e = true

/-- The addresses of two listeners of one port do not overlap as texts. -/
def TextApart (a b : MappingConfig) : Prop :=
  SamePort a b → ipOverlaps a.network.bindIp b.network.bindIp = false

/-- Two mappings that share a device have one id. -/
def SharersAgree (a b : MappingConfig) : Prop :=
  ∀ d e, SharedDevice a b d e → a.id.pyEq b.id = true

/-! ### One mapping -/

theorem keyed_of_hashable {v : Json} (h : v.hashable = true) : v.Keyed := by
  cases v with
  | arr l => cases h
  | obj kvs => cases h
  | _ => trivial

/-- The owners of one device have one id. -/
structure OwnersAgree (owners : List SerialOwner) : Prop where
  device : ∀ o ∈ owners, o.device.Keyed
  id : ∀ o ∈ owners, o.id.Keyed
  agree : ∀ o ∈ owners, ∀ o' ∈ owners, o.device.pyEq o'.device = true →
    o = o' ∨ o.id.pyEq o'.id = true

/-- The first owner of a device speaks for all of them. -/
theorem OwnersAgree.of_first {owners : List SerialOwner} (h : OwnersAgree owners) {dev id : Json}
    (hdev : dev.Keyed)
    (hfirst : ∀ prev, (owners.find? fun o => o.device.pyEq dev) = some prev →
      prev.id.pyEq id = true) :
    ∀ o ∈ owners, o.device.pyEq dev = true → o.id.pyEq id = true := by
  intro o ho hdevice
  obtain ⟨prev, hprev⟩ : ∃ prev, (owners.find? fun o => o.device.pyEq dev) = some prev := by
    rw [← Option.isSome_iff_exists, List.find?_isSome]
    exact ⟨o, ho, hdevice⟩
  have hmem : prev ∈ owners := List.mem_of_find?_eq_some hprev
  have hfound : prev.device.pyEq dev = true := by simpa using List.find?_some hprev
  have hsame : o.device.pyEq prev.device = true :=
    Json.pyEq_trans (h.device o ho) hdev hdevice (Json.pyEq_symm (h.device prev hmem) hdev hfound)
  rcases h.agree o ho prev hmem hsame with rfl | hid
  · exact hfirst o hprev
  · exact Json.pyEq_trans (h.id o ho) (h.id prev hmem) hid (hfirst prev hprev)

/-- A further owner whose id is that of the owners before. -/
theorem OwnersAgree.cons {owners : List SerialOwner} (h : OwnersAgree owners) {new : SerialOwner}
    (hdev : new.device.Keyed) (hid : new.id.Keyed)
    (hnew : ∀ o ∈ owners, o.device.pyEq new.device = true → o.id.pyEq new.id = true) :
    OwnersAgree (new :: owners) where
  device := List.forall_mem_cons.mpr ⟨hdev, h.device⟩
  id := List.forall_mem_cons.mpr ⟨hid, h.id⟩
  agree := by
    intro o ho o' ho' hdevice
    rcases List.mem_cons.mp ho with rfl | hold
    · rcases List.mem_cons.mp ho' with rfl | hold'
      · exact .inl rfl
      · have hsymm := Json.pyEq_symm hdev (h.device o' hold') hdevice
        exact .inr (Json.pyEq_symm (h.id o' hold') hid (hnew o' hold' hsymm))
    · rcases List.mem_cons.mp ho' with rfl | hold'
      · exact .inr (hnew o hold hdevice)
      · exact h.agree o hold o' hold' hdevice

/-- The device check accepts only devices whose owners have the id of the mapping. -/
theorem checkDevices_ok {c : MappingConfig} {owners owners' : List SerialOwner} {devs : List Json}
    (hid : c.id.Keyed) (hagree : OwnersAgree owners)
    (h : checkDevices c owners devs = .ok owners') :
    OwnersAgree owners' ∧ (∀ o ∈ owners, o ∈ owners') ∧
      (∀ d ∈ devs, ⟨d, c.id, c.name⟩ ∈ owners') ∧
      ∀ d ∈ devs, ∀ o ∈ owners, o.device.pyEq d = true → o.id.pyEq c.id = true := by
  induction devs generalizing owners with
  | nil =>
    obtain rfl := Except.ok.inj h
    exact ⟨hagree, fun o ho => ho, by simp, by simp⟩
  | cons dev rest ih =>
    unfold checkDevices at h
    split_ifs at h with hhash
    have hdev : dev.Keyed := keyed_of_hashable (by simpa using hhash)
    obtain ⟨_, hprev, h⟩ := except_bind_eq_ok.1 h
    have hfirst : ∀ prev, (owners.find? fun o => o.device.pyEq dev) = some prev →
        prev.id.pyEq c.id = true := by
      intro prev hfind
      rw [hfind] at hprev
      exact require_eq_ok.1 hprev
    -- the loop looks at the first owner only; the owners of one device agree
    have hsame := hagree.of_first hdev hfirst
    have hcons : OwnersAgree (⟨dev, c.id, c.name⟩ :: owners) := hagree.cons hdev hid hsame
    obtain ⟨hagree', hsub, hnew, hold⟩ := ih hcons h
    refine ⟨hagree', fun o ho => hsub o (List.mem_cons_of_mem _ ho), ?_, ?_⟩
    · intro d hd
      rcases List.mem_cons.mp hd with rfl | hd
      · exact hsub _ List.mem_cons_self
      · exact hnew d hd
    · intro d hd o ho
      rcases List.mem_cons.mp hd with rfl | hd
      · exact hsame o ho
      · exact hold d hd o (List.mem_cons_of_mem _ ho)

/-- The listener and the mapping bind the same port, and their addresses overlap as texts. -/
def Listener.clashes (l : Listener) (c : MappingConfig) : Bool :=
  l.proto == c.network.proto && l.port.pyEq c.network.port &&
    ipOverlaps l.bindIp c.network.bindIp

/-- The listener check accepts only listeners that clash with none before. -/
theorem checkListener_ok {c : MappingConfig} {seen seen' : List Listener}
    (h : checkListener c seen = .ok seen') :
    (c.binds = true → ∀ l ∈ seen, l.clashes c = false) ∧ (∀ l ∈ seen, l ∈ seen') ∧
      (c.binds = true →
        ⟨c.network.proto, c.network.bindIp, c.network.port, c.name⟩ ∈ seen') := by
  unfold checkListener at h
  dsimp only at h
  split_ifs at h with hidle
  -- an idle mapping binds nothing and leaves the list as it is
  · obtain rfl := Except.ok.inj h
    have hnot : ¬ c.binds = true := by
      unfold MappingConfig.binds
      simp only [Bool.or_eq_true, Bool.not_eq_true'] at hidle
      simp only [Bool.and_eq_true, not_and_or, Bool.not_eq_true]
      exact hidle
    exact ⟨fun hb => absurd hb hnot, fun l hl => hl, fun hb => absurd hb hnot⟩
  · split at h
    · cases h
    · next hnone =>
      obtain rfl := Except.ok.inj h
      -- nothing seen so far clashes, so the listener is added
      refine ⟨?_, fun l hl => List.mem_append_left _ hl, fun _ => by simp⟩
      intro _ l hl
      simpa [Listener.clashes] using List.find?_eq_none.mp hnone l hl

/-! ### The loop -/

/-- A mapping that the loop accepts after the listeners and owners of those before it. -/
structure AcceptedAfter (seen : List Listener) (owners : List SerialOwner) (c : MappingConfig) :
    Prop where
  listener : c.binds = true → ∀ l ∈ seen, l.clashes c = false
  device : c.enabled = true → ∀ d ∈ c.devices, ∀ o ∈ owners, o.device.pyEq d = true →
    o.id.pyEq c.id = true

/-- The loop is complete: what one mapping leaves behind is held against every later one. -/
theorem validateMappings_ok {m : Platform} {cfgs : List MappingConfig} {seen : List Listener}
    {owners : List SerialOwner} (hids : ∀ c ∈ cfgs, c.id.Keyed) (hagree : OwnersAgree owners)
    (h : validateMappings m seen owners cfgs = .ok ()) :
    (∀ c ∈ cfgs, c.validate m = .ok ()) ∧ (∀ c ∈ cfgs, AcceptedAfter seen owners c) ∧
      cfgs.Pairwise fun a b => TextApart a b ∧ SharersAgree a b := by
  induction cfgs generalizing seen owners with
  | nil => exact ⟨by simp, by simp, .nil⟩
  | cons c rest ih =>
    unfold validateMappings at h
    obtain ⟨_, hvalid, h⟩ := except_bind_eq_ok.1 h
    obtain ⟨owners', howners, h⟩ := except_bind_eq_ok.1 h
    obtain ⟨seen', hseen, h⟩ := except_bind_eq_ok.1 h
    obtain ⟨hlistener, hsub, hnew⟩ := checkListener_ok hseen
    -- the owners after this mapping, in both cases of its switch
    obtain ⟨hagree', hkept, hadded, hdevice⟩ : OwnersAgree owners' ∧ (∀ o ∈ owners, o ∈ owners') ∧
        (c.enabled = true → ∀ d ∈ c.devices, ⟨d, c.id, c.name⟩ ∈ owners') ∧
        (c.enabled = true → ∀ d ∈ c.devices, ∀ o ∈ owners, o.device.pyEq d = true →
          o.id.pyEq c.id = true) := by
      by_cases hen : c.enabled = true
      · rw [if_pos hen] at howners
        obtain ⟨h1, h2, h3, h4⟩ := checkDevices_ok (hids c List.mem_cons_self) hagree howners
        exact ⟨h1, h2, fun _ => h3, fun _ => h4⟩
      · rw [if_neg hen] at howners
        obtain rfl := Except.ok.inj howners
        exact ⟨hagree, fun o ho => ho, fun h => absurd h hen, fun h => absurd h hen⟩
    obtain ⟨hvalids, haccepted, hpair⟩ :=
      ih (fun b hb => hids b (List.mem_cons_of_mem _ hb)) hagree' h
    refine ⟨?_, ?_, List.pairwise_cons.mpr ⟨?_, hpair⟩⟩
    · exact List.forall_mem_cons.mpr ⟨hvalid, hvalids⟩
    · refine List.forall_mem_cons.mpr ⟨⟨hlistener, hdevice⟩, ?_⟩
      intro b hb
      exact ⟨fun hbinds l hl => (haccepted b hb).listener hbinds l (hsub l hl),
        fun hen d hd o ho => (haccepted b hb).device hen d hd o (hkept o ho)⟩
    · intro b hb
      refine ⟨?_, ?_⟩
      · rintro ⟨hc, hbinds, hproto, hport⟩
        have := (haccepted b hb).listener hbinds _ (hnew hc)
        simpa [Listener.clashes, hproto, hport] using this
      · rintro d e ⟨hc, hen, hd, he, heq⟩
        exact (haccepted b hb).device hen e he _ (hadded hc d hd) heq

/-! ### Addresses and devices -/

/-- Two listeners of one port have different addresses, and neither is a wildcard. -/
def AddressesApart (a b : MappingConfig) : Prop :=
  SamePort a b → ∃ ip ip', Ipaddress.ipAddress a.network.bindIp = some ip ∧
    Ipaddress.ipAddress b.network.bindIp = some ip' ∧ ip ≠ ip' ∧ ip.isWildcard = false ∧
    ip'.isWildcard = false

/-- Two enabled mappings name no common device. -/
def DevicesApart (a b : MappingConfig) : Prop := ∀ d e, ¬ SharedDevice a b d e

/-- The condition on the addresses of two listeners of one port: one address has one
    spelling, and a wildcard is written as `_ip_overlaps` knows it. -/
def SpelledAlike (a b : MappingConfig) : Prop :=
  SamePort a b → ∀ ip ip', Ipaddress.ipAddress a.network.bindIp = some ip →
    Ipaddress.ipAddress b.network.bindIp = some ip' →
      (ip = ip' → a.network.bindIp.pyEq b.network.bindIp = true) ∧
      (ip.isWildcard = true → a.network.bindIp.inStrs ["0.0.0.0", "::"] = true) ∧
      (ip'.isWildcard = true → b.network.bindIp.inStrs ["0.0.0.0", "::"] = true)

/-- The condition on the devices: mappings of one id do not share one. -/
def OneOwnerId (a b : MappingConfig) : Prop :=
  a.id.pyEq b.id = true → ∀ d e, ¬ SharedDevice a b d e

/-- The bind address of an accepted listener is an address. -/
theorem exists_ipAddress {m : Platform} {c : MappingConfig} (hvalid : c.validate m = .ok ())
    (hbinds : c.binds = true) : ∃ ip, Ipaddress.ipAddress c.network.bindIp = some ip := by
  obtain ⟨hkind, hlistens⟩ := Bool.and_eq_true_iff.mp hbinds
  -- a serial bridge has no listener, so the kind is the other one
  have hnot : c.kind.eqStr "serialbridge" = false := by
    cases hk : c.kind with
    | str s =>
      rw [hk] at hkind
      obtain rfl : s = "net" := by simpa [Json.eqStr] using hkind
      decide
    | _ => rfl
  unfold MappingConfig.validate at hvalid
  -- `validate` gets as far as the network section, and there to the listener
  obtain ⟨_, -, hvalid⟩ := except_bind_eq_ok.1 hvalid
  obtain ⟨_, -, hvalid⟩ := except_bind_eq_ok.1 hvalid
  obtain ⟨_, -, hvalid⟩ := except_bind_eq_ok.1 hvalid
  obtain ⟨_, -, hvalid⟩ := except_bind_eq_ok.1 hvalid
  obtain ⟨_, hnet, -⟩ := except_bind_eq_ok.1 hvalid
  rw [if_neg (by simp [hnot])] at hnet
  unfold NetworkSettings.validate at hnet
  obtain ⟨_, -, hnet⟩ := except_bind_eq_ok.1 hnet
  obtain ⟨_, -, hnet⟩ := except_bind_eq_ok.1 hnet
  obtain ⟨_, hlistener, -⟩ := except_bind_eq_ok.1 hnet
  rw [if_pos hlistens] at hlistener
  unfold NetworkSettings.validateListener at hlistener
  split at hlistener
  · cases hlistener
  · next ip hip => exact ⟨ip, hip⟩

/-- For texts that do not overlap, the addresses are apart exactly when they are spelled
    alike. -/
theorem addressesApart_iff {m : Platform} {a b : MappingConfig} (ha : a.validate m = .ok ())
    (hb : b.validate m = .ok ()) (htext : TextApart a b) :
    AddressesApart a b ↔ SpelledAlike a b := by
  constructor
  -- addresses that differ leave nothing to spell alike
  · intro hapart hport ip ip' hip hip'
    obtain ⟨x, y, hx, hy, hne, hw, hw'⟩ := hapart hport
    obtain rfl : ip = x := Option.some.inj (hip.symm.trans hx)
    obtain rfl : ip' = y := Option.some.inj (hip'.symm.trans hy)
    refine ⟨fun h => absurd h hne, ?_, ?_⟩
    · intro h
      rw [hw] at h
      cases h
    · intro h
      rw [hw'] at h
      cases h
  -- an accepted listener has an address, and the text says which
  · intro halike hport
    obtain ⟨ip, hip⟩ := exists_ipAddress ha hport.1
    obtain ⟨ip', hip'⟩ := exists_ipAddress hb hport.2.1
    obtain ⟨hsame, hw, hw'⟩ := halike hport ip ip' hip hip'
    have hoverlap := htext hport
    simp only [ipOverlaps, Bool.or_eq_false_iff] at hoverlap
    obtain ⟨⟨hdiff, hplain⟩, hplain'⟩ := hoverlap
    refine ⟨ip, ip', hip, hip', ?_, ?_, ?_⟩
    · intro heq
      simp [hsame heq] at hdiff
    · by_contra h
      simp [hw (by simpa using h)] at hplain
    · by_contra h
      simp [hw' (by simpa using h)] at hplain'

/-- Where sharers have one id, the devices are apart exactly when mappings of one id do not
    share any. -/
theorem devicesApart_iff {a b : MappingConfig} (hagree : SharersAgree a b) :
    DevicesApart a b ↔ OneOwnerId a b := by
  constructor
  · exact fun hapart _ => hapart
  · intro howner d e hshared
    exact howner (hagree d e hshared) d e hshared

/-- For every configuration that `validate` accepts and any two positions of it: listeners of
    one transport and port have different addresses, none a wildcard, and enabled mappings
    have no device in common, if and only if listeners of one port spell their addresses
    alike and enabled mappings of one id have no device in common. -/
theorem kept_apart_iff (m : Platform) (c : AppConfig) (hids : ∀ x ∈ c.mappings, x.id.Keyed)
    (hvalid : c.validate m = .ok ()) :
    (c.mappings.Pairwise fun a b => AddressesApart a b ∧ DevicesApart a b) ↔
      c.mappings.Pairwise fun a b => SpelledAlike a b ∧ OneOwnerId a b := by
  have hmappings : validateMappings m [] [] c.mappings = .ok () :=
    (AppConfig.validate_mappings hvalid c.mappings).1 hvalid
  obtain ⟨hvalids, -, hpair⟩ :=
    validateMappings_ok hids ⟨by simp, by simp, by simp⟩ hmappings
  have hiff : ∀ a ∈ c.mappings, ∀ b ∈ c.mappings, TextApart a b ∧ SharersAgree a b →
      (AddressesApart a b ∧ DevicesApart a b ↔ SpelledAlike a b ∧ OneOwnerId a b) :=
    fun a ha b hb h => and_congr (addressesApart_iff (hvalids a ha) (hvalids b hb) h.1)
      (devicesApart_iff h.2)
  constructor
  · intro hapart
    refine List.Pairwise.imp_of_mem ?_ (hpair.and hapart)
    exact fun ha hb h => (hiff _ ha _ hb h.1).mp h.2
  · intro halike
    refine List.Pairwise.imp_of_mem ?_ (hpair.and halike)
    exact fun ha hb h => (hiff _ ha _ hb h.1).mpr h.2

/-- A TCP listener on an address, with its device. -/
def listenerOn (mid bindIp device : String) (port : Int) : MappingConfig where
  id := .str mid
  name := .str mid
  enabled := true
  kind := .str "net"
  serial := SerialSettings.ofMembers [("port", .str device)] []
  serialB := SerialSettings.ofMembers [] []
  network := NetworkSettings.ofMembers [("bind_ip", .str bindIp), ("port", .int port)]
  options := MappingOptions.ofMembers bareMachine.py [] (.int 0)
  mqtt := MqttSettings.ofMembers []
  modbusPoll := ⟨.ofIntExact 5, []⟩

/-- A configuration with these mappings. -/
def withMappings (mappings : List MappingConfig) : AppConfig :=
  { AppConfig.fresh "key" "node" with mappings := mappings }

/-- Two listeners of one port on two addresses. -/
theorem kept_apart_iff_two :
    let c := withMappings [listenerOn "a" "10.0.0.1" "/dev/ttyS0" 4001,
      listenerOn "b" "10.0.0.2" "/dev/ttyS1" 4001]
    c.validate bareMachine = .ok () ∧
      ((c.mappings.Pairwise fun a b => AddressesApart a b ∧ DevicesApart a b) ↔
        c.mappings.Pairwise fun a b => SpelledAlike a b ∧ OneOwnerId a b) := by
  intro c
  have hvalid : c.validate bareMachine = .ok () := by decide +kernel
  have hids : ∀ x ∈ c.mappings, x.id.Keyed := by
    intro x hx
    simp only [c, withMappings, List.mem_cons, List.not_mem_nil, or_false] at hx
    rcases hx with rfl | rfl <;> trivial
  exact ⟨hvalid, kept_apart_iff bareMachine c hids hvalid⟩

/-- One address of one port in two spellings. -/
def twoSpellings : AppConfig :=
  withMappings [listenerOn "a" "2001:db8::1" "/dev/ttyS0" 4001,
    listenerOn "b" "2001:DB8:0::1" "/dev/ttyS1" 4001]

/-- A wildcard that is written out, beside an address of the same port. -/
def writtenOutWildcard : AppConfig :=
  withMappings [listenerOn "a" "10.0.0.1" "/dev/ttyS0" 4001,
    listenerOn "b" "0::0" "/dev/ttyS1" 4001]

/-- Two mappings of one id on one device. -/
def twinIds : AppConfig :=
  withMappings [listenerOn "a" "10.0.0.1" "/dev/ttyS0" 4001,
    listenerOn "a" "10.0.0.2" "/dev/ttyS0" 4001]

/-- All three pass and are not kept apart. -/
theorem accepted_not_apart :
    (twoSpellings.validate bareMachine = .ok () ∧
        ¬ twoSpellings.mappings.Pairwise AddressesApart) ∧
      (writtenOutWildcard.validate bareMachine = .ok () ∧
        ¬ writtenOutWildcard.mappings.Pairwise AddressesApart) ∧
      twinIds.validate bareMachine = .ok () ∧ ¬ twinIds.mappings.Pairwise DevicesApart := by
  have hsame : ∀ x y : MappingConfig, SamePort x y →
      Ipaddress.ipAddress x.network.bindIp = Ipaddress.ipAddress y.network.bindIp →
        ¬ AddressesApart x y := by
    intro x y hport heq hapart
    obtain ⟨ip, ip', hip, hip', hne, -⟩ := hapart hport
    exact hne (Option.some.inj (hip.symm.trans (heq.trans hip')))
  refine ⟨⟨by decide +kernel, ?_⟩, ⟨by decide +kernel, ?_⟩, ⟨by decide +kernel, ?_⟩⟩
  -- one address in two spellings
  · intro hpair
    refine hsame _ _ ?_ ?_ ((List.pairwise_cons.mp hpair).1 _ List.mem_cons_self)
    · exact ⟨by decide, by decide, by decide, by decide +kernel⟩
    · decide +kernel
  -- a wildcard that is not spelled `::`
  · intro hpair
    have hapart := (List.pairwise_cons.mp hpair).1 _ List.mem_cons_self
    obtain ⟨ip, ip', -, hip', -, -, hwild⟩ :=
      hapart ⟨by decide, by decide, by decide, by decide +kernel⟩
    have hzero : Ipaddress.ipAddress (listenerOn "b" "0::0" "/dev/ttyS1" 4001).network.bindIp =
        some (.v6 0 none) := by decide +kernel
    obtain rfl := Option.some.inj (hip'.symm.trans hzero)
    cases hwild
  -- one device under one id
  · intro hpair
    refine (List.pairwise_cons.mp hpair).1 _ List.mem_cons_self (.str "/dev/ttyS0")
      (.str "/dev/ttyS0") ?_
    exact ⟨rfl, rfl, by decide, by decide, by decide⟩

end Ser2Net.Config
