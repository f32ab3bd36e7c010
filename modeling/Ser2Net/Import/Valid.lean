import Ser2Net.Import.Assemble
import Ser2Net.Config.Copy
import Ser2Net.Lib.Loop
import Ser2Net.Lib.PyArith

namespace Ser2Net.Import

open Ser2Net.Lib Ser2Net.Config Logged

/-!
# Import — what is returned is a valid configuration

`_assemble` drops what does not validate, makes the names unique and keeps one enabled mapping
for a device.

* `Conn.mapping`, `fromDict_toDict` — the mapping that a connection becomes;
* `Kept`, `NamingInv` — what the two loops of `_assemble` keep true;
* `validateMappings_of_compatible` — mappings that pass one by one and do not get in each
  other's way pass together.
-/

/-! ### The mapping of a connection -/

/-- The idle timeout of a connection as `from_dict` takes it. -/
def Conn.idle (c : Conn) : Json := Json.get c.optionMembers "idle_timeout_s" (.int 0)

/-- The mapping of a connection whose idle timeout loads as `idle`. -/
def Conn.mapping (m : Platform) (c : Conn) (newId : String) (idle : Json) : MappingConfig where
  id := .str newId
  name := str c.name
  enabled := c.enabled
  kind := .str "net"
  serial := SerialSettings.ofMembers c.serialMembers c.advancedMembers
  serialB := SerialSettings.ofMembers [] []
  network := NetworkSettings.ofMembers c.networkMembers
  options := MappingOptions.ofMembers m.py c.optionMembers idle
  mqtt := MqttSettings.ofMembers []
  modbusPoll := ⟨.ofIntExact 5, []⟩

/-- A member of another key stays. -/
theorem filter_optional {k k' : String} {v : Option Json} (h : k ≠ k') :
    (optional k v).filter (fun p => p.1 ≠ k') = optional k v := by
  cases v with
  | none => rfl
  | some v => simp [optional, h]

/-- A member of another key is passed over. -/
theorem lookup_optional_of_ne {k k' : String} {v : Option Json} {rest : List (String × Json)}
    (h : k ≠ k') : Json.lookup (optional k v ++ rest) k' = Json.lookup rest k' := by
  cases v with
  | none => rfl
  | some v => simp [optional, Json.lookup, h]

/-- The serial section never has a key `advanced` of its own. -/
theorem serialMembers_filter (c : Conn) :
    c.serialMembers.filter (fun p => p.1 ≠ "advanced") = c.serialMembers := by
  simp only [Conn.serialMembers, List.filter_append, filter_optional, ne_eq, String.reduceEq,
    not_false_eq_true]
  rfl

/-- The serial members hold no advanced settings. -/
theorem serialMembers_lookup_advanced (c : Conn) (rest : List (String × Json)) :
    Json.lookup (c.serialMembers ++ rest) "advanced" = Json.lookup rest "advanced" := by
  simp only [Conn.serialMembers, List.append_assoc]
  show Json.lookup (optional _ _ ++ (optional _ _ ++ (optional _ _ ++ rest))) "advanced" = _
  rw [lookup_optional_of_ne (by decide), lookup_optional_of_ne (by decide),
    lookup_optional_of_ne (by decide)]

/-- The serial section as `from_dict` reads it. -/
theorem serial_fromDict (c : Conn) :
    SerialSettings.fromDict (.obj (c.serialMembers ++
      if c.advancedMembers = [] then [] else [("advanced", .obj c.advancedMembers)])) =
      .ok (SerialSettings.ofMembers c.serialMembers c.advancedMembers) := by
  unfold SerialSettings.fromDict
  rw [Json.toDict_obj, except_ok_bind]
  simp only [Json.pop, Json.get, List.filter_append, serialMembers_filter,
    serialMembers_lookup_advanced]
  by_cases h : c.advancedMembers = []
  · simp only [h, ↓reduceIte, List.filter_nil, List.append_nil]
    rfl
  · simp only [if_neg h]
    have htruthy : (Json.obj c.advancedMembers).truthy = true := by
      simp [Json.truthy, h]
    simp [Json.lookup, htruthy, Json.items]

/-- The polling section is missing: no points. -/
theorem poll_fromDict : ModbusPoll.fromDict (.obj []) = .ok ⟨.ofIntExact 5, []⟩ := by
  unfold ModbusPoll.fromDict
  rw [Json.toDict_obj, except_ok_bind]
  have hget (k : String) (v : Json) : Json.get [] k v = v := rfl
  simp only [hget, orElse_float, ite_self]
  rfl

/-- The sections of the dictionary. -/
theorem toDict_get (c : Conn) :
    ∃ d, c.toDict = .obj d ∧ Json.get d "name" (.str "") = str c.name ∧
      Json.get d "enabled" (.bool true) = .bool c.enabled ∧
      Json.get d "kind" (.str "net") = .str "net" ∧
      Json.get d "serial" (.obj []) = .obj (c.serialMembers ++
        if c.advancedMembers = [] then [] else [("advanced", .obj c.advancedMembers)]) ∧
      Json.get d "network" (.obj []) = .obj c.networkMembers ∧
      Json.get d "options" (.obj []) = .obj c.optionMembers ∧
      ∀ k ∈ ["serial_b", "mqtt", "modbus_poll", "id"], ∀ v, Json.get d k v = v := by
  refine ⟨_, rfl, rfl, rfl, rfl, rfl, rfl, rfl, ?_⟩
  intro k hk v
  fin_cases hk <;> rfl

/-- `MappingConfig.from_dict(c.to_dict())`. -/
theorem fromDict_toDict (m : Platform) (newId : String) (c : Conn) :
    MappingConfig.fromDict m newId c.toDict =
      legacySeconds c.idle >>= fun idle => .ok (c.mapping m newId idle) := by
  have hoptions : MappingOptions.fromDict m (.obj c.optionMembers) =
      legacySeconds c.idle >>= fun idle =>
        .ok (MappingOptions.ofMembers m.py c.optionMembers idle) := by
    unfold MappingOptions.fromDict
    rw [Json.toDict_obj, except_ok_bind]
    rfl
  obtain ⟨d, hd, hname, henabled, hkind, hserial, hnetwork, hopts, hmissing⟩ := toDict_get c
  unfold MappingConfig.fromDict
  rw [hd, Json.toDict_obj, except_ok_bind]
  rw [hname, henabled, hkind, hserial, hnetwork, hopts, hmissing "serial_b" (by decide),
    hmissing "mqtt" (by decide), hmissing "modbus_poll" (by decide), hmissing "id" (by decide),
    serial_fromDict, hoptions, poll_fromDict]
  unfold SerialSettings.fromDict NetworkSettings.fromDict MqttSettings.fromDict
  simp only [Json.toDict_obj, except_ok_bind]
  cases legacySeconds c.idle with
  | error e => rfl
  | ok idle => rfl

/-- What a connection that passes the check loads as. -/
theorem check_eq_ok {env : ImportEnv} {c : Conn} {cfg : MappingConfig}
    (h : c.check env = .ok cfg) : ∃ idle, legacySeconds c.idle = .ok idle ∧
      cfg = c.mapping env.platform "" idle ∧ cfg.validate env.platform = .ok () := by
  obtain ⟨cfg', hload, h⟩ := except_bind_eq_ok.1 h
  obtain ⟨u, hvalid, h⟩ := except_bind_eq_ok.1 h
  rw [fromDict_toDict] at hload
  obtain ⟨idle, hidle, hload⟩ := except_bind_eq_ok.1 hload
  cases hload
  cases h
  exact ⟨idle, hidle, rfl, hvalid⟩

/-- The checks on a mapping look at its name only for being blank, and at its id and its switch
    not at all. -/
theorem validate_rename {m : Platform} {cfg : MappingConfig} (h : cfg.validate m = .ok ())
    (newId : String) (name : Text) (enabled : Bool) (hname : name.all PyText.isSpace = false) :
    MappingConfig.validate m { cfg with id := .str newId, name := str name, enabled := enabled } =
      .ok () := by
  obtain ⟨b, -, h⟩ := except_bind_eq_ok.1 h
  obtain ⟨u, -, h⟩ := except_bind_eq_ok.1 h
  refine except_bind_eq_ok.2 ⟨false, ?_, except_bind_eq_ok.2 ⟨(), rfl, h⟩⟩
  show Except.ok (PyText.blank (String.ofList name)) = Except.ok false
  rw [PyText.blank, String.toList_ofList, hname]

/-- A mapping that passes the check has a name that is not blank. -/
theorem name_not_blank {m : Platform} {cfg : MappingConfig} {name : Text}
    (hname : cfg.name = str name) (h : cfg.validate m = .ok ()) :
    name.all PyText.isSpace = false := by
  obtain ⟨b, hb, h⟩ := except_bind_eq_ok.1 h
  obtain ⟨u, hreq, -⟩ := except_bind_eq_ok.1 h
  rw [hname] at hb
  have hb : PyText.blank (String.ofList name) = b := Except.ok.inj hb
  rw [PyText.blank, String.toList_ofList] at hb
  have hreq := require_eq_ok.1 hreq
  rw [hb]
  simpa using hreq

/-! ### Unique names -/

/-- Numbered names are told apart by their numbers. -/
theorem numbered_injective (base : Text) : Function.Injective (numbered base) := by
  intro j k h
  have hdigits : Nat.toDigits 10 j = Nat.toDigits 10 k := by
    simpa [numbered, PyText.ofNat] using h
  calc
    j = Nat.ofDigitChars 10 (Nat.toDigits 10 j) 0 := Nat.ofDigitChars_ten_toDigits.symm
    _ = Nat.ofDigitChars 10 (Nat.toDigits 10 k) 0 := by rw [hdigits]
    _ = k := Nat.ofDigitChars_ten_toDigits

/-- The loop ends at a free name, or all the names that it tried are used. -/
theorem freeName_spec (used : List Text) (base : Text) (n k : Nat) :
    freeName used base n k ∉ used ∨ ∀ j ≤ n, numbered base (k + j) ∈ used := by
  induction n generalizing k with
  | zero =>
    by_cases h : numbered base k ∈ used
    · refine Or.inr fun j hj => ?_
      obtain rfl : j = 0 := by omega
      exact h
    · exact Or.inl h
  | succ n ih =>
    unfold freeName
    split
    next h =>
      refine (ih (k + 1)).imp_right fun hall j hj => ?_
      cases j with
      | zero => exact List.contains_iff_mem.1 h
      | succ j =>
        have hnext := hall j (by omega)
        rwa [show k + 1 + j = k + (j + 1) by omega] at hnext
    next h =>
      exact Or.inl fun hmem => h (List.contains_iff_mem.2 hmem)

/-- There are more names than used ones. -/
theorem freeName_not_mem (used : List Text) (base : Text) :
    freeName used base used.length 2 ∉ used := by
  rcases freeName_spec used base used.length 2 with h | hall
  · exact h
  · exfalso
    have hnodup : ((List.range (used.length + 1)).map fun j => numbered base (2 + j)).Nodup := by
      refine List.Nodup.map ?_ List.nodup_range
      intro i j hij
      have := numbered_injective base hij
      omega
    have hsub : ((List.range (used.length + 1)).map fun j => numbered base (2 + j)) ⊆ used := by
      intro name hname
      obtain ⟨j, hj, rfl⟩ := List.mem_map.1 hname
      exact hall j (by have := List.mem_range.1 hj; omega)
    have hle := (hnodup.subperm hsub).length_le
    rw [List.length_map, List.length_range] at hle
    omega

/-- The name that is chosen was not in use. -/
theorem uniqueName_not_mem (used : List Text) (base : Text) : uniqueName used base ∉ used := by
  unfold uniqueName
  split
  · exact freeName_not_mem used base
  next h => exact fun hmem => h (List.contains_iff_mem.2 hmem)

/-- A free name is one of the numbered ones. -/
theorem freeName_eq_numbered (used : List Text) (base : Text) (n k : Nat) :
    ∃ j, freeName used base n k = numbered base j := by
  induction n generalizing k with
  | zero => exact ⟨k, rfl⟩
  | succ n ih =>
    unfold freeName
    split
    · exact ih (k + 1)
    · exact ⟨k, rfl⟩

/-- The name that is chosen is not blank. -/
theorem uniqueName_not_blank {used : List Text} {base : Text}
    (h : base.all PyText.isSpace = false) : (uniqueName used base).all PyText.isSpace = false := by
  unfold uniqueName
  split
  · obtain ⟨j, hj⟩ := freeName_eq_numbered used base used.length 2
    rw [hj, numbered, List.all_append, List.all_append, List.all_append, h]
    rfl
  · exact h

/-! ### The two loops -/

/-- One turn of the first loop: the connection is kept, or a warning says why it is skipped. -/
theorem keepOne_returns {env : ImportEnv} {s s' : List Conn × List Text} {c : Conn}
    (h : Returns (keepOne env s c) s') :
    ((∃ cfg, c.check env = .ok cfg) ∧ (∀ o ∈ s.1, o.clashes c = false) ∧
        s' = (s.1 ++ [c], s.2)) ∨
      ∃ why, s' = (s.1, s.2 ++ [c.label ++ (": " ++ why)]) := by
  unfold keepOne at h
  split at h
  · exact absurd h not_returns_raise
  · exact absurd h not_returns_raise
  · exact absurd h not_returns_raise
  -- any other exception is a reason to leave the mapping out
  next e _ _ _ _ =>
    obtain rfl := returns_pure.1 h
    exact Or.inr ⟨"skipped: " ++ env.excText e, by simp [List.append_assoc]⟩
  next cfg hcheck =>
    split at h
    next other _ =>
      obtain rfl := returns_pure.1 h
      exact Or.inr ⟨"skipped: " ++ env.upper c.proto ++ " port " ++
        PyText.ofInt c.network.port ++ " is already used by '" ++ other.name ++ "'",
        by simp [List.append_assoc]⟩
    next hnone =>
      obtain rfl := returns_pure.1 h
      refine Or.inl ⟨⟨cfg, hcheck⟩, fun o ho => ?_, rfl⟩
      simpa using List.find?_eq_none.1 hnone o ho

/-- What the first loop keeps true of the connections it has kept. -/
structure Kept (env : ImportEnv) (kept : List Conn) : Prop where
  valid : ∀ c ∈ kept, ∃ cfg, c.check env = .ok cfg
  listeners : kept.Pairwise fun o c => o.clashes c = false

/-- Before the first connection. -/
theorem kept_nil (env : ImportEnv) : Kept env [] := by
  refine ⟨?_, List.Pairwise.nil⟩
  intro c hc
  cases hc

/-- One round of `_assemble`. -/
theorem Kept.keepOne {env : ImportEnv} {s s' : List Conn × List Text} {c : Conn}
    (hs : Kept env s.1) (h : Returns (keepOne env s c) s') : Kept env s'.1 := by
  rcases keepOne_returns h with ⟨hvalid, hclash, rfl⟩ | ⟨why, rfl⟩
  · refine ⟨?_, ?_⟩
    · intro o ho
      rcases List.mem_append.1 ho with ho | ho
      · exact hs.valid o ho
      · rwa [List.mem_singleton.1 ho]
    · refine List.pairwise_append.2 ⟨hs.listeners, List.pairwise_singleton _ _, ?_⟩
      intro o ho c' hc'
      rw [List.mem_singleton.1 hc']
      exact hclash o ho
  · exact hs

/-- A connection with its final name; it may have been switched off. -/
def Renamed (a b : Conn) : Prop :=
  ∃ used enabled, b = { a with name := uniqueName used a.name, enabled := enabled } ∧
    (enabled = true → a.enabled = true)

/-- One turn of the second loop. -/
theorem nameOne_spec (s : Naming) (c : Conn) : ∃ enabled new,
    nameOne s c = {
      used := s.used ++ [uniqueName s.used c.name]
      owner := s.owner ++ (if enabled then [(c.device, uniqueName s.used c.name)] else [])
      conns := s.conns ++ [{ c with name := uniqueName s.used c.name, enabled := enabled }]
      warnings := s.warnings ++ new } ∧
    (enabled = true → c.enabled = true ∧ c.device ∉ s.owner.map Prod.fst) := by
  -- a device that an earlier mapping has is taken, so this one is disabled
  cases hlookup : s.owner.lookup c.device with
  | some owner =>
    refine ⟨false, ?new, ?heq, fun h => absurd h Bool.false_ne_true⟩
    case heq =>
      rw [nameOne, hlookup]
      simp only [Bool.false_eq_true, ↓reduceIte, List.append_nil, List.append_assoc]
      rfl
  | none =>
    refine ⟨c.enabled, ?more, ?hfree, fun h => ⟨h, lookup_eq_none.1 hlookup⟩⟩
    case hfree =>
      have howner : (if c.enabled = true then s.owner ++ [(c.device, uniqueName s.used c.name)]
          else s.owner) =
          s.owner ++ if c.enabled = true then [(c.device, uniqueName s.used c.name)] else [] := by
        split <;> simp
      rw [nameOne, hlookup]
      simp only [howner]
      rfl

/-- What the second loop keeps true. -/
structure NamingInv (s : Naming) : Prop where
  names : s.conns.map Conn.name = s.used
  nodup : s.used.Nodup
  owned : ∀ c ∈ s.conns, c.enabled = true → c.device ∈ s.owner.map Prod.fst
  devices : s.conns.Pairwise fun a b => a.enabled = true → b.enabled = true → a.device ≠ b.device

/-- Before the first name. -/
theorem namingInv_start (warnings : List Text) : NamingInv { warnings := warnings } := by
  refine ⟨rfl, List.nodup_nil, ?_, List.Pairwise.nil⟩
  intro c hc
  cases hc

/-- One more connection gets its name. -/
theorem NamingInv.nameOne {s : Naming} (hs : NamingInv s) (c : Conn) : NamingInv (nameOne s c) := by
  obtain ⟨enabled, new, heq, hfree⟩ := nameOne_spec s c
  rw [heq]
  refine ⟨?_, ?_, ?_, ?_⟩
  · rw [List.map_append, hs.names]
    rfl
  · exact List.nodup_append_comm.1 (List.nodup_cons.2 ⟨uniqueName_not_mem _ _, hs.nodup⟩)
  · intro d hd hen
    rw [List.map_append]
    rcases List.mem_append.1 hd with hd | hd
    · exact List.mem_append_left _ (hs.owned d hd hen)
    · obtain rfl := List.mem_singleton.1 hd
      have hen : enabled = true := hen
      refine List.mem_append_right _ ?_
      rw [hen]
      exact List.mem_singleton.2 rfl
  · refine List.pairwise_append.2 ⟨hs.devices, List.pairwise_singleton _ _, ?_⟩
    intro a ha b hb hena henb hdev
    obtain rfl := List.mem_singleton.1 hb
    -- the device of `a` is owned, so the new connection was not left enabled
    have hdev : a.device = c.device := hdev
    exact (hfree henb).2 (hdev ▸ hs.owned a ha hena)

/-- The second loop as a whole: every connection keeps its place and all but its name and its
    switch. -/
theorem nameAll_spec (kept : List Conn) (s : Naming) (hs : NamingInv s) :
    ∃ new more, (kept.foldl nameOne s).conns = s.conns ++ new ∧ List.Forall₂ Renamed kept new ∧
      NamingInv (kept.foldl nameOne s) ∧ (kept.foldl nameOne s).warnings = s.warnings ++ more := by
  induction kept generalizing s with
  | nil => exact ⟨[], [], (List.append_nil _).symm, .nil, hs, (List.append_nil _).symm⟩
  | cons c rest ih =>
    obtain ⟨new, more, hconns, hrenamed, hnamed, hwarn⟩ := ih (nameOne s c) (hs.nameOne c)
    obtain ⟨enabled, warned, heq, hfree⟩ := nameOne_spec s c
    rw [List.foldl_cons]
    refine ⟨{ c with name := uniqueName s.used c.name, enabled := enabled } :: new,
      warned ++ more, ?_, ?_, hnamed, ?_⟩
    · rw [hconns, heq, List.append_assoc]
      rfl
    · exact .cons ⟨s.used, enabled, rfl, fun h => (hfree h).1⟩ hrenamed
    · rw [hwarn, heq, List.append_assoc]

/-! ### Mappings side by side -/

/-- Two mappings, `a` before `b`, do not get in each other's way. -/
structure Compatible (a b : MappingConfig) : Prop where
  device : a.enabled = true → b.enabled = true →
    ∀ d ∈ a.devices, ∀ e ∈ b.devices, d.pyEq e = false
  listener : (a.network.proto == b.network.proto && a.network.port.pyEq b.network.port &&
    ipOverlaps a.network.bindIp b.network.bindIp) = false

/-- The device check passes for a device that no earlier mapping owns. -/
theorem checkDevices_of_free {c : MappingConfig} {owners : List SerialOwner}
    (hdev : c.devices = [] ∨ ∃ d : String, c.devices = [.str d])
    (hfree : ∀ o ∈ owners, ∀ d ∈ c.devices, o.device.pyEq d = false) :
    checkDevices c owners c.devices =
      .ok ((c.devices.map fun d => ⟨d, c.id, c.name⟩) ++ owners) := by
  rcases hdev with h | ⟨d, h⟩
  · rw [h]
    rfl
  · rw [h] at hfree ⊢
    have hnone : (owners.find? fun o => o.device.pyEq (.str d)) = none := by
      rw [List.find?_eq_none]
      intro o ho
      rw [hfree o ho (.str d) List.mem_cons_self]
      exact Bool.false_ne_true
    unfold checkDevices
    rw [hnone]
    rfl

/-- The listener check passes where no earlier mapping listens. -/
theorem checkListener_of_free {c : MappingConfig} {seen : List Listener}
    (hfree : ∀ l ∈ seen, (l.proto == c.network.proto && l.port.pyEq c.network.port &&
      ipOverlaps l.bindIp c.network.bindIp) = false) :
    ∃ new, checkListener c seen = .ok (seen ++ new) ∧
      ∀ l ∈ new, l = ⟨c.network.proto, c.network.bindIp, c.network.port, c.name⟩ := by
  have hnone : (seen.find? fun l => l.proto == c.network.proto &&
      l.port.pyEq c.network.port && ipOverlaps l.bindIp c.network.bindIp) = none := by
    rw [List.find?_eq_none]
    intro l hl
    rw [hfree l hl]
    exact Bool.false_ne_true
  unfold checkListener
  simp only [hnone]
  split
  · refine ⟨[], by rw [List.append_nil], ?_⟩
    intro l hl
    cases hl
  · exact ⟨_, rfl, fun l hl => List.mem_singleton.1 hl⟩

/-- Mappings that pass one by one and do not get in each other's way pass together. -/
theorem validateMappings_of_compatible {m : Platform} {cfgs : List MappingConfig}
    {seen : List Listener} {owners : List SerialOwner}
    (hvalid : ∀ c ∈ cfgs, c.validate m = .ok ())
    (hdev : ∀ c ∈ cfgs, c.devices = [] ∨ ∃ d : String, c.devices = [.str d])
    (hpair : cfgs.Pairwise Compatible)
    (hseen : ∀ l ∈ seen, ∀ c ∈ cfgs, (l.proto == c.network.proto && l.port.pyEq c.network.port &&
      ipOverlaps l.bindIp c.network.bindIp) = false)
    (howners : ∀ o ∈ owners, ∀ c ∈ cfgs, c.enabled = true → ∀ d ∈ c.devices,
      o.device.pyEq d = false) :
    validateMappings m seen owners cfgs = .ok () := by
  induction cfgs generalizing seen owners with
  | nil => rfl
  | cons c rest ih =>
    obtain ⟨hfirst, hrest⟩ := List.pairwise_cons.1 hpair
    have hmem : ∀ {x}, x ∈ rest → x ∈ c :: rest := List.mem_cons_of_mem c
    obtain ⟨new, hlisten, hnew⟩ := checkListener_of_free (c := c)
      fun l hl => hseen l hl c List.mem_cons_self
    -- the owners after this mapping, in both cases of its switch
    obtain ⟨owners', hdevices, howners'⟩ : ∃ owners',
        (if c.enabled then checkDevices c owners c.devices else .ok owners) = .ok owners' ∧
        ∀ o ∈ owners', ∀ b ∈ rest, b.enabled = true → ∀ d ∈ b.devices,
          o.device.pyEq d = false := by
      by_cases hen : c.enabled = true
      · rw [if_pos hen, checkDevices_of_free (hdev c List.mem_cons_self)
          fun o ho => howners o ho c List.mem_cons_self hen]
        refine ⟨_, rfl, ?_⟩
        intro o ho b hb hben d hd
        rcases List.mem_append.1 ho with ho | ho
        · obtain ⟨e, he, rfl⟩ := List.mem_map.1 ho
          exact (hfirst b hb).device hen hben e he d hd
        · exact howners o ho b (hmem hb) hben d hd
      · rw [if_neg hen]
        exact ⟨owners, rfl, fun o ho b hb => howners o ho b (hmem hb)⟩
    unfold validateMappings
    rw [hvalid c List.mem_cons_self, except_ok_bind, hdevices, except_ok_bind, hlisten,
      except_ok_bind]
    refine ih (fun b hb => hvalid b (hmem hb)) (fun b hb => hdev b (hmem hb)) hrest ?_ howners'
    intro l hl b hb
    rcases List.mem_append.1 hl with hl | hl
    · exact hseen l hl b (hmem hb)
    · rw [hnew l hl]
      exact (hfirst b hb).listener

/-! ### The mappings of kept connections -/

/-- Equal integers are the same. -/
theorem eq_of_int_pyEq {a b : Int} (h : (Json.int a).pyEq (.int b) = true) : a = b := by
  have h : Json.numEq (.ofIntExact a) (.ofIntExact b) = true := h
  rw [Json.numEq, Bool.and_eq_true, beq_iff_eq] at h
  exact PyFloat.ofIntExact_injective h.1

/-- Texts are told apart. -/
theorem str_injective : Function.Injective str := by
  intro a b h
  exact String.ofList_injective (Json.str.inj h)

/-- Equal texts are the same. -/
theorem str_pyEq {a b : Text} : (str a).pyEq (str b) = true ↔ a = b := by
  unfold str
  rw [Json.pyEq_str, Json.eqStr, beq_iff_eq]
  exact str_injective.eq_iff

/-- The device of a connection is the only one its mapping opens. -/
theorem mapping_devices (m : Platform) (c : Conn) (newId : String) (idle : Json) :
    (c.mapping m newId idle).devices = [] ∨ (c.mapping m newId idle).devices = [str c.device] := by
  have hb : (c.mapping m newId idle).kind.eqStr "serialbridge" = false := by
    show (Json.str "net").eqStr "serialbridge" = false
    decide
  unfold MappingConfig.devices
  rw [hb, Bool.false_and, Bool.false_and]
  simp only [Bool.false_eq_true, ↓reduceIte, List.append_nil]
  split
  · exact Or.inr rfl
  · exact Or.inl rfl

/-- The transport of a mapping is that of its connection. -/
theorem mapping_proto (m : Platform) (c : Conn) (newId : String) (idle : Json) :
    (c.mapping m newId idle).network.proto = String.ofList c.proto := by
  show (if (str c.network.mode.text).eqStr "udp" then "udp" else "tcp") = String.ofList c.proto
  unfold Conn.proto
  cases c.network.mode with
  | server => decide
  | udp => decide

/-- Connections that neither clash nor share a device become mappings that get along. -/
theorem compatible_of_conns {m : Platform} {a b : Conn} {idA idB : String} {idleA idleB : Json}
    (hclash : a.clashes b = false)
    (hdevice : a.enabled = true → b.enabled = true → a.device ≠ b.device) :
    Compatible (a.mapping m idA idleA) (b.mapping m idB idleB) := by
  refine ⟨?_, ?_⟩
  -- two enabled mappings share no device
  · intro ha hb d hd e he
    have hd : d = str a.device := by
      rcases mapping_devices m a idA idleA with h | h
      · rw [h] at hd
        cases hd
      · rw [h] at hd
        exact List.mem_singleton.1 hd
    have he : e = str b.device := by
      rcases mapping_devices m b idB idleB with h | h
      · rw [h] at he
        cases he
      · rw [h] at he
        exact List.mem_singleton.1 he
    rw [hd, he, Bool.eq_false_iff, Ne, str_pyEq]
    exact hdevice ha hb
  -- two listeners on one port and overlapping addresses would clash
  · rw [Bool.eq_false_iff]
    intro h
    rw [Bool.and_eq_true, Bool.and_eq_true, beq_iff_eq, mapping_proto, mapping_proto] at h
    obtain ⟨⟨hproto, hport⟩, hip⟩ := h
    have hport : a.network.port = b.network.port := eq_of_int_pyEq hport
    have hip : ipOverlaps (str a.network.bindIp) (str b.network.bindIp) = true := hip
    have hproto : a.proto = b.proto := String.ofList_injective hproto
    have hclash' : a.clashes b = true := by
      unfold Conn.clashes
      rw [hport, hproto]
      simpa using hip
    rw [hclash] at hclash'
    exact Bool.false_ne_true hclash'

/-! ### The import as a whole -/

/-- A relation between the elements of a list carries over to their images. -/
theorem pairwise_of_forall₂ {α β : Type} {R : α → β → Prop} {P : α → α → Prop}
    {Q : β → β → Prop} {l : List α} {l' : List β} (h : List.Forall₂ R l l') (hl : l.Pairwise P)
    (hPQ : ∀ a a' b b', R a a' → R b b' → P a b → Q a' b') : l'.Pairwise Q := by
  induction h with
  | nil => exact List.Pairwise.nil
  | cons hab hrest ih =>
    obtain ⟨hfirst, hpair⟩ := List.pairwise_cons.1 hl
    refine List.pairwise_cons.2 ⟨?_, ih hpair⟩
    intro b' hb'
    obtain ⟨b, hb, hbb'⟩ := exists_of_mem_right hrest hb'
    exact hPQ _ _ b b' hab hbb' (hfirst b hb)

/-- What `_assemble` returns: the kept connections under their final names. -/
structure Assembled (env : ImportEnv) (conns : List Conn) : Prop where
  kept : ∃ kept, Kept env kept ∧ List.Forall₂ Renamed kept conns
  names : (conns.map Conn.name).Nodup
  devices : conns.Pairwise fun a b => a.enabled = true → b.enabled = true → a.device ≠ b.device

/-- What `_assemble` returns. -/
theorem assemble_returns {env : ImportEnv} {conns final : List Conn} {warnings out : List Text}
    (h : Returns (assemble env conns warnings) (final, out)) : Assembled env final := by
  obtain ⟨⟨kept, warned⟩, hkept, h⟩ := returns_bind h
  have hk : Kept env kept :=
    returns_foldlM (I := fun s : List Conn × List Text => Kept env s.1)
      (fun s c s' _ hs hstep => hs.keepOne hstep) (kept_nil env) hkept
  obtain ⟨new, more, hconns, hrenamed, hnamed, -⟩ :=
    nameAll_spec kept { warnings := warned } (namingInv_start warned)
  cases returns_pure.1 h
  refine ⟨⟨kept, hk, ?_⟩, hnamed.names ▸ hnamed.nodup, hnamed.devices⟩
  rw [hconns]
  exact hrenamed

/-- What the readers and `_assemble` return. -/
theorem parseConns_returns {env : ImportEnv} {text filename : Text} {conns : List Conn}
    {warnings : List Text} (h : Returns (parseConns env text filename) (conns, warnings)) :
    Assembled env conns := by
  unfold parseConns at h
  dsimp only at h
  split at h
  · exact absurd h not_returns_raise
  · obtain ⟨⟨found, warned⟩, -, h⟩ := returns_bind h
    obtain ⟨⟨kept, out⟩, hassemble, h⟩ := returns_bind h
    cases returns_pure.1 h
    exact assemble_returns hassemble

/-- A connection under its final name still passes the checks, whatever id it gets. -/
theorem Renamed.load {env : ImportEnv} {a b : Conn} (h : Renamed a b)
    (hcheck : ∃ cfg, a.check env = .ok cfg) (newId : String) :
    ∃ idle, MappingConfig.fromDict env.platform newId b.toDict =
        .ok (b.mapping env.platform newId idle) ∧
      (b.mapping env.platform newId idle).validate env.platform = .ok () := by
  obtain ⟨used, enabled, rfl, -⟩ := h
  obtain ⟨cfg, hcheck⟩ := hcheck
  obtain ⟨idle, hidle, rfl, hvalid⟩ := check_eq_ok hcheck
  refine ⟨idle, ?_, ?_⟩
  · rw [fromDict_toDict]
    show legacySeconds a.idle >>= _ = _
    rw [hidle, except_ok_bind]
  · exact validate_rename hvalid newId _ enabled
      (uniqueName_not_blank (name_not_blank rfl hvalid))

/-- A name has no part in a clash. -/
theorem Renamed.clashes {a a' b b' : Conn} (ha : Renamed a a') (hb : Renamed b b') :
    a'.clashes b' = a.clashes b := by
  obtain ⟨usedA, enabledA, rfl, -⟩ := ha
  obtain ⟨usedB, enabledB, rfl, -⟩ := hb
  rfl

/-- The final connections pass the checks and listen at different places. -/
theorem Assembled.listeners {env : ImportEnv} {conns : List Conn} (h : Assembled env conns) :
    conns.Pairwise fun a b => a.clashes b = false := by
  obtain ⟨kept, hk, hrenamed⟩ := h.kept
  refine pairwise_of_forall₂ hrenamed hk.listeners ?_
  intro a a' b b' ha hb hab
  rw [ha.clashes hb]
  exact hab

/-- The mappings that the returned dictionaries load as. -/
def Loads (m : Platform) (mappings : List Json) (cfgs : List MappingConfig) : Prop :=
  List.Forall₂ (fun j cfg => ∃ newId, MappingConfig.fromDict m newId j = .ok cfg) mappings cfgs

/-- What the dictionaries of connections that pass load as: the mapping of the connection at the
    same place. -/
theorem mappings_of_loads {m : Platform} {conns : List Conn} {cfgs : List MappingConfig}
    (hload : ∀ c ∈ conns, ∀ newId, ∃ idle, MappingConfig.fromDict m newId c.toDict =
      .ok (c.mapping m newId idle) ∧ (c.mapping m newId idle).validate m = .ok ())
    (hcfgs : Loads m (conns.map Conn.toDict) cfgs) :
    List.Forall₂ (fun c cfg => ∃ newId idle, cfg = Conn.mapping m c newId idle ∧
      cfg.validate m = .ok ()) conns cfgs := by
  have hcfgs := List.forall₂_map_left_iff.1 hcfgs
  induction hcfgs with
  | nil => exact .nil
  | @cons c cfg rest cfgs hfrom hrest ih =>
    refine .cons ?_ (ih (fun b hb => hload b (List.mem_cons_of_mem _ hb))
      (List.forall₂_map_left_iff.2 hrest))
    obtain ⟨newId, hfrom⟩ := hfrom
    obtain ⟨idle, hfrom', hvalid⟩ := hload c List.mem_cons_self newId
    rw [hfrom'] at hfrom
    cases hfrom
    exact ⟨newId, idle, rfl, hvalid⟩

/-- **What the import returns is a valid configuration.**  Every mapping passes its checks, the
    names differ, and any configuration whose other sections pass its checks passes them with
    exactly these mappings. -/
theorem import_valid (env : ImportEnv) (text filename : Text) {mappings : List Json}
    {warnings : List Text} (h : Returns (parse env text filename) (mappings, warnings)) :
    (∀ j ∈ mappings, ∀ newId, ∃ cfg, MappingConfig.load env.platform newId j = .ok cfg) ∧
      ∀ cfgs, Loads env.platform mappings cfgs →
        (∀ cfg ∈ cfgs, cfg.validate env.platform = .ok ()) ∧
        (cfgs.map MappingConfig.name).Nodup ∧
        ∀ app : AppConfig, { app with mappings := [] }.validate env.platform = .ok () →
          { app with mappings := cfgs }.validate env.platform = .ok () := by
  obtain ⟨⟨conns, out⟩, hconns, h⟩ := returns_bind h
  cases returns_pure.1 h
  have hall := parseConns_returns hconns
  have hload : ∀ c ∈ conns, ∀ newId, ∃ idle, MappingConfig.fromDict env.platform newId c.toDict =
      .ok (c.mapping env.platform newId idle) ∧
        (c.mapping env.platform newId idle).validate env.platform = .ok () := by
    intro c hc
    obtain ⟨kept, hk, hrenamed⟩ := hall.kept
    obtain ⟨a, ha, hren⟩ := exists_of_mem_right hrenamed hc
    exact hren.load (hk.valid a ha)
  refine ⟨?_, ?_⟩
  · intro j hj newId
    obtain ⟨c, hc, rfl⟩ := List.mem_map.1 hj
    obtain ⟨idle, hfrom, hvalid⟩ := hload c hc newId
    exact ⟨_, except_bind_eq_ok.2 ⟨_, hfrom, except_bind_eq_ok.2 ⟨(), hvalid, rfl⟩⟩⟩
  · intro cfgs hcfgs
    have hmap := mappings_of_loads hload hcfgs
    have hvalid : ∀ cfg ∈ cfgs, cfg.validate env.platform = .ok () := by
      intro cfg hcfg
      obtain ⟨c, -, newId, idle, -, hvalid⟩ := exists_of_mem_right hmap hcfg
      exact hvalid
    refine ⟨hvalid, ?_, ?_⟩
    · have hnames : List.Forall₂ (fun c cfg => cfg.name = str c.name) conns cfgs :=
        hmap.imp fun c cfg ⟨_, _, hcfg, _⟩ => hcfg ▸ rfl
      have hpair := (List.pairwise_map.1 hall.names)
      refine List.pairwise_map.2 (pairwise_of_forall₂ hnames hpair ?_)
      intro a a' b b' ha hb hne heq
      rw [ha, hb] at heq
      exact hne (str_injective heq)
    · intro app happ
      have hpair : cfgs.Pairwise Compatible := by
        refine pairwise_of_forall₂ hmap (hall.listeners.and hall.devices) ?_
        rintro a a' b b' ⟨idA, idleA, rfl, -⟩ ⟨idB, idleB, rfl, -⟩ ⟨hclash, hdevice⟩
        exact compatible_of_conns hclash hdevice
      have hmappings : validateMappings env.platform [] [] cfgs = .ok () := by
        refine validateMappings_of_compatible hvalid ?_ hpair ?_ ?_
        · intro cfg hcfg
          obtain ⟨c, -, newId, idle, rfl, -⟩ := exists_of_mem_right hmap hcfg
          exact (mapping_devices _ _ _ _).imp_right fun hd => ⟨_, hd⟩
        · intro l hl
          cases hl
        · intro o ho
          cases ho
      -- the other sections are those of `app`
      exact (AppConfig.validate_mappings happ cfgs).2 hmappings

/-- A machine without files and services. -/
def plainEnv : ImportEnv where
  platform := bareMachine
  service _ := none
  excText _ := []
  upperOther := id
  reprNode _ := []

/-- Two ports of a `ser2net.conf` on one device and a third one on a port that is taken: two
    mappings, which pass together. -/
theorem import_valid_ports :
    let text : Text := "2000:raw:0:/dev/ttyS0:9600\n2001:off:0:/dev/ttyS0:\n2000:raw:0:/dev/ttyS1:"
    ∃ mappings warnings, Returns (parse plainEnv text []) (mappings, warnings) ∧
      mappings.length = 2 ∧ ∀ cfgs, Loads bareMachine mappings cfgs →
        (cfgs.map MappingConfig.name).Nodup ∧
        { AppConfig.fresh "" "" with mappings := cfgs }.validate bareMachine = .ok () := by
  intro text
  obtain ⟨⟨mappings, warnings⟩, hrun, hlength⟩ :=
    exists_returns (x := parse plainEnv text []) (p := fun r => r.1.length == 2) (by decide +kernel)
  refine ⟨mappings, warnings, hrun, by simpa using hlength, ?_⟩
  intro cfgs hcfgs
  obtain ⟨-, hnames, happ⟩ := (import_valid plainEnv text [] hrun).2 cfgs hcfgs
  exact ⟨hnames, happ _ (validate_fresh bareMachine "" "")⟩

end Ser2Net.Import
