import Ser2Net.Config.Mapping

namespace Ser2Net.Engine.SerialIo

open Ser2Net.Lib Ser2Net.Config

/-!
# Engine — the device of a mapping (`app/engine/serial_io.py`)

A mapping may name its adapter by a USB identity, so that it finds it under another name after
re-plugging.  What is opened is the first port present that has the identity; with none, the
path that the mapping stores.

* `matchPort`, `resolveDevice` — the search;
* `HasIdentity` — a port has every attribute that the identity gives;
* `resolveDevice_spec` — what is opened;
* `stored_path_taken` — the stored path, when another adapter has taken it.
-/

/-- A port present (`list_ports.comports()`), with what the search reads of it. -/
structure Port where
  device : String
  vid : Option Int
  pid : Option Int
  serialNumber : Option String
  location : Option String
  deriving DecidableEq, Repr

/-- `f"{v:04x}"`. -/
def hexid (v : Int) : String :=
  String.ofList (if v < 0 then '-' :: (Nat.toDigits 16 v.natAbs).leftpad 3 '0'
    else (Nat.toDigits 16 v.natAbs).leftpad 4 '0')

/-- `getattr(p, name, None)` of a text. -/
def textOrNull (v : Option String) : Json := (v.map Json.str).getD .null

section
variable (env : PyEnv)

/-- `hexid(v) != str(want).lower()`. -/
def otherId (v : Option Int) (want : Json) : Bool :=
  v.map hexid ≠ some (env.lower (want.toStr env))

/-- `_match_port`. -/
def matchPort (want : List (String × Json)) (p : Port) : Bool :=
  let vid := Json.get want "vid" .null
  let pid := Json.get want "pid" .null
  let serialNumber := Json.get want "serial_number" .null
  let location := Json.get want "location" .null
  if vid.truthy && otherId env p.vid vid then false
  else if pid.truthy && otherId env p.pid pid then false
  else if serialNumber.truthy && !(textOrNull p.serialNumber).pyEq serialNumber then false
  else if location.truthy && !(textOrNull p.location).pyEq location then false
  else true

/-- `{k: v for k, v in items if v}`. -/
def wanted (items : List (String × Json)) : List (String × Json) := items.filter (·.2.truthy)

/-- `resolve_device`, with these ports present. -/
def resolveDevice (ports : List Port) (s : SerialSettings) : CfgM Json := do
  let want := wanted (← (orElse s.usbMatch (.obj [])).items)
  if want.isEmpty then return s.port
  else
    match ports.find? (matchPort env want) with
    | some p => return .str p.device
    -- the identity is not present: the stored path
    | none => return s.port

/-! ### What is opened -/

/-- The port has each attribute that is given: the ids as four hexadecimal digits, the serial
    number and the location as they are. -/
structure HasIdentity (want : List (String × Json)) (p : Port) : Prop where
  vid : (Json.get want "vid" .null).truthy = true →
    p.vid.map hexid = some (env.lower ((Json.get want "vid" .null).toStr env))
  pid : (Json.get want "pid" .null).truthy = true →
    p.pid.map hexid = some (env.lower ((Json.get want "pid" .null).toStr env))
  serialNumber : (Json.get want "serial_number" .null).truthy = true →
    (textOrNull p.serialNumber).pyEq (Json.get want "serial_number" .null) = true
  location : (Json.get want "location" .null).truthy = true →
    (textOrNull p.location).pyEq (Json.get want "location" .null) = true

theorem matchPort_iff (want : List (String × Json)) (p : Port) :
    matchPort env want p = true ↔ HasIdentity env want p := by
  unfold matchPort otherId
  simp only [Bool.and_eq_true, decide_eq_true_eq, Bool.not_eq_true']
  constructor
  · intro h
    split_ifs at h with hvid hpid hserial hlocation
    refine ⟨fun ht => ?_, fun ht => ?_, fun ht => ?_, fun ht => ?_⟩
    · exact not_not.1 fun hne => hvid ⟨ht, hne⟩
    · exact not_not.1 fun hne => hpid ⟨ht, hne⟩
    · simpa using fun hne => hserial ⟨ht, hne⟩
    · simpa using fun hne => hlocation ⟨ht, hne⟩
  · rintro ⟨hvid, hpid, hserial, hlocation⟩
    rw [if_neg fun h => h.2 (hvid h.1), if_neg fun h => h.2 (hpid h.1),
      if_neg fun h => by simp [hserial h.1] at h, if_neg fun h => by simp [hlocation h.1] at h]

/-- The search by an identity, case by case. -/
theorem resolveDevice_obj {s : SerialSettings} {items : List (String × Json)}
    (hs : s.usbMatch = .obj items) (ports : List Port) :
    resolveDevice env ports s = .ok (if (wanted items).isEmpty then s.port
      else ((ports.find? (matchPort env (wanted items))).map (Json.str ·.device)).getD s.port) := by
  have hitems : (orElse s.usbMatch (.obj [])).items = (.ok items : CfgM _) := by
    rw [hs]
    cases items <;> rfl
  rw [resolveDevice, hitems, except_ok_bind]
  by_cases hempty : (wanted items).isEmpty = true
  · rw [if_pos hempty, if_pos hempty]
    rfl
  · rw [if_neg hempty, if_neg hempty]
    cases ports.find? (matchPort env (wanted items)) <;> rfl

/-- The path is the device of a port present that has the identity. -/
def FoundBy (want : List (String × Json)) (ports : List Port) (device : Json) : Prop :=
  ∃ p ∈ ports, HasIdentity env want p ∧ device = .str p.device

/-- No port present has the path. -/
def Unused (ports : List Port) (device : Json) : Prop := ∀ p ∈ ports, device ≠ .str p.device

/-- **The device of an identity.**  What is opened is the device of a port present that has the
    identity, and the stored path where no port present has it (or the identity gives nothing).
    So it is the device of a port that has the identity, or of no port present, exactly when a
    port present has the identity or none has the stored path. -/
theorem resolveDevice_spec (s : SerialSettings) (items : List (String × Json))
    (hs : s.usbMatch = .obj items) (ports : List Port) :
    ∃ device, resolveDevice env ports s = .ok device ∧
      (FoundBy env (wanted items) ports device ∨
        (wanted items = [] ∨ ∀ p ∈ ports, ¬ HasIdentity env (wanted items) p) ∧
          device = s.port) ∧
      (FoundBy env (wanted items) ports device ∨ Unused ports device ↔
        (∃ p ∈ ports, HasIdentity env (wanted items) p) ∨ Unused ports s.port) := by
  refine ⟨_, resolveDevice_obj env hs ports, ?_⟩
  by_cases hempty : wanted items = []
  · -- an identity that gives nothing is had by every port
    have hall : ∀ p, HasIdentity env (wanted items) p := by
      intro p
      rw [hempty]
      refine ⟨?_, ?_, ?_, ?_⟩ <;> intro h <;> cases h
    rw [if_pos (by rw [hempty]; rfl)]
    refine ⟨Or.inr ⟨Or.inl hempty, rfl⟩, ⟨fun h => ?_, fun h => ?_⟩⟩
    · exact h.imp_left fun ⟨p, hp, hid, _⟩ => ⟨p, hp, hid⟩
    -- any port will do, so the configured one is found if it is there
    · by_cases htaken : ∃ p ∈ ports, s.port = .str p.device
      · obtain ⟨p, hp, hport⟩ := htaken
        exact Or.inl ⟨p, hp, hall p, hport⟩
      · exact Or.inr fun p hp hport => htaken ⟨p, hp, hport⟩
  · rw [if_neg (by simpa using hempty)]
    cases hfind : ports.find? (matchPort env (wanted items)) with
    -- the first port with that identity is opened
    | some p =>
      have hp := List.mem_of_find?_eq_some hfind
      have hid := (matchPort_iff env (wanted items) p).1 (List.find?_some hfind)
      have hfound : FoundBy env (wanted items) ports (.str p.device) := ⟨p, hp, hid, rfl⟩
      exact ⟨Or.inl hfound, fun _ => Or.inl ⟨p, hp, hid⟩, fun _ => Or.inl hfound⟩
    | none =>
      have hnone : ∀ p ∈ ports, ¬ HasIdentity env (wanted items) p := by
        intro p hp hid
        exact List.find?_eq_none.1 hfind p hp ((matchPort_iff env (wanted items) p).2 hid)
      -- none has it: the configured name is opened, there or not
      refine ⟨Or.inr ⟨Or.inr hnone, rfl⟩, ⟨fun h => ?_, fun h => ?_⟩⟩
      · exact h.imp_left fun ⟨p, hp, hid, _⟩ => ⟨p, hp, hid⟩
      · exact Or.inr (h.resolve_left fun ⟨p, hp, hid⟩ => hnone p hp hid)

end

/-- A text environment for identities in ASCII. -/
def plainText : PyEnv := ⟨fun _ => false, fun _ => "", id⟩

/-- A mapping that was given the adapter `A12345` when its name was `/dev/ttyUSB0`. -/
def boundSettings : SerialSettings :=
  SerialSettings.ofMembers [("port", .str "/dev/ttyUSB0"),
    ("match", .obj [("vid", .str "0403"), ("pid", .str "6001"), ("serial_number", .str "A12345")])] []

/-- An FTDI adapter with this serial number. -/
def adapter (device serialNumber : String) : Port :=
  ⟨device, some 0x0403, some 0x6001, some serialNumber, none⟩

/-- The adapter is found under its new name. -/
theorem resolveDevice_renumbered :
    resolveDevice plainText [adapter "/dev/ttyUSB7" "A12345"] boundSettings =
      .ok (.str "/dev/ttyUSB7") := by
  obtain ⟨device, hdevice, hfound | ⟨hnone, -⟩, -⟩ :=
    resolveDevice_spec plainText boundSettings _ rfl [adapter "/dev/ttyUSB7" "A12345"]
  · obtain ⟨p, hp, -, rfl⟩ := hfound
    rw [hdevice, List.mem_singleton.1 hp]
    rfl
  · rcases hnone with hnone | hnone
    · exact absurd hnone (by decide)
    · refine absurd ((matchPort_iff _ _ _).1 ?_) (hnone _ List.mem_cons_self)
      decide +kernel

/-- The adapter is unplugged and another one has its name: that one is opened. -/
theorem stored_path_taken :
    ∃ (s : SerialSettings) (items : List (String × Json)) (ports : List Port) (device : Json),
      s.usbMatch = .obj items ∧ wanted items ≠ [] ∧
        resolveDevice plainText ports s = .ok device ∧
        ¬ (FoundBy plainText (wanted items) ports device ∨ Unused ports device) := by
  refine ⟨boundSettings, _, [adapter "/dev/ttyUSB0" "B99999"], .str "/dev/ttyUSB0", rfl,
    by decide, by decide +kernel, ?_⟩
  rintro (⟨p, hp, hid, -⟩ | hfree)
  · obtain rfl := List.mem_singleton.1 hp
    exact absurd (hid.serialNumber (by decide)) (by decide +kernel)
  · exact hfree _ List.mem_cons_self rfl

end Ser2Net.Engine.SerialIo
