import Ser2Net.Engine.Sparkplug
import Ser2Net.Engine.ModbusSet

namespace Ser2Net.Engine.SparkplugCommand

open Ser2Net.Lib Ser2Net.Lib.PyText Ser2Net.Config Ser2Net.Engine.Modbus
open Ser2Net.Engine.Sparkplug (Value Metric Payload SpError decodePayload)

/-!
# Engine — commands to the Sparkplug B edge node (`app/engine/sparkplug_node.py`)

A host commands the node with NCMD messages and the node's devices with DCMD messages.  Their
payloads come off the network; what they may set in motion is a write to the Modbus bus.

* `onNodeCommand`, `onDeviceCommand` — the handlers, as the list of what they do;
* `devices` — the device table built from the points, and `lookup_devices`, what it holds;
* `permitted` — the policy: which writes a message may ask for;
* `command_writes` — the node asks for the permitted writes and for no other.
-/

/-! ### The tables of a node -/

/-- `device_id`: the Sparkplug device of a Modbus unit. -/
def deviceId (env : PyEnv) (unit : Json) : String := "unit" ++ unit.toStr env

/-- `self.devices.setdefault(device_id(p.unit), []).append(p.name)`. -/
def addDevice (env : PyEnv) (devices : List (String × List Json)) (p : ModbusPoint) :
    List (String × List Json) :=
  let names := (devices.lookup (deviceId env p.unit)).getD []
  dictSet devices (deviceId env p.unit) (names ++ [p.name])

/-- `self.devices`: the names of each device's points, in order. -/
def devices (env : PyEnv) (points : List ModbusPoint) : List (String × List Json) :=
  points.foldl (addDevice env) []

/-- `self.points.get(name)`, of `{p.name: p for p in points}`: the last point of a name wins. -/
def pointNamed (points : List ModbusPoint) (name : String) : Option ModbusPoint :=
  points.reverse.find? fun p => p.name.eqStr name

/-! ### The handlers -/

/-- What a handler does, in order: it logs that it ignores something, publishes the births
    again, or asks the gateway for a write (`self._write(point, value)`). -/
inductive Action
  /-- `Sparkplug {kind} ignored: {e}` -/
  | ignored (kind : String) (e : SpError)
  /-- `Sparkplug NCMD for {m.name!r} ignored (points are written with a DCMD to their device)` -/
  | notNodeMetric (name : String)
  /-- `Sparkplug DCMD for an unknown device {dev!r} ignored` -/
  | unknownDevice (device : String)
  /-- `Sparkplug DCMD for {dev}/{m.name} ignored (not a writable point)` -/
  | notWritable (device name : String)
  | rebirth
  | write (point : ModbusPoint) (value : Value)

/-- The truth of a decoded value. -/
def truthy : Value → Bool
  | .none => false
  | .bool b => b
  | .int n => n ≠ 0
  | .float x => x.toNat % 2 ^ 63 ≠ 0
  | .str s => s ≠ ""
  | .buffer _ data => data ≠ []
  | .other => true

/-- `REBIRTH`. -/
def rebirthName : String := "Node Control/Rebirth"

/-- `on_node_command`, with `_decode`. -/
def onNodeCommand (payload : Bytes) : List Action :=
  match decodePayload payload with
  | .error e => [.ignored "NCMD" e]
  | .ok cmd =>
    cmd.metrics.flatMap fun m =>
      if m.name ≠ rebirthName then [.notNodeMetric m.name]
      else if truthy m.value then [.rebirth]
      else []

/-- The last level of a topic (`topic.rsplit("/", 1)[-1]`). -/
def lastLevel (topic : String) : String :=
  match rpartition '/' topic.toList with
  | some (_, last) => String.ofList last
  | none => topic

/-- The value of a command: without a datatype a 32-bit wire field is read as the point's signed
    type. -/
def commandValue (p : ModbusPoint) (m : Metric) : Value :=
  match m.value with
  | .int n =>
    if m.datatype = 0 ∧ p.dtype.inStrs ["int16", "int32"] ∧ 0x7FFFFFFF < n then .int (n - 2 ^ 32)
    else .int n
  | v => v

/-- One metric of a DCMD to the device `dev`, whose points are `names`. -/
def deviceMetric (points : List ModbusPoint) (dev : String) (names : List Json) (m : Metric) :
    List Action :=
  let point := if names.any (·.eqStr m.name) then pointNamed points m.name else none
  match point with
  | none => [.notWritable dev m.name]
  | some p =>
    if !p.writable.truthy then [.notWritable dev m.name]
    else if m.isNull then []
    else [.write p (commandValue p m)]

/-- `on_device_command`, with `_decode`. -/
def onDeviceCommand (env : PyEnv) (points : List ModbusPoint) (topic : String) (payload : Bytes) :
    List Action :=
  let dev := lastLevel topic
  match (devices env points).lookup dev with
  | none => [.unknownDevice dev]
  | some names =>
    match decodePayload payload with
    | .error e => [.ignored "DCMD" e]
    | .ok cmd => cmd.metrics.flatMap (deviceMetric points dev names)

/-- A message handed to one of the two handlers. -/
inductive Message
  | ncmd (topic : String) (payload : Bytes)
  | dcmd (topic : String) (payload : Bytes)

def handle (env : PyEnv) (points : List ModbusPoint) : Message → List Action
  | .ncmd _ payload => onNodeCommand payload
  | .dcmd topic payload => onDeviceCommand env points topic payload

/-- The write that an action asks for. -/
def Action.asked : Action → Option (ModbusPoint × Value)
  | .write p v => some (p, v)
  | _ => none

/-- The writes that a node with these points asks for when it is handed the messages. -/
def asked (env : PyEnv) (points : List ModbusPoint) (msgs : List Message) :
    List (ModbusPoint × Value) :=
  (msgs.flatMap (handle env points)).filterMap Action.asked

/-! ### From a write to the bus -/

/-- A decoded value among the values `write_point` tells apart; it refuses every other. -/
def plainValue : Value → Option Json
  | .none => some .null
  | .bool b => some (.bool b)
  | .int n => some (.int n)
  | .float x => some (.float (.ofDouble x.toNat))
  | .str s => some (.str s)
  | .buffer _ _ => none
  | .other => none

/-- The transaction of `write_point`: the unit and the request; `none` where it raises first. -/
def busWrite (p : ModbusPoint) (v : Value) : Option (Json × Bytes) :=
  (plainValue v).bind fun value =>
    match writePdu p value with
    | .ok pdu => some (p.unit, pdu)
    | .error _ => none

/-! ### The policy -/

/-- The write that one metric may ask for: of the writable point of that name which belongs to
    the device, unless the metric is null. -/
def target (env : PyEnv) (points : List ModbusPoint) (dev : String) (m : Metric) :
    Option (ModbusPoint × Value) :=
  if m.isNull then none
  else
    (points.find? fun p => p.name.eqStr m.name ∧ p.writable.truthy ∧ deviceId env p.unit = dev).map
      fun p => (p, commandValue p m)

/-- The writes that a message may ask for. -/
def permitted (env : PyEnv) (points : List ModbusPoint) : Message → List (ModbusPoint × Value)
  | .ncmd _ _ => []
  | .dcmd topic payload =>
    match decodePayload payload with
    | .error _ => []
    | .ok cmd => cmd.metrics.filterMap (target env points (lastLevel topic))

/-! ### What the tables hold -/

theorem lookup_addDevice (env : PyEnv) (devices : List (String × List Json)) (p : ModbusPoint)
    (dev : String) : (addDevice env devices p).lookup dev =
      if dev = deviceId env p.unit then some ((devices.lookup dev).getD [] ++ [p.name])
      else devices.lookup dev := by
  rw [addDevice, lookup_dictSet]
  split
  next h => rw [h]
  next => rfl

/-- The names of a device: those it had, and the points of its unit. -/
theorem lookup_foldl_addDevice (env : PyEnv) (points : List ModbusPoint) (dev : String)
    (table : List (String × List Json)) :
    (points.foldl (addDevice env) table).lookup dev =
      let own := points.filter fun p => deviceId env p.unit = dev
      if own = [] then table.lookup dev
      else some ((table.lookup dev).getD [] ++ own.map ModbusPoint.name) := by
  induction points generalizing table with
  | nil => rfl
  | cons p rest ih =>
    rw [List.foldl_cons, ih, lookup_addDevice]
    by_cases hp : deviceId env p.unit = dev
    · have hp' : dev = deviceId env p.unit := hp.symm
      rw [if_pos hp', List.filter_cons_of_pos (by simpa using hp)]
      by_cases hrest : (rest.filter fun q => deviceId env q.unit = dev) = []
      · simp [hrest]
      · simp [hrest]
    · have hp' : ¬ dev = deviceId env p.unit := fun h => hp h.symm
      rw [if_neg hp', List.filter_cons_of_neg (by simpa using hp)]

/-- **The device table.**  A device is known when some point has its unit, and its names are
    those of these points. -/
theorem lookup_devices (env : PyEnv) (points : List ModbusPoint) (dev : String) :
    (devices env points).lookup dev =
      let own := points.filter fun p => deviceId env p.unit = dev
      if own = [] then none else some (own.map ModbusPoint.name) := by
  rw [devices, lookup_foldl_addDevice]
  rfl

/-- The points of an accepted list have different names. -/
theorem name_injOn_of_validate {q : ModbusPoll} (hq : q.validate = .ok ()) :
    ∀ p ∈ q.points, ∀ p' ∈ q.points, p.name = p'.name → p = p' := by
  have hnodup : (q.points.map ModbusPoint.name).Nodup :=
    List.pairwise_map.2 ((names_of_validate (validatePoints_of_validate hq)).1.imp fun h => h.symm)
  intro p hp p' hp' h
  exact List.inj_on_of_nodup_map hnodup hp hp' h

section
variable {points : List ModbusPoint}
  (hinj : ∀ p ∈ points, ∀ p' ∈ points, p.name = p'.name → p = p')
include hinj

/-- A search by name and something else finds the point of that name or nothing. -/
theorem find?_of_name {p : ModbusPoint} (hp : p ∈ points) {name : String}
    (hname : p.name = .str name) {l : List ModbusPoint} (hl : ∀ q, q ∈ l ↔ q ∈ points)
    (test : ModbusPoint → Bool) :
    (l.find? fun q => q.name.eqStr name ∧ test q) = if test p then some p else none := by
  cases hfind : l.find? fun q => q.name.eqStr name ∧ test q with
  | none =>
    have hno := List.find?_eq_none.1 hfind p ((hl p).2 hp)
    rw [if_neg]
    intro htest
    exact hno (by simp [Json.eqStr, hname, htest])
  | some q =>
    have hq := (hl q).1 (List.mem_of_find?_eq_some hfind)
    have hyes : q.name.eqStr name = true ∧ test q = true := by
      simpa using List.find?_some hfind
    have heq : p = q := hinj p hp q hq (hname.trans (beq_iff_eq.1 hyes.1).symm)
    subst heq
    rw [if_pos hyes.2]

theorem pointNamed_of_name {p : ModbusPoint} (hp : p ∈ points) {name : String}
    (hname : p.name = .str name) : pointNamed points name = some p := by
  have h := find?_of_name hinj hp hname (l := points.reverse) (fun q => List.mem_reverse)
    fun _ => true
  simpa [pointNamed] using h

/-! ### The handlers keep to the policy -/

/-- **One metric.**  What a device's handler asks for on one metric is its target. -/
theorem asked_deviceMetric (env : PyEnv) (dev : String) (m : Metric) :
    (deviceMetric points dev
        ((points.filter fun p => deviceId env p.unit = dev).map ModbusPoint.name) m).filterMap
      Action.asked = (target env points dev m).toList := by
  -- the names are distinct, so the point of the name is the one the device has
  by_cases hown : ∃ p ∈ points, deviceId env p.unit = dev ∧ p.name = .str m.name
  · obtain ⟨p, hp, hdev, hname⟩ := hown
    have hany : ((points.filter fun p => deviceId env p.unit = dev).map ModbusPoint.name).any
        (·.eqStr m.name) = true := by
      refine List.any_eq_true.2 ⟨p.name, List.mem_map_of_mem ?_, by simp [Json.eqStr, hname]⟩
      exact List.mem_filter.2 ⟨hp, decide_eq_true hdev⟩
    have hfind := find?_of_name hinj hp hname (l := points) (fun q => Iff.rfl)
      fun q => q.writable.truthy ∧ deviceId env q.unit = dev
    simp only [decide_eq_true_eq, hdev, and_true] at hfind
    unfold deviceMetric target
    rw [hany, hfind]
    simp only [if_true, pointNamed_of_name hinj hp hname]
    cases hw : p.writable.truthy <;> cases hnull : m.isNull <;> simp [Action.asked]
  · -- the device has no point of that name, so nothing is written whatever the flags are
    have hany : ((points.filter fun p => deviceId env p.unit = dev).map ModbusPoint.name).any
        (·.eqStr m.name) = false := by
      refine List.any_eq_false.2 fun name hmem hname => hown ?_
      obtain ⟨p, hp, rfl⟩ := List.mem_map.1 hmem
      rw [List.mem_filter, decide_eq_true_eq] at hp
      exact ⟨p, hp.1, hp.2, beq_iff_eq.1 hname⟩
    have hnone : (points.find? fun p =>
        p.name.eqStr m.name ∧ p.writable.truthy ∧ deviceId env p.unit = dev) = none := by
      refine List.find?_eq_none.2 fun p hp hyes => hown ⟨p, hp, ?_⟩
      rw [decide_eq_true_eq] at hyes
      exact ⟨hyes.2.2, beq_iff_eq.1 hyes.1⟩
    unfold deviceMetric target
    rw [hany, hnone]
    cases m.isNull <;> rfl

/-- **One message.** -/
theorem asked_handle (env : PyEnv) (msg : Message) :
    (handle env points msg).filterMap Action.asked = permitted env points msg := by
  -- a node command asks for a rebirth and writes nothing
  cases msg with
  | ncmd topic payload =>
    refine List.filterMap_eq_nil_iff.2 fun a ha => ?_
    simp only [handle, onNodeCommand] at ha
    split at ha
    · rw [List.mem_singleton.1 ha]
      rfl
    · obtain ⟨m, -, ha⟩ := List.mem_flatMap.1 ha
      split_ifs at ha <;> simp_all [Action.asked]
  | dcmd topic payload =>
    simp only [handle, onDeviceCommand, permitted, lookup_devices]
    by_cases hown : (points.filter fun p => deviceId env p.unit = lastLevel topic) = []
    · -- no point has the unit that the topic names
      rw [if_pos hown]
      have hnone : ∀ m, target env points (lastLevel topic) m = none := by
        intro m
        have hno : (points.find? fun p => p.name.eqStr m.name ∧ p.writable.truthy ∧
            deviceId env p.unit = lastLevel topic) = none := by
          refine List.find?_eq_none.2 fun p hp hyes => ?_
          rw [decide_eq_true_eq] at hyes
          exact List.filter_eq_nil_iff.1 hown p hp (decide_eq_true hyes.2.2)
        rw [target, hno]
        split <;> rfl
      cases decodePayload payload with
      | error e => rfl
      | ok cmd =>
        symm
        exact List.filterMap_eq_nil_iff.2 fun m _ => hnone m
    · rw [if_neg hown]
      cases decodePayload payload with
      | error e => rfl
      | ok cmd =>
        show (cmd.metrics.flatMap _).filterMap Action.asked = cmd.metrics.filterMap _
        -- metric by metric
        rw [List.filterMap_flatMap, List.filterMap_eq_flatMap_toList]
        exact List.flatMap_congr fun m _ => asked_deviceMetric hinj env (lastLevel topic) m

theorem asked_eq (env : PyEnv) (msgs : List Message) :
    asked env points msgs = msgs.flatMap (permitted env points) := by
  rw [asked, List.filterMap_flatMap]
  exact List.flatMap_congr fun msg _ => asked_handle hinj env msg

end

/-- A metric that carries no value gets no further than the checks of `write_point`. -/
theorem busWrite_none (p : ModbusPoint) : busWrite p .none = none := by
  -- the value is converted before anything is built, and `None` converts to nothing
  have hcoil : ∀ pdu, writeSingleCoilPdu p.address .null ≠ .ok pdu := by
    intro pdu h
    obtain ⟨a, -, h⟩ := except_bind_eq_ok.1 h
    obtain ⟨on, hon, -⟩ := except_bind_eq_ok.1 h
    cases hon
  have hregs : ∀ scale regs, encodeValue .null p.dtype scale ≠ .ok regs := by
    intro scale regs h
    obtain ⟨t, -, h⟩ := except_bind_eq_ok.1 h
    obtain ⟨finite, hfinite, -⟩ := except_bind_eq_ok.1 h
    cases hfinite
  have hpdu : ∀ pdu, writePdu p .null ≠ .ok pdu := by
    intro pdu h
    unfold writePdu at h
    split at h
    · cases h
    · split at h
      · exact hcoil pdu h
      · obtain ⟨regs, hr, -⟩ := except_bind_eq_ok.1 h
        exact hregs _ regs hr
  show (match writePdu p .null with
    | .ok pdu => some (p.unit, pdu)
    | .error _ => none) = none
  cases h : writePdu p .null with
  | ok pdu => exact absurd h (hpdu pdu)
  | error e => rfl

/-- What a permitted write is. -/
theorem of_mem_permitted {env : PyEnv} {points : List ModbusPoint} {msg : Message}
    {w : ModbusPoint × Value} (hw : w ∈ permitted env points msg) :
    ∃ topic payload cmd m, msg = .dcmd topic payload ∧ decodePayload payload = .ok cmd ∧
      m ∈ cmd.metrics ∧ m.isNull = false ∧ w.1 ∈ points ∧ w.1.name = .str m.name ∧
      w.1.writable.truthy = true ∧ deviceId env w.1.unit = lastLevel topic := by
  -- only a device command that decodes writes, and only what its metrics name
  cases msg with
  | ncmd topic payload => simp [permitted] at hw
  | dcmd topic payload =>
    simp only [permitted] at hw
    cases hcmd : decodePayload payload with
    | error e => simp [hcmd] at hw
    | ok cmd =>
      rw [hcmd] at hw
      obtain ⟨m, hm, hw⟩ := List.mem_filterMap.1 hw
      unfold target at hw
      cases hnull : m.isNull with
      | true => simp [hnull] at hw
      | false =>
        rw [hnull, if_neg Bool.false_ne_true, Option.map_eq_some_iff] at hw
        obtain ⟨p, hfind, rfl⟩ := hw
        have hyes := List.find?_some hfind
        rw [decide_eq_true_eq] at hyes
        exact ⟨topic, payload, cmd, m, rfl, hcmd, hm, hnull, List.mem_of_find?_eq_some hfind,
          beq_iff_eq.1 hyes.1, hyes.2.1, hyes.2.2⟩

/-- **Writes of a Sparkplug node.**  A node with the points of an accepted mapping, handed any
    messages, asks for the permitted writes in their order and for no other: each is of a
    writable point whose unit is the one that the topic of a DCMD names, for a metric of that
    point's name that is not null.  A metric without a value does not get to the bus either. -/
theorem command_writes (env : PyEnv) (q : ModbusPoll) (hq : q.validate = .ok ())
    (msgs : List Message) :
    asked env q.points msgs = msgs.flatMap (permitted env q.points) ∧
      (∀ w ∈ asked env q.points msgs, w.1 ∈ q.points ∧ w.1.writable.truthy = true ∧
        ∃ topic payload cmd m, .dcmd topic payload ∈ msgs ∧ decodePayload payload = .ok cmd ∧
          m ∈ cmd.metrics ∧ m.isNull = false ∧ w.1.name = .str m.name ∧
          deviceId env w.1.unit = lastLevel topic) ∧
      ∀ p, busWrite p .none = none := by
  have hasked := asked_eq (name_injOn_of_validate hq) env msgs
  refine ⟨hasked, fun w hw => ?_, busWrite_none⟩
  rw [hasked] at hw
  obtain ⟨msg, hmsg, hw⟩ := List.mem_flatMap.1 hw
  obtain ⟨topic, payload, cmd, m, rfl, hcmd, hm, hnull, hp, hname, hwritable, hdev⟩ :=
    of_mem_permitted hw
  exact ⟨hp, hwritable, topic, payload, cmd, m, hmsg, hcmd, hm, hnull, hname, hdev⟩

/-- Two holding registers at different units. -/
def twoUnits : ModbusPoll :=
  ⟨.ofIntExact 5, [{ register "level" with unit := .int 1 }, { register "speed" with unit := .int 2 }]⟩

/-- A payload that sets `level` to 7. -/
def setLevel : Bytes := [18, 11, 10, 5, 108, 101, 118, 101, 108, 32, 3, 80, 7]

/-- The command is carried out when it names the unit of the point. -/
theorem command_writes_unit :
    asked asciiEnv.py twoUnits.points
        [.ncmd "spBv1.0/plant/NCMD/plc" setLevel, .dcmd "spBv1.0/plant/DCMD/plc/unit2" setLevel,
          .dcmd "spBv1.0/plant/DCMD/plc/unit1" setLevel] =
      [({ register "level" with unit := .int 1 }, .int 7)] :=
  (command_writes asciiEnv.py twoUnits (by decide +kernel) _).1.trans (by decide +kernel)

end Ser2Net.Engine.SparkplugCommand
