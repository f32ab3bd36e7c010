import Ser2Net.Lib.Demand
import Ser2Net.Config.Mapping

namespace Ser2Net.Config

open Ser2Net.Lib

/-!
# Config — what loading a mapping demands of the JSON object

The REST API answers 400 to a `ValueError` of `from_dict` or `validate`; any other exception of
theirs leaves the handler.  Here are the demands of both on the values of the object, in the
order of the code: an operation of the language is `works`, a check of `config.py` is `holds`.

* `loadDemands`, `loaded` — of `from_dict` of a section, and the record it makes;
* `checkDemands` — of `validate` of a record;
* `MappingConfig.demands` — of the whole object;
* `MappingConfig.load_contained_iff` — only `ValueError` leaves `load` exactly when no
  operation gets a value it does not work on before a check has refused the object.
-/

/-- A check asks for its condition. -/
theorem meets_require {ok : Bool} {template : String} {args : List ErrorArg} :
    Meets (require ok template args) [.holds ok] () := by
  unfold require
  cases ok with
  | true => exact .holds_true .pure
  | false => exact .holds_false rfl

/-! ### Serial side -/

/-- The demands of `SerialSettings.from_dict`. -/
def SerialSettings.loadDemands (v : Json) : List Demand :=
  let adv := Json.get v.members "advanced" (.obj [])
  v.dictDemands ++ [.works (!adv.truthy || adv.isObject)]

/-- The settings that `SerialSettings.from_dict` makes. -/
def SerialSettings.loaded (v : Json) : SerialSettings :=
  let (adv, d) := Json.pop v.members "advanced" (.obj [])
  SerialSettings.ofMembers d adv.members

/-- The serial section is read. -/
theorem SerialSettings.meets_fromDict (v : Json) :
    Meets (SerialSettings.fromDict v) (loadDemands v) (loaded v) :=
  .bind v.meets_toDict (.map (Json.meets_items _))

/-- The demands of `SerialSettings.validate`. -/
def SerialSettings.checkDemands (s : SerialSettings) : List Demand :=
  [.holds s.port.truthy, .holds (intAtLeast s.baudrate 1), .holds (s.bytesize.inInts [5, 6, 7, 8]),
    .holds (s.parity.inStrs parities),
    .holds (s.stopbits.inInts [1, 2] || s.stopbits.eqFloat oneAndHalf),
    .holds (s.flowcontrol.inStrs flowcontrols),
    .holds (s.rtsOnOpen.inStrs lineStates && s.dtrOnOpen.inStrs lineStates),
    .holds (!(s.advanced.rs485Enabled.truthy && s.flowcontrol.eqStr "rtscts"))]

/-- The checks of the serial section. -/
theorem SerialSettings.meets_validate (s : SerialSettings) :
    Meets s.validate s.checkDemands () :=
  .step meets_require <| .step meets_require <| .step meets_require <| .step meets_require <|
    .step meets_require <| .step meets_require <| .step meets_require meets_require

/-! ### Network side -/

/-- The text that `normalize_cidr` makes of an entry. -/
def cidrText (v : Json) : String :=
  let t := v.stripped
  if t = "0.0.0.0" then "0.0.0.0/0" else if t = "::" then "::/0" else t

/-- The demands on one entry of an address list. -/
def networkDemands (v : Json) : List Demand :=
  [.works v.isText, .holds (Ipaddress.ipNetwork (cidrText v)).isSome]

/-- A network address must be a text. -/
theorem meets_normalizeCidr (v : Json) : Meets (normalizeCidr v) [.works v.isText] (cidrText v) :=
  .map v.meets_strip

/-- The addresses of a list, one after another. -/
theorem meets_requireNetworks (label : String) (l : List Json) :
    Meets (requireNetworks label l) (l.flatMap networkDemands) () := by
  induction l with
  | nil => exact .pure
  | cons cidr rest ih =>
    rw [List.flatMap_cons]
    exact .step (meets_normalizeCidr cidr) (.step meets_require ih)

/-- `os.path.isfile` works on the value: a path, or a file descriptor that is a C int. -/
def isFileName : Json → Bool
  | .str _ | .bool _ => true
  | .int n => -2 ^ 31 ≤ n ∧ n < 2 ^ 31
  | _ => false

/-- The file system is asked for a path. -/
theorem meets_isFile (m : Platform) (v : Json) :
    Meets (isFile m v) [.works (isFileName v)] (m.isFile v) := by
  cases v with
  | str s => exact .works_true .pure
  | bool b => exact .works_true .pure
  | int n =>
    unfold isFile isFileName
    dsimp only
    by_cases h : -2 ^ 31 ≤ n ∧ n < 2 ^ 31
    · rw [if_pos h, decide_eq_true h]
      exact .works_true .pure
    · rw [if_neg h, decide_eq_false h]
      exact .works_false rfl
  | _ => exact .works_false rfl

/-- The demands on the files of a TLS mapping. -/
def fileDemands (m : Platform) (v : Json) : List Demand :=
  [.works (isFileName v), .holds (m.isFile v)]

/-- The files of a list, one after another. -/
theorem meets_requireFiles (m : Platform) (l : List Json) :
    Meets (requireFiles m l) (l.flatMap (fileDemands m)) () := by
  induction l with
  | nil => exact .pure
  | cons p rest ih =>
    rw [List.flatMap_cons]
    exact .step (meets_isFile m p) (.step meets_require ih)

/-- The address of a mapping that listens may be bound. -/
def NetworkSettings.bindable (n : NetworkSettings) : Bool :=
  (Ipaddress.ipAddress n.bindIp).any fun ip => !(ip.isMulticast || (ip.isReserved && !ip.isWildcard))

/-- The demands of the part of `validate` for the two ways to connect. -/
def NetworkSettings.endDemands (n : NetworkSettings) : List Demand :=
  if n.listens then [.holds n.bindable, .holds (intWithin n.port 1 65535)]
  else [.works n.remoteHost.isText, .holds (!n.remoteHost.isBlank),
    .holds (intWithin n.remotePort 1 65535)]

/-- The checks of a listener. -/
theorem NetworkSettings.meets_validateListener (n : NetworkSettings) :
    Meets n.validateListener [.holds n.bindable, .holds (intWithin n.port 1 65535)] () := by
  unfold validateListener bindable
  cases Ipaddress.ipAddress n.bindIp with
  | none => exact .holds_false rfl
  | some ip => exact .step meets_require meets_require

/-- The end of the connection that the mode needs. -/
theorem NetworkSettings.meets_end (n : NetworkSettings) :
    Meets (if n.listens then n.validateListener else n.validateConnectOut) n.endDemands () :=
  .ite n.meets_validateListener
    (.step n.remoteHost.meets_blank <| .step meets_require meets_require)

/-- The demands of the part of `validate` for TLS. -/
def NetworkSettings.tlsDemands (m : Platform) (n : NetworkSettings) : List Demand :=
  if n.tls.truthy then
    .holds (!n.mode.eqStr "udp") :: .holds (n.tlsCert.truthy && n.tlsKey.truthy) ::
      [n.tlsCert, n.tlsKey].flatMap (fileDemands m)
  else []

/-- The files of TLS, when it is on. -/
theorem NetworkSettings.meets_tls (m : Platform) (n : NetworkSettings) :
    Meets (if n.tls.truthy then n.validateTls m else .ok ()) (n.tlsDemands m) () :=
  .ite (.step meets_require <| .step meets_require <| meets_requireFiles m _) .pure

/-- The demands of the two address lists. -/
def NetworkSettings.listDemands (n : NetworkSettings) : List Demand :=
  .works n.allowedClientIps.isIterable :: n.allowedClientIps.parts.flatMap networkDemands ++
    .works n.priorityClientIps.isIterable :: n.priorityClientIps.parts.flatMap networkDemands

/-- The demands of `NetworkSettings.validate`. -/
def NetworkSettings.checkDemands (m : Platform) (n : NetworkSettings) : List Demand :=
  .holds (n.mode.inStrs netModes) :: .holds (n.protocol.inStrs protocols) ::
    (n.endDemands ++
      .holds (intAtLeast n.maxConnections 1) :: .holds (intAtLeast n.clientQueueMax 16) ::
      .holds (n.keepaliveIdleS.isInt && n.keepaliveIdleS.betweenInts 1 32767) ::
      .holds (n.keepaliveIntervalS.isInt && n.keepaliveIntervalS.betweenInts 1 32767) ::
      .holds (n.keepaliveCount.isInt && n.keepaliveCount.betweenInts 1 127) ::
      .holds (n.connectTimeoutS.isNumber && n.connectTimeoutS.betweenInts 0 3600) ::
      .holds (!(n.protocol.eqStr "rfc2217" && n.mode.eqStr "udp")) ::
      .holds (!(n.protocol.eqStr "modbus" && !n.mode.eqStr "server")) ::
      .holds (!(n.protocol.eqStr "rfc2217" && intAtLeast n.maxConnections 2)) ::
      (n.tlsDemands m ++ n.listDemands))

/-- The checks of the network section. -/
theorem NetworkSettings.meets_validate (m : Platform) (n : NetworkSettings) :
    Meets (n.validate m) (n.checkDemands m) () :=
  .step meets_require <| .step meets_require <| .bind n.meets_end <|
    .step meets_require <| .step meets_require <| .step meets_require <| .step meets_require <|
    .step meets_require <| .step meets_require <| .step meets_require <| .step meets_require <|
    .step meets_require <| .bind (n.meets_tls m) <| .step n.allowedClientIps.meets_elements <|
    .bind (meets_requireNetworks "allowed" _) <| .step n.priorityClientIps.meets_elements <|
    meets_requireNetworks "priority" _

/-! ### Options -/

/-- `math.isfinite` works on the timer: it is no int beyond the doubles. -/
def timerFits (v : Json) : Bool :=
  match numericText v with
  | .int n => (PyFloat.ofInt? n).isSome
  | _ => true

/-- The timer that `_legacy_seconds` makes of a value. -/
def timerOf (v : Json) : Json := (legacySeconds v).toOption.getD (.int 0)

/-- `_legacy_seconds` raises on an int beyond the doubles and nothing else. -/
theorem legacySeconds_spec (v : Json) :
    (timerFits v = true ∧ legacySeconds v = .ok (timerOf v)) ∨
      (timerFits v = false ∧ legacySeconds v = .error .overflowError) := by
  unfold timerOf timerFits legacySeconds
  cases numericText v with
  | int n =>
    dsimp only
    cases (PyFloat.ofInt? n) with
    -- an int too large for a float raises, every other number gives a timer
    | none => exact .inr ⟨rfl, rfl⟩
    | some x =>
      rw [if_neg (show ¬ (some x).isNone = true from Bool.false_ne_true)]
      by_cases hneg : n < 0
      · rw [if_pos hneg]
        exact .inl ⟨rfl, rfl⟩
      · rw [if_neg hneg]
        exact .inl ⟨rfl, rfl⟩
  | float x =>
    dsimp only
    cases !x.isFinite || !(PyFloat.fin 0).le x with
    | true => exact .inl ⟨rfl, rfl⟩
    | false => exact .inl ⟨rfl, rfl⟩
  | _ => exact .inl ⟨rfl, rfl⟩

/-- A number of seconds is read. -/
theorem meets_legacySeconds (v : Json) :
    Meets (legacySeconds v) [.works (timerFits v)] (timerOf v) := by
  obtain ⟨hfits, h⟩ | ⟨hfits, h⟩ := legacySeconds_spec v
  · rw [hfits, h]
    exact .works_true .pure
  · rw [hfits, h]
    exact .works_false rfl

/-- The demands of `MappingOptions.from_dict`. -/
def MappingOptions.loadDemands (v : Json) : List Demand :=
  v.dictDemands ++ [.works (timerFits (Json.get v.members "idle_timeout_s" (.int 0)))]

/-- The options that `MappingOptions.from_dict` makes. -/
def MappingOptions.loaded (m : Platform) (v : Json) : MappingOptions :=
  MappingOptions.ofMembers m.py v.members
    (timerOf (Json.get v.members "idle_timeout_s" (.int 0)))

/-- The options are read. -/
theorem MappingOptions.meets_fromDict (m : Platform) (v : Json) :
    Meets (MappingOptions.fromDict m v) (loadDemands v) (loaded m v) :=
  .bind v.meets_toDict (.map (meets_legacySeconds _))

/-- The demands of `MappingOptions.validate`. -/
def MappingOptions.checkDemands (o : MappingOptions) : List Demand :=
  [.holds (o.idleTimeoutS.isNumber && o.idleTimeoutS.betweenInts 0 maxTimerS),
    .holds (o.maxConnectionTimeS.isNumber && o.maxConnectionTimeS.betweenInts 0 maxTimerS),
    .holds (o.traceMaxMb.isNumber && o.traceMaxMb.between .tenth (.ofIntExact 1024)),
    .holds (o.traceKeep.isInt && o.traceKeep.betweenInts 0 50)]

/-- The checks of the options. -/
theorem MappingOptions.meets_validate (o : MappingOptions) : Meets o.validate o.checkDemands () :=
  .step meets_require <| .step meets_require <| .step meets_require meets_require

/-! ### MQTT -/

/-- The demands on an id of an edge node. -/
def topicDemands (v : Json) : List Demand :=
  [.works v.isIterable, .works v.isIterable, .works v.isIterable,
    .holds (!(v.has '/' || v.has '+' || v.has '#'))]

/-- A part of a topic must be a text. -/
theorem meets_requireTopicPart (label : String) (v : Json) :
    Meets (requireTopicPart label v) (topicDemands v) () :=
  .step (v.meets_containsChar '/') <| .step (v.meets_containsChar '+') <|
    .step (v.meets_containsChar '#') meets_require

/-- The demands of the part of `validate` for Sparkplug B. -/
def MqttSettings.sparkplugDemands (q : MqttSettings) : List Demand :=
  topicDemands q.sparkplugGroupId ++ (topicDemands q.sparkplugNodeId ++
    [.works q.sparkplugGroupId.isText, .holds (!q.sparkplugGroupId.isBlank)])

/-- The demands of `MqttSettings.validate`. -/
def MqttSettings.checkDemands (q : MqttSettings) : List Demand :=
  if q.enabled.truthy then
    .works q.host.isText :: .holds (!q.host.isBlank) ::
      .works q.baseTopic.isText :: .holds (!q.baseTopic.isBlank) ::
      .holds (intWithin q.port 1 65535) :: .holds (q.qos.inInts [0, 1, 2]) ::
      .holds (q.payloadFormat.inStrs mqttFormats) ::
      if q.payloadFormat.eqStr "sparkplug_b" then q.sparkplugDemands else []
  else []

/-- The checks of the MQTT section. -/
theorem MqttSettings.meets_validate (q : MqttSettings) : Meets q.validate q.checkDemands () := by
  have hsparkplug : Meets q.validateSparkplug q.sparkplugDemands () :=
    .bind (meets_requireTopicPart "group ID" _) <| .bind (meets_requireTopicPart "edge node ID" _) <|
      .step q.sparkplugGroupId.meets_blank meets_require
  refine .ite ?_ .pure
  exact .step q.host.meets_blank <| .step meets_require <| .step q.baseTopic.meets_blank <|
    .step meets_require <| .step meets_require <| .step meets_require <| .step meets_require <|
    .ite hsparkplug .pure

/-! ### Modbus polling -/

/-- The demands of `ModbusPoll.from_dict`. -/
def ModbusPoll.loadDemands (v : Json) : List Demand :=
  let five := Json.float (.ofIntExact 5)
  let interval := orElse (Json.get v.members "interval_s" five) five
  let points := Json.get v.members "points" (.arr [])
  v.dictDemands ++ ([.works interval.isFloatable, .holds interval.readsAsFloat] ++
    .works points.isIterable :: points.parts.flatMap Json.dictDemands)

/-- The poll that `ModbusPoll.from_dict` makes. -/
def ModbusPoll.loaded (v : Json) : ModbusPoll :=
  let five := Json.float (.ofIntExact 5)
  let interval := orElse (Json.get v.members "interval_s" five) five
  let points := Json.get v.members "points" (.arr [])
  ⟨interval.floatValue, points.parts.map fun p => ModbusPoint.ofMembers p.members⟩

/-- The poll section is read. -/
theorem ModbusPoll.meets_fromDict (v : Json) :
    Meets (ModbusPoll.fromDict v) (loadDemands v) (loaded v) := by
  have hpoint : ∀ p, Meets (ModbusPoint.fromDict p) p.dictDemands (.ofMembers p.members) :=
    fun p => .map p.meets_toDict
  exact .bind v.meets_toDict <| .bind (Json.meets_toFloat _) <|
    .step (Json.meets_elements _) <| .map (.mapM hpoint _)

/-- The demands on a point behind points with the names `seen`. -/
def ModbusPoint.checkDemands (seen : List Json) (p : ModbusPoint) : List Demand :=
  [.works p.name.isText, .holds (!p.name.isBlank), .holds (!seen.any p.name.pyEq),
    .works p.unit.isComparable, .holds (p.unit.betweenInts 0 255),
    .holds (p.fn.inInts [1, 2, 3, 4]),
    .works p.address.isComparable, .holds (p.address.betweenInts 0 65535),
    .holds (p.dtype.inStrs modbusDtypes),
    .holds (p.fn.inInts [1, 2] == p.dtype.eqStr "bool"),
    .holds (!(p.writable.truthy && !p.fn.inInts [1, 3]))]

/-- The checks of a point, given the names before it. -/
theorem ModbusPoint.meets_validate (seen : List Json) (p : ModbusPoint) :
    Meets (p.validate seen) (p.checkDemands seen) () :=
  .step p.name.meets_blank <| .step meets_require <| .step meets_require <|
    .step (p.unit.meets_inRange 0 255) <| .step meets_require <| .step meets_require <|
    .step (p.address.meets_inRange 0 65535) <| .step meets_require <| .step meets_require <|
    .step meets_require meets_require

/-- The demands of the loop over the points. -/
def pointDemands (seen : List Json) : List ModbusPoint → List Demand
  | [] => []
  | p :: rest => p.checkDemands seen ++ pointDemands (p.name :: seen) rest

/-- The points one after another. -/
theorem meets_validatePoints (seen : List Json) (l : List ModbusPoint) :
    Meets (validatePoints seen l) (pointDemands seen l) () := by
  induction l generalizing seen with
  | nil => exact .pure
  | cons p rest ih => exact .bind (p.meets_validate seen) (ih (p.name :: seen))

/-- The demands of `ModbusPoll.validate`. -/
def ModbusPoll.checkDemands (q : ModbusPoll) : List Demand :=
  if q.points.isEmpty then []
  else .holds (!q.intervalS.le (.fin 0)) :: pointDemands [] q.points

/-- The checks of the poll section. -/
theorem ModbusPoll.meets_validate (q : ModbusPoll) : Meets q.validate q.checkDemands () :=
  .ite .pure (.step meets_require (meets_validatePoints [] q.points))

/-! ### The mapping -/

/-- The demands of `MappingConfig.from_dict`. -/
def MappingConfig.loadDemands (d : List (String × Json)) : List Demand :=
  SerialSettings.loadDemands (Json.get d "serial" (.obj [])) ++
    (SerialSettings.loadDemands (Json.get d "serial_b" (.obj [])) ++
    ((Json.get d "network" (.obj [])).dictDemands ++
    (MappingOptions.loadDemands (Json.get d "options" (.obj [])) ++
    ((Json.get d "mqtt" (.obj [])).dictDemands ++
    ModbusPoll.loadDemands (Json.get d "modbus_poll" (.obj []))))))

/-- The mapping that `MappingConfig.from_dict` makes. -/
def MappingConfig.loaded (m : Platform) (newId : String) (d : List (String × Json)) :
    MappingConfig where
  id := orElse (Json.get d "id" .null) (.str newId)
  name := Json.get d "name" (.str "")
  enabled := (Json.get d "enabled" (.bool true)).truthy
  kind := Json.get d "kind" (.str "net")
  serial := .loaded (Json.get d "serial" (.obj []))
  serialB := .loaded (Json.get d "serial_b" (.obj []))
  network := .ofMembers (Json.get d "network" (.obj [])).members
  options := .loaded m (Json.get d "options" (.obj []))
  mqtt := .ofMembers (Json.get d "mqtt" (.obj [])).members
  modbusPoll := .loaded (Json.get d "modbus_poll" (.obj []))

/-- A mapping is read. -/
theorem MappingConfig.meets_fromDict (m : Platform) (newId : String) (d : List (String × Json)) :
    Meets (fromDict m newId (.obj d)) (loadDemands d) (loaded m newId d) := by
  have hnetwork : ∀ v, Meets (NetworkSettings.fromDict v) v.dictDemands (.ofMembers v.members) :=
    fun v => .map v.meets_toDict
  have hmqtt : ∀ v, Meets (MqttSettings.fromDict v) v.dictDemands (.ofMembers v.members) :=
    fun v => .map v.meets_toDict
  rw [fromDict, Json.toDict_obj]
  refine .ok_bind ?_
  exact .bind (SerialSettings.meets_fromDict _) <| .bind (SerialSettings.meets_fromDict _) <|
    .bind (hnetwork _) <| .bind (MappingOptions.meets_fromDict m _) <| .bind (hmqtt _) <|
    .map (ModbusPoll.meets_fromDict _)

/-- The demands on the other end of a mapping. -/
def MappingConfig.otherEndDemands (m : Platform) (c : MappingConfig) : List Demand :=
  if c.kind.eqStr "serialbridge" then
    c.serialB.checkDemands ++ [.holds (!c.serialB.port.pyEq c.serial.port)]
  else c.network.checkDemands m

/-- The demands of `MappingConfig.validate`. -/
def MappingConfig.checkDemands (m : Platform) (c : MappingConfig) : List Demand :=
  .works c.name.isText :: .holds (!c.name.isBlank) :: .holds (c.kind.inStrs mappingKinds) ::
    (c.serial.checkDemands ++ (c.otherEndDemands m ++ (c.options.checkDemands ++
    (c.mqtt.checkDemands ++ (c.modbusPoll.checkDemands ++
    [.holds (!(!c.modbusPoll.points.isEmpty &&
        !(c.kind.eqStr "net" && c.network.protocol.eqStr "modbus"))),
      .holds (!(c.mqtt.enabled.truthy && c.mqtt.payloadFormat.eqStr "sparkplug_b" &&
        c.modbusPoll.points.isEmpty))])))))

/-- The checks of a mapping. -/
theorem MappingConfig.meets_validate (m : Platform) (c : MappingConfig) :
    Meets (c.validate m) (c.checkDemands m) () :=
  .step c.name.meets_blank <| .step meets_require <| .step meets_require <|
    .bind c.serial.meets_validate <|
    .bind (.ite (.bind c.serialB.meets_validate meets_require) (c.network.meets_validate m)) <|
    .bind c.options.meets_validate <| .bind c.mqtt.meets_validate <|
    .bind c.modbusPoll.meets_validate <| .step meets_require meets_require

/-- The demands of `from_dict` and `validate` on the members of an object. -/
def MappingConfig.demands (m : Platform) (newId : String) (d : List (String × Json)) :
    List Demand :=
  loadDemands d ++ (loaded m newId d).checkDemands m

/-- A mapping is read and then checked. -/
theorem MappingConfig.meets_load (m : Platform) (newId : String) (d : List (String × Json)) :
    Meets (load m newId (.obj d)) (demands m newId d) (loaded m newId d) :=
  .bind (meets_fromDict m newId d) (.map (meets_validate m _))

/-- Only `ValueError` leaves the loading of an object exactly when every operation works on the
    value it gets, up to the first check that refuses the object. -/
theorem MappingConfig.load_contained_iff (m : Platform) (newId : String)
    (d : List (String × Json)) :
    (∀ e, load m newId (.obj d) = .error e → e.isValueError = true) ↔
      faultless (demands m newId d) = true :=
  (meets_load m newId d).contained_iff

/-- A name that is a number has no `strip`. -/
theorem MappingConfig.not_contained_numberName :
    ¬ ∀ (m : Platform) (newId : String) (d : List (String × Json)) (e : PyExc ConfigError),
      load m newId (.obj d) = .error e → e.isValueError = true := by
  intro h
  have hload : load bareMachine "0123456789ab" (.obj [("name", .int 5)]) =
      .error .attributeError := by decide +kernel
  exact absurd (h _ _ _ _ hload) (by decide)

end Ser2Net.Config
