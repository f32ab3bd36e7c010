import Ser2Net.Config.Basic

namespace Ser2Net.Config

open Ser2Net.Lib

/-!
# Config — one mapping

The records of a serial↔network mapping with their defaults, `from_dict` and `validate`.
Every record takes its known keys from the JSON object and ignores the others; a missing key
leaves the default of the class.

* `SerialSettings`, `NetworkSettings`, `MappingOptions`, `MqttSettings`, `ModbusPoll` — the
  sections;
* `MappingConfig` — the mapping; its id is whatever the object holds under `id`, or a new
  one when that is empty, and no check looks at it;
* `toDict`, `pyEq` — `asdict`, and the equality that `list.remove` and `list.index` use.
-/

/-! ### Serial side -/

/-- `SerialAdvanced`. -/
structure SerialAdvanced where
  rs485Enabled : Json
  rs485DelayBeforeTxMs : Json
  rs485DelayAfterTxMs : Json
  rs485RtsLevelForTx : Json
  hangupWhenDone : Json
  nobreak : Json
  deriving DecidableEq, Repr

/-- `SerialAdvanced(**known)`. -/
def SerialAdvanced.ofMembers (d : List (String × Json)) : SerialAdvanced where
  rs485Enabled := Json.get d "rs485_enabled" (.bool false)
  rs485DelayBeforeTxMs := Json.get d "rs485_delay_before_tx_ms" (.float (.fin 0))
  rs485DelayAfterTxMs := Json.get d "rs485_delay_after_tx_ms" (.float (.fin 0))
  rs485RtsLevelForTx := Json.get d "rs485_rts_level_for_tx" (.bool true)
  hangupWhenDone := Json.get d "hangup_when_done" (.bool false)
  nobreak := Json.get d "nobreak" (.bool false)

/-- `SerialSettings`. -/
structure SerialSettings where
  port : Json
  usbMatch : Json
  baudrate : Json
  bytesize : Json
  parity : Json
  stopbits : Json
  flowcontrol : Json
  rtsOnOpen : Json
  dtrOnOpen : Json
  exclusive : Json
  advanced : SerialAdvanced
  deriving DecidableEq, Repr

/-- `SerialSettings(advanced=advanced, **known)`. -/
def SerialSettings.ofMembers (d adv : List (String × Json)) : SerialSettings where
  port := Json.get d "port" (.str "")
  usbMatch := Json.get d "match" (.obj [])
  baudrate := Json.get d "baudrate" (.int 9600)
  bytesize := Json.get d "bytesize" (.int 8)
  parity := Json.get d "parity" (.str "N")
  stopbits := Json.get d "stopbits" (.int 1)
  flowcontrol := Json.get d "flowcontrol" (.str "none")
  rtsOnOpen := Json.get d "rts_on_open" (.str "keep")
  dtrOnOpen := Json.get d "dtr_on_open" (.str "keep")
  exclusive := Json.get d "exclusive" (.bool true)
  advanced := SerialAdvanced.ofMembers adv

/-- `SerialSettings.from_dict`. -/
def SerialSettings.fromDict (v : Json) : CfgM SerialSettings := do
  let (adv, d) := Json.pop (← v.toDict) "advanced" (.obj [])
  let adv ← (if adv.truthy then adv.items else .ok [])
  return SerialSettings.ofMembers d adv

/-- `PARITIES`. -/
def parities : List String := ["N", "E", "O", "M", "S"]

/-- `FLOWCONTROLS`. -/
def flowcontrols : List String := ["none", "rtscts", "xonxoff", "dsrdtr"]

/-- `LINE_STATES`. -/
def lineStates : List String := ["on", "off", "keep"]

/-- `1.5` in units of `2^-1074`. -/
def oneAndHalf : PyFloat := .fin (3 * 2 ^ 1073)

/-- `SerialSettings.validate`. -/
def SerialSettings.validate (s : SerialSettings) : CfgM Unit := do
  require s.port.truthy "Serial port is required." []
  require (intAtLeast s.baudrate 1) "Baud rate must be a positive integer." []
  require (s.bytesize.inInts [5, 6, 7, 8]) "Data bits must be one of {0}." [.text "(5, 6, 7, 8)"]
  require (s.parity.inStrs parities) "Parity must be one of {0}." [tuple parities]
  require (s.stopbits.inInts [1, 2] || s.stopbits.eqFloat oneAndHalf)
    "Stop bits must be one of {0}." [.text "(1, 1.5, 2)"]
  require (s.flowcontrol.inStrs flowcontrols) "Flow control must be one of {0}."
    [tuple flowcontrols]
  require (s.rtsOnOpen.inStrs lineStates && s.dtrOnOpen.inStrs lineStates)
    "RTS/DTR on open must be on|off|keep." []
  require (!(s.advanced.rs485Enabled.truthy && s.flowcontrol.eqStr "rtscts"))
    "RS-485 RTS toggling conflicts with RTS/CTS flow control." []

/-! ### Network side -/

/-- `NetworkSettings`. -/
structure NetworkSettings where
  mode : Json
  protocol : Json
  bindIp : Json
  port : Json
  remoteHost : Json
  remotePort : Json
  maxConnections : Json
  kickOldUser : Json
  allowedClientIps : Json
  priorityClientIps : Json
  readOnly : Json
  clientQueueMax : Json
  tcpKeepalive : Json
  keepaliveIdleS : Json
  keepaliveIntervalS : Json
  keepaliveCount : Json
  connectTimeoutS : Json
  tls : Json
  tlsCert : Json
  tlsKey : Json
  deriving DecidableEq, Repr

/-- `NetworkSettings(**known)`. -/
def NetworkSettings.ofMembers (d : List (String × Json)) : NetworkSettings where
  mode := Json.get d "mode" (.str "server")
  protocol := Json.get d "protocol" (.str "raw")
  bindIp := Json.get d "bind_ip" (.str "0.0.0.0")
  port := Json.get d "port" (.int 4001)
  remoteHost := Json.get d "remote_host" (.str "")
  remotePort := Json.get d "remote_port" (.int 0)
  maxConnections := Json.get d "max_connections" (.int 1)
  kickOldUser := Json.get d "kick_old_user" (.bool false)
  allowedClientIps := Json.get d "allowed_client_ips" (.arr [])
  priorityClientIps := Json.get d "priority_client_ips" (.arr [])
  readOnly := Json.get d "read_only" (.bool false)
  clientQueueMax := Json.get d "client_queue_max" (.int 2048)
  tcpKeepalive := Json.get d "tcp_keepalive" (.bool true)
  keepaliveIdleS := Json.get d "keepalive_idle_s" (.int 60)
  keepaliveIntervalS := Json.get d "keepalive_interval_s" (.int 10)
  keepaliveCount := Json.get d "keepalive_count" (.int 3)
  connectTimeoutS := Json.get d "connect_timeout_s" (.float (.ofIntExact 10))
  tls := Json.get d "tls" (.bool false)
  tlsCert := Json.get d "tls_cert" (.str "")
  tlsKey := Json.get d "tls_key" (.str "")

/-- `NetworkSettings.from_dict`. -/
def NetworkSettings.fromDict (v : Json) : CfgM NetworkSettings := do
  return NetworkSettings.ofMembers (← v.toDict)

/-- `NET_MODES`. -/
def netModes : List String := ["server", "client", "udp"]

/-- `PROTOCOLS`. -/
def protocols : List String := ["raw", "telnet", "rfc2217", "modbus"]

/-- `NetworkSettings.listens`. -/
def NetworkSettings.listens (n : NetworkSettings) : Bool := n.mode.inStrs ["server", "udp"]

/-- The part of `validate` for a mapping that binds a port. -/
def NetworkSettings.validateListener (n : NetworkSettings) : CfgM Unit :=
  match Ipaddress.ipAddress n.bindIp with
  | none => .error (.user ⟨"Invalid bind IP: {0}.", [.repr n.bindIp]⟩)
  | some ip => do
    require (!(ip.isMulticast || (ip.isReserved && !ip.isWildcard)))
      "Bind IP cannot be a multicast/reserved address." []
    require (intWithin n.port 1 65535) "TCP/UDP port must be between 1 and 65535." []

/-- The part of `validate` for connect-out mode. -/
def NetworkSettings.validateConnectOut (n : NetworkSettings) : CfgM Unit := do
  require (!(← n.remoteHost.blank)) "Connect-out mode requires a remote host." []
  require (intWithin n.remotePort 1 65535) "Remote port must be between 1 and 65535." []

/-- One keepalive value: an int, not a bool, within the limits of the system. -/
def requireKeepalive (label : String) (v : Json) (high : Int) : CfgM Unit :=
  require (v.isInt && v.betweenInts 1 high) "{0} must be an integer between 1 and {1}."
    [.text label, .value (.int high)]

/-- The certificate and the key of a TLS mapping exist. -/
def requireFiles (m : Platform) : List Json → CfgM Unit
  | [] => .ok ()
  | p :: rest => do
    require (← isFile m p) "TLS file not found: {0}" [.value p]
    requireFiles m rest

/-- The part of `validate` for a mapping with TLS. -/
def NetworkSettings.validateTls (m : Platform) (n : NetworkSettings) : CfgM Unit := do
  require (!n.mode.eqStr "udp") "TLS is not applicable to UDP mappings." []
  require (n.tlsCert.truthy && n.tlsKey.truthy)
    "Enable TLS requires both a certificate and a key." []
  requireFiles m [n.tlsCert, n.tlsKey]

/-- `NetworkSettings.validate`. -/
def NetworkSettings.validate (m : Platform) (n : NetworkSettings) : CfgM Unit := do
  require (n.mode.inStrs netModes) "Network mode must be one of {0}." [tuple netModes]
  require (n.protocol.inStrs protocols) "Protocol must be one of {0}." [tuple protocols]
  (if n.listens then n.validateListener else n.validateConnectOut)
  require (intAtLeast n.maxConnections 1) "Max connections must be >= 1." []
  require (intAtLeast n.clientQueueMax 16) "Client queue size must be an integer >= 16." []
  requireKeepalive "Keepalive idle time" n.keepaliveIdleS 32767
  requireKeepalive "Keepalive probe interval" n.keepaliveIntervalS 32767
  requireKeepalive "Keepalive probe count" n.keepaliveCount 127
  require (n.connectTimeoutS.isNumber && n.connectTimeoutS.betweenInts 0 3600)
    "Connect timeout must be between 0 and 3600 seconds (0 = OS default)." []
  require (!(n.protocol.eqStr "rfc2217" && n.mode.eqStr "udp"))
    "RFC2217 requires a TCP (server/client) connection, not UDP." []
  require (!(n.protocol.eqStr "modbus" && !n.mode.eqStr "server"))
    "Modbus gateway requires TCP server mode (masters connect in)." []
  require (!(n.protocol.eqStr "rfc2217" && intAtLeast n.maxConnections 2))
    "RFC2217 supports a single connection (clients share one serial port's settings). Set Max connections = 1."
    []
  (if n.tls.truthy then n.validateTls m else .ok ())
  requireNetworks "allowed" (← n.allowedClientIps.elements)
  requireNetworks "priority" (← n.priorityClientIps.elements)

/-! ### Options -/

/-- `MappingOptions`. -/
structure MappingOptions where
  banner : Json
  openstr : Json
  closestr : Json
  closeon : Json
  idleTimeoutS : Json
  maxConnectionTimeS : Json
  traceBoth : String
  traceHexdump : Json
  traceTimestamp : Json
  traceMaxMb : Json
  traceKeep : Json
  rfc2217PollModemIntervalS : Json
  rfc2217NetTimeoutS : Json
  modbusResponseTimeoutS : Json
  deriving DecidableEq, Repr

/-- `MappingOptions(**known)` with its idle timeout and trace name normalised. -/
def MappingOptions.ofMembers (py : PyEnv) (d : List (String × Json)) (idle : Json) :
    MappingOptions where
  banner := Json.get d "banner" (.str "")
  openstr := Json.get d "openstr" (.str "")
  closestr := Json.get d "closestr" (.str "")
  closeon := Json.get d "closeon" (.str "")
  idleTimeoutS := idle
  maxConnectionTimeS := Json.get d "max_connection_time_s" (.int 0)
  traceBoth := traceFileName py (Json.get d "trace_both" (.str ""))
  traceHexdump := Json.get d "trace_hexdump" (.bool false)
  traceTimestamp := Json.get d "trace_timestamp" (.bool true)
  traceMaxMb := Json.get d "trace_max_mb" (.float (.ofIntExact 10))
  traceKeep := Json.get d "trace_keep" (.int 3)
  rfc2217PollModemIntervalS := Json.get d "rfc2217_poll_modem_interval_s" (.float (.ofIntExact 1))
  rfc2217NetTimeoutS := Json.get d "rfc2217_net_timeout_s" (.float (.ofIntExact 3))
  modbusResponseTimeoutS := Json.get d "modbus_response_timeout_s" (.float (.ofIntExact 1))

/-- `MappingOptions.from_dict`. -/
def MappingOptions.fromDict (m : Platform) (v : Json) : CfgM MappingOptions := do
  let d ← v.toDict
  let idle ← legacySeconds (Json.get d "idle_timeout_s" (.int 0))
  return MappingOptions.ofMembers m.py d idle

/-- A per-connection timer. -/
def requireTimer (label : String) (v : Json) : CfgM Unit :=
  require (v.isNumber && v.betweenInts 0 maxTimerS)
    "{0} must be between 0 (off) and {1} seconds." [.text label, .value (.int maxTimerS)]

/-- `MappingOptions.validate`. -/
def MappingOptions.validate (o : MappingOptions) : CfgM Unit := do
  requireTimer "Idle timeout" o.idleTimeoutS
  requireTimer "Max connection time" o.maxConnectionTimeS
  require (o.traceMaxMb.isNumber && o.traceMaxMb.between .tenth (.ofIntExact 1024))
    "Trace file size must be between 0.1 and 1024 MB." []
  require (o.traceKeep.isInt && o.traceKeep.betweenInts 0 50)
    "Rotated trace files kept must be between 0 and 50." []

/-! ### MQTT -/

/-- `MqttSettings`. -/
structure MqttSettings where
  enabled : Json
  host : Json
  port : Json
  baseTopic : Json
  qos : Json
  tls : Json
  username : Json
  password : Json
  clientId : Json
  payloadFormat : Json
  sparkplugGroupId : Json
  sparkplugNodeId : Json
  deriving DecidableEq, Repr

/-- `MqttSettings(**known)`. -/
def MqttSettings.ofMembers (d : List (String × Json)) : MqttSettings where
  enabled := Json.get d "enabled" (.bool false)
  host := Json.get d "host" (.str "")
  port := Json.get d "port" (.int 1883)
  baseTopic := Json.get d "base_topic" (.str "")
  qos := Json.get d "qos" (.int 0)
  tls := Json.get d "tls" (.bool false)
  username := Json.get d "username" (.str "")
  password := Json.get d "password" (.str "")
  clientId := Json.get d "client_id" (.str "")
  payloadFormat := Json.get d "payload_format" (.str "plain")
  sparkplugGroupId := Json.get d "sparkplug_group_id" (.str "ser2net")
  sparkplugNodeId := Json.get d "sparkplug_node_id" (.str "")

/-- `MqttSettings.from_dict`. -/
def MqttSettings.fromDict (v : Json) : CfgM MqttSettings := do
  return MqttSettings.ofMembers (← v.toDict)

/-- `MQTT_FORMATS`. -/
def mqttFormats : List String := ["plain", "sparkplug_b"]

/-- One of the ids of an edge node: no topic separator and no wildcard. -/
def requireTopicPart (label : String) (v : Json) : CfgM Unit := do
  let slash ← v.containsChar '/'
  let plus ← v.containsChar '+'
  let hash ← v.containsChar '#'
  require (!(slash || plus || hash)) "Sparkplug {0} must not contain '/', '+' or '#'."
    [.text label]

/-- The part of `validate` for Sparkplug B. -/
def MqttSettings.validateSparkplug (q : MqttSettings) : CfgM Unit := do
  requireTopicPart "group ID" q.sparkplugGroupId
  requireTopicPart "edge node ID" q.sparkplugNodeId
  require (!(← q.sparkplugGroupId.blank)) "Sparkplug B needs a group ID." []

/-- The part of `validate` for publishing that is switched on. -/
def MqttSettings.validateEnabled (q : MqttSettings) : CfgM Unit := do
  require (!(← q.host.blank)) "MQTT is enabled but no broker host is set." []
  require (!(← q.baseTopic.blank)) "MQTT is enabled but no base topic is set." []
  require (intWithin q.port 1 65535) "MQTT port must be between 1 and 65535." []
  require (q.qos.inInts [0, 1, 2]) "MQTT QoS must be 0, 1 or 2." []
  require (q.payloadFormat.inStrs mqttFormats) "MQTT payload format must be one of {0}."
    [tuple mqttFormats]
  (if q.payloadFormat.eqStr "sparkplug_b" then q.validateSparkplug else .ok ())

/-- `MqttSettings.validate`. -/
def MqttSettings.validate (q : MqttSettings) : CfgM Unit :=
  if q.enabled.truthy then q.validateEnabled else .ok ()

/-! ### Modbus polling -/

/-- `ModbusPoint`. -/
structure ModbusPoint where
  name : Json
  unit : Json
  fn : Json
  address : Json
  dtype : Json
  scale : Json
  writable : Json
  deriving DecidableEq, Repr

/-- `ModbusPoint(**known)`. -/
def ModbusPoint.ofMembers (d : List (String × Json)) : ModbusPoint where
  name := Json.get d "name" (.str "")
  unit := Json.get d "unit" (.int 1)
  fn := Json.get d "fn" (.int 3)
  address := Json.get d "address" (.int 0)
  dtype := Json.get d "dtype" (.str "uint16")
  scale := Json.get d "scale" (.float (.ofIntExact 1))
  writable := Json.get d "writable" (.bool false)

/-- `ModbusPoint.from_dict`. -/
def ModbusPoint.fromDict (v : Json) : CfgM ModbusPoint := do
  return ModbusPoint.ofMembers (← v.toDict)

/-- `ModbusPoll`. -/
structure ModbusPoll where
  intervalS : PyFloat
  points : List ModbusPoint
  deriving DecidableEq, Repr

/-- `v or default`. -/
def orElse (v default : Json) : Json := if v.truthy then v else default

/-- `ModbusPoll.from_dict`. -/
def ModbusPoll.fromDict (v : Json) : CfgM ModbusPoll := do
  let d ← v.toDict
  let five := Json.float (.ofIntExact 5)
  let interval ← (orElse (Json.get d "interval_s" five) five).toFloat
  let raw ← (Json.get d "points" (.arr [])).elements
  let points ← raw.mapM ModbusPoint.fromDict
  return ⟨interval, points⟩

/-- `MODBUS_DTYPES`. -/
def modbusDtypes : List String := ["uint16", "int16", "uint32", "int32", "float32", "bool"]

/-- The checks on one point; `seen` holds the names of the points before it. -/
def ModbusPoint.validate (seen : List Json) (p : ModbusPoint) : CfgM Unit := do
  require (!(← p.name.blank)) "Each Modbus poll point needs a name." []
  require (!seen.any p.name.pyEq) "Duplicate Modbus poll point name: {0}." [.repr p.name]
  require (← p.unit.inRange 0 255) "Point {0}: unit must be 0-255." [.repr p.name]
  require (p.fn.inInts [1, 2, 3, 4])
    "Point {0}: function must be 1 (coils), 2 (discrete inputs), 3 (holding registers) or 4 (input registers)."
    [.repr p.name]
  require (← p.address.inRange 0 65535) "Point {0}: address must be 0-65535." [.repr p.name]
  require (p.dtype.inStrs modbusDtypes) "Point {0}: dtype must be one of {1}."
    [.repr p.name, tuple modbusDtypes]
  require (p.fn.inInts [1, 2] == p.dtype.eqStr "bool")
    "Point {0}: coils / discrete inputs (fn 1, 2) use dtype 'bool'; registers (fn 3, 4) a numeric dtype."
    [.repr p.name]
  require (!(p.writable.truthy && !p.fn.inInts [1, 3]))
    "Point {0}: only coils (fn 1) and holding registers (fn 3) can be written." [.repr p.name]

/-- The loop over the points. -/
def validatePoints (seen : List Json) : List ModbusPoint → CfgM Unit
  | [] => .ok ()
  | p :: rest => do
    p.validate seen
    validatePoints (p.name :: seen) rest

/-- `ModbusPoll.validate`. -/
def ModbusPoll.validate (q : ModbusPoll) : CfgM Unit :=
  if q.points.isEmpty then .ok ()
  else do
    require (!q.intervalS.le (.fin 0)) "Modbus poll interval must be > 0 seconds." []
    validatePoints [] q.points

/-! ### The mapping -/

/-- `MappingConfig`. -/
structure MappingConfig where
  id : Json
  name : Json
  enabled : Bool
  kind : Json
  serial : SerialSettings
  serialB : SerialSettings
  network : NetworkSettings
  options : MappingOptions
  mqtt : MqttSettings
  modbusPoll : ModbusPoll
  deriving DecidableEq, Repr

/-- `MappingConfig.from_dict`; `newId` is what `_new_id()` returns. -/
def MappingConfig.fromDict (m : Platform) (newId : String) (v : Json) : CfgM MappingConfig := do
  let d ← v.toDict
  let serial ← SerialSettings.fromDict (Json.get d "serial" (.obj []))
  let serialB ← SerialSettings.fromDict (Json.get d "serial_b" (.obj []))
  let network ← NetworkSettings.fromDict (Json.get d "network" (.obj []))
  let options ← MappingOptions.fromDict m (Json.get d "options" (.obj []))
  let mqtt ← MqttSettings.fromDict (Json.get d "mqtt" (.obj []))
  let poll ← ModbusPoll.fromDict (Json.get d "modbus_poll" (.obj []))
  return {
    id := orElse (Json.get d "id" .null) (.str newId)
    name := Json.get d "name" (.str "")
    enabled := (Json.get d "enabled" (.bool true)).truthy
    kind := Json.get d "kind" (.str "net")
    serial, serialB, network, options, mqtt
    modbusPoll := poll }

/-- What `from_dict` makes of the members `d` of a mapping: each section is read from its own. -/
structure MappingConfig.ReadFrom (m : Platform) (newId : String) (d : List (String × Json))
    (c : MappingConfig) : Prop where
  id : c.id = orElse (Json.get d "id" .null) (.str newId)
  name : c.name = Json.get d "name" (.str "")
  enabled : c.enabled = (Json.get d "enabled" (.bool true)).truthy
  kind : c.kind = Json.get d "kind" (.str "net")
  serial : SerialSettings.fromDict (Json.get d "serial" (.obj [])) = .ok c.serial
  serialB : SerialSettings.fromDict (Json.get d "serial_b" (.obj [])) = .ok c.serialB
  network : NetworkSettings.fromDict (Json.get d "network" (.obj [])) = .ok c.network
  options : MappingOptions.fromDict m (Json.get d "options" (.obj [])) = .ok c.options
  mqtt : MqttSettings.fromDict (Json.get d "mqtt" (.obj [])) = .ok c.mqtt
  modbusPoll : ModbusPoll.fromDict (Json.get d "modbus_poll" (.obj [])) = .ok c.modbusPoll

theorem MappingConfig.fromDict_eq_ok {m : Platform} {newId : String} {v : Json}
    {c : MappingConfig} (h : MappingConfig.fromDict m newId v = .ok c) :
    ∃ d, v.toDict = (.ok d : CfgM _) ∧ MappingConfig.ReadFrom m newId d c := by
  obtain ⟨d, hd, h⟩ := except_bind_eq_ok.1 h
  obtain ⟨serial, hserial, h⟩ := except_bind_eq_ok.1 h
  obtain ⟨serialB, hserialB, h⟩ := except_bind_eq_ok.1 h
  obtain ⟨network, hnetwork, h⟩ := except_bind_eq_ok.1 h
  obtain ⟨options, hoptions, h⟩ := except_bind_eq_ok.1 h
  obtain ⟨mqtt, hmqtt, h⟩ := except_bind_eq_ok.1 h
  obtain ⟨poll, hpoll, h⟩ := except_bind_eq_ok.1 h
  cases h
  exact ⟨d, hd, rfl, rfl, rfl, rfl, hserial, hserialB, hnetwork, hoptions, hmqtt, hpoll⟩

/-- The poll that `from_dict` returns: an interval, and its points one by one. -/
theorem ModbusPoll.fromDict_eq_ok {v : Json} {q : ModbusPoll}
    (h : ModbusPoll.fromDict v = .ok q) : ∃ d raw, v.toDict = (.ok d : CfgM _) ∧
      (orElse (Json.get d "interval_s" (.float (.ofIntExact 5)))
        (.float (.ofIntExact 5))).toFloat = (.ok q.intervalS : CfgM _) ∧
      (Json.get d "points" (.arr [])).elements = (.ok raw : CfgM _) ∧
      raw.mapM ModbusPoint.fromDict = .ok q.points := by
  obtain ⟨d, hd, h⟩ := except_bind_eq_ok.1 h
  obtain ⟨interval, hinterval, h⟩ := except_bind_eq_ok.1 h
  obtain ⟨raw, hraw, h⟩ := except_bind_eq_ok.1 h
  obtain ⟨points, hpoints, h⟩ := except_bind_eq_ok.1 h
  cases h
  exact ⟨d, raw, hd, hinterval, hraw, hpoints⟩

/-- The options that `from_dict` returns: their idle timeout and trace name are normalised. -/
theorem MappingOptions.fromDict_eq_ok {m : Platform} {v : Json} {o : MappingOptions}
    (h : MappingOptions.fromDict m v = .ok o) :
    (∃ idle, legacySeconds idle = .ok o.idleTimeoutS) ∧
      ∃ name, o.traceBoth = traceFileName m.py name := by
  obtain ⟨members, -, h⟩ := except_bind_eq_ok.1 h
  obtain ⟨idle, hidle, h⟩ := except_bind_eq_ok.1 h
  cases h
  exact ⟨⟨_, hidle⟩, _, rfl⟩

/-- `MAPPING_KINDS`. -/
def mappingKinds : List String := ["net", "serialbridge"]

/-- The part of `validate` for a serial-to-serial bridge. -/
def MappingConfig.validateSerialB (c : MappingConfig) : CfgM Unit := do
  c.serialB.validate
  require (!c.serialB.port.pyEq c.serial.port)
    "Serial-to-serial bridge needs two different ports." []

/-- `MappingConfig.validate`. -/
def MappingConfig.validate (m : Platform) (c : MappingConfig) : CfgM Unit := do
  require (!(← c.name.blank)) "Mapping name is required." []
  require (c.kind.inStrs mappingKinds) "Mapping kind must be one of {0}." [tuple mappingKinds]
  c.serial.validate
  (if c.kind.eqStr "serialbridge" then c.validateSerialB else c.network.validate m)
  c.options.validate
  c.mqtt.validate
  c.modbusPoll.validate
  require (!(!c.modbusPoll.points.isEmpty &&
      !(c.kind.eqStr "net" && c.network.protocol.eqStr "modbus")))
    "Modbus register polling requires a Modbus-gateway mapping (protocol = modbus)." []
  require (!(c.mqtt.enabled.truthy && c.mqtt.payloadFormat.eqStr "sparkplug_b" &&
      c.modbusPoll.points.isEmpty))
    "Sparkplug B publishes Modbus poll points: add points (and use protocol = modbus), or use the plain MQTT format."
    []

/-- `from_dict` followed by `validate`, as every way into the configuration runs them. -/
def MappingConfig.load (m : Platform) (newId : String) (v : Json) : CfgM MappingConfig := do
  let c ← MappingConfig.fromDict m newId v
  c.validate m
  return c

/-! ### `asdict` -/

/-- `asdict` of a `SerialAdvanced`. -/
def SerialAdvanced.toDict (a : SerialAdvanced) : Json :=
  .obj [("rs485_enabled", a.rs485Enabled), ("rs485_delay_before_tx_ms", a.rs485DelayBeforeTxMs),
    ("rs485_delay_after_tx_ms", a.rs485DelayAfterTxMs),
    ("rs485_rts_level_for_tx", a.rs485RtsLevelForTx), ("hangup_when_done", a.hangupWhenDone),
    ("nobreak", a.nobreak)]

/-- `asdict` of a `SerialSettings`. -/
def SerialSettings.toDict (s : SerialSettings) : Json :=
  .obj [("port", s.port), ("match", s.usbMatch), ("baudrate", s.baudrate),
    ("bytesize", s.bytesize), ("parity", s.parity), ("stopbits", s.stopbits),
    ("flowcontrol", s.flowcontrol), ("rts_on_open", s.rtsOnOpen), ("dtr_on_open", s.dtrOnOpen),
    ("exclusive", s.exclusive), ("advanced", s.advanced.toDict)]

/-- `asdict` of a `NetworkSettings`. -/
def NetworkSettings.toDict (n : NetworkSettings) : Json :=
  .obj [("mode", n.mode), ("protocol", n.protocol), ("bind_ip", n.bindIp), ("port", n.port),
    ("remote_host", n.remoteHost), ("remote_port", n.remotePort),
    ("max_connections", n.maxConnections), ("kick_old_user", n.kickOldUser),
    ("allowed_client_ips", n.allowedClientIps), ("priority_client_ips", n.priorityClientIps),
    ("read_only", n.readOnly), ("client_queue_max", n.clientQueueMax),
    ("tcp_keepalive", n.tcpKeepalive), ("keepalive_idle_s", n.keepaliveIdleS),
    ("keepalive_interval_s", n.keepaliveIntervalS), ("keepalive_count", n.keepaliveCount),
    ("connect_timeout_s", n.connectTimeoutS), ("tls", n.tls), ("tls_cert", n.tlsCert),
    ("tls_key", n.tlsKey)]

/-- `asdict` of a `MappingOptions`. -/
def MappingOptions.toDict (o : MappingOptions) : Json :=
  .obj [("banner", o.banner), ("openstr", o.openstr), ("closestr", o.closestr),
    ("closeon", o.closeon), ("idle_timeout_s", o.idleTimeoutS),
    ("max_connection_time_s", o.maxConnectionTimeS), ("trace_both", .str o.traceBoth),
    ("trace_hexdump", o.traceHexdump), ("trace_timestamp", o.traceTimestamp),
    ("trace_max_mb", o.traceMaxMb), ("trace_keep", o.traceKeep),
    ("rfc2217_poll_modem_interval_s", o.rfc2217PollModemIntervalS),
    ("rfc2217_net_timeout_s", o.rfc2217NetTimeoutS),
    ("modbus_response_timeout_s", o.modbusResponseTimeoutS)]

/-- `asdict` of a `MqttSettings`. -/
def MqttSettings.toDict (q : MqttSettings) : Json :=
  .obj [("enabled", q.enabled), ("host", q.host), ("port", q.port), ("base_topic", q.baseTopic),
    ("qos", q.qos), ("tls", q.tls), ("username", q.username), ("password", q.password),
    ("client_id", q.clientId), ("payload_format", q.payloadFormat),
    ("sparkplug_group_id", q.sparkplugGroupId), ("sparkplug_node_id", q.sparkplugNodeId)]

/-- `asdict` of a `ModbusPoint`. -/
def ModbusPoint.toDict (p : ModbusPoint) : Json :=
  .obj [("name", p.name), ("unit", p.unit), ("fn", p.fn), ("address", p.address),
    ("dtype", p.dtype), ("scale", p.scale), ("writable", p.writable)]

/-- `MappingConfig.to_dict`. -/
def MappingConfig.toDict (c : MappingConfig) : Json :=
  .obj [("id", c.id), ("name", c.name), ("enabled", .bool c.enabled), ("kind", c.kind),
    ("serial", c.serial.toDict), ("serial_b", c.serialB.toDict), ("network", c.network.toDict),
    ("options", c.options.toDict), ("mqtt", c.mqtt.toDict),
    ("modbus_poll", .obj [("interval_s", .float c.modbusPoll.intervalS),
      ("points", .arr (c.modbusPoll.points.map ModbusPoint.toDict))])]

/-- `==` of two mappings: dataclasses compare field by field. -/
def MappingConfig.pyEq (a b : MappingConfig) : Bool := a.toDict.pyEq b.toDict

/-- Equal mappings have equal ids. -/
theorem MappingConfig.id_of_pyEq {a b : MappingConfig} (h : a.pyEq b = true) :
    a.id.pyEq b.id = true :=
  Json.pyEq_obj_head h

end Ser2Net.Config
