import Ser2Net.Web.Ops

namespace Ser2Net.Web.Forms

open Ser2Net.Lib Ser2Net.Config Ser2Net.Web.Ops

/-!
# Web — the mapping form

`_build_mapping_dict` and `_preserve_unmanaged_fields` of `routes/forms.py`, and
`apply_usb_match` of `routes/ops.py`: the `try` block of `save_mapping_from_form`, which makes
a mapping from the fields of a submitted form.  A field that the form does not post gets a
default, and for an edit the stored value is put back where one of two lists says so.

* `buildMappingDict`, `preserveUnmanagedFields`, `applyUsbMatch`, `parseForm` — the code;
* `FormField`, `formFields` — every field of a mapping with the input that the form has for it
  (checkboxes apart), and what the parser makes of a form without that input;
* `value_of_absent` — a field whose input is absent has its stored value or its default;
* `form_keeps_iff` — an accepted form keeps what it does not post exactly when the stored
  value of every field that is not put back is the default.
-/

/-! ### Reading a form -/

/-- The posted fields in order. -/
abbrev Form := List (String × String)

/-- `form.get(name)`: the last value posted. -/
def Form.get (form : Form) (name : String) : Option String := form.reverse.lookup name

/-- `name in form`. -/
def Form.has (form : Form) (name : String) : Bool := (form.get name).isSome

/-- `form.get(name, default)`. -/
def Form.getD (form : Form) (name default : String) : String := (form.get name).getD default

/-- `form.get(name, default).strip()`. -/
def Form.stripped (form : Form) (name default : String) : String :=
  PyText.strip (form.getD name default)

/-- `_checkbox`. -/
def checkbox (form : Form) (name : String) : Bool :=
  match form.get name with
  | some v => v ∈ ["on", "true", "1", "yes"]
  | none => false

/-- `_split`. -/
def split (s : String) : List String :=
  ((s.toList.splitOnP fun c => PyText.isSpace c || c = ',').filter (· ≠ [])).map String.ofList

/-- `int(v)` as a value. -/
def castInt (v : Json) : CfgM Json := do return .int (← v.toInt)

/-- `float(v)` as a value. -/
def castFloat (v : Json) : CfgM Json := do return .float (← v.toFloat)

/-- `_num` of the value `v`. -/
def num (v default : Json) (strict : Bool) (cast : Json → CfgM Json) : CfgM Json :=
  if strict then cast v
  else
    match cast v with
    | .error .typeError => .ok default
    | .error e => if e.isValueError then .ok default else .error e
    | r => r

/-- `form.get(name, default)` as a value. -/
def Form.value (form : Form) (name : String) (default : Json) : Json :=
  match form.get name with
  | some s => .str s
  | none => default

/-- `_num(form, name, default)` with `cast=int`. -/
def numInt (form : Form) (name : String) (default : Int) (strict : Bool) : CfgM Json :=
  num (form.value name (.int default)) (.int default) strict castInt

/-- `_num(form, name, default, cast=float)`; the default is a value. -/
def numFloat (form : Form) (name : String) (default : Json) (strict : Bool) : CfgM Json :=
  num (form.value name default) default strict castFloat

/-- `_parse_modbus_points`; `loads` is `json.loads`. -/
def parseModbusPoints (loads : String → Option Json) (raw : String) (strict : Bool) : CfgM Json :=
  let raw := PyText.strip raw
  if raw = "" then .ok (.arr [])
  else
    match loads raw with
    | none =>
      if strict then
        .error (.user ⟨"Modbus poll points must be a valid JSON array of objects.", []⟩)
      else .ok (.arr [])
    | some (.arr points) => .ok (.arr points)
    | some _ => .ok (.arr [])

/-! ### The mapping of a form -/

/-- `_serial_dict`. -/
def serialDict (form : Form) (pre : String) (strict : Bool) : CfgM Json := do
  let baud := form.getD (pre ++ "baudrate") "9600"
  let baud := if baud = "custom" then form.stripped (pre ++ "custom_baud") "" else baud
  let baudrate ← num (.str baud) (.int 9600) strict castInt
  let bytesize ← numInt form (pre ++ "bytesize") 8 strict
  let stopbits ← numFloat form (pre ++ "stopbits") (.int 1) strict
  let before ← numFloat form (pre ++ "rs485_delay_before_tx_ms") (.float (.fin 0)) false
  let after ← numFloat form (pre ++ "rs485_delay_after_tx_ms") (.float (.fin 0)) false
  return .obj [
    ("port", .str (form.stripped (pre ++ "port") "")),
    ("baudrate", baudrate),
    ("bytesize", bytesize),
    ("parity", .str (form.getD (pre ++ "parity") "N")),
    ("stopbits", stopbits),
    ("flowcontrol", .str (form.getD (pre ++ "flowcontrol") "none")),
    ("rts_on_open", .str (form.getD (pre ++ "rts_on_open") "keep")),
    ("dtr_on_open", .str (form.getD (pre ++ "dtr_on_open") "keep")),
    ("exclusive", .bool (checkbox form (pre ++ "exclusive"))),
    ("advanced", .obj [
      ("rs485_enabled", .bool (checkbox form (pre ++ "rs485_enabled"))),
      ("rs485_delay_before_tx_ms", before),
      ("rs485_delay_after_tx_ms", after),
      ("rs485_rts_level_for_tx", .bool (checkbox form (pre ++ "rs485_rts_level_for_tx")))])]

/-- `v or default` on texts. -/
def orText (v default : String) : String := if v = "" then default else v

/-- The keepalive block of the form. -/
def keepaliveDict (form : Form) (strict : Bool) : CfgM (List (String × Json)) :=
  if form.has "network_keepalive_idle_s" then do
    let idle ← numInt form "network_keepalive_idle_s" 60 strict
    let interval ← numInt form "network_keepalive_interval_s" 10 strict
    let count ← numInt form "network_keepalive_count" 3 strict
    return [("tcp_keepalive", .bool (checkbox form "network_tcp_keepalive")),
      ("keepalive_idle_s", idle), ("keepalive_interval_s", interval), ("keepalive_count", count)]
  else .ok []

/-- The `network` section of `_build_mapping_dict`. -/
def networkDict (form : Form) (strict : Bool) : CfgM Json := do
  let bind := form.getD "network_bind_ip" "0.0.0.0"
  let bind := if bind = "custom" then form.stripped "network_bind_ip_custom" "" else bind
  let port ← numInt form "network_port" 4001 strict
  let remotePort ← (if form.getD "network_remote_port" "" ≠ "" then
    numInt form "network_remote_port" 0 strict else .ok (.int 0))
  let maxConnections ← numInt form "network_max_connections" 1 strict
  let queue ← numInt form "network_client_queue_max" 2048 strict
  let keepalive ← keepaliveDict form strict
  let timeout ← (if form.has "network_connect_timeout_s" then do
    let t ← numFloat form "network_connect_timeout_s" (.float (.ofIntExact 10)) strict
    return [("connect_timeout_s", t)] else .ok [])
  return .obj ([
    ("mode", .str (form.getD "network_mode" "server")),
    ("protocol", .str (form.getD "network_protocol" "raw")),
    ("bind_ip", .str (orText bind "0.0.0.0")),
    ("port", port),
    ("remote_host", .str (form.stripped "network_remote_host" "")),
    ("remote_port", remotePort),
    ("max_connections", maxConnections),
    ("kick_old_user", .bool (checkbox form "network_kick_old_user")),
    ("read_only", .bool (checkbox form "network_read_only")),
    ("allowed_client_ips", .arr ((split (form.getD "network_allowed_client_ips" "")).map .str)),
    ("priority_client_ips", .arr ((split (form.getD "network_priority_client_ips" "")).map .str)),
    ("client_queue_max", queue),
    ("tls", .bool (checkbox form "network_tls")),
    ("tls_cert", .str (form.stripped "network_tls_cert" "")),
    ("tls_key", .str (form.stripped "network_tls_key" ""))] ++ keepalive ++ timeout)

/-- The `options` section of `_build_mapping_dict`. -/
def optionsDict (form : Form) (strict : Bool) : CfgM Json := do
  let idle ← numInt form "opt_idle_timeout_s" 0 strict
  let maxTime ← (if form.has "opt_max_connection_time_s" then do
    let t ← numInt form "opt_max_connection_time_s" 0 strict
    return [("max_connection_time_s", t)] else .ok [])
  let trace ← (if form.has "opt_trace_max_mb" then do
    let mb ← numFloat form "opt_trace_max_mb" (.float (.ofIntExact 10)) strict
    let keep ← numInt form "opt_trace_keep" 3 strict
    return [("trace_max_mb", mb), ("trace_keep", keep)] else .ok [])
  return .obj ([
    ("banner", .str (form.getD "opt_banner" "")),
    ("idle_timeout_s", idle),
    ("closeon", .str (form.getD "opt_closeon" "")),
    ("trace_both", .str (form.stripped "opt_trace_both" "")),
    ("trace_hexdump", .bool (checkbox form "opt_trace_hexdump"))] ++ maxTime ++ trace)

/-- The `mqtt` section of `_build_mapping_dict`. -/
def mqttDict (form : Form) (strict : Bool) : CfgM Json := do
  let port ← numInt form "mqtt_port" 1883 strict
  let qos ← numInt form "mqtt_qos" 0 strict
  return .obj ([
    ("enabled", .bool (checkbox form "mqtt_enabled")),
    ("host", .str (form.stripped "mqtt_host" "")),
    ("port", port),
    ("base_topic", .str (form.stripped "mqtt_base_topic" "")),
    ("qos", qos),
    ("tls", .bool (checkbox form "mqtt_tls")),
    ("username", .str (form.stripped "mqtt_username" "")),
    ("password", .str (form.getD "mqtt_password" "")),
    ("client_id", .str (form.stripped "mqtt_client_id" ""))] ++
    (if form.has "mqtt_payload_format" then [
      ("payload_format", .str (form.getD "mqtt_payload_format" "plain")),
      ("sparkplug_group_id", .str (orText (form.stripped "mqtt_sparkplug_group_id" "") "ser2net")),
      ("sparkplug_node_id", .str (form.stripped "mqtt_sparkplug_node_id" ""))]
     else []))

/-- `_build_mapping_dict`. -/
def buildMappingDict (loads : String → Option Json) (form : Form) (strict : Bool) :
    CfgM Json := do
  let network ← networkDict form strict
  let options ← optionsDict form strict
  let serial ← serialDict form "serial_" strict
  let serialB ← serialDict form "serial_b_" strict
  let mqtt ← mqttDict form strict
  let interval ← numFloat form "modbus_poll_interval_s" (.float (.ofIntExact 5)) false
  let points ← parseModbusPoints loads (form.getD "modbus_points" "") strict
  return .obj [
    ("id", match form.getD "id" "" with | "" => .null | i => .str i),
    ("name", .str (if strict then form.stripped "name" "" else form.getD "name" "")),
    ("enabled", .bool (checkbox form "enabled")),
    ("kind", .str (form.getD "kind" "net")),
    ("serial", serial), ("serial_b", serialB), ("network", network), ("options", options),
    ("mqtt", mqtt), ("modbus_poll", .obj [("interval_s", interval), ("points", points)])]

/-- The serial side after `_preserve_unmanaged_fields`. -/
def preserveSerial (form : Form) (pre : String) (cur old : SerialSettings) : SerialSettings :=
  { cur with
    usbMatch := if form.has (pre ++ "usb_match_shown") then cur.usbMatch else old.usbMatch
    advanced := { cur.advanced with
      hangupWhenDone := old.advanced.hangupWhenDone
      nobreak := old.advanced.nobreak } }

/-- `new` when the marker field is posted, else `old`. -/
def Form.pick (form : Form) (marker : String) (new old : Json) : Json :=
  if form.has marker then new else old

/-- `_preserve_unmanaged_fields` of an edit, with `_OPTIONAL_FORM_FIELDS` written out. -/
def preserveUnmanagedFields (form : Form) (c old : MappingConfig) : MappingConfig :=
  { c with
    serial := preserveSerial form "serial_" c.serial old.serial
    serialB := preserveSerial form "serial_b_" c.serialB old.serialB
    network :=
      let keep := form.pick "network_keepalive_idle_s"
      { c.network with
        tcpKeepalive := keep c.network.tcpKeepalive old.network.tcpKeepalive
        keepaliveIdleS := keep c.network.keepaliveIdleS old.network.keepaliveIdleS
        keepaliveIntervalS := keep c.network.keepaliveIntervalS old.network.keepaliveIntervalS
        keepaliveCount := keep c.network.keepaliveCount old.network.keepaliveCount
        connectTimeoutS := form.pick "network_connect_timeout_s" c.network.connectTimeoutS
          old.network.connectTimeoutS }
    options :=
      { c.options with
        maxConnectionTimeS := form.pick "opt_max_connection_time_s" c.options.maxConnectionTimeS
          old.options.maxConnectionTimeS
        traceMaxMb := form.pick "opt_trace_max_mb" c.options.traceMaxMb old.options.traceMaxMb
        traceKeep := form.pick "opt_trace_max_mb" c.options.traceKeep old.options.traceKeep
        openstr := old.options.openstr
        closestr := old.options.closestr
        traceTimestamp := old.options.traceTimestamp
        rfc2217PollModemIntervalS := old.options.rfc2217PollModemIntervalS
        rfc2217NetTimeoutS := old.options.rfc2217NetTimeoutS
        modbusResponseTimeoutS := old.options.modbusResponseTimeoutS }
    mqtt :=
      let keep := form.pick "mqtt_payload_format"
      { c.mqtt with
        payloadFormat := keep c.mqtt.payloadFormat old.mqtt.payloadFormat
        sparkplugGroupId := keep c.mqtt.sparkplugGroupId old.mqtt.sparkplugGroupId
        sparkplugNodeId := keep c.mqtt.sparkplugNodeId old.mqtt.sparkplugNodeId } }

/-- A serial port of the machine, as the dictionary that the port list has for it. -/
abbrev Port := List (String × Json)

/-- `portlist.find`. -/
def findPort (ports : List Port) (device : Json) : Option Port :=
  ports.find? fun p => device.truthy &&
    (device.pyEq (Json.get p "device" .null) || device.pyEq (Json.get p "by_id" .null))

/-- The error for a port without an identity; it is a `ValueError`, which the caller treats
    like the errors of the configuration. -/
def noIdentity (s : SerialSettings) : PyExc ConfigError :=
  .user
    ⟨"{0} has no USB identity (VID/PID) to find it by; untick “Find this device by its USB identity”.",
      [if s.port.truthy then .value s.port else .text "This port"]⟩

/-- The identity of one side from the box of the form: `old` is the stored side. -/
def usbMatch (form : Form) (pre : String) (ports : List Port) (s : SerialSettings)
    (old : Option SerialSettings) : CfgM SerialSettings :=
  if !checkbox form (pre ++ "usb_match") then .ok { s with usbMatch := .obj [] }
  else
    match findPort ports s.port, old with
    | some port, _ =>
      if (Json.get port "vid" .null).truthy && (Json.get port "pid" .null).truthy then
        .ok { s with usbMatch := .obj (["vid", "pid", "serial_number"].filterMap fun k =>
          let v := Json.get port k .null
          if v.truthy then some (k, v) else none) }
      else .error (noIdentity s)
    | none, some old =>
      if old.usbMatch.truthy then .ok { s with usbMatch := old.usbMatch } else .error (noIdentity s)
    | none, none => .error (noIdentity s)

/-- `apply_usb_match`. -/
def applyUsbMatch (form : Form) (ports : List Port) (c : MappingConfig)
    (existing : Option MappingConfig) : CfgM MappingConfig := do
  let serial ← (if !form.has ("serial_" ++ "usb_match_shown") then .ok c.serial
    else usbMatch form "serial_" ports c.serial (existing.map (·.serial)))
  let serialB ← (if !form.has ("serial_b_" ++ "usb_match_shown") || !c.kind.eqStr "serialbridge"
    then .ok c.serialB
    else usbMatch form "serial_b_" ports c.serialB (existing.map (·.serialB)))
  return { c with serial, serialB }

/-- What the form code reads of its surroundings: `json.loads`, the ports of the machine, and
    the id that a new mapping gets. -/
structure FormEnv where
  platform : Platform
  loads : String → Option Json
  ports : List Port
  newId : String

/-- The `try` block of `save_mapping_from_form`. -/
def parseForm (env : FormEnv) (config : AppConfig) (form : Form) : CfgM MappingConfig := do
  let d ← buildMappingDict env.loads form true
  let c ← MappingConfig.fromDict env.platform env.newId d
  let existing := config.getMapping c.id
  let c := match existing with
    | some old => preserveUnmanagedFields form c old
    | none => c
  let c ← applyUsbMatch form env.ports c existing
  c.validate env.platform
  return c

/-! ### The fields of the form -/

/-- A field of a mapping: the input that the form has for it, the input whose absence makes
    `_preserve_unmanaged_fields` put the stored value back, the value that the parser gives it
    when its input is absent, and its value in a mapping. -/
structure FormField where
  input : Option String
  marker : Option String
  default : Json
  value : MappingConfig → Json

/-- The form does not post the field. -/
def FormField.absent (f : FormField) (form : Form) : Bool :=
  match f.input with
  | some name => !form.has name
  | none => true

/-- `_preserve_unmanaged_fields` puts the stored value back: the form has no input for the
    field, or does not post the marker of its block. -/
def FormField.kept (f : FormField) (form : Form) : Bool :=
  match f.input, f.marker with
  | none, _ => true
  | some _, some marker => !form.has marker
  | some _, none => false

/-- A field that is read from its own input alone. -/
def FormField.plain (name : String) (default : Json) (value : MappingConfig → Json) : FormField :=
  ⟨some name, none, default, value⟩

/-- A field of a block that is put back as a whole. -/
def FormField.inBlock (marker name : String) (default : Json) (value : MappingConfig → Json) :
    FormField :=
  ⟨some name, some marker, default, value⟩

/-- A field that the form does not show. -/
def FormField.hidden (value : MappingConfig → Json) : FormField := ⟨none, none, .null, value⟩

/-- The fields of a serial side; the boxes and the USB identity, which is set by one, apart. -/
def serialFields (pre : String) (side : MappingConfig → SerialSettings) : List FormField := [
  .plain (pre ++ "port") (.str "") fun c => (side c).port,
  .plain (pre ++ "baudrate") (.int 9600) fun c => (side c).baudrate,
  .plain (pre ++ "bytesize") (.int 8) fun c => (side c).bytesize,
  .plain (pre ++ "parity") (.str "N") fun c => (side c).parity,
  .plain (pre ++ "stopbits") (.float (.ofIntExact 1)) fun c => (side c).stopbits,
  .plain (pre ++ "flowcontrol") (.str "none") fun c => (side c).flowcontrol,
  .plain (pre ++ "rts_on_open") (.str "keep") fun c => (side c).rtsOnOpen,
  .plain (pre ++ "dtr_on_open") (.str "keep") fun c => (side c).dtrOnOpen,
  .plain (pre ++ "rs485_delay_before_tx_ms") (.float (.fin 0)) fun c =>
    (side c).advanced.rs485DelayBeforeTxMs,
  .plain (pre ++ "rs485_delay_after_tx_ms") (.float (.fin 0)) fun c =>
    (side c).advanced.rs485DelayAfterTxMs,
  .hidden fun c => (side c).advanced.hangupWhenDone,
  .hidden fun c => (side c).advanced.nobreak]

/-- The fields of the network section, the boxes apart. -/
def networkFields : List FormField := [
  .plain "network_mode" (.str "server") fun c => c.network.mode,
  .plain "network_protocol" (.str "raw") fun c => c.network.protocol,
  .plain "network_bind_ip" (.str "0.0.0.0") fun c => c.network.bindIp,
  .plain "network_port" (.int 4001) fun c => c.network.port,
  .plain "network_remote_host" (.str "") fun c => c.network.remoteHost,
  .plain "network_remote_port" (.int 0) fun c => c.network.remotePort,
  .plain "network_max_connections" (.int 1) fun c => c.network.maxConnections,
  .plain "network_allowed_client_ips" (.arr []) fun c => c.network.allowedClientIps,
  .plain "network_priority_client_ips" (.arr []) fun c => c.network.priorityClientIps,
  .plain "network_client_queue_max" (.int 2048) fun c => c.network.clientQueueMax,
  .plain "network_tls_cert" (.str "") fun c => c.network.tlsCert,
  .plain "network_tls_key" (.str "") fun c => c.network.tlsKey,
  .inBlock "network_keepalive_idle_s" "network_keepalive_idle_s" .null
    fun c => c.network.keepaliveIdleS,
  .inBlock "network_keepalive_idle_s" "network_keepalive_interval_s" (.int 10)
    fun c => c.network.keepaliveIntervalS,
  .inBlock "network_keepalive_idle_s" "network_keepalive_count" (.int 3)
    fun c => c.network.keepaliveCount,
  .inBlock "network_connect_timeout_s" "network_connect_timeout_s" .null
    fun c => c.network.connectTimeoutS]

/-- The fields of the options, the box apart. -/
def optionFields : List FormField := [
  .plain "opt_banner" (.str "") fun c => c.options.banner,
  .plain "opt_idle_timeout_s" (.int 0) fun c => c.options.idleTimeoutS,
  .plain "opt_closeon" (.str "") fun c => c.options.closeon,
  .plain "opt_trace_both" (.str "") fun c => .str c.options.traceBoth,
  .inBlock "opt_max_connection_time_s" "opt_max_connection_time_s" .null
    fun c => c.options.maxConnectionTimeS,
  .inBlock "opt_trace_max_mb" "opt_trace_max_mb" .null fun c => c.options.traceMaxMb,
  .inBlock "opt_trace_max_mb" "opt_trace_keep" (.int 3) fun c => c.options.traceKeep,
  .hidden fun c => c.options.openstr,
  .hidden fun c => c.options.closestr,
  .hidden fun c => c.options.traceTimestamp,
  .hidden fun c => c.options.rfc2217PollModemIntervalS,
  .hidden fun c => c.options.rfc2217NetTimeoutS,
  .hidden fun c => c.options.modbusResponseTimeoutS]

/-- The fields of the MQTT section, the boxes apart. -/
def mqttFields : List FormField := [
  .plain "mqtt_host" (.str "") fun c => c.mqtt.host,
  .plain "mqtt_port" (.int 1883) fun c => c.mqtt.port,
  .plain "mqtt_base_topic" (.str "") fun c => c.mqtt.baseTopic,
  .plain "mqtt_qos" (.int 0) fun c => c.mqtt.qos,
  .plain "mqtt_username" (.str "") fun c => c.mqtt.username,
  .plain "mqtt_password" (.str "") fun c => c.mqtt.password,
  .plain "mqtt_client_id" (.str "") fun c => c.mqtt.clientId,
  .inBlock "mqtt_payload_format" "mqtt_payload_format" .null fun c => c.mqtt.payloadFormat,
  .inBlock "mqtt_payload_format" "mqtt_sparkplug_group_id" (.str "ser2net")
    fun c => c.mqtt.sparkplugGroupId,
  .inBlock "mqtt_payload_format" "mqtt_sparkplug_node_id" (.str "")
    fun c => c.mqtt.sparkplugNodeId]

/-- The fields of a mapping that are not of one of its sections, and those of the polling. -/
def mappingFields : List FormField := [
  .plain "name" (.str "") fun c => c.name,
  .plain "kind" (.str "net") fun c => c.kind,
  .plain "modbus_poll_interval_s" (.float (.ofIntExact 5)) fun c => .float c.modbusPoll.intervalS,
  .plain "modbus_points" (.arr []) fun c => .arr (c.modbusPoll.points.map ModbusPoint.toDict)]

/-- Every field of a mapping whose form input is not a checkbox. -/
def formFields : List FormField :=
  mappingFields ++ serialFields "serial_" MappingConfig.serial ++
    serialFields "serial_b_" MappingConfig.serialB ++ networkFields ++ optionFields ++ mqttFields

/-! ### What is put back -/

/-- An edit leaves the field with its stored value where it is kept, and with the submitted
    one otherwise. -/
def FormField.Preserved (f : FormField) : Prop :=
  ∀ form c old, f.value (preserveUnmanagedFields form c old) =
    if f.kept form then f.value old else f.value c

/-- A field that the preservation does not touch. -/
theorem preserved_plain {name : String} {default : Json} {value : MappingConfig → Json}
    (h : ∀ form c old, value (preserveUnmanagedFields form c old) = value c) :
    (FormField.plain name default value).Preserved := fun form c old => h form c old

/-- A field without an input, which keeps its stored value. -/
theorem preserved_hidden {value : MappingConfig → Json}
    (h : ∀ form c old, value (preserveUnmanagedFields form c old) = value old) :
    (FormField.hidden value).Preserved := fun form c old => h form c old

/-- A field of a block with a marker: kept when the block was not sent. -/
theorem preserved_inBlock {marker name : String} {default : Json} {value : MappingConfig → Json}
    (h : ∀ form c old, value (preserveUnmanagedFields form c old) =
      form.pick marker (value c) (value old)) :
    (FormField.inBlock marker name default value).Preserved := by
  intro form c old
  show value (preserveUnmanagedFields form c old) =
    if (!form.has marker) = true then value old else value c
  rw [h, Form.pick]
  cases form.has marker <;> rfl

/-- The fields of the mapping itself. -/
theorem mappingFields_preserved : ∀ f ∈ mappingFields, f.Preserved := by
  simp only [mappingFields, List.forall_mem_cons]
  refine ⟨?_, ?_, ?_, ?_, by simp⟩
  all_goals exact preserved_plain fun _ _ _ => rfl

/-- The fields of one serial side. -/
theorem serialFields_preserved {pre : String} {side : MappingConfig → SerialSettings}
    (hside : ∀ form c old, side (preserveUnmanagedFields form c old) =
      preserveSerial form pre (side c) (side old)) :
    ∀ f ∈ serialFields pre side, f.Preserved := by
  simp only [serialFields, List.forall_mem_cons]
  refine ⟨?_, ?_, ?_, ?_, ?_, ?_, ?_, ?_, ?_, ?_, ?_, ?_, by simp⟩
  all_goals first
    | exact preserved_plain fun form c old => by rw [hside]; rfl
    | exact preserved_hidden fun form c old => by rw [hside]; rfl

/-- The fields of the network section. -/
theorem networkFields_preserved : ∀ f ∈ networkFields, f.Preserved := by
  simp only [networkFields, List.forall_mem_cons]
  refine ⟨?_, ?_, ?_, ?_, ?_, ?_, ?_, ?_, ?_, ?_, ?_, ?_, ?_, ?_, ?_, ?_, by simp⟩
  all_goals first
    | exact preserved_plain fun _ _ _ => rfl
    | exact preserved_inBlock fun _ _ _ => rfl

/-- The fields of the options. -/
theorem optionFields_preserved : ∀ f ∈ optionFields, f.Preserved := by
  simp only [optionFields, List.forall_mem_cons]
  refine ⟨?_, ?_, ?_, ?_, ?_, ?_, ?_, ?_, ?_, ?_, ?_, ?_, ?_, by simp⟩
  all_goals first
    | exact preserved_plain fun _ _ _ => rfl
    | exact preserved_inBlock fun _ _ _ => rfl
    | exact preserved_hidden fun _ _ _ => rfl

/-- The fields of the MQTT section. -/
theorem mqttFields_preserved : ∀ f ∈ mqttFields, f.Preserved := by
  simp only [mqttFields, List.forall_mem_cons]
  refine ⟨?_, ?_, ?_, ?_, ?_, ?_, ?_, ?_, ?_, ?_, by simp⟩
  all_goals first
    | exact preserved_plain fun _ _ _ => rfl
    | exact preserved_inBlock fun _ _ _ => rfl

/-- A property of every field, section by section. -/
theorem forall_formFields {p : FormField → Prop} (hmapping : ∀ f ∈ mappingFields, p f)
    (hserial : ∀ f ∈ serialFields "serial_" MappingConfig.serial, p f)
    (hserialB : ∀ f ∈ serialFields "serial_b_" MappingConfig.serialB, p f)
    (hnetwork : ∀ f ∈ networkFields, p f) (hoption : ∀ f ∈ optionFields, p f)
    (hmqtt : ∀ f ∈ mqttFields, p f) : ∀ f ∈ formFields, p f := by
  intro f hf
  simp only [formFields, List.mem_append] at hf
  rcases hf with ((((hf | hf) | hf) | hf) | hf) | hf
  · exact hmapping f hf
  · exact hserial f hf
  · exact hserialB f hf
  · exact hnetwork f hf
  · exact hoption f hf
  · exact hmqtt f hf

/-- Every field of the form is one of the three kinds. -/
theorem formFields_preserved : ∀ f ∈ formFields, f.Preserved :=
  forall_formFields mappingFields_preserved (serialFields_preserved fun _ _ _ => rfl)
    (serialFields_preserved fun _ _ _ => rfl) networkFields_preserved optionFields_preserved
    mqttFields_preserved

/-! ### The USB identity -/

/-- The chosen adapter only sets `usb_match`. -/
theorem usbMatch_ok {form : Form} {pre : String} {ports : List Port} {s s' : SerialSettings}
    {old : Option SerialSettings} (h : usbMatch form pre ports s old = .ok s') :
    ∃ u, s' = { s with usbMatch := u } := by
  unfold usbMatch at h
  split_ifs at h
  · exact ⟨_, (Except.ok.inj h).symm⟩
  · split at h
    · split_ifs at h
      exact ⟨_, (Except.ok.inj h).symm⟩
    · split_ifs at h
      exact ⟨_, (Except.ok.inj h).symm⟩
    · cases h

/-- `apply_usb_match` changes the identities alone. -/
theorem applyUsbMatch_ok {form : Form} {ports : List Port} {c c' : MappingConfig}
    {existing : Option MappingConfig} (h : applyUsbMatch form ports c existing = .ok c') :
    ∃ u v, c' = { c with
      serial := { c.serial with usbMatch := u }
      serialB := { c.serialB with usbMatch := v } } := by
  obtain ⟨serial, hserial, h⟩ := except_bind_eq_ok.1 h
  obtain ⟨serialB, hserialB, h⟩ := except_bind_eq_ok.1 h
  obtain rfl := Except.ok.inj h
  have hfirst : ∃ u, serial = { c.serial with usbMatch := u } := by
    split_ifs at hserial
    · exact ⟨c.serial.usbMatch, (Except.ok.inj hserial).symm⟩
    · exact usbMatch_ok hserial
  have hsecond : ∃ v, serialB = { c.serialB with usbMatch := v } := by
    split_ifs at hserialB
    · exact ⟨c.serialB.usbMatch, (Except.ok.inj hserialB).symm⟩
    · exact usbMatch_ok hserialB
  obtain ⟨u, rfl⟩ := hfirst
  obtain ⟨v, rfl⟩ := hsecond
  exact ⟨u, v, rfl⟩

/-- No field of the table reads an identity. -/
theorem formFields_usbMatch (c : MappingConfig) (u v : Json) :
    ∀ f ∈ formFields, f.value { c with
      serial := { c.serial with usbMatch := u }
      serialB := { c.serialB with usbMatch := v } } = f.value c := by
  refine forall_formFields ?_ ?_ ?_ ?_ ?_ ?_
  · simp only [mappingFields, List.forall_mem_cons]
    exact ⟨rfl, rfl, rfl, rfl, by simp⟩
  · simp only [serialFields, List.forall_mem_cons]
    exact ⟨rfl, rfl, rfl, rfl, rfl, rfl, rfl, rfl, rfl, rfl, rfl, rfl, by simp⟩
  · simp only [serialFields, List.forall_mem_cons]
    exact ⟨rfl, rfl, rfl, rfl, rfl, rfl, rfl, rfl, rfl, rfl, rfl, rfl, by simp⟩
  · simp only [networkFields, List.forall_mem_cons]
    exact ⟨rfl, rfl, rfl, rfl, rfl, rfl, rfl, rfl, rfl, rfl, rfl, rfl, rfl, rfl, rfl, rfl, by simp⟩
  · simp only [optionFields, List.forall_mem_cons]
    exact ⟨rfl, rfl, rfl, rfl, rfl, rfl, rfl, rfl, rfl, rfl, rfl, rfl, rfl, by simp⟩
  · simp only [mqttFields, List.forall_mem_cons]
    exact ⟨rfl, rfl, rfl, rfl, rfl, rfl, rfl, rfl, rfl, rfl, by simp⟩

/-! ### What an absent input is read as -/

section
variable {form : Form} {name : String}

/-- An absent field reads as its default. -/
theorem getD_absent (h : form.has name = false) (d : String) : form.getD name d = d := by
  have hnone : form.get name = none := by simpa [Form.has] using h
  rw [Form.getD, hnone]
  rfl

/-- An absent field reads as the empty text. -/
theorem stripped_absent (h : form.has name = false) : form.stripped name "" = "" := by
  rw [Form.stripped, getD_absent h]
  decide

/-- An absent field has its default as value. -/
theorem value_absent (h : form.has name = false) (d : Json) : form.value name d = d := by
  have hnone : form.get name = none := by simpa [Form.has] using h
  rw [Form.value, hnone]

/-- An absent number is its default. -/
theorem numInt_absent (h : form.has name = false) (n : Int) :
    numInt form name n true = .ok (.int n) := by
  rw [numInt, value_absent h]
  rfl

/-- A float that is not posted is its default, also where an unreadable one is. -/
theorem numFloat_absent (h : form.has name = false) {d : Json} {x : PyFloat}
    (hd : castFloat d = .ok (.float x)) (strict : Bool) :
    numFloat form name d strict = .ok (.float x) := by
  rw [numFloat, value_absent h, num, hd]
  cases strict <;> rfl

end

/-- The parsed field has its default when its input is absent, unless it is put back anyway. -/
def FormField.DefaultsTo (f : FormField) (form : Form) (c : MappingConfig) : Prop :=
  f.absent form = true → f.kept form = false → f.value c = f.default

section
variable {form : Form} {c : MappingConfig} {name marker : String} {value : MappingConfig → Json}

/-- A field of its own input: what it is without the input. -/
theorem defaults_plain {default : Json} (h : form.has name = false → value c = default) :
    (FormField.plain name default value).DefaultsTo form c := by
  intro habsent _
  exact h (by simpa [FormField.absent, FormField.plain] using habsent)

/-- A field of a block, when the marker of the block is posted and its own input is not. -/
theorem defaults_inBlock {default : Json}
    (h : form.has marker = true → form.has name = false → value c = default) :
    (FormField.inBlock marker name default value).DefaultsTo form c := by
  intro habsent hkept
  exact h (by simpa [FormField.kept, FormField.inBlock] using hkept)
    (by simpa [FormField.absent, FormField.inBlock] using habsent)

/-- The marker of a block is put back whenever it is absent. -/
theorem defaults_marker {default : Json} :
    (FormField.inBlock name name default value).DefaultsTo form c :=
  defaults_inBlock fun hhas habsent => by simp [hhas] at habsent

/-- A field without an input has no default to fall back on. -/
theorem defaults_hidden : (FormField.hidden value).DefaultsTo form c := fun _ hkept => by
  simp [FormField.kept, FormField.hidden] at hkept

/-- A number of the form, when its field is absent. -/
theorem defaults_int {n : Int} (h : numInt form name n true = .ok (value c)) :
    (FormField.plain name (.int n) value).DefaultsTo form c :=
  defaults_plain fun habsent => by
    rw [numInt_absent habsent] at h
    exact (Except.ok.inj h).symm

/-- A text of the form, when its field is absent. -/
theorem defaults_text {d : String} (h : value c = .str (form.getD name d)) :
    (FormField.plain name (.str d) value).DefaultsTo form c :=
  defaults_plain fun habsent => by rw [h, getD_absent habsent]

/-- A stripped text of the form, when its field is absent. -/
theorem defaults_stripped (h : value c = .str (form.stripped name "")) :
    (FormField.plain name (.str "") value).DefaultsTo form c :=
  defaults_plain fun habsent => by rw [h, stripped_absent habsent]

/-- A decimal of the form, when its field is absent. -/
theorem defaults_float {d : Json} {x : PyFloat} {strict : Bool}
    (hd : castFloat d = .ok (.float x)) (h : numFloat form name d strict = .ok (value c)) :
    (FormField.plain name (.float x) value).DefaultsTo form c :=
  defaults_plain fun habsent => by
    rw [numFloat_absent habsent hd] at h
    exact (Except.ok.inj h).symm

end

/-! ### The sections of a parsed form -/

/-- A serial side as the form sets it. -/
structure SerialParsed (form : Form) (pre : String) (s : SerialSettings) : Prop where
  port : s.port = .str (form.stripped (pre ++ "port") "")
  baudrate : form.has (pre ++ "baudrate") = false → s.baudrate = .int 9600
  bytesize : numInt form (pre ++ "bytesize") 8 true = .ok s.bytesize
  parity : s.parity = .str (form.getD (pre ++ "parity") "N")
  stopbits : numFloat form (pre ++ "stopbits") (.int 1) true = .ok s.stopbits
  flowcontrol : s.flowcontrol = .str (form.getD (pre ++ "flowcontrol") "none")
  rtsOnOpen : s.rtsOnOpen = .str (form.getD (pre ++ "rts_on_open") "keep")
  dtrOnOpen : s.dtrOnOpen = .str (form.getD (pre ++ "dtr_on_open") "keep")
  delayBefore : numFloat form (pre ++ "rs485_delay_before_tx_ms") (.float (.fin 0)) false =
    .ok s.advanced.rs485DelayBeforeTxMs
  delayAfter : numFloat form (pre ++ "rs485_delay_after_tx_ms") (.float (.fin 0)) false =
    .ok s.advanced.rs485DelayAfterTxMs

/-- The serial section of a form that was read. -/
theorem serialParsed {form : Form} {pre : String} {d : Json} {s : SerialSettings}
    (h : serialDict form pre true = .ok d) (hs : SerialSettings.fromDict d = .ok s) :
    SerialParsed form pre s := by
  obtain ⟨baudrate, hbaud, h⟩ := except_bind_eq_ok.1 h
  obtain ⟨bytesize, hbytesize, h⟩ := except_bind_eq_ok.1 h
  obtain ⟨stopbits, hstopbits, h⟩ := except_bind_eq_ok.1 h
  obtain ⟨before, hbefore, h⟩ := except_bind_eq_ok.1 h
  obtain ⟨after, hafter, h⟩ := except_bind_eq_ok.1 h
  obtain rfl := Except.ok.inj h
  obtain rfl := Except.ok.inj hs
  refine ⟨rfl, ?_, hbytesize, rfl, hstopbits, rfl, rfl, rfl, hbefore, hafter⟩
  intro habsent
  rw [getD_absent habsent, if_neg (by decide)] at hbaud
  have hcast : num (.str "9600") (.int 9600) true castInt = .ok (.int 9600) := by decide +kernel
  rw [hcast] at hbaud
  exact (Except.ok.inj hbaud).symm

/-- The network section as the form sets it. -/
structure NetworkParsed (form : Form) (n : NetworkSettings) : Prop where
  mode : n.mode = .str (form.getD "network_mode" "server")
  protocol : n.protocol = .str (form.getD "network_protocol" "raw")
  bindIp : form.has "network_bind_ip" = false → n.bindIp = .str "0.0.0.0"
  port : numInt form "network_port" 4001 true = .ok n.port
  remoteHost : n.remoteHost = .str (form.stripped "network_remote_host" "")
  remotePort : form.has "network_remote_port" = false → n.remotePort = .int 0
  maxConnections : numInt form "network_max_connections" 1 true = .ok n.maxConnections
  allowed : n.allowedClientIps =
    .arr ((split (form.getD "network_allowed_client_ips" "")).map .str)
  priority : n.priorityClientIps =
    .arr ((split (form.getD "network_priority_client_ips" "")).map .str)
  clientQueueMax : numInt form "network_client_queue_max" 2048 true = .ok n.clientQueueMax
  tlsCert : n.tlsCert = .str (form.stripped "network_tls_cert" "")
  tlsKey : n.tlsKey = .str (form.stripped "network_tls_key" "")
  keepaliveInterval : form.has "network_keepalive_idle_s" = true →
    numInt form "network_keepalive_interval_s" 10 true = .ok n.keepaliveIntervalS
  keepaliveCount : form.has "network_keepalive_idle_s" = true →
    numInt form "network_keepalive_count" 3 true = .ok n.keepaliveCount

/-- The network section of a form that was read. -/
theorem networkParsed {form : Form} {d : Json} {n : NetworkSettings}
    (h : networkDict form true = .ok d) (hn : NetworkSettings.fromDict d = .ok n) :
    NetworkParsed form n := by
  obtain ⟨port, hport, h⟩ := except_bind_eq_ok.1 h
  obtain ⟨remotePort, hremote, h⟩ := except_bind_eq_ok.1 h
  obtain ⟨maxConnections, hmax, h⟩ := except_bind_eq_ok.1 h
  obtain ⟨queue, hqueue, h⟩ := except_bind_eq_ok.1 h
  obtain ⟨keepalive, hkeepalive, h⟩ := except_bind_eq_ok.1 h
  obtain ⟨timeout, -, h⟩ := except_bind_eq_ok.1 h
  obtain rfl := Except.ok.inj h
  obtain rfl := Except.ok.inj hn
  refine ⟨rfl, rfl, ?_, hport, rfl, ?_, hmax, rfl, rfl, hqueue, rfl, rfl, ?_, ?_⟩
  · intro habsent
    show Json.str (orText (if form.getD "network_bind_ip" "0.0.0.0" = "custom" then _ else _) _) = _
    rw [getD_absent habsent, if_neg (by decide)]
    decide
  · intro habsent
    rw [getD_absent habsent, if_neg (by decide)] at hremote
    exact (Except.ok.inj hremote).symm
  -- the block is posted, so its three numbers are members of the section
  all_goals
    intro hmarker
    rw [keepaliveDict, if_pos hmarker] at hkeepalive
    obtain ⟨idle, -, hkeepalive⟩ := except_bind_eq_ok.1 hkeepalive
    obtain ⟨interval, hinterval, hkeepalive⟩ := except_bind_eq_ok.1 hkeepalive
    obtain ⟨count, hcount, hkeepalive⟩ := except_bind_eq_ok.1 hkeepalive
    obtain rfl := Except.ok.inj hkeepalive
  · exact hinterval
  · exact hcount

/-- The options as the form sets them. -/
structure OptionsParsed (form : Form) (o : MappingOptions) : Prop where
  banner : o.banner = .str (form.getD "opt_banner" "")
  idleTimeout : form.has "opt_idle_timeout_s" = false → o.idleTimeoutS = .int 0
  closeon : o.closeon = .str (form.getD "opt_closeon" "")
  traceBoth : form.has "opt_trace_both" = false → o.traceBoth = ""
  traceKeep : form.has "opt_trace_max_mb" = true →
    numInt form "opt_trace_keep" 3 true = .ok o.traceKeep

/-- `legacySeconds` is not looked into: a closed duration is evaluated once, here. -/
theorem legacySeconds_zero : legacySeconds (.int 0) = .ok (.int 0) := by decide +kernel

/-- The options that were read: all but the idle timeout as the members have them. -/
theorem optionsFromDict_obj {m : Platform} {members : List (String × Json)} {o : MappingOptions}
    (h : MappingOptions.fromDict m (.obj members) = .ok o) :
    ∃ idle, legacySeconds (Json.get members "idle_timeout_s" (.int 0)) = .ok idle ∧
      o = MappingOptions.ofMembers m.py members idle := by
  obtain ⟨d, hd, h⟩ := except_bind_eq_ok.1 h
  rw [Json.toDict_obj] at hd
  obtain rfl := Except.ok.inj hd
  obtain ⟨idle, hidle, h⟩ := except_bind_eq_ok.1 h
  exact ⟨idle, hidle, (Except.ok.inj h).symm⟩

/-- The members of the options, with what stands in the two optional blocks. -/
theorem optionsDict_ok {form : Form} {d : Json} (h : optionsDict form true = .ok d) :
    ∃ idle maxTime trace, numInt form "opt_idle_timeout_s" 0 true = .ok idle ∧
      (maxTime = [] ∨ ∃ t, maxTime = [("max_connection_time_s", t)]) ∧
      (form.has "opt_trace_max_mb" = true → ∃ mb keep,
        numInt form "opt_trace_keep" 3 true = .ok keep ∧
        trace = [("trace_max_mb", mb), ("trace_keep", keep)]) ∧
      d = .obj ([
        ("banner", .str (form.getD "opt_banner" "")),
        ("idle_timeout_s", idle),
        ("closeon", .str (form.getD "opt_closeon" "")),
        ("trace_both", .str (form.stripped "opt_trace_both" "")),
        ("trace_hexdump", .bool (checkbox form "opt_trace_hexdump"))] ++ maxTime ++ trace) := by
  obtain ⟨idle, hidle, h⟩ := except_bind_eq_ok.1 h
  obtain ⟨maxTime, hmaxTime, h⟩ := except_bind_eq_ok.1 h
  obtain ⟨trace, htrace, h⟩ := except_bind_eq_ok.1 h
  refine ⟨idle, maxTime, trace, hidle, ?_, ?_, (Except.ok.inj h).symm⟩
  -- the longest connection time is given only when the form has it
  · split_ifs at hmaxTime
    · obtain ⟨t, -, hmaxTime⟩ := except_bind_eq_ok.1 hmaxTime
      exact .inr ⟨t, (Except.ok.inj hmaxTime).symm⟩
    · exact .inl (Except.ok.inj hmaxTime).symm
  · intro hmarker
    rw [if_pos hmarker] at htrace
    obtain ⟨mb, -, htrace⟩ := except_bind_eq_ok.1 htrace
    obtain ⟨keep, hkeep, htrace⟩ := except_bind_eq_ok.1 htrace
    exact ⟨mb, keep, hkeep, (Except.ok.inj htrace).symm⟩

/-- The trace name is cleaned on loading. -/
theorem ofMembers_traceBoth (py : PyEnv) (d : List (String × Json)) (idle : Json) :
    (MappingOptions.ofMembers py d idle).traceBoth =
      traceFileName py (Json.get d "trace_both" (.str "")) := rfl

/-- The options of a form that was read. -/
theorem optionsParsed {m : Platform} {form : Form} {d : Json} {o : MappingOptions}
    (h : optionsDict form true = .ok d) (ho : MappingOptions.fromDict m d = .ok o) :
    OptionsParsed form o := by
  obtain ⟨idle, maxTime, trace, hidle, hmaxTime, htrace, rfl⟩ := optionsDict_ok h
  obtain ⟨seconds, hseconds, rfl⟩ := optionsFromDict_obj ho
  refine ⟨rfl, ?_, rfl, ?_, ?_⟩
  · intro habsent
    rw [numInt_absent habsent] at hidle
    obtain rfl := Except.ok.inj hidle
    have hlegacy : legacySeconds (.int 0) = .ok seconds := hseconds
    rw [legacySeconds_zero] at hlegacy
    exact (Except.ok.inj hlegacy).symm
  · intro habsent
    have hget : ∀ rest, Json.get (("banner", .str (form.getD "opt_banner" "")) ::
        ("idle_timeout_s", idle) :: ("closeon", .str (form.getD "opt_closeon" "")) ::
        ("trace_both", .str (form.stripped "opt_trace_both" "")) :: rest) "trace_both" (.str "") =
        .str (form.stripped "opt_trace_both" "") := fun _ => rfl
    rw [ofMembers_traceBoth, List.append_assoc]
    simp only [List.cons_append]
    rw [hget, stripped_absent habsent]
    rfl
  · intro hmarker
    obtain ⟨mb, keep, hkeep, rfl⟩ := htrace hmarker
    rw [hkeep]
    -- the block of the connection time stands in between, posted or not
    rcases hmaxTime with rfl | ⟨t, rfl⟩ <;> rfl

/-- The MQTT section as the form sets it. -/
structure MqttParsed (form : Form) (q : MqttSettings) : Prop where
  host : q.host = .str (form.stripped "mqtt_host" "")
  port : numInt form "mqtt_port" 1883 true = .ok q.port
  baseTopic : q.baseTopic = .str (form.stripped "mqtt_base_topic" "")
  qos : numInt form "mqtt_qos" 0 true = .ok q.qos
  username : q.username = .str (form.stripped "mqtt_username" "")
  password : q.password = .str (form.getD "mqtt_password" "")
  clientId : q.clientId = .str (form.stripped "mqtt_client_id" "")
  groupId : form.has "mqtt_payload_format" = true → q.sparkplugGroupId =
    .str (orText (form.stripped "mqtt_sparkplug_group_id" "") "ser2net")
  nodeId : form.has "mqtt_payload_format" = true → q.sparkplugNodeId =
    .str (form.stripped "mqtt_sparkplug_node_id" "")

/-- The MQTT section of a form that was read. -/
theorem mqttParsed {form : Form} {d : Json} {q : MqttSettings}
    (h : mqttDict form true = .ok d) (hq : MqttSettings.fromDict d = .ok q) :
    MqttParsed form q := by
  obtain ⟨port, hport, h⟩ := except_bind_eq_ok.1 h
  obtain ⟨qos, hqos, h⟩ := except_bind_eq_ok.1 h
  obtain rfl := Except.ok.inj h
  obtain rfl := Except.ok.inj hq
  refine ⟨rfl, hport, rfl, hqos, rfl, rfl, rfl, ?_, ?_⟩
  · intro hmarker
    rw [if_pos hmarker]
    rfl
  · intro hmarker
    rw [if_pos hmarker]
    rfl

/-- A mapping as the form sets it, before anything is put back. -/
structure Parsed (form : Form) (c : MappingConfig) : Prop where
  id : ∀ i, form.get "id" = some i → i ≠ "" → c.id = .str i
  name : c.name = .str (form.stripped "name" "")
  kind : c.kind = .str (form.getD "kind" "net")
  serial : SerialParsed form "serial_" c.serial
  serialB : SerialParsed form "serial_b_" c.serialB
  network : NetworkParsed form c.network
  options : OptionsParsed form c.options
  mqtt : MqttParsed form c.mqtt
  interval : form.has "modbus_poll_interval_s" = false → c.modbusPoll.intervalS = .ofIntExact 5
  points : form.has "modbus_points" = false → c.modbusPoll.points = []

/-- A poll section that was read, by its two members. -/
theorem pollFromDict_obj {interval points : Json} {q : ModbusPoll}
    (h : ModbusPoll.fromDict (.obj [("interval_s", interval), ("points", points)]) = .ok q) :
    (orElse interval (.float (.ofIntExact 5))).toFloat = (.ok q.intervalS : CfgM _) ∧
      ∃ raw, points.elements = (.ok raw : CfgM _) ∧
        raw.mapM ModbusPoint.fromDict = .ok q.points := by
  obtain ⟨d, raw, hd, hseconds, hraw, hps⟩ := ModbusPoll.fromDict_eq_ok h
  obtain rfl := Except.ok.inj hd
  exact ⟨hseconds, raw, hraw, hps⟩

/-- The default interval is its own conversion. -/
theorem castFloat_five : castFloat (.float (.ofIntExact 5)) = .ok (.float (.ofIntExact 5)) := rfl

/-- The default interval, read back. -/
theorem toFloat_five : (orElse (.float (.ofIntExact 5)) (.float (.ofIntExact 5))).toFloat =
    (.ok (.ofIntExact 5) : CfgM _) := by decide +kernel

/-- The sections of a form that was read. -/
theorem parsed {loads : String → Option Json} {m : Platform} {newId : String} {form : Form}
    {d : Json} {c : MappingConfig} (h : buildMappingDict loads form true = .ok d)
    (hc : MappingConfig.fromDict m newId d = .ok c) : Parsed form c := by
  -- first what the form handler builds, then what the reader makes of it
  obtain ⟨network, hnetwork, h⟩ := except_bind_eq_ok.1 h
  obtain ⟨options, hoptions, h⟩ := except_bind_eq_ok.1 h
  obtain ⟨serial, hserial, h⟩ := except_bind_eq_ok.1 h
  obtain ⟨serialB, hserialB, h⟩ := except_bind_eq_ok.1 h
  obtain ⟨mqtt, hmqtt, h⟩ := except_bind_eq_ok.1 h
  obtain ⟨interval, hinterval, h⟩ := except_bind_eq_ok.1 h
  obtain ⟨points, hpoints, h⟩ := except_bind_eq_ok.1 h
  obtain rfl := Except.ok.inj h
  obtain ⟨d, hd, hread⟩ := MappingConfig.fromDict_eq_ok hc
  obtain rfl := Except.ok.inj hd
  obtain ⟨hseconds, raw, hraw, hps⟩ := pollFromDict_obj hread.modbusPoll
  refine ⟨?_, hread.name, hread.kind, serialParsed hserial hread.serial,
    serialParsed hserialB hread.serialB, networkParsed hnetwork hread.network,
    optionsParsed hoptions hread.options, mqttParsed hmqtt hread.mqtt, ?_, ?_⟩
  · intro i hi hne
    have hget : form.getD "id" "" = i := by rw [Form.getD, hi]; rfl
    have hid : (match form.getD "id" "" with | "" => Json.null | i => .str i) = .str i := by
      rw [hget]
      split
      · exact absurd rfl hne
      · rfl
    refine hread.id.trans ?_
    show orElse (match form.getD "id" "" with | "" => Json.null | i => .str i) (.str newId) = _
    rw [hid]
    simp [orElse, Json.truthy, hne]
  · intro habsent
    rw [numFloat_absent habsent castFloat_five] at hinterval
    obtain rfl := Except.ok.inj hinterval
    exact Except.ok.inj (hseconds.symm.trans toFloat_five)
  · intro habsent
    rw [getD_absent habsent] at hpoints
    obtain rfl := Except.ok.inj hpoints
    obtain rfl := Except.ok.inj hraw
    exact (Except.ok.inj hps).symm

/-- Absent fields of a serial side read as their defaults. -/
theorem serialFields_default {form : Form} {pre : String} {side : MappingConfig → SerialSettings}
    {c : MappingConfig} (h : SerialParsed form pre (side c)) :
    ∀ f ∈ serialFields pre side, f.DefaultsTo form c := by
  simp only [serialFields, List.forall_mem_cons]
  have hzero : castFloat (.float (.fin 0)) = .ok (.float (.fin 0)) := rfl
  have hone : castFloat (.int 1) = .ok (.float (.ofIntExact 1)) := by decide +kernel
  exact ⟨defaults_stripped h.port, defaults_plain h.baudrate, defaults_int h.bytesize,
    defaults_text h.parity, defaults_float hone h.stopbits, defaults_text h.flowcontrol,
    defaults_text h.rtsOnOpen, defaults_text h.dtrOnOpen, defaults_float hzero h.delayBefore,
    defaults_float hzero h.delayAfter, defaults_hidden, defaults_hidden, by simp⟩

/-- Absent fields of the network section read as their defaults. -/
theorem networkFields_default {form : Form} {c : MappingConfig}
    (h : NetworkParsed form c.network) : ∀ f ∈ networkFields, f.DefaultsTo form c := by
  have hnone : ((split "").map Json.str) = [] := by decide
  simp only [networkFields, List.forall_mem_cons]
  refine ⟨defaults_text h.mode, defaults_text h.protocol, defaults_plain h.bindIp,
    defaults_int h.port, defaults_stripped h.remoteHost, defaults_plain h.remotePort,
    defaults_int h.maxConnections, defaults_plain fun habsent => ?_,
    defaults_plain fun habsent => ?_, defaults_int h.clientQueueMax, defaults_stripped h.tlsCert,
    defaults_stripped h.tlsKey, defaults_marker, defaults_inBlock fun hmarker habsent => ?_,
    defaults_inBlock fun hmarker habsent => ?_, defaults_marker, by simp⟩
  · rw [h.allowed, getD_absent habsent, hnone]
  · rw [h.priority, getD_absent habsent, hnone]
  · exact (Except.ok.inj ((numInt_absent habsent 10).symm.trans (h.keepaliveInterval hmarker))).symm
  · exact (Except.ok.inj ((numInt_absent habsent 3).symm.trans (h.keepaliveCount hmarker))).symm

/-- Absent fields of the options read as their defaults. -/
theorem optionFields_default {form : Form} {c : MappingConfig}
    (h : OptionsParsed form c.options) : ∀ f ∈ optionFields, f.DefaultsTo form c := by
  simp only [optionFields, List.forall_mem_cons]
  refine ⟨defaults_text h.banner, defaults_plain h.idleTimeout, defaults_text h.closeon,
    defaults_plain fun habsent => ?_, defaults_marker, defaults_marker,
    defaults_inBlock fun hmarker habsent => ?_, defaults_hidden, defaults_hidden, defaults_hidden,
    defaults_hidden, defaults_hidden, defaults_hidden, by simp⟩
  · rw [h.traceBoth habsent]
  · exact (Except.ok.inj ((numInt_absent habsent 3).symm.trans (h.traceKeep hmarker))).symm

/-- Absent fields of the MQTT section read as their defaults. -/
theorem mqttFields_default {form : Form} {c : MappingConfig}
    (h : MqttParsed form c.mqtt) : ∀ f ∈ mqttFields, f.DefaultsTo form c := by
  simp only [mqttFields, List.forall_mem_cons]
  refine ⟨defaults_stripped h.host, defaults_int h.port, defaults_stripped h.baseTopic,
    defaults_int h.qos, defaults_stripped h.username, defaults_text h.password,
    defaults_stripped h.clientId, defaults_marker, defaults_inBlock fun hmarker habsent => ?_,
    defaults_inBlock fun hmarker habsent => ?_, by simp⟩
  · rw [h.groupId hmarker, stripped_absent habsent]
    rfl
  · rw [h.nodeId hmarker, stripped_absent habsent]

/-- Absent fields of the mapping read as their defaults. -/
theorem mappingFields_default {form : Form} {c : MappingConfig} (h : Parsed form c) :
    ∀ f ∈ mappingFields, f.DefaultsTo form c := by
  simp only [mappingFields, List.forall_mem_cons]
  refine ⟨defaults_stripped h.name, defaults_text h.kind, defaults_plain fun habsent => ?_,
    defaults_plain fun habsent => ?_, by simp⟩
  · rw [h.interval habsent]
  · rw [h.points habsent]
    rfl

/-- Every field whose input is absent, and which is not put back, gets its default. -/
theorem formFields_default {form : Form} {c : MappingConfig} (h : Parsed form c) :
    ∀ f ∈ formFields, f.DefaultsTo form c :=
  forall_formFields (mappingFields_default h) (serialFields_default h.serial)
    (serialFields_default h.serialB) (networkFields_default h.network)
    (optionFields_default h.options) (mqttFields_default h.mqtt)

/-! ### An accepted form -/

/-- Python's `==` on two stored values, or one and the same value. -/
def Same (a b : Json) : Prop := a = b ∨ a.pyEq b = true

/-- A form that edits a stored mapping: what it is parsed to, with the stored values put back
    and the identities set. -/
theorem parseForm_edit {env : FormEnv} {config : AppConfig} {form : Form} {i : String}
    {old new : MappingConfig} (hid : form.get "id" = some i) (hne : i ≠ "")
    (hold : config.getMapping (.str i) = some old) (h : parseForm env config form = .ok new) :
    ∃ c u v, Parsed form c ∧ new =
      { preserveUnmanagedFields form c old with
        serial := { (preserveUnmanagedFields form c old).serial with usbMatch := u }
        serialB := { (preserveUnmanagedFields form c old).serialB with usbMatch := v } } := by
  obtain ⟨d, hd, h⟩ := except_bind_eq_ok.1 h
  obtain ⟨c, hc, h⟩ := except_bind_eq_ok.1 h
  have hparsed := parsed hd hc
  rw [hparsed.id i hid hne, hold] at h
  obtain ⟨c', hc', h⟩ := except_bind_eq_ok.1 h
  obtain ⟨-, -, h⟩ := except_bind_eq_ok.1 h
  obtain rfl := Except.ok.inj h
  obtain ⟨u, v, hnew⟩ := applyUsbMatch_ok hc'
  exact ⟨c, u, v, hparsed, hnew⟩

/-- What a form that edits a stored mapping makes of a field that it does not post. -/
theorem value_of_absent {env : FormEnv} {config : AppConfig} {form : Form} {i : String}
    {old new : MappingConfig} (hid : form.get "id" = some i) (hne : i ≠ "")
    (hold : config.getMapping (.str i) = some old) (h : parseForm env config form = .ok new)
    {f : FormField} (hf : f ∈ formFields) (habsent : f.absent form = true) :
    f.value new = if f.kept form then f.value old else f.default := by
  obtain ⟨c, u, v, hparsed, rfl⟩ := parseForm_edit hid hne hold h
  rw [formFields_usbMatch _ u v f hf, formFields_preserved f hf form c old]
  cases hkept : f.kept form with
  | true => rfl
  | false => exact formFields_default hparsed f hf habsent hkept

/-- The mapping that was written is the one that is found. -/
theorem find_setMapping {i : String} {new old : MappingConfig} (hid : new.id = .str i) :
    ∀ {l : List MappingConfig}, (l.find? fun m => m.id.pyEq (.str i)) = some old →
      ((setMapping (.str i) new l).find? fun m => m.id.pyEq (.str i)) = some new
  | [], h => by cases h
  | c :: rest, h => by
    have hnew : new.id.pyEq (.str i) = true := by
      rw [hid]
      exact decide_eq_true rfl
    unfold setMapping
    rw [List.find?_cons] at h
    cases hc : c.id.pyEq (.str i) with
    | true => rw [if_pos rfl, List.find?_cons, hnew]
    | false =>
      rw [hc] at h
      rw [if_neg (by simp), List.find?_cons, hc]
      exact find_setMapping hid h

/-- The mapping that a form of a stored mapping saves is the one it was parsed to. -/
theorem saved_mapping {env : FormEnv} {config config' : AppConfig} {form : Form} {i : String}
    {name : Json} {old new : MappingConfig} (hid : form.get "id" = some i) (hne : i ≠ "")
    (hold : config.getMapping (.str i) = some old)
    (hsave : saveMappingFromForm env.platform (parseForm env config form) config =
      (.saved name, config'))
    (hnew : config'.getMapping (.str i) = some new) : parseForm env config form = .ok new := by
  cases hparse : parseForm env config form with
  | error e =>
    rw [hparse] at hsave
    have hreply : refusal e = .saved name := congrArg Prod.fst hsave
    unfold refusal at hreply
    split_ifs at hreply
  | ok c =>
    -- the mapping that was parsed has the id it was found by, so it is the one stored
    obtain ⟨c₀, u, v, hparsed, hc⟩ := parseForm_edit hid hne hold hparse
    have hcid : c.id = .str i := by
      rw [hc]
      exact hparsed.id i hid hne
    rw [hparse] at hsave
    simp only [saveMappingFromForm, hcid, hold] at hsave
    have hconfig : config' = { config with mappings := setMapping (.str i) c config.mappings } := by
      unfold asave at hsave
      split at hsave
      · exact (congrArg Prod.snd hsave).symm
      · cases congrArg Prod.fst hsave
      · cases congrArg Prod.fst hsave
    have hfound : config'.getMapping (.str i) = some c := by
      rw [hconfig]
      exact find_setMapping hcid hold
    rw [Option.some.inj (hfound.symm.trans hnew)]

/-- An edit through the form keeps every field that the form does not post exactly when the
    stored value of those that are not put back is the default of the form. -/
theorem form_keeps_iff {env : FormEnv} {config config' : AppConfig} {form : Form} {i : String}
    {name : Json} {old new : MappingConfig} (hid : form.get "id" = some i) (hne : i ≠ "")
    (hold : config.getMapping (.str i) = some old)
    (hsave : saveMappingFromForm env.platform (parseForm env config form) config =
      (.saved name, config'))
    (hnew : config'.getMapping (.str i) = some new) :
    (∀ f ∈ formFields, f.absent form = true → Same (f.value new) (f.value old)) ↔
      ∀ f ∈ formFields, f.absent form = true → f.kept form = false →
        Same f.default (f.value old) := by
  have hparse := saved_mapping hid hne hold hsave hnew
  constructor
  -- an absent field has its default after the save, unless the form keeps it
  · intro h f hf habsent hkept
    have hvalue := value_of_absent hid hne hold hparse hf habsent
    rw [hkept, if_neg (by decide)] at hvalue
    rw [← hvalue]
    exact h f hf habsent
  · intro h f hf habsent
    have hvalue := value_of_absent hid hne hold hparse hf habsent
    rw [hvalue]
    cases hkept : f.kept form with
    | true => exact .inl rfl
    | false => exact h f hf habsent hkept

/-- A server that takes four connections. -/
def fourClients : MappingConfig :=
  { rawMapping "a" "/dev/ttyS0" 4001 true with
    network := NetworkSettings.ofMembers [("max_connections", .int 4)] }

/-- The node that has it, without a serial port plugged in. -/
def formNode : FormEnv := ⟨bareMachine, fun _ => none, [], "b"⟩

def formConfig : AppConfig := { AppConfig.fresh "key" "node" with mappings := [fourClients] }

/-- The form switches the mapping to client mode; the inputs of a server are hidden then, and
    their block is disabled. -/
def switchToClient : Form := [("id", "a"), ("name", "a"), ("serial_port", "/dev/ttyS0"),
  ("network_mode", "client"), ("network_remote_host", "10.0.0.2"), ("network_remote_port", "5000")]

/-- The reply to the form, and the configuration afterwards. -/
def switched : Reply × AppConfig :=
  saveMappingFromForm formNode.platform (parseForm formNode formConfig switchToClient) formConfig

/-- The form that switches to client mode is saved. -/
theorem switched_saved :
    saveMappingFromForm formNode.platform (parseForm formNode formConfig switchToClient)
      formConfig = (.saved (.str "a"), switched.2) := by
  have hreply : switched.1 = .saved (.str "a") := by decide +kernel
  show switched = (.saved (.str "a"), switched.2)
  rw [← hreply]

/-- What is stored before. -/
theorem formConfig_stored : formConfig.getMapping (.str "a") = some fourClients := by
  decide +kernel

theorem form_keeps_iff_client : ∃ new, switched.2.getMapping (.str "a") = some new ∧
    ((∀ f ∈ formFields, f.absent switchToClient = true →
        Same (f.value new) (f.value fourClients)) ↔
      ∀ f ∈ formFields, f.absent switchToClient = true → f.kept switchToClient = false →
        Same f.default (f.value fourClients)) := by
  have hsome : switched.2.getMapping (.str "a") ≠ none := by decide +kernel
  obtain ⟨new, hnew⟩ := Option.ne_none_iff_exists.1 hsome
  have hid : switchToClient.get "id" = some "a" := by decide
  exact ⟨new, hnew.symm,
    form_keeps_iff hid (by decide) formConfig_stored switched_saved hnew.symm⟩

/-- The number of connections is not posted in client mode and is stored as 4: the edit makes
    it 1. -/
theorem switch_resets_connections : ¬ ∀ (env : FormEnv) (config config' : AppConfig)
    (form : Form) (i : String) (name : Json) (old new : MappingConfig),
    form.get "id" = some i → i ≠ "" → config.getMapping (.str i) = some old →
    saveMappingFromForm env.platform (parseForm env config form) config = (.saved name, config') →
    config'.getMapping (.str i) = some new →
    ∀ f ∈ formFields, f.absent form = true → Same (f.value new) (f.value old) := by
  intro h
  -- four clients before the save, one after it, and the form did not name the field
  have hone : (switched.2.getMapping (.str "a")).map (·.network.maxConnections) =
      some (.int 1) := by decide +kernel
  obtain ⟨new, hnew, hvalue⟩ := Option.map_eq_some_iff.1 hone
  have hid : switchToClient.get "id" = some "a" := by decide
  have habsent : (FormField.plain "network_max_connections" (.int 1)
      fun c => c.network.maxConnections).absent switchToClient = true := by decide
  have hmem : FormField.plain "network_max_connections" (.int 1)
      (fun c => c.network.maxConnections) ∈ formFields := by
    simp only [formFields, networkFields, List.mem_append, List.mem_cons]
    simp only [true_or, or_true]
  have hvalues : Same new.network.maxConnections (.int 4) :=
    h formNode formConfig switched.2 switchToClient "a" (.str "a") fourClients new hid (by decide)
      formConfig_stored switched_saved hnew _ hmem habsent
  rw [hvalue] at hvalues
  rcases hvalues with heq | heq
  · exact absurd heq (by decide)
  · exact absurd heq (by decide +kernel)

end Ser2Net.Web.Forms
