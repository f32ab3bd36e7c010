import Ser2Net.Import.Basic
import Ser2Net.Lib.IpText

namespace Ser2Net.Import

open Ser2Net.Lib Ser2Net.Config Logged

/-!
# Import — one connection on its way to a mapping

`_Conn` and the conversion of its two sides: the accepter (what it listens on) and the
connector (the serial device and its options).

* `Conn` — the connection; a key that the source's dictionaries may lack is an `Option`;
* `Conn.toDict` — the dictionary for `MappingConfig.from_dict`;
* `listenAddress`, `bindIp`, `accepter` — the listening side;
* `serialOption`, `connector` — the device side.
-/

/-- `network["mode"]`. -/
inductive Mode
  | server
  | udp
  deriving DecidableEq, Repr

/-- `network["protocol"]`. -/
inductive Protocol
  | raw
  | telnet
  | rfc2217
  deriving DecidableEq, Repr

def Mode.text : Mode → Text
  | .server => "server"
  | .udp => "udp"

def Protocol.text : Protocol → Text
  | .raw => "raw"
  | .telnet => "telnet"
  | .rfc2217 => "rfc2217"

/-- The options that hold a text with escapes. -/
inductive StringKey
  | banner
  | openstr
  | closestr
  | closeon
  deriving DecidableEq, Repr

def StringKey.text : StringKey → Text
  | .banner => "banner"
  | .openstr => "openstr"
  | .closestr => "closestr"
  | .closeon => "closeon"

/-- The directions of a trace. -/
inductive TraceKind
  | both
  | read
  | write
  deriving DecidableEq, Repr

/-- What can be switched for a trace. -/
inductive TraceMod
  | hexdump
  | timestamp
  deriving DecidableEq, Repr

/-- `_Conn.serial`; the defaults are ser2net's 9600N81. -/
structure ConnSerial where
  baudrate : Int := 9600
  parity : Text := "N"
  bytesize : Int := 8
  stopbits : Int := 1
  flowcontrol : Option Text := none
  rtsOnOpen : Option Text := none
  dtrOnOpen : Option Text := none

/-- `_Conn.advanced`. -/
structure ConnAdvanced where
  hangupWhenDone : Option Bool := none
  nobreak : Option Bool := none

/-- `_Conn.network`. -/
structure ConnNetwork where
  mode : Mode := .server
  protocol : Protocol := .raw
  bindIp : Text := "0.0.0.0"
  port : Int := 0
  maxConnections : Option Int := none
  kickOldUser : Option Bool := none
  allowedClientIps : Option (List Text) := none
  readOnly : Option Bool := none

/-- `_Conn.options`. -/
structure ConnOptions where
  idleTimeoutS : Option Int := none
  strings : List (StringKey × Text) := []
  traceBoth : Option Text := none
  traceMods : List (TraceMod × Bool) := []

/-- `_Conn`. -/
structure Conn where
  name : Text
  label : Text
  v3 : Bool := false
  enabled : Bool := true
  device : Text := []
  serial : ConnSerial := {}
  advanced : ConnAdvanced := {}
  network : ConnNetwork := {}
  options : ConnOptions := {}
  xonxoff : Bool := false
  rtscts : Bool := false
  strings : List (StringKey × Text) := []
  traces : List (TraceKind × Text) := []
  /-- The key without a direction is the source's `"all"`. -/
  traceMods : List ((Option TraceKind × TraceMod) × Bool) := []
  accessGiven : Bool := false
  hold : Text := []
  remctl : Bool := false
  dropped : List Text := []
  notes : List Text := []
  skipped : List Text := []

/-- `_Conn.note`. -/
def Conn.note (c : Conn) (msg : Text) : Conn :=
  if c.notes.contains msg then c else { c with notes := c.notes ++ [msg] }

/-- `_Conn.skip`. -/
def Conn.skip (c : Conn) (why : Text) : Conn :=
  let msg := "skipped: " ++ why
  let c := if c.skipped.contains msg then c else { c with skipped := c.skipped ++ [msg] }
  c.note msg

/-- `_Conn.drop`. -/
def Conn.drop (c : Conn) (option : Text) : Conn :=
  if c.dropped.contains option then c else { c with dropped := c.dropped ++ [option] }

/-- `_Conn.serial_text`: ser2net's `\B`. -/
def Conn.serialText (c : Conn) : Text :=
  PyText.ofInt c.serial.baudrate ++ c.serial.parity ++ PyText.ofInt c.serial.bytesize ++
    PyText.ofInt c.serial.stopbits

/-! ### The dictionary -/

/-- A text as a value. -/
def str (t : Text) : Json := .str (String.ofList t)

/-- A key that is only there when it has a value. -/
def optional (k : String) (v : Option Json) : List (String × Json) :=
  v.elim [] fun v => [(k, v)]

/-- `{"port": device, **serial}` with `"advanced"`. -/
def Conn.serialMembers (c : Conn) : List (String × Json) :=
  [("port", str c.device), ("baudrate", .int c.serial.baudrate), ("parity", str c.serial.parity),
    ("bytesize", .int c.serial.bytesize), ("stopbits", .int c.serial.stopbits)] ++
  optional "flowcontrol" (c.serial.flowcontrol.map str) ++
  optional "rts_on_open" (c.serial.rtsOnOpen.map str) ++
  optional "dtr_on_open" (c.serial.dtrOnOpen.map str)

/-- `dict(advanced)`. -/
def Conn.advancedMembers (c : Conn) : List (String × Json) :=
  optional "hangup_when_done" (c.advanced.hangupWhenDone.map .bool) ++
  optional "nobreak" (c.advanced.nobreak.map .bool)

/-- `dict(network)`. -/
def Conn.networkMembers (c : Conn) : List (String × Json) :=
  [("mode", str c.network.mode.text), ("protocol", str c.network.protocol.text),
    ("bind_ip", str c.network.bindIp), ("port", .int c.network.port)] ++
  optional "max_connections" (c.network.maxConnections.map .int) ++
  optional "kick_old_user" (c.network.kickOldUser.map .bool) ++
  optional "allowed_client_ips" (c.network.allowedClientIps.map fun l => .arr (l.map str)) ++
  optional "read_only" (c.network.readOnly.map .bool)

/-- `dict(options)`. -/
def Conn.optionMembers (c : Conn) : List (String × Json) :=
  optional "idle_timeout_s" (c.options.idleTimeoutS.map .int) ++
  optional "banner" ((c.options.strings.lookup .banner).map str) ++
  optional "openstr" ((c.options.strings.lookup .openstr).map str) ++
  optional "closestr" ((c.options.strings.lookup .closestr).map str) ++
  optional "closeon" ((c.options.strings.lookup .closeon).map str) ++
  optional "trace_both" (c.options.traceBoth.map str) ++
  optional "trace_hexdump" ((c.options.traceMods.lookup .hexdump).map .bool) ++
  optional "trace_timestamp" ((c.options.traceMods.lookup .timestamp).map .bool)

/-- `_Conn.to_dict`. -/
def Conn.toDict (c : Conn) : Json :=
  .obj [("name", str c.name), ("enabled", .bool c.enabled), ("kind", .str "net"),
    ("serial", .obj (c.serialMembers ++
      if c.advancedMembers = [] then [] else [("advanced", .obj c.advancedMembers)])),
    ("network", .obj c.networkMembers), ("options", .obj c.optionMembers)]

/-! ### Words -/

section
variable (env : ImportEnv)

/-- `_bool`. -/
def bool (value : Text) : Option Bool :=
  let v := env.lower (strip value)
  if (["true", "yes", "on", "1"] : List Text).contains v then some true
  else if (["false", "no", "off", "0"] : List Text).contains v then some false
  else none

/-- `_split_gensio`: the loop over the text. -/
def splitGensioFrom (parts : List Text) (buf : Text) (depth : Nat) (quote : Option Char) :
    Text → List Text
  | [] => parts ++ [strip buf]
  | [ch] =>
    if quote = none && ch = ',' && depth = 0 then parts ++ [strip buf] ++ [strip []]
    else parts ++ [strip (buf ++ [ch])]
  | ch :: next :: rest =>
    match quote with
    | some q =>
      splitGensioFrom parts (buf ++ [ch]) depth (if ch = q then none else quote) (next :: rest)
    | none =>
      if ch = '\\' then splitGensioFrom parts (buf ++ [ch, next]) depth none rest
      else if ch = '"' || ch = '\'' then
        splitGensioFrom parts (buf ++ [ch]) depth (some ch) (next :: rest)
      else if ch = '(' then splitGensioFrom parts (buf ++ [ch]) (depth + 1) none (next :: rest)
      else if ch = ')' then splitGensioFrom parts (buf ++ [ch]) (depth - 1) none (next :: rest)
      else if ch = ',' && depth = 0 then
        splitGensioFrom (parts ++ [strip buf]) [] depth none (next :: rest)
      else splitGensioFrom parts (buf ++ [ch]) depth none (next :: rest)

/-- `_split_gensio`. -/
def splitGensio (spec : Text) : List Text :=
  (splitGensioFrom [] [] 0 none spec).filter (· ≠ [])

/-- A character of the name of a layer. -/
def isLayerChar (c : Char) : Bool := c.isAlphanum || c = '_' || c = '-'

/-- `_layer` of a text without blanks around it: `telnet(rfc2217)` is `telnet` with
    `rfc2217`. -/
def layer (part : Text) : Text × List Text :=
  let name := part.takeWhile isLayerChar
  match (part.dropWhile isLayerChar).dropWhile PyText.isSpace with
  | '(' :: args =>
    if name ≠ [] && args.getLast? = some ')' then (name, splitGensio args.dropLast) else (part, [])
  | _ => (part, [])

/-! ### The listening side -/

/-- `_port_number`. -/
def portNumber (text : Text) : ImportM (Option Int) :=
  let text := strip text
  if PyText.isDigitText text then do
    let n ← int text
    return if 1 ≤ n && n ≤ 65535 then some n else none
  else do
    let n ← getservbyname env text
    return n.map fun n => n

/-- The words for an address family. -/
def families : List Text := ["ipv4", "ipv6", "ipv6n4"]

/-- The loop that takes the families from the front: the last one, and the fields left. -/
def dropFamilies (family : Text) : List Text → Text × List Text
  | [] => (family, [])
  | f :: rest =>
    if families.contains (env.lower f) then dropFamilies (env.lower f) rest
    else (family, f :: rest)

/-- `_bind_ip`. -/
def bindIp (c : Conn) (host family : Text) : Text × Conn :=
  let h := PyText.stripBy (fun ch => ch = '[' || ch = ']') host
  if h = [] then (if family = "ipv6" then "::" else "0.0.0.0", c)
  else if env.lower h = "localhost" then ("127.0.0.1", c)
  else
    let hold : Text × Conn := ("0.0.0.0", { c with hold :=
      "listen address '" ++ host ++ "' cannot be used as a bind IP here: the mapping listens on " ++
      "0.0.0.0 and is imported disabled; set its bind IP, then enable it" })
    match Ipaddress.ofText h with
    | none => hold
    | some ip =>
      if ip.isV6Loopback then
        ("127.0.0.1", c.note ("listen address " ++ host ++
          " (IPv6 loopback) is not accepted as a bind IP here: the mapping listens on 127.0.0.1"))
      else if !ip.isMulticast && !(ip.isReserved && !ip.isWildcard) then (ip.str, c)
      else hold

/-- The fields of an address that are not blank, without the blanks around them. -/
def cleanFields (fields : List Text) : List Text := (fields.map strip).filter (· ≠ [])

/-- `_listen_address`: `[ipv4|ipv6,][host,]port`. -/
def listenAddress (c : Conn) (fields : List Text) : ImportM (Bool × Conn) :=
  let (family, fields) := dropFamilies env [] (cleanFields fields)
  match fields with
  | [] => pure (false, c.skip "the accepter has no port")
  | first :: more =>
    let (host, portText) := match more with
      | [] => ([], first)
      | second :: _ => (first, second)
    let c := if more.length ≤ 1 then c
      else c.note ("only the first listen address is imported: " ++
        PyText.join [','] (fields.take 2))
    do
      let port ← portNumber env portText
      match port with
      | none =>
        return (false, c.skip ("listen port '" ++ portText ++
          "' is not a port number between 1 and 65535"))
      | some port =>
        let c := { c with network := { c.network with port := port } }
        let (ip, c) := bindIp env c host family
        return (true, { c with network := { c.network with bindIp := ip } })

/-- `_NET_TERMINALS`. -/
def netTerminals : List Text := ["tcp", "udp", "sctp"]

/-- `_OTHER_TERMINALS`. -/
def otherTerminals : List Text :=
  ["unix", "unixdgram", "stdio", "pty", "file", "echo", "dummy", "conacc", "ipmisol", "serialdev",
    "sdev", "dev", "sound", "mdns", "net", "telnet", "ssl", "certauth", "mux"]

/-- The option `rfc2217` of a telnet layer is there and not false. -/
def hasRfc2217 (opts : List Text) : Bool :=
  opts.any fun o =>
    let (name, eq, value) := partition '=' o
    env.lower (strip name) = "rfc2217" && bool env (if eq then value else "true") = some true

/-- The loop of `_accepter` over the layers. -/
def accepterFrom (spec : Text) : Conn → List Text → ImportM (Bool × Conn)
  | c, [] => pure (false, c.skip ("accepter '" ++ spec ++ "' is not a TCP/UDP port"))
  | c, part :: rest =>
    let (name, opts) := layer part
    let low := env.lower name
    if netTerminals.contains low then
      let c := if low = "udp" then { c with network := { c.network with mode := .udp } }
        else if low = "sctp" then
          c.note "SCTP is not supported here: the mapping listens on TCP instead"
        else c
      listenAddress env c rest
    else if low = "telnet" then
      let protocol := if hasRfc2217 env opts then .rfc2217 else .telnet
      accepterFrom spec { c with network := { c.network with protocol := protocol } } rest
    else if low = "ssl" then
      accepterFrom spec (c.note ("TLS (ssl) is not imported: the mapping listens without TLS; " ++
        "enable TLS on it with a certificate and key if clients expect it")) rest
    else if low = "certauth" then
      accepterFrom spec (c.note ("certauth (gtlssh login) is not imported: clients connect " ++
        "without authentication")) rest
    else if low = "mux" then accepterFrom spec c rest
    else if otherTerminals.contains low then
      pure (false, c.skip ("accepter '" ++ spec ++ "' is not a TCP/UDP port"))
    else accepterFrom spec (c.note ("accepter layer '" ++ name ++ "' is not imported")) rest

/-- `_accepter`: telnet or telnet(rfc2217) over tcp or udp. -/
def accepter (c : Conn) (spec : Text) : ImportM (Bool × Conn) :=
  accepterFrom env spec c (splitGensio spec)

/-! ### The device side -/

/-- A character that `\d` matches. -/
def isDecimal (c : Char) : Bool := (PyText.digitValue c).isSome

/-- `_windows_device`. -/
def windowsDevice (device : Text) : Text :=
  let com? := if startsWith device "\\\\.\\" then some (device.drop 4)
    else if startsWith device "//./" then some (device.drop 4)
    else none
  match com? with
  | none => device
  | some com =>
    match PyText.foldPrefix ("com" : Text) com with
    | none => device
    | some digits => if digits ≠ [] && digits.all isDecimal then env.upper com else device

/-- The groups of `_SPEED`: speed, parity, data bits and stop bits. -/
structure Speed where
  speed : Text
  parity : Option Char
  bytesize : Option Char
  stopbits : Option Char
  deriving DecidableEq, Repr

/-- `([5-8])?([12])?` up to the end of the text. -/
def speedBits : Text → Option (Option Char × Option Char)
  | [] => some (none, none)
  | [d] =>
    if '5' ≤ d ∧ d ≤ '8' then some (some d, none)
    else if d = '1' ∨ d = '2' then some (none, some d)
    else none
  | [d, s] => if ('5' ≤ d ∧ d ≤ '8') ∧ (s = '1' ∨ s = '2') then some (some d, some s) else none
  | _ => none

/-- `_SPEED.fullmatch(tok)`. -/
def speedMatch (tok : Text) : Option Speed :=
  let body := (PyText.foldPrefix ("speed=" : Text) tok).getD tok
  let speed := body.takeWhile isDecimal
  if speed = [] then none
  else
    match body.dropWhile isDecimal with
    | [] => some ⟨speed, none, none, none⟩
    | p :: rest =>
      if ['n', 'e', 'o', 'm', 's'].any fun l => PyText.foldEq l p then
        (speedBits rest).map fun (d, s) => ⟨speed, some p, d, s⟩
      else none

/-- The digit that a character is. -/
def digit (c : Char) : Int := c.toNat - '0'.toNat

/-- `_SERIAL_FLAGS`. -/
def serialFlags : List Text :=
  ["xonxoff", "rtscts", "hangup-when-done", "hangup_when_done", "hupcl", "nobreak", "rdonly",
    "local"]

/-- The branches of `_serial_option` for a named option with its flag. -/
def namedSerialOption (c : Conn) (tok low value : Text) (flag : Bool) : Conn :=
  if low = "xonxoff" then { c with xonxoff := flag }
  else if low = "rtscts" then { c with rtscts := flag }
  else if (["hangup-when-done", "hangup_when_done", "hupcl"] : List Text).contains low then
    { c with advanced := { c.advanced with hangupWhenDone := some flag } }
  else if low = "nobreak" then { c with advanced := { c.advanced with nobreak := some flag } }
  else if low = "dtr" || low = "rts" then
    let state := if flag then env.lower (strip (if value = [] then "on" else value)) else "off"
    if state = "on" || state = "off" then
      if low = "dtr" then { c with serial := { c.serial with dtrOnOpen := some state } }
      else { c with serial := { c.serial with rtsOnOpen := some state } }
    else c.note ("serial option '" ++ tok ++ "' is not on/off, ignored")
  else if low = "rs485" then
    let v := env.lower (strip value)
    if v = [] || v = "off" then c
    else c.note (tok ++ " is not imported: set RS-485 in the mapping's serial settings")
  else if low = "rdonly" then
    if flag then { c with network := { c.network with readOnly := some true } } else c
  else if low = "local" && !flag then
    c.note "local=false (watching the modem control lines) is not imported"
  else c

/-- `_serial_option`: `9600n81`, `rtscts`, `xonxoff=false`, `-local`, `dtr=off`. -/
def serialOption (c : Conn) (tok : Text) : ImportM Conn :=
  match speedMatch tok with
  | some m => do
    let n ← int m.speed
    let serial := { c.serial with baudrate := n }
    let serial := m.parity.elim serial fun p => { serial with parity := env.upper [p] }
    let serial := m.bytesize.elim serial fun d => { serial with bytesize := digit d }
    let serial := m.stopbits.elim serial fun d => { serial with stopbits := digit d }
    return { c with serial := serial }
  | none =>
    let (name, eq, value) := partition '=' tok
    let low := env.lower name
    let minus := startsWith low ['-']
    let low := if minus then low.tail else low
    if !(serialFlags.contains low || (["dtr", "rts", "rs485"] : List Text).contains low) then
      pure (if (["custspeed", "uucplock", "flock", "readbuf"] : List Text).contains low then c
        else c.drop tok)
    else if eq && !minus && serialFlags.contains low then
      match bool env value with
      | none =>
        pure (c.note ("serial option '" ++ tok ++ "' has no true/false value, ignored"))
      | some flag => pure (namedSerialOption env c tok low value flag)
    else pure (namedSerialOption env c tok low value (!minus))

/-- The loop of `_connector` over the layers. -/
def connectorFrom (spec : Text) (defaults : List Text) : Conn → List Text → ImportM (Bool × Conn)
  | c, [] => pure (false, c.skip ("connector '" ++ spec ++ "' is not a local serial port"))
  | c, part :: rest =>
    let (name, opts) := layer part
    let low := env.lower name
    if (["serialdev", "sdev", "dev"] : List Text).contains low then
      match rest.flatMap PyText.words with
      | [] => pure (false, c.skip "the connector names no device")
      | device :: tokens => do
        let c := { c with device := windowsDevice env device }
        let c := if low = "dev" then c.note ("'dev' (a device without serial settings) is " ++
          "imported as a serial port; it may not open if it is not a tty") else c
        let c ← (defaults ++ opts ++ tokens).foldlM (serialOption env) c
        return (true, c)
    else if netTerminals.contains low || otherTerminals.contains low then
      pure (false, c.skip ("connector '" ++ spec ++ "' is not a local serial port"))
    else
      connectorFrom spec defaults (c.note ("connector layer '" ++ name ++ "' is not imported")) rest

/-- `_connector`: `serialdev,<device>[,<serial options>]`. -/
def connector (c : Conn) (spec : Text) (defaults : List Text) : ImportM (Bool × Conn) :=
  connectorFrom env spec defaults c (splitGensio spec)

end

end Ser2Net.Import
