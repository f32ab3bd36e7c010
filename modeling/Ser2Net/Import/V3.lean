import Ser2Net.Import.Options

namespace Ser2Net.Import

open Ser2Net.Lib Ser2Net.Config Logged

/-!
# Import — ser2net 3.x

The colon-separated lines of a `ser2net.conf`: directives that define names and defaults, and
port lines.

* `v3Lines` — logical lines with their numbers;
* `directiveMatch`, `stateMatch` — the two patterns that a line is tested against;
* `V3.makeConn` — one port line; the flag says that it is imported;
* `fromV3` — the lines one after the other.
-/

/-- The directives. -/
inductive Directive
  | banner
  | signature
  | openstr
  | closestr
  | closeon
  | device
  | tracefile
  | controlport
  | rs485conf
  | default
  | rotator
  | led
  deriving DecidableEq, Repr

def Directive.text : Directive → Text
  | .banner => "BANNER"
  | .signature => "SIGNATURE"
  | .openstr => "OPENSTR"
  | .closestr => "CLOSESTR"
  | .closeon => "CLOSEON"
  | .device => "DEVICE"
  | .tracefile => "TRACEFILE"
  | .controlport => "CONTROLPORT"
  | .rs485conf => "RS485CONF"
  | .default => "DEFAULT"
  | .rotator => "ROTATOR"
  | .led => "LED"

/-- The alternatives of `_V3_DIRECTIVE` in their order. -/
def directives : List Directive :=
  [.banner, .signature, .openstr, .closestr, .closeon, .device, .tracefile, .controlport,
    .rs485conf, .default, .rotator, .led]

/-- `_V3_DIRECTIVE.match(line)`: the directive, and the text behind it. -/
def directiveMatch (line : Text) : Option (Directive × Text) :=
  (directives.find? fun d => startsWith line (d.text ++ [':'])).map fun d =>
    (d, line.drop (d.text.length + 1))

/-- The states of a port. -/
inductive PortState
  | rawlp
  | raw
  | telnet
  | off
  deriving DecidableEq, Repr

def PortState.text : PortState → Text
  | .rawlp => "rawlp"
  | .raw => "raw"
  | .telnet => "telnet"
  | .off => "off"

/-- A match of `_V3_STATE`: the text before it, the state, and the text behind it. -/
structure StateMatch where
  before : Text
  state : PortState
  after : Text
  deriving DecidableEq, Repr

/-- `:(rawlp|raw|telnet|off):` at the beginning of a text. -/
def stateAt (t : Text) : Option (PortState × Text) :=
  ([PortState.rawlp, .raw, .telnet, .off].find? fun s =>
    startsWith t ([':'] ++ s.text ++ [':'])).map fun s => (s, t.drop (s.text.length + 2))

/-- `_V3_STATE.search(line)`. -/
def stateMatch : Text → Option StateMatch
  | [] => none
  | c :: rest =>
    match stateAt (c :: rest) with
    | some (state, after) => some ⟨[], state, after⟩
    | none => (stateMatch rest).map fun m => { m with before := c :: m.before }

/-- The loop of `_v3_lines`; `n` is the number of the next line. -/
def v3LinesFrom (buf : Text) (start n : Nat) : List Text → List (Nat × Text)
  | [] => if buf = [] then [] else [(start, buf)]
  | line :: rest =>
    if buf = [] && (strip line = [] || isHash line) then v3LinesFrom buf start (n + 1) rest
    else
      let (start, line) := if buf = [] then (n, line.dropWhile PyText.isSpace) else (start, line)
      if line.getLast? = some '\\' then v3LinesFrom (buf ++ line.dropLast) start (n + 1) rest
      else (start, buf ++ line) :: v3LinesFrom [] start (n + 1) rest
where
  /-- `line.lstrip().startswith("#")`. -/
  isHash (line : Text) : Bool := startsWith (line.dropWhile PyText.isSpace) ['#']

/-- `_v3_lines`. -/
def v3Lines (text : Text) : List (Nat × Text) := v3LinesFrom [] 0 1 (PyText.lines text)

/-- The names that a `DEFAULT` line can set. -/
inductive V3Default
  | ignoredLocal
  | chardelay
  | telnetBrkOnSync
  | speed
  | databits
  | stopbits
  | parity
  | xonxoff
  | rtscts
  | hangupWhenDone
  | nobreak
  | remctl
  | kickolduser
  | maxConnections
  | remaddr
  deriving DecidableEq, Repr

/-- The defaults under their names. -/
def v3DefaultNames : List (Text × V3Default) :=
  [("local", .ignoredLocal), ("chardelay", .chardelay), ("telnet_brk_on_sync", .telnetBrkOnSync),
    ("speed", .speed), ("databits", .databits), ("stopbits", .stopbits), ("parity", .parity),
    ("xonxoff", .xonxoff), ("rtscts", .rtscts), ("hangup_when_done", .hangupWhenDone),
    ("nobreak", .nobreak), ("remctl", .remctl), ("kickolduser", .kickolduser),
    ("max-connections", .maxConnections), ("remaddr", .remaddr)]

/-- `_V3_PARITY`. -/
def v3Parity : List (Text × Text) :=
  [("NONE", "N"), ("EVEN", "E"), ("ODD", "O"), ("MARK", "M"), ("SPACE", "S"), ("none", "N"),
    ("even", "E"), ("odd", "O"), ("mark", "M"), ("space", "S")]

/-- `_V3_TRACE`. -/
def v3Trace : List (Text × TraceKind) := [("tr", .read), ("tw", .write), ("tb", .both)]

/-- `_V3`. -/
structure V3 where
  strings : List (Text × Directive × Text) := []
  devices : List (Text × Text) := []
  tracefiles : List (Text × Text) := []
  defaults : List (V3Default × Text) := []
  warnings : List Text := []
  conns : List Conn := []

namespace V3

/-- `self.warnings.append(msg)`. -/
def warn (p : V3) (msg : Text) : V3 := { p with warnings := p.warnings ++ [msg] }

/-- What a directive that is not supported is about. -/
def unsupported : Directive → Option Text
  | .led => some "LEDs"
  | .signature => some "RFC2217 signatures"
  | .rotator => some "rotators"
  | _ => none

/-- `directive`. -/
def directive (p : V3) (n : Nat) (kind : Directive) (rest : Text) : V3 :=
  let (name, _, value) := partition ':' rest
  let line := "line " ++ PyText.ofNat n ++ ": "
  match kind with
  | .controlport =>
    p.warn (line ++ "CONTROLPORT " ++ strip rest ++
      " is not imported (the web UI and REST API take its place)")
  | .default =>
    match v3DefaultNames.lookup name with
    | some d => { p with defaults := dictSet p.defaults d (strip value) }
    | none => p.warn (line ++ "DEFAULT " ++ name ++ " is not imported")
  | .device => { p with devices := dictSet p.devices name (strip value) }
  | .tracefile => { p with tracefiles := dictSet p.tracefiles name (strip value) }
  | kind =>
    let p := (unsupported kind).elim p fun what =>
      p.warn (line ++ kind.text ++ " " ++ name ++ " is not imported (" ++ what ++
        " are not supported here)")
    { p with strings := dictSet p.strings name (kind, value) }

section
variable (env : ImportEnv)

/-- `default`: one default applied to a port. -/
def default (c : Conn) (name : V3Default) (value : Text) : ImportM Conn :=
  let number (set : ConnSerial → Int → ConnSerial) : ImportM Conn :=
    if PyText.isDigitText value then do
      let n ← int value
      return { c with serial := set c.serial n }
    else pure c
  match name with
  | .ignoredLocal | .chardelay => pure c
  | .telnetBrkOnSync =>
    if bool env value = some true then option env c "telnet-brk-on-sync" "true" else pure c
  | .speed => number fun s n => { s with baudrate := n }
  | .databits => number fun s n => { s with bytesize := n }
  | .stopbits => number fun s n => { s with stopbits := n }
  | .parity =>
    pure <| match v3Parity.lookup (env.upper value) with
      | some p => { c with serial := { c.serial with parity := p } }
      | none => c
  | .remaddr => pure (if value = [] then c else remaddr env c value)
  | .maxConnections => option env c "max-connections" value
  | .kickolduser => option env c "kickolduser" value
  | .xonxoff => pure ((bool env value).elim c fun b => { c with xonxoff := b })
  | .rtscts => pure ((bool env value).elim c fun b => { c with rtscts := b })
  | .remctl => pure ((bool env value).elim c fun b => { c with remctl := b })
  | .hangupWhenDone =>
    pure ((bool env value).elim c fun b =>
      { c with advanced := { c.advanced with hangupWhenDone := some b } })
  | .nobreak =>
    pure ((bool env value).elim c fun b =>
      { c with advanced := { c.advanced with nobreak := some b } })

/-- `[5-8]DATABITS`. -/
def dataBits : Text → Option Int
  | c :: rest =>
    if '5' ≤ c ∧ c ≤ '8' ∧ rest = ("DATABITS" : Text) then some (digit c) else none
  | [] => none

/-- `serial`: the serial keywords; `none` is `False`. -/
def serial (c : Conn) (tok : Text) : ImportM (Option Conn) :=
  let base := tok.dropWhile (· = '-')
  let on := !startsWith tok ['-']
  if PyText.isDigitText tok then do
    let n ← int tok
    return some { c with serial := { c.serial with baudrate := n } }
  else if tok = "1STOPBIT" then pure (some { c with serial := { c.serial with stopbits := 1 } })
  else if tok = "2STOPBITS" then pure (some { c with serial := { c.serial with stopbits := 2 } })
  else
    match dataBits tok with
    | some d => pure (some { c with serial := { c.serial with bytesize := d } })
    | none =>
      match v3Parity.lookup tok with
      | some p => pure (some { c with serial := { c.serial with parity := p } })
      | none =>
        pure <|
          if base = "XONXOFF" then some { c with xonxoff := on }
          else if base = "RTSCTS" then some { c with rtscts := on }
          else if base = "HANGUP_WHEN_DONE" then
            some { c with advanced := { c.advanced with hangupWhenDone := some on } }
          else if base = "NOBREAK" then
            some { c with advanced := { c.advanced with nobreak := some on } }
          else if base = "LOCAL" then
            some (if on then c
              else c.note "-LOCAL (watching the modem control lines) is not imported")
          else none

/-- `(?:(tr|tw|tb)-)?(hexdump|timestamp)`. -/
def modMatch (t : Text) : Option (Option TraceKind × TraceMod) :=
  ([("hexdump", (none, .hexdump)), ("timestamp", (none, .timestamp)),
    ("tr-hexdump", (some .read, .hexdump)), ("tr-timestamp", (some .read, .timestamp)),
    ("tw-hexdump", (some .write, .hexdump)), ("tw-timestamp", (some .write, .timestamp)),
    ("tb-hexdump", (some .both, .hexdump)), ("tb-timestamp", (some .both, .timestamp))] :
      List (Text × Option TraceKind × TraceMod)).lookup t

/-- The keywords of `option` without a value. -/
def plainOption (c : Conn) (base : Text) (on : Bool) : ImportM (Option Conn) :=
  if base = "remctl" then pure (some { c with remctl := on })
  else if base = "kickolduser" then
    pure (some { c with network := { c.network with kickOldUser := some on } })
  else
    match modMatch base with
    | some m => pure (some { c with traceMods := dictSet c.traceMods m on })
    | none =>
      if base = "telnet_brk_on_sync" then
        if on then do return some (← option env c "telnet-brk-on-sync" "true") else pure (some c)
      else pure (if base = "chardelay" then some c else none)

/-- The keywords that are dropped. -/
def droppedKeywords : List Text :=
  ["chardelay-scale", "chardelay-min", "chardelay-max", "dev-to-net-bufsize",
    "net-to-dev-bufsize", "dev-to-tcp-bufsize", "tcp-to-dev-bufsize"]

/-- The keywords of `option` with a value. -/
def valueOption (p : V3) (c : Conn) (tok name value : Text) : ImportM (Option Conn) :=
  match v3Trace.lookup name with
  | some kind =>
    pure <| some <| match p.tracefiles.lookup value with
      | some file => { c with traces := dictSet c.traces kind file }
      | none => c.note (tok ++ ": there is no TRACEFILE named " ++ value)
  | none =>
    if name = "rs485" then
      pure (some (c.note (tok ++
        " is not imported: set RS-485 in the mapping's serial settings")))
    else if name = "max-connections" then do return some (← option env c name value)
    else if name = "remaddr" then pure (some (remaddr env c value))
    else if droppedKeywords.contains name then pure (some (c.drop name))
    else pure (if name = "led-rx" || name = "led-tx" then some c else none)

/-- `option`: the connection keywords; `none` is `False`. -/
def option (p : V3) (c : Conn) (tok : Text) : ImportM (Option Conn) :=
  let (name, eq, value) := partition '=' tok
  if eq then p.valueOption env c tok name value
  else plainOption env c (name.dropWhile (· = '-')) (!startsWith name ['-'])

/-- The string option that a directive defines. -/
def stringKey : Directive → Option StringKey
  | .banner => some .banner
  | .openstr => some .openstr
  | .closestr => some .closestr
  | .closeon => some .closeon
  | _ => none

/-- A keyword that names a string. -/
def named (c : Conn) (tok : Text) (kind : Directive) (value : Text) : Conn :=
  match stringKey kind with
  | some k => { c with strings := dictSet c.strings k value }
  | none =>
    if kind = .rs485conf then
      c.note ("RS485CONF " ++ tok ++
        " is not imported: set RS-485 in the mapping's serial settings")
    else c

/-- `token`. -/
def token (p : V3) (c : Conn) (tok : Text) : ImportM Conn := do
  match ← serial c tok with
  | some c => return c
  | none =>
    match ← p.option env c tok with
    | some c => return c
    | none =>
      match p.strings.lookup tok with
      | some (kind, value) => return named c tok kind value
      | none =>
        match ← serial c (env.upper tok) with
        | some c => return c
        | none => return c.note ("unknown option '" ++ tok ++ "' ignored")

/-- `settings`. -/
def settings (p : V3) (c : Conn) (state : PortState) (timeout device options : Text) :
    ImportM Conn := do
  let protocol := if state = .telnet then Protocol.telnet else .raw
  let c := { c with
    device := device
    enabled := state ≠ .off
    network := { c.network with protocol := protocol } }
  let c := if state = .rawlp then
      c.note ("rawlp (a printer port without serial settings) is imported as raw; the device " ++
        "is opened as a serial port")
    else c
  let c ← idleTimeout c timeout
  let c ← p.defaults.foldlM (fun c (d : V3Default × Text) => default env c d.1 d.2) c
  let c ← (PyText.words options).foldlM (p.token env) c
  return if c.remctl then
      if state = .telnet then { c with network := { c.network with protocol := .rfc2217 } }
      else c.note "remctl (RFC2217) needs a telnet port: ignored"
    else c

/-- The mode and the address fields of a port. -/
def portFields (fields : List Text) : Mode × List Text :=
  (if fields.any fun f => env.lower (strip f) = "udp" then .udp else .server,
    fields.filter fun f => !(["udp", "tcp"] : List Text).contains (env.lower (strip f)))

/-- `port`: the connection, and whether it is imported. -/
def makeConn (p : V3) (n : Nat) (m : StateMatch) : ImportM (Bool × Conn) := do
  let (timeout, _, rest) := partition ':' m.after
  let (device, _, options) := partition ':' rest
  let device := (p.devices.lookup (strip device)).getD (strip device)
  let (mode, fields) := portFields env (m.before.splitOn ',')
  let c : Conn := {
    name := []
    label := "line " ++ PyText.ofNat n
    v3 := true
    network := { mode := mode } }
  let (ok, c) ← listenAddress env c fields
  if ok then
    let base : Text := if c.network.mode = .udp then "ser2net-udp-" else "ser2net-"
    let name := base ++ PyText.ofInt c.network.port
    let c := { c with name := name, label := name ++ " (line " ++ PyText.ofNat n ++ ")" }
    if device = [] then return (false, c.skip "no device")
    else if startsWith device "sol." || device.contains ' ' then
      return (false, c.skip "IPMI serial-over-LAN connections are not imported")
    else do
      let c ← p.settings env c m.state timeout device options
      return (true, finish env c)
  else return (false, c)

/-- `port`. -/
def port (p : V3) (n : Nat) (m : StateMatch) : ImportM V3 := do
  let (imported, c) ← p.makeConn env n m
  return { p with
    conns := if imported then p.conns ++ [c] else p.conns
    warnings := p.warnings ++ notes c imported }

/-- One line of `_from_v3`. -/
def line (p : V3) (l : Nat × Text) : ImportM V3 :=
  match directiveMatch l.2, stateMatch l.2 with
  | some (kind, rest), _ => pure (p.directive l.1 kind rest)
  | none, some m => p.port env l.1 m
  | none, none => pure (p.warn ("line " ++ PyText.ofNat l.1 ++ ": not a ser2net.conf line, ignored"))

end

end V3

/-- `_from_v3`. -/
def fromV3 (env : ImportEnv) (lines : List (Nat × Text)) : ImportM (List Conn × List Text) := do
  let p ← lines.foldlM (V3.line env) {}
  return (p.conns, p.warnings)

end Ser2Net.Import
