import Ser2Net.Lib.Trace
import Ser2Net.Engine.Telnet

namespace Ser2Net.Engine.Rfc2217

open Ser2Net.Lib Ser2Net.Engine.Telnet

/-!
# Engine — the RFC 2217 session (`app/engine/protocols/rfc2217.py`, over `PortManager` of pyserial)

A telnet client that may also set the port: speed, framing, flow control, control lines.  The
port is any `Backend`; the session sees it through `_ModemSafeSerial`, which on a read-only
mapping drops every change.

* `PortOp`, `Backend`, `modemSafe` — what can be done to a port, and the proxy;
* `Session` — the filter's state, the telnet options, the modem state told last;
* `filterByte`, `fromNetwork`, `poll` — the methods;
* `filter_tokens` — however the encoding of tokens is cut, the session returns the data and
  acts on the other tokens one after another;
* `Keeps` — what survives everything that a session does; `keeps_run` — survives a run;
* `read_only_run`, `client_reads`, `poll_tells` — over any run: a read-only client does not change
  the port, a telnet client reads just what the device sent, and it is told the modem lines;
* `answer_setting` — a request to set something is answered by what the port has afterwards.
-/

/-! ### The port -/

/-- The exceptions that the session's code tells apart, or raises itself. -/
inductive Exc
  | valueError | keyError | typeError | structError
  /-- any other exception of the driver -/
  | other
  deriving DecidableEq, Repr

inductive Parity
  | none | odd | even | mark | space
  deriving DecidableEq, Repr

inductive Stopbits
  | one | onePointFive | two
  deriving DecidableEq, Repr

/-- `RFC2217_PARITY_MAP`. -/
def Parity.code : Parity → UInt8
  | none => 1
  | odd => 2
  | even => 3
  | mark => 4
  | space => 5

/-- `RFC2217_STOPBIT_MAP`. -/
def Stopbits.code : Stopbits → UInt8
  | one => 1
  | onePointFive => 3
  | two => 2

/-- `RFC2217_REVERSE_PARITY_MAP`. -/
def Parity.ofCode? (n : Nat) : Option Parity :=
  [Parity.none, .odd, .even, .mark, .space].find? fun p => p.code.toNat = n

/-- `RFC2217_REVERSE_STOPBIT_MAP`. -/
def Stopbits.ofCode? (n : Nat) : Option Stopbits :=
  [Stopbits.one, .onePointFive, .two].find? fun p => p.code.toNat = n

/-- What a `PortManager` does to its port: it sets an attribute or calls a method. -/
inductive PortOp
  | baudrate (n : Nat)
  | bytesize (n : Nat)
  | parity (p : Parity)
  | stopbits (p : Stopbits)
  | xonxoff (on : Bool)
  | rtscts (on : Bool)
  | rts (on : Bool)
  | dtr (on : Bool)
  | breakCondition (on : Bool)
  | resetInputBuffer
  | resetOutputBuffer
  deriving DecidableEq, Repr

/-- The name of the attribute or the method. -/
def PortOp.name : PortOp → String
  | baudrate _ => "baudrate"
  | bytesize _ => "bytesize"
  | parity _ => "parity"
  | stopbits _ => "stopbits"
  | xonxoff _ => "xonxoff"
  | rtscts _ => "rtscts"
  | rts _ => "rts"
  | dtr _ => "dtr"
  | breakCondition _ => "break_condition"
  | resetInputBuffer => "reset_input_buffer"
  | resetOutputBuffer => "reset_output_buffer"

/-- A port and its driver: what an operation makes of it, also one that raises, and what it
    reads.  Reading a modem line can raise. -/
structure Backend (σ : Type) where
  apply : σ → PortOp → σ × Option Exc
  baudrate : σ → Nat
  bytesize : σ → Nat
  parity : σ → Parity
  stopbits : σ → Stopbits
  xonxoff : σ → Bool
  rtscts : σ → Bool
  cts : σ → Option Bool
  dsr : σ → Option Bool
  ri : σ → Option Bool
  cd : σ → Option Bool

/-- `_LINE_WRITES`. -/
def lineWrites : List String := ["rts", "dtr", "break_condition"]

/-- `_CONFIG_WRITES`. -/
def configWrites : List String :=
  ["baudrate", "bytesize", "parity", "stopbits", "xonxoff", "rtscts", "dsrdtr"]

/-- `_RO_BLOCKED_WRITES`. -/
def roBlockedWrites : List String := configWrites ++ lineWrites

/-- `_RO_BLOCKED_CALLS`. -/
def roBlockedCalls : List String :=
  ["write", "flush", "reset_input_buffer", "reset_output_buffer", "flushInput", "flushOutput",
    "send_break", "setRTS", "setDTR", "setBreak"]

/-- `_ModemSafeSerial`: a modem line that cannot be read is off, a control line that cannot be
    set stays, and on a read-only mapping nothing is changed. -/
def modemSafe {σ : Type} (readOnly : Bool) (b : Backend σ) : Backend σ :=
  { b with
    apply := fun p op =>
      if readOnly && (roBlockedWrites.contains op.name || roBlockedCalls.contains op.name) then
        (p, none)
      else if lineWrites.contains op.name then ((b.apply p op).1, none)
      else b.apply p op
    cts := fun p => some ((b.cts p).getD false)
    dsr := fun p => some ((b.dsr p).getD false)
    ri := fun p => some ((b.ri p).getD false)
    cd := fun p => some ((b.cd p).getD false) }

/-- A port as a plain record. -/
structure PlainPort where
  baudrate : Nat
  bytesize : Nat
  parity : Parity
  stopbits : Stopbits
  xonxoff : Bool
  rtscts : Bool
  cts : Bool
  deriving DecidableEq, Repr

/-- A driver that knows speeds up to 115200; as in pyserial the attribute is set before the driver
    is asked. -/
def plainDriver : Backend PlainPort where
  apply p
    | .baudrate n => ({ p with baudrate := n }, if n ≤ 115200 then none else some .valueError)
    | .bytesize n => if n ∈ [5, 6, 7, 8] then ({ p with bytesize := n }, none) else (p, some .valueError)
    | .parity v => ({ p with parity := v }, none)
    | .stopbits v => ({ p with stopbits := v }, none)
    | .xonxoff on => ({ p with xonxoff := on }, none)
    | .rtscts on => ({ p with rtscts := on }, none)
    | _ => (p, none)
  baudrate p := p.baudrate
  bytesize p := p.bytesize
  parity p := p.parity
  stopbits p := p.stopbits
  xonxoff p := p.xonxoff
  rtscts p := p.rtscts
  cts p := some p.cts
  -- this driver has no other modem lines
  dsr _ := none
  ri _ := none
  cd _ := none

/-- 9600 8N1. -/
def plainPort : PlainPort := ⟨9600, 8, .none, .one, false, false, true⟩

/-! ### The session -/

/-- The values of `mode`. -/
inductive Mode
  | normal | iacSeen | negotiate
  deriving DecidableEq, Repr

/-- The values of `TelnetOption.state`. -/
inductive OptionState
  | requested | active | inactive | reallyInactive
  deriving DecidableEq, Repr

/-- A `TelnetOption`; `callback` for one whose activation calls `_client_ok`. -/
structure TelnetOption where
  option : UInt8
  sendYes : UInt8
  sendNo : UInt8
  ackYes : UInt8
  ackNo : UInt8
  state : OptionState
  active : Bool
  callback : Bool
  deriving DecidableEq, Repr

/-- A `PortManager` with its connection and its port.  `failed` is the exception that ended
    `filter`, for which the bridge drops the client; `notified` are the modem states sent and
    `masked` tells that a mask for them has been set, which no code reads. -/
structure Session (σ : Type) where
  port : σ
  buf : Bytes
  mode : Mode
  suboption : Option Bytes
  telnetCommand : UInt8
  modemstateMask : UInt8
  lastModemstate : Option UInt8
  linestateMask : UInt8
  clientIsRfc2217 : Bool
  telnetOptions : List TelnetOption
  failed : Option Exc
  notified : List UInt8
  masked : Bool

/-- `ECHO`. -/
def optEcho : UInt8 := 1

/-- `COM_PORT_OPTION`. -/
def comPortOption : UInt8 := 44

/-- `SERVER_NOTIFY_MODEMSTATE`. -/
def serverNotifyModemstate : UInt8 := 107

/-- `_telnet_options` of `__init__`. -/
def initialOptions : List TelnetOption :=
  [⟨optEcho, will, wont, do_, dont, .requested, false, false⟩,
    ⟨optSga, will, wont, do_, dont, .requested, false, false⟩,
    ⟨optSga, do_, dont, will, wont, .inactive, false, false⟩,
    ⟨optBinary, will, wont, do_, dont, .inactive, false, false⟩,
    ⟨optBinary, do_, dont, will, wont, .requested, false, false⟩,
    ⟨comPortOption, will, wont, do_, dont, .requested, false, true⟩,
    ⟨comPortOption, do_, dont, will, wont, .inactive, false, true⟩]

namespace Session

variable {σ : Type}

/-- `telnet_send_option` -/
def telnetSendOption (s : Session σ) (action option : UInt8) : Session σ :=
  { s with buf := s.buf ++ [iac, action, option] }

/-- `rfc2217_send_subnegotiation` -/
def sendSubnegotiation (s : Session σ) (option : UInt8) (value : Bytes) : Session σ :=
  { s with
    buf := s.buf ++ ([iac, sb, comPortOption, option] ++ value.flatMap escape ++ [iac, se]) }

/-- `raise` -/
def raise (s : Session σ) (e : Exc) : Session σ := { s with failed := some e }

/-- `__init__`: the requests for the options that are wanted. -/
def init (port : σ) : Session σ :=
  initialOptions.foldl
    (fun s o => if o.state = .requested then s.telnetSendOption o.sendYes o.option else s)
    ⟨port, [], .normal, none, 0, 255, none, 0, false, initialOptions, none, [], false⟩

section
variable (b : Backend σ)

/-- The modem lines, as the high bits of a modem state. -/
def modemLines (p : σ) : UInt8 :=
  (if (b.cts p).getD false then 16 else 0) ||| (if (b.dsr p).getD false then 32 else 0) |||
    (if (b.ri p).getD false then 64 else 0) ||| (if (b.cd p).getD false then 128 else 0)

/-- The low bits: which lines have changed. -/
def modemDeltas (lines last : UInt8) : UInt8 :=
  let deltas := lines ^^^ last
  (if deltas &&& 16 ≠ 0 then 1 else 0) ||| (if deltas &&& 32 ≠ 0 then 2 else 0) |||
    (if deltas &&& 64 ≠ 0 then 4 else 0) ||| (if deltas &&& 128 ≠ 0 then 8 else 0)

/-- `check_modem_lines` -/
def checkModemLines (s : Session σ) (force : Bool) : Session σ :=
  let lines := modemLines b s.port
  let modemstate := lines ||| modemDeltas lines (s.lastModemstate.getD 0)
  if s.lastModemstate ≠ some modemstate || force then
    let told := modemstate &&& s.modemstateMask
    let s :=
      if s.clientIsRfc2217 && told ≠ 0 || force then
        { s.sendSubnegotiation serverNotifyModemstate [told] with
          notified := s.notified ++ [told] }
      else s
    { s with lastModemstate := some (modemstate &&& 0xf0) }
  else s

/-- `_client_ok` -/
def clientOk (s : Session σ) : Session σ :=
  checkModemLines b { s with clientIsRfc2217 := true } true

/-- `process_incoming` of an option: the option, what it answers, and whether it is activated. -/
def processIncoming (o : TelnetOption) (command : UInt8) : TelnetOption × Option UInt8 × Bool :=
  if command = o.ackYes then
    match o.state with
    | .requested => ({ o with state := .active, active := true }, none, true)
    | .active => (o, none, false)
    | .inactive => ({ o with state := .active, active := true }, some o.sendYes, true)
    | .reallyInactive => (o, some o.sendNo, false)
  else if command = o.ackNo then
    match o.state with
    | .requested => ({ o with state := .inactive, active := false }, none, false)
    | .active => ({ o with state := .inactive, active := false }, some o.sendNo, false)
    | .inactive | .reallyInactive => (o, none, false)
  else (o, none, false)

/-- What an option does to the session. -/
def tell (s : Session σ) (o : TelnetOption) (answer : Option UInt8) (activated : Bool) :
    Session σ :=
  let s := (answer.map fun action => s.telnetSendOption action o.option).getD s
  if activated && o.callback then clientOk b s else s

/-- The loop of `_telnet_negotiate_option` over the options. -/
def negotiateItems (command option : UInt8) :
    List TelnetOption → Session σ → List TelnetOption × Session σ
  | [], s => ([], s)
  | o :: rest, s =>
    if o.option = option then
      let r := processIncoming o command
      let s := tell b s o r.2.1 r.2.2
      let below := negotiateItems command option rest s
      (r.1 :: below.1, below.2)
    else
      let below := negotiateItems command option rest s
      (o :: below.1, below.2)

/-- `_telnet_negotiate_option` -/
def negotiateOption (s : Session σ) (command option : UInt8) : Session σ :=
  if s.telnetOptions.any (·.option = option) then
    let r := negotiateItems b command option s.telnetOptions s
    { r.2 with telnetOptions := r.1 }
  else if command = will then s.telnetSendOption dont option
  else if command = do_ then s.telnetSendOption wont option
  else s

/-- An operation on the port; an exception ends the session. -/
def perform (s : Session σ) (op : PortOp) : Session σ :=
  let r := b.apply s.port op
  { s with port := r.1, failed := r.2 }

/-- Operations on the port, up to the first that raises. -/
def performAll (s : Session σ) : List PortOp → Session σ
  | [] => s
  | op :: ops =>
    let s := perform b s op
    if s.failed = none then performAll s ops else s

/-- An answer, unless the session has ended. -/
def sendAnswer (s : Session σ) (option : UInt8) : Except Exc Bytes → Session σ
  | .ok value => if s.failed = none then s.sendSubnegotiation option value else s
  | .error e => if s.failed = none then s.raise e else s

/-- What SET-BAUDRATE, SET-DATASIZE, SET-PARITY and SET-STOPSIZE have in common: `value` is what
    was unpacked, `assign` what it sets, `backup` what undoes it, `current` what the answer tells
    of the port. -/
def setSetting (s : Session σ) (value : Except Exc Nat) (assign : Nat → Except Exc PortOp)
    (backup : PortOp) (option : UInt8) (current : σ → Except Exc Bytes) : Session σ :=
  match value with
  | .error e => s.raise e
  | .ok 0 => s.sendAnswer option (current s.port)
  | .ok n =>
    match assign n with
    | .error e => s.raise e
    | .ok op =>
      let t := perform b s op
      -- only a `ValueError` is caught
      let t := if t.failed = some .valueError then perform b { t with failed := none } backup else t
      t.sendAnswer option (current t.port)

/-- `struct.unpack("!B", …)` -/
def unpackB : Bytes → Except Exc Nat
  | [x] => .ok x.toNat
  | _ => .error .structError

/-- `struct.unpack("!I", …)` -/
def unpackI (data : Bytes) : Except Exc Nat :=
  if data.length = 4 then .ok (data.foldl (fun n x => n * 256 + x.toNat) 0)
  else .error .structError

/-- `struct.pack("!B", …)` -/
def packB (n : Nat) : Except Exc Bytes :=
  if n < 256 then .ok [UInt8.ofNat n] else .error .structError

/-- `struct.pack("!I", …)` -/
def packI (n : Nat) : Except Exc Bytes :=
  if n < 2 ^ 32 then
    .ok [UInt8.ofNat (n / 2 ^ 24), UInt8.ofNat (n / 2 ^ 16), UInt8.ofNat (n / 2 ^ 8), UInt8.ofNat n]
  else .error .structError

/-- `self.serial.parity = RFC2217_REVERSE_PARITY_MAP[parity]` -/
def assignParity (n : Nat) : Except Exc PortOp :=
  match Parity.ofCode? n with
  | some p => .ok (.parity p)
  | none => .error .keyError

/-- `self.serial.stopbits = RFC2217_REVERSE_STOPBIT_MAP[stopbits]` -/
def assignStopbits (n : Nat) : Except Exc PortOp :=
  match Stopbits.ofCode? n with
  | some p => .ok (.stopbits p)
  | none => .error .keyError

/-- SET-CONTROL: what a code does, for those that are answered by themselves.  The others, the
    questions for BREAK, DTR and RTS among them, do nothing. -/
def controlOps (code : UInt8) : Option (List PortOp) :=
  match code.toNat with
  | 1 => some [.xonxoff false, .rtscts false]
  | 2 => some [.xonxoff true]
  | 3 => some [.rtscts true]
  | 5 => some [.breakCondition true]
  | 6 => some [.breakCondition false]
  | 8 => some [.dtr true]
  | 9 => some [.dtr false]
  | 11 => some [.rts true]
  | 12 => some [.rts false]
  | _ => none

/-- PURGE-DATA: what a code does. -/
def purgeOps (code : UInt8) : Option (List PortOp) :=
  match code.toNat with
  | 1 => some [.resetInputBuffer]
  | 2 => some [.resetOutputBuffer]
  | 3 => some [.resetInputBuffer, .resetOutputBuffer]
  | _ => none

/-- The flow control of a port, as SET-CONTROL tells it. -/
def flowControl (p : σ) : UInt8 := if b.xonxoff p then 2 else if b.rtscts p then 3 else 1

/-- Operations on the port, answered by the code they were asked for with. -/
def carryOut (s : Session σ) (option code : UInt8) : Option (List PortOp) → Session σ
  | some ops => (performAll b s ops).sendAnswer option (.ok [code])
  | none => s

/-- A mask; `ord` of nothing raises. -/
def maskOf (s : Session σ) (value : Bytes) (set : UInt8 → Session σ) : Session σ :=
  match value with
  | [x] => set x
  | _ => s.raise .typeError

/-- `_telnet_process_subnegotiation`, by the command of the suboption. -/
def comPort (s : Session σ) (suboption : Bytes) : Session σ :=
  let value := (suboption.drop 2).take 1
  match suboption.drop 1 with
  | [] => s
  | command :: _ =>
    match command.toNat with
    | 1 =>
      setSetting b s (unpackI ((suboption.drop 2).take 4)) (fun n => .ok (.baudrate n))
        (.baudrate (b.baudrate s.port)) 101 fun p => packI (b.baudrate p)
    | 2 =>
      setSetting b s (unpackB value) (fun n => .ok (.bytesize n))
        (.bytesize (b.bytesize s.port)) 102 fun p => packB (b.bytesize p)
    | 3 =>
      setSetting b s (unpackB value) assignParity (.parity (b.parity s.port)) 103
        fun p => .ok [(b.parity p).code]
    | 4 =>
      setSetting b s (unpackB value) assignStopbits (.stopbits (b.stopbits s.port)) 104
        fun p => .ok [(b.stopbits p).code]
    | 5 =>
      match value with
      | [0] => s.sendSubnegotiation 105 [flowControl b s.port]
      | [code] => carryOut b s 105 code (controlOps code)
      | _ => s
    | 6 => s.sendSubnegotiation 106 [0]
    | 7 => checkModemLines b s true
    | 10 => maskOf s value fun mask => { s with linestateMask := mask }
    | 11 => maskOf s value fun mask => { s with modemstateMask := mask, masked := true }
    | 12 =>
      match value with
      | [code] => carryOut b s 112 code (purgeOps code)
      | _ => s
    -- suspend and resume set a flag that nothing reads
    | _ => s

/-- `_telnet_process_subnegotiation` -/
def processSubnegotiation (s : Session σ) (suboption : Bytes) : Session σ :=
  if suboption.take 1 = [comPortOption] then comPort b s suboption else s

/-- A byte of content: into the suboption, where there is one, or on to the port. -/
def content (s : Session σ) (byte : UInt8) : Session σ × Bytes :=
  match s.suboption with
  | some sub => ({ s with suboption := some (sub ++ [byte]) }, [])
  | none => (s, [byte])

/-- `IAC SE`; `bytes(None)` raises. -/
def endSuboption (s : Session σ) : Session σ :=
  match s.suboption with
  | none => s.raise .typeError
  | some sub => { processSubnegotiation b s sub with suboption := none, mode := .normal }

/-- One byte of the loop of `filter`.  After an exception there is no loop. -/
def filterByte (s : Session σ) (byte : UInt8) : Session σ × Bytes :=
  if s.failed ≠ none then (s, [])
  else
    match s.mode with
    | .normal => if byte = iac then ({ s with mode := .iacSeen }, []) else content s byte
    | .iacSeen =>
      if byte = iac then content { s with mode := .normal } byte
      else if byte = sb then ({ s with suboption := some [], mode := .normal }, [])
      else if byte = se then (endSuboption b s, [])
      else if byte ∈ verbs then ({ s with telnetCommand := byte, mode := .negotiate }, [])
      else ({ s with mode := .normal }, [])
    | .negotiate => ({ negotiateOption b s s.telnetCommand byte with mode := .normal }, [])

/-- `from_network`: the session, and what is returned if nothing was raised. -/
def fromNetwork (s : Session σ) (data : Bytes) : Session σ × Bytes := feed (filterByte b) s data

/-- `from_network` on one chunk after the other. -/
def fromNetworkAll (s : Session σ) (chunks : List Bytes) : Session σ × List Bytes :=
  feedAll (filterByte b) s chunks

/-- `take_net_out` -/
def takeNetOut (s : Session σ) : Session σ × Bytes := ({ s with buf := [] }, s.buf)

/-- `poll`, up to its `take_net_out`. -/
def poll (s : Session σ) : Session σ := checkModemLines b s false

end

end Session

/-! ### Reading tokens -/

namespace Session

variable {σ : Type} (b : Backend σ)

/-- What a session at rest makes of a token: `IAC SE` without a beginning is the one command that
    it does not ignore. -/
def act (s : Session σ) : Token → Session σ × Bytes
  | .data x => (s, [x])
  | .option cmd opt _ =>
    ({ negotiateOption b { s with telnetCommand := cmd, mode := .negotiate } cmd opt with
        mode := .normal }, [])
  | .command c _ _ _ => if c = se then ({ s with mode := .iacSeen }.raise .typeError, []) else (s, [])
  | .subnegotiation sub => (endSuboption b { s with suboption := some sub, mode := .iacSeen }, [])

/-- After an exception there is no loop. -/
def readToken (s : Session σ) (t : Token) : Session σ × Bytes :=
  if s.failed ≠ none then (s, []) else act b s t

/-- Between two tokens, or after an exception. -/
def Rest (s : Session σ) : Prop := s.failed = none → s.mode = .normal ∧ s.suboption = none

variable {b}

/-- After an exception the filter is not called again. -/
theorem feed_failed {s : Session σ} (hs : s.failed ≠ none) (data : Bytes) :
    feed (filterByte b) s data = (s, []) := by
  induction data with
  | nil => rfl
  | cons x data ih =>
    rw [feed_cons, filterByte, if_pos hs]
    exact ih

/-- The content of a subnegotiation is collected. -/
theorem feed_content {s : Session σ} (hf : s.failed = none) (hm : s.mode = .normal) {sub : Bytes}
    (hsub : s.suboption = some sub) (data : Bytes) :
    feed (filterByte b) s (data.flatMap escape) =
      ({ s with suboption := some (sub ++ data) }, []) := by
  induction data generalizing s sub with
  | nil =>
    rw [List.flatMap_nil, feed_nil, List.append_nil, ← hsub]
  | cons x data ih =>
    have hstep : feed (filterByte b) s (escape x) =
        ({ s with suboption := some (sub ++ [x]) }, []) := by
      by_cases hx : x = iac
      · simp [escape, hx, feed_cons, filterByte, hf, hm, content, hsub]
      · simp [escape, hx, feed_cons, filterByte, hf, hm, content, hsub]
    have hrest := ih (s := { s with suboption := some (sub ++ [x]) }) hf hm rfl
    rw [List.flatMap_cons, feed_append, hstep, hrest]
    simp

/-! ### What a negotiation does -/

/-- The verbs of an option are verbs. -/
def Sends (o : TelnetOption) : Prop := o.sendYes ∈ verbs ∧ o.sendNo ∈ verbs

/-- An option answers with its own commands. -/
theorem processIncoming_answer {o : TelnetOption} (ho : Sends o) (command : UInt8) :
    Sends (processIncoming o command).1 ∧
      ∀ action ∈ (processIncoming o command).2.1, action ∈ verbs := by
  unfold processIncoming
  split_ifs
  · cases o.state <;> simp_all [Sends]
  · cases o.state <;> simp_all [Sends]
  · simp_all

/-- What the answers and the notification of an agreement keep, the loop over the options keeps. -/
theorem negotiateItems_keeps {P : Session σ → Prop}
    (hsend : ∀ s action option, action ∈ verbs → P s → P (telnetSendOption s action option))
    (hok : ∀ s, P s → P (clientOk b s)) (command option : UInt8) {items : List TelnetOption}
    (hitems : ∀ o ∈ items, Sends o) {s : Session σ} (hs : P s) :
    (∀ o ∈ (negotiateItems b command option items s).1, Sends o) ∧
      P (negotiateItems b command option items s).2 := by
  -- the options are asked in turn, each sees the session the ones before it left
  induction items generalizing s with
  | nil => exact ⟨hitems, hs⟩
  | cons o rest ih =>
    obtain ⟨ho, hrest⟩ := List.forall_mem_cons.1 hitems
    simp only [negotiateItems]
    split_ifs
    · obtain ⟨hsends, hverbs⟩ := processIncoming_answer ho command
      have htell : P (tell b s o (processIncoming o command).2.1 (processIncoming o command).2.2) := by
        have hanswer : P (((processIncoming o command).2.1.map fun action =>
            s.telnetSendOption action o.option).getD s) := by
          cases hans : (processIncoming o command).2.1 with
          | none => exact hs
          | some action => exact hsend s action o.option (hverbs action hans) hs
        -- `client_ok` is told once the option is agreed
        unfold tell
        split_ifs
        · exact hok _ hanswer
        · exact hanswer
      obtain ⟨hall, hP⟩ := ih hrest htell
      exact ⟨List.forall_mem_cons.2 ⟨hsends, hall⟩, hP⟩
    · obtain ⟨hall, hP⟩ := ih hrest hs
      exact ⟨List.forall_mem_cons.2 ⟨ho, hall⟩, hP⟩

/-- What survives the answers and the activation survives a negotiation. -/
theorem negotiateOption_keeps {P : Session σ → Prop}
    (hsend : ∀ s action option, action ∈ verbs → P s → P (telnetSendOption s action option))
    (hok : ∀ s, P s → P (clientOk b s))
    (hoptions : ∀ s items, (∀ o ∈ items, Sends o) → P s → P { s with telnetOptions := items })
    (command option : UInt8) {s : Session σ} (hsends : ∀ o ∈ s.telnetOptions, Sends o) (hs : P s) :
    P (negotiateOption b s command option) := by
  unfold negotiateOption
  split_ifs
  · obtain ⟨hitems, hP⟩ := negotiateItems_keeps hsend hok command option hsends hs
    exact hoptions _ _ hitems hP
  · exact hsend s _ _ (by decide) hs
  · exact hsend s _ _ (by decide) hs
  · exact hs

/-- A modem check writes, and remembers. -/
theorem checkModemLines_frame (s : Session σ) (force : Bool) :
    ∃ buf last notified, checkModemLines b s force =
      { s with buf := buf, lastModemstate := last, notified := notified } := by
  unfold checkModemLines
  dsimp only
  split_ifs
  · exact ⟨_, _, _, rfl⟩
  · exact ⟨s.buf, _, s.notified, rfl⟩
  · exact ⟨s.buf, s.lastModemstate, s.notified, rfl⟩

/-- The activation only writes the modem lines into the buffer. -/
theorem clientOk_frame (s : Session σ) :
    ∃ buf last notified, clientOk b s =
      { s with
        clientIsRfc2217 := true, buf := buf, lastModemstate := last, notified := notified } :=
  checkModemLines_frame _ _

/-- A negotiation leaves the suboption alone. -/
theorem negotiateOption_suboption (s : Session σ) (hsends : ∀ o ∈ s.telnetOptions, Sends o)
    (command option : UInt8) : (negotiateOption b s command option).suboption = s.suboption := by
  refine negotiateOption_keeps (P := fun t => t.suboption = s.suboption) (fun _ _ _ _ h => h) ?_
    (fun _ _ _ h => h) command option hsends rfl
  intro t ht
  obtain ⟨buf, last, notified, heq⟩ := clientOk_frame (b := b) t
  rw [heq]
  exact ht

/-! ### What the session keeps -/

/-- `P` survives everything that a session does. -/
structure Keeps (b : Backend σ) (P : Session σ → Prop) : Prop where
  perform : ∀ s op, P s → P (perform b s op)
  sendOption : ∀ s action option, action ∈ verbs → P s → P (telnetSendOption s action option)
  send : ∀ s option value, option ≠ iac → P s → P (sendSubnegotiation s option value)
  check : ∀ s force, P s → P (checkModemLines b s force)
  agree : ∀ s, P s → P (clientOk b s)
  mask : ∀ s mask, P s → P { s with modemstateMask := mask, masked := true }
  linestate : ∀ s mask, P s → P { s with linestateMask := mask }
  fails : ∀ s failed, P s → P { s with failed := failed }
  options : ∀ s items, (∀ o ∈ items, Sends o) → P s → P { s with telnetOptions := items }
  parser : ∀ s mode suboption telnetCommand, P s →
    P { s with mode := mode, suboption := suboption, telnetCommand := telnetCommand }

namespace Keeps

variable {P : Session σ → Prop}

/-- Operations on the port, one after another. -/
theorem performAll (h : Keeps b P) (ops : List PortOp) {s : Session σ} (hs : P s) :
    P (performAll b s ops) := by
  induction ops generalizing s with
  | nil => exact hs
  | cons op ops ih =>
    have hop := h.perform s op hs
    simp only [Session.performAll]
    split_ifs
    · exact ih hop
    · exact hop

/-- An answer with a value. -/
theorem sendAnswer (h : Keeps b P) {s : Session σ} (hs : P s) {option : UInt8} (hopt : option ≠ iac)
    (value : Except Exc Bytes) : P (s.sendAnswer option value) := by
  unfold Session.sendAnswer
  cases value with
  | ok value =>
    dsimp only
    split_ifs
    · exact h.send s option value hopt hs
    · exact hs
  | error e =>
    dsimp only
    split_ifs
    · exact h.fails s _ hs
    · exact hs

/-- A setting, answered with what it is then. -/
theorem setSetting (h : Keeps b P) {s : Session σ} (hs : P s) (value : Except Exc Nat)
    (assign : Nat → Except Exc PortOp) (backup : PortOp) {option : UInt8} (hopt : option ≠ iac)
    (current : σ → Except Exc Bytes) : P (setSetting b s value assign backup option current) := by
  unfold Session.setSetting
  split
  · exact h.fails s _ hs
  · exact h.sendAnswer hs hopt _
  · split
    · exact h.fails s _ hs
    · refine h.sendAnswer ?_ hopt _
      split_ifs
      · exact h.perform _ _ (h.fails _ _ (h.perform s _ hs))
      · exact h.perform s _ hs

/-- A control of the port, answered with its code. -/
theorem carryOut (h : Keeps b P) {s : Session σ} (hs : P s) {option : UInt8} (hopt : option ≠ iac)
    (code : UInt8) (ops : Option (List PortOp)) : P (carryOut b s option code ops) := by
  cases ops with
  | none => exact hs
  | some ops => exact h.sendAnswer (h.performAll ops hs) hopt (.ok [code])

/-- A COM port command, whichever it is. -/
theorem processSubnegotiation (h : Keeps b P) {s : Session σ} (hs : P s) (sub : Bytes) :
    P (processSubnegotiation b s sub) := by
  unfold Session.processSubnegotiation comPort maskOf
  split_ifs
  swap
  · exact hs
  -- one branch for each command of RFC 2217, in the order of the source
  dsimp only
  split
  · exact hs
  · split
    · exact h.setSetting hs _ _ _ (by decide) _
    · exact h.setSetting hs _ _ _ (by decide) _
    · exact h.setSetting hs _ _ _ (by decide) _
    · exact h.setSetting hs _ _ _ (by decide) _
    · split
      · exact h.send s _ _ (by decide) hs
      · exact h.carryOut hs (by decide) _ _
      · exact hs
    · exact h.send s _ _ (by decide) hs
    · exact h.check s true hs
    · split
      · exact h.linestate s _ hs
      · exact h.fails s _ hs
    · split
      · exact h.mask s _ hs
      · exact h.fails s _ hs
    · split
      · exact h.carryOut hs (by decide) _ _
      -- an unknown command is only logged
      · exact hs
    · exact hs

/-- A negotiation. -/
theorem negotiateOption (h : Keeps b P) {s : Session σ} (hs : P s)
    (hsends : ∀ o ∈ s.telnetOptions, Sends o) (command option : UInt8) :
    P (negotiateOption b s command option) :=
  negotiateOption_keeps h.sendOption h.agree h.options command option hsends hs

/-- **One byte.** -/
theorem filterByte (h : Keeps b P) {s : Session σ} (hs : P s)
    (hsends : ∀ o ∈ s.telnetOptions, Sends o) (byte : UInt8) : P (filterByte b s byte).1 := by
  have hcontent : ∀ t : Session σ, P t → P (content t byte).1 := by
    intro t ht
    unfold content
    split
    · exact h.parser t t.mode _ t.telnetCommand ht
    · exact ht
  unfold Session.filterByte
  -- after an exception the filter takes no further byte
  by_cases hf : s.failed = none
  swap
  · rw [if_pos hf]
    exact hs
  rw [if_neg (not_not.2 hf)]
  cases s.mode with
  | normal =>
    -- the byte is data, or it belongs to the open subnegotiation
    dsimp only
    split_ifs
    · exact h.parser s _ s.suboption s.telnetCommand hs
    · exact hcontent s hs
  | iacSeen =>
    dsimp only
    split_ifs
    · exact hcontent _ (h.parser s .normal s.suboption s.telnetCommand hs)
    · exact h.parser s _ _ s.telnetCommand hs
    · unfold endSuboption
      split
      · exact h.fails s _ hs
      · exact h.parser _ _ _ (Session.processSubnegotiation b s _).telnetCommand
          (h.processSubnegotiation hs _)
    · exact h.parser s _ s.suboption byte hs
    · exact h.parser s _ s.suboption s.telnetCommand hs
  | negotiate =>
    have hdone := h.negotiateOption hs hsends s.telnetCommand byte
    exact h.parser _ .normal (Session.negotiateOption b s s.telnetCommand byte).suboption
      (Session.negotiateOption b s s.telnetCommand byte).telnetCommand hdone

end Keeps

/-- The options keep sending their own commands. -/
theorem keeps_sends : Keeps b fun s => ∀ o ∈ s.telnetOptions, Sends o where
  perform _ _ h := h
  sendOption _ _ _ _ h := h
  send _ _ _ _ h := h
  check s force h := by
    obtain ⟨buf, last, notified, heq⟩ := checkModemLines_frame (b := b) s force
    rw [heq]
    exact h
  agree s h := by
    obtain ⟨buf, last, notified, heq⟩ := clientOk_frame (b := b) s
    rw [heq]
    exact h
  mask _ _ h := h
  linestate _ _ h := h
  fails _ _ h := h
  options _ _ hitems _ := hitems
  parser _ _ _ _ h := h

/-- **A chunk.** -/
theorem Keeps.fromNetwork {P : Session σ → Prop} (h : Keeps b P) {s : Session σ} (hs : P s)
    (hsends : ∀ o ∈ s.telnetOptions, Sends o) (data : Bytes) :
    P (fromNetwork b s data).1 ∧ ∀ o ∈ (fromNetwork b s data).1.telnetOptions, Sends o := by
  have hinv := @feed_invariant _ _ _ (Session.filterByte b)
    fun s => P s ∧ ∀ o ∈ s.telnetOptions, Sends o
  exact hinv (fun s x hs => ⟨h.filterByte hs.1 hs.2 x, keeps_sends.filterByte hs.2 hs.2 x⟩)
    ⟨hs, hsends⟩ data

/-! ### The tokens of a stream -/

/-- Between two tokens, with the options in order. -/
def Ready (s : Session σ) : Prop := Rest s ∧ ∀ o ∈ s.telnetOptions, Sends o

/-- A session at rest is at rest after every token. -/
theorem act_rest (s : Session σ) (hf : s.failed = none) (hs : Ready s) (t : Token) :
    Rest (act b s t).1 := by
  obtain ⟨hrest, hsends⟩ := hs
  cases t with
  | data x => exact hrest
  | option cmd opt h =>
    refine fun _ => ⟨rfl, ?_⟩
    exact (negotiateOption_suboption _ (by exact hsends) cmd opt).trans (hrest hf).2
  | command c hiac hverb hsb =>
    simp only [act]
    split_ifs
    · intro hnone
      simp [raise] at hnone
    · exact hrest
  | subnegotiation sub => exact fun _ => ⟨rfl, rfl⟩

/-- The options after a token. -/
theorem act_sends (s : Session σ) (hsends : ∀ o ∈ s.telnetOptions, Sends o) (t : Token) :
    ∀ o ∈ (act b s t).1.telnetOptions, Sends o := by
  cases t with
  | data x => exact hsends
  | option cmd opt h =>
    exact (keeps_sends (b := b)).negotiateOption (s := { s with telnetCommand := cmd, mode := .negotiate })
      hsends hsends cmd opt
  | command c hiac hverb hsb =>
    simp only [act]
    split_ifs
    · exact hsends
    · exact hsends
  | subnegotiation sub => exact keeps_sends.processSubnegotiation (by exact hsends) sub

/-- A token takes the filter from rest to rest. -/
theorem feed_token (s : Session σ) (t : Token) (hs : Ready s) :
    feed (filterByte b) s t.encode = readToken b s t ∧ Ready (readToken b s t).1 := by
  by_cases hf : s.failed = none
  swap
  -- a session that failed stays as it is, whatever token comes
  · rw [feed_failed hf, readToken, if_pos hf]
    exact ⟨rfl, hs⟩
  rw [readToken, if_neg (not_not.2 hf)]
  refine ⟨?_, act_rest s hf hs t, act_sends s hs.2 t⟩
  obtain ⟨hm, hsub⟩ := hs.1 hf
  have hopen : filterByte b s iac = ({ s with mode := .iacSeen }, []) := by
    simp [filterByte, hf, hm]
  cases t with
  | data x =>
    by_cases hx : x = iac
    -- a data byte 255 is doubled on the wire and read as one
    · simp only [Token.encode, escape, hx, if_true, feed_cons, feed_nil, hopen]
      simp only [filterByte, hf, content, hsub, ← hm, act, ne_eq, not_true_eq_false, if_false, if_true,
        List.append_nil]
      rw [← hsub, ← hf]
      rfl
    · simp [Token.encode, escape, hx, feed_cons, filterByte, hf, hm, content, hsub, act]
  | option cmd opt h =>
    have hiac : cmd ≠ iac := by rintro rfl; exact absurd h (by decide)
    have hsb : cmd ≠ sb := by rintro rfl; exact absurd h (by decide)
    have hse : cmd ≠ se := by rintro rfl; exact absurd h (by decide)
    simp only [Token.encode, feed_cons, feed_nil, hopen]
    simp [filterByte, hf, hiac, hsb, hse, h, act]
  | command c hiac hverb hsb =>
    simp only [Token.encode, feed_cons, feed_nil, hopen]
    -- an end without a beginning is only logged, as the other commands are
    by_cases hc : c = se
    · have hne : ¬ se = iac := by decide
      have hnb : ¬ se = sb := by decide
      simp [filterByte, hf, hc, hne, hnb, endSuboption, hsub, act]
    · simp only [filterByte, hf, hc, hiac, hsb, hverb, ← hm, act, ne_eq, not_true_eq_false, if_false,
        List.append_nil]
      rw [← hf]
  | subnegotiation sub =>
    have hne : ¬ sb = iac := by decide
    have hclose : ∀ t : Session σ, t.failed = none → t.mode = .normal →
        feed (filterByte b) t [iac, se] = (endSuboption b { t with mode := .iacSeen }, []) := by
      intro t htf htm
      have hse : ¬ se = iac := by decide
      have hsb : ¬ se = sb := by decide
      simp [feed_cons, filterByte, htf, htm, hse, hsb]
    have hbegin : feed (filterByte b) s [iac, sb] =
        ({ s with suboption := some [], mode := .normal }, []) := by
      simp only [feed_cons, feed_nil, hopen]
      simp [filterByte, hf, hne]
    -- what is inside is collected byte by byte, then the end carries it out
    have hinside := feed_content (b := b) (s := { s with suboption := some [], mode := .normal })
      hf rfl rfl sub
    rw [Token.encode, feed_append, feed_append, hbegin, hinside, hclose]
    · rfl
    · exact hf
    · rfl

/-- A new session is ready. -/
theorem ready_init (port : σ) : Ready (init port) := by
  refine ⟨fun _ => ⟨rfl, rfl⟩, ?_⟩
  show ∀ o ∈ initialOptions, Sends o
  unfold Sends
  decide

/-- After an exception no token is read. -/
theorem readToken_failed {s : Session σ} (hs : s.failed ≠ none) (tokens : List Token) :
    feed (readToken b) s tokens = (s, []) := by
  induction tokens with
  | nil => rfl
  | cons t tokens ih =>
    rw [feed_cons, readToken, if_pos hs]
    exact ih

/-- A session that does not fail returns the data of all tokens. -/
theorem readTokens_payload {s : Session σ} {tokens : List Token}
    (h : (feed (readToken b) s tokens).1.failed = none) :
    (feed (readToken b) s tokens).2 = tokens.flatMap Token.payload := by
  induction tokens generalizing s with
  | nil => rfl
  | cons t tokens ih =>
    rw [feed_cons] at h ⊢
    rw [List.flatMap_cons, ih h]
    have hs : s.failed = none := by
      by_contra hs
      rw [readToken, if_pos hs, readToken_failed hs] at h
      exact hs h
    rw [readToken, if_neg (not_not.2 hs)]
    cases t with
    | command c hiac hverb hsb =>
      simp only [act]
      split_ifs <;> rfl
    | _ => rfl

end Session

open Session

variable {σ : Type}

/-- **Reading an RFC 2217 stream.**  However the encoding of tokens is cut into chunks, the
    session acts on the tokens one after another, and if none of them raises an exception what it
    returns for the port is exactly the data. -/
theorem filter_tokens (b : Backend σ) (port : σ) (tokens : List Token) (chunks : List Bytes)
    (h : chunks.flatten = tokens.flatMap Token.encode) :
    (fromNetworkAll b (init port) chunks).1 = (feed (readToken b) (init port) tokens).1 ∧
      ((fromNetworkAll b (init port) chunks).1.failed = none →
        (fromNetworkAll b (init port) chunks).2.flatten = tokens.flatMap Token.payload) := by
  have hfeed := feed_encoded (fun s t hs => feed_token (b := b) s t hs) (ready_init port) tokens
  unfold fromNetworkAll
  rw [feedAll_fst, feedAll_snd_flatten, h, hfeed]
  exact ⟨rfl, readTokens_payload⟩

/-- A request for 115200 baud between two bytes of data, cut in the middle of it. -/
theorem filter_tokens_split :
    (fromNetworkAll (modemSafe false plainDriver) (init plainPort)
      [[65, 255, 250, 44, 1, 0], [1, 194, 0, 255, 240, 66]]).2.flatten = [65, 66] := by
  obtain ⟨-, hdata⟩ := filter_tokens (modemSafe false plainDriver) plainPort
    [.data 65, .subnegotiation [44, 1, 0, 1, 194, 0], .data 66]
    [[65, 255, 250, 44, 1, 0], [1, 194, 0, 255, 240, 66]] (by decide)
  exact hdata (by decide)

/-! ### A client over time -/

/-- A session with what has been put into its client's queue.  `fromDevice` remembers what the
    device sent, `outside` the port as it was found or as others have left it. -/
structure Link (σ : Type) where
  session : Session σ
  /-- `_closing` of the client. -/
  closing : Bool
  out : Bytes
  fromDevice : Bytes
  outside : σ

namespace Link

/-- `take_net_out`, into the queue if it has room. -/
def collect (l : Link σ) (room : Bool) : Link σ :=
  { l with
    session := l.session.takeNetOut.1
    out := if room then l.out ++ l.session.takeNetOut.2 else l.out }

/-- `feed_from_serial`.  A client whose queue has no room is dropped. -/
def feedFromSerial (l : Link σ) (data : Bytes) (room : Bool) : Link σ :=
  let l := { l with fromDevice := l.fromDevice ++ data }
  if l.closing then l
  else if data.flatMap escape = [] then l
  else if room then { l with out := l.out ++ data.flatMap escape }
  else { l with closing := true }

/-- `kick`, `request_graceful_close` -/
def close (l : Link σ) : Link σ := { l with closing := true }

/-- The port changes by itself, or by another hand. -/
def change (l : Link σ) (p : σ) : Link σ :=
  { l with session := { l.session with port := p }, outside := p }

/-- A client that has just connected: `initial_net_bytes` goes out first. -/
def init (port : σ) : Link σ := collect ⟨Session.init port, false, [], [], port⟩ true

end Link

/-- What happens next.  `room` says whether the client's queue has a place. -/
inductive Event (σ : Type)
  | received (data : Bytes) (room : Bool)
  | serial (data : Bytes) (room : Bool)
  | poll (room : Bool)
  | close
  | port (p : σ)

/-- One event.  After an exception nothing is collected, and the client is gone.  A client that is
    closing may still read or poll once: its pumps look at `_closing` only between two turns. -/
def step (b : Backend σ) (l : Link σ) : Event σ → Option (Link σ)
  | .received data room =>
    if l.session.failed = none then
      let l := { l with session := (fromNetwork b l.session data).1 }
      some (if l.session.failed = none then l.collect room else l)
    else none
  | .serial data room => some (l.feedFromSerial data room)
  | .poll room =>
    if l.session.failed = none then some ({ l with session := Session.poll b l.session }.collect room)
    else none
  | .close => some l.close
  | .port p => some (l.change p)

/-- What the device sends leaves the session as it is. -/
theorem feedFromSerial_session (l : Link σ) (data : Bytes) (room : Bool) :
    (l.feedFromSerial data room).session = l.session ∧
      (l.feedFromSerial data room).outside = l.outside := by
  unfold Link.feedFromSerial
  dsimp only
  split_ifs <;> exact ⟨rfl, rfl⟩

/-- **Run rule.**  What survives everything that a session does, and the other events, survives a
    run. -/
theorem keeps_run {b : Backend σ} {R : Link σ → Prop}
    (h : ∀ l : Link σ, Keeps b fun s => R { l with session := s })
    (hcollect : ∀ l room, R l → R (l.collect room))
    (hserial : ∀ l data room, R l → R (l.feedFromSerial data room)) (hclose : ∀ l, R l → R l.close)
    (hport : ∀ l p, R l → R (l.change p)) {port : σ} (hinit : R (Link.init port)) {l : Link σ}
    {es : List (Event σ)} (hrun : run (step b) (Link.init port) es = some l) : R l := by
  refine (run_invariant_of_step (fun l => R l ∧ ∀ o ∈ l.session.telnetOptions, Sends o) ?_
    ⟨hinit, (ready_init port).2⟩ hrun).1
  rintro l e l' ⟨hR, hsends⟩ hstep
  -- a chunk from the client, one of the device, a poll, the end, and a change of the port
  cases e with
  | received data room =>
    simp only [step] at hstep
    split_ifs at hstep
    · obtain rfl := Option.some.inj hstep
      obtain ⟨hR', hsends'⟩ := (h l).fromNetwork hR hsends data
      exact ⟨hcollect _ room hR', hsends'⟩
    · obtain rfl := Option.some.inj hstep
      exact (h l).fromNetwork hR hsends data
  | serial data room =>
    obtain rfl := Option.some.inj hstep
    refine ⟨hserial l data room hR, ?_⟩
    rw [(feedFromSerial_session l data room).1]
    exact hsends
  | poll room =>
    simp only [step] at hstep
    split_ifs at hstep
    obtain rfl := Option.some.inj hstep
    exact ⟨hcollect _ room ((h l).check l.session false hR), keeps_sends.check l.session false hsends⟩
  | close =>
    obtain rfl := Option.some.inj hstep
    exact ⟨hclose l hR, hsends⟩
  | port p =>
    obtain rfl := Option.some.inj hstep
    exact ⟨hport l p hR, hsends⟩

/-! ### A read-only mapping -/

/-- A read-only port is left as it is. -/
theorem modemSafe_readOnly (b : Backend σ) (p : σ) (op : PortOp) :
    (modemSafe true b).apply p op = (p, none) := by
  cases op <;> rfl

/-- The port of a read-only mapping never changes. -/
theorem keeps_port (b : Backend σ) (l : Link σ) :
    Keeps (modemSafe true b) fun s => ({ l with session := s } : Link σ).session.port = l.outside where
  perform s op h := by
    simp only [Session.perform, modemSafe_readOnly]
    exact h
  sendOption _ _ _ _ h := h
  send _ _ _ _ h := h
  check s force h := by
    obtain ⟨buf, last, notified, heq⟩ := checkModemLines_frame (b := modemSafe true b) s force
    rw [heq]
    exact h
  agree s h := by
    obtain ⟨buf, last, notified, heq⟩ := clientOk_frame (b := modemSafe true b) s
    rw [heq]
    exact h
  mask _ _ h := h
  linestate _ _ h := h
  fails _ _ h := h
  options _ _ _ h := h
  parser _ _ _ _ h := h

/-- **Read-only.**  Whatever a client of a read-only mapping sends, in any run, the port is as
    it was found or as others have left it. -/
theorem read_only_run (b : Backend σ) (port : σ) {es : List (Event σ)} {l : Link σ}
    (hrun : run (step (modemSafe true b)) (Link.init port) es = some l) :
    l.session.port = l.outside :=
  keeps_run (R := fun l => l.session.port = l.outside) (keeps_port b) (fun _ _ h => h)
    (fun l data room h => by
      obtain ⟨hsession, houtside⟩ := feedFromSerial_session l data room
      rw [hsession, houtside]
      exact h)
    (fun _ h => h) (fun _ _ _ => rfl) rfl hrun

/-- A client asks for 115200 baud. -/
def askSpeed : List (Event PlainPort) :=
  [.received [255, 250, 44, 1, 0, 1, 194, 0, 255, 240] true]

/-- A client of a read-only mapping asks for a speed. -/
theorem read_only_run_askSpeed :
    ∃ l, run (step (modemSafe true plainDriver)) (Link.init plainPort) askSpeed = some l ∧
      l.session.port = plainPort := by
  have hrun : run (step (modemSafe true plainDriver)) (Link.init plainPort) askSpeed = some _ := rfl
  exact ⟨_, hrun, read_only_run plainDriver plainPort hrun⟩

/-! ### What the client is sent -/

/-- The bytes are whole tokens, none of them data. -/
def Replies (bs : Bytes) : Prop :=
  ∃ tokens : List Token, (∀ t ∈ tokens, t.payload = []) ∧ bs = tokens.flatMap Token.encode

/-- An answer that carries no data, behind others. -/
theorem Replies.append {bs : Bytes} (h : Replies bs) {t : Token} (ht : t.payload = []) :
    Replies (bs ++ t.encode) := by
  obtain ⟨tokens, hall, rfl⟩ := h
  refine ⟨tokens ++ [t], ?_, by simp⟩
  simpa [or_imp, forall_and, ht] using hall

/-- A subnegotiation carries no data. -/
theorem sendSubnegotiation_replies {s : Session σ} (h : Replies s.buf) {option : UInt8}
    (hopt : option ≠ iac) (value : Bytes) : Replies (s.sendSubnegotiation option value).buf := by
  have htoken : (Token.subnegotiation ([comPortOption, option] ++ value)).encode =
      [iac, sb, comPortOption, option] ++ value.flatMap escape ++ [iac, se] := by
    have hcom : ¬ comPortOption = iac := by decide
    simp [Token.encode, escape, hcom, hopt]
  rw [sendSubnegotiation, ← htoken]
  exact h.append rfl

/-- A change of the modem lines carries no data. -/
theorem checkModemLines_replies {b : Backend σ} {s : Session σ} (h : Replies s.buf) (force : Bool) :
    Replies (checkModemLines b s force).buf := by
  unfold checkModemLines
  dsimp only
  split_ifs
  · exact sendSubnegotiation_replies h (by decide) _
  · exact h
  · exact h

/-- A negotiation carries no data. -/
theorem telnetSendOption_replies {s : Session σ} (h : Replies s.buf) {action : UInt8}
    (ha : action ∈ verbs) (option : UInt8) : Replies (s.telnetSendOption action option).buf :=
  h.append (t := .option action option ha) rfl

/-- A new session has written negotiations only. -/
theorem replies_init (port : σ) : Replies (Session.init port).buf := by
  have hrequests : ∀ items : List TelnetOption, (∀ o ∈ items, Sends o) → ∀ s : Session σ,
      Replies s.buf → Replies (items.foldl
        (fun s o => if o.state = .requested then s.telnetSendOption o.sendYes o.option else s)
        s).buf := by
    intro items hitems
    induction items with
    | nil => exact fun s h => h
    | cons o items ih =>
      intro s hs
      obtain ⟨ho, hrest⟩ := List.forall_mem_cons.1 hitems
      rw [List.foldl_cons]
      split_ifs
      · exact ih hrest _ (telnetSendOption_replies hs ho.1 _)
      · exact ih hrest s hs
  exact hrequests initialOptions (ready_init port).2 _ ⟨[], by simp, rfl⟩

/-- The queue is whole tokens whose data is what the device sent, up to where the client began to
    close, and what waits in the session is whole tokens without data. -/
def Framed (l : Link σ) : Prop :=
  (∃ tokens : List Token, l.out = tokens.flatMap Token.encode ∧
    tokens.flatMap Token.payload <+: l.fromDevice ∧
    (l.closing = false → tokens.flatMap Token.payload = l.fromDevice)) ∧ Replies l.session.buf

/-- Nothing that a session does breaks into the data. -/
theorem keeps_framed (b : Backend σ) (l : Link σ) :
    Keeps b fun s => Framed { l with session := s } where
  perform _ _ h := h
  sendOption _ _ option ha h := ⟨h.1, telnetSendOption_replies h.2 ha option⟩
  send _ _ value hopt h := ⟨h.1, sendSubnegotiation_replies h.2 hopt value⟩
  check _ force h := ⟨h.1, checkModemLines_replies h.2 force⟩
  agree s h := ⟨h.1, checkModemLines_replies (s := { s with clientIsRfc2217 := true }) h.2 true⟩
  mask _ _ h := h
  linestate _ _ h := h
  fails _ _ h := h
  options _ _ _ h := h
  parser _ _ _ _ h := h

/-- What is collected goes behind the data in one piece. -/
theorem framed_collect {l : Link σ} (h : Framed l) (room : Bool) : Framed (l.collect room) := by
  obtain ⟨⟨tokens, hout, hfront, hall⟩, replies, hnone, hbuf⟩ := h
  refine ⟨?_, [], by simp, rfl⟩
  cases room with
  | false => exact ⟨tokens, hout, hfront, hall⟩
  | true =>
    have hdata : (tokens ++ replies).flatMap Token.payload = tokens.flatMap Token.payload := by
      rw [List.flatMap_append, List.flatMap_eq_nil_iff.2 hnone, List.append_nil]
    refine ⟨tokens ++ replies, ?_, ?_⟩
    · rw [List.flatMap_append, ← hout, ← hbuf]
      rfl
    · rw [hdata]
      exact ⟨hfront, hall⟩

/-- Bytes of the device as tokens: their encoding is their escape. -/
theorem data_tokens (data : Bytes) :
    (data.map Token.data).flatMap Token.encode = data.flatMap escape ∧
      (data.map Token.data).flatMap Token.payload = data := by
  constructor
  · rw [List.flatMap_map]
    rfl
  · rw [List.flatMap_map]
    exact List.flatMap_singleton' data

/-- A chunk of the device goes behind the data in one piece. -/
theorem framed_feedFromSerial {l : Link σ} (h : Framed l) (data : Bytes) (room : Bool) :
    Framed (l.feedFromSerial data room) := by
  obtain ⟨⟨tokens, hout, hfront, hall⟩, hbuf⟩ := h
  have hlonger : tokens.flatMap Token.payload <+: l.fromDevice ++ data :=
    hfront.trans (List.prefix_append _ _)
  obtain ⟨hencode, hpayload⟩ := data_tokens data
  unfold Link.feedFromSerial
  dsimp only
  split_ifs with hclosing hempty hroom
  -- a closed connection takes the chunk from the device and sends nothing of it
  · exact ⟨⟨tokens, hout, hlonger, fun hopen => absurd hopen (by simp [hclosing])⟩, hbuf⟩
  · -- only no data at all has an empty escape
    have hdata : data = [] := by
      cases data with
      | nil => rfl
      | cons x data =>
        rw [List.flatMap_cons, List.append_eq_nil_iff, escape] at hempty
        split_ifs at hempty <;> cases hempty.1
    subst hdata
    exact ⟨⟨tokens, hout, hlonger, fun hopen => by rw [hall hopen, List.append_nil]⟩, hbuf⟩
  · have hsent : (tokens ++ data.map Token.data).flatMap Token.payload = l.fromDevice ++ data := by
      rw [List.flatMap_append, hall (by simpa using hclosing), hpayload]
    refine ⟨⟨tokens ++ data.map Token.data, ?_, hsent ▸ List.prefix_refl _, fun _ => hsent⟩, hbuf⟩
    rw [List.flatMap_append, ← hout, hencode]
  · exact ⟨⟨tokens, hout, hlonger, fun hopen => absurd hopen (by simp)⟩, hbuf⟩

/-- Every state of a run is framed. -/
theorem framed_run (b : Backend σ) (port : σ) {es : List (Event σ)} {l : Link σ}
    (hrun : run (step b) (Link.init port) es = some l) : Framed l := by
  have hinit : Framed (Link.init port) :=
    framed_collect ⟨⟨[], rfl, List.prefix_refl _, fun _ => rfl⟩, replies_init port⟩ true
  refine keeps_run (keeps_framed b) (fun _ room h => framed_collect h room)
    (fun _ data room h => framed_feedFromSerial h data room) (fun l h => ?_) (fun _ _ h => h) hinit hrun
  obtain ⟨⟨tokens, hout, hfront, -⟩, hbuf⟩ := h
  exact ⟨⟨tokens, hout, hfront, fun hopen => absurd hopen (by simp [Link.close])⟩, hbuf⟩

/-- **What the client reads.**  In any run, a telnet client that reads what it was sent, or the
    front of it, in any chunks, reads the front of what the device sent: the answers and
    notifications between never break into the data.  It reads all that the device sent when it
    has read everything and was neither dropped as too slow nor closed. -/
theorem client_reads (b : Backend σ) (port : σ) {es : List (Event σ)} {l : Link σ}
    (hrun : run (step b) (Link.init port) es = some l) (chunks : List Bytes)
    (h : chunks.flatten <+: l.out) :
    (TelnetSession.fromNetworkAll TelnetSession.init chunks).2.flatten <+: l.fromDevice ∧
      (chunks.flatten = l.out → l.closing = false →
        (TelnetSession.fromNetworkAll TelnetSession.init chunks).2.flatten = l.fromDevice) := by
  obtain ⟨⟨tokens, hout, hfront, hall⟩, -⟩ := framed_run b port hrun
  have hread : (feed TelnetSession.fromNetworkByte TelnetSession.init l.out).2 =
      tokens.flatMap Token.payload := by
    rw [hout, feed_flatMap Telnet.fromNetwork_token rfl tokens]
  rw [TelnetSession.fromNetworkAll, feedAll_snd_flatten]
  constructor
  · obtain ⟨rest, hrest⟩ := h
    refine List.IsPrefix.trans ?_ (hread ▸ hfront)
    rw [← hrest, feed_append]
    exact List.prefix_append _ _
  · intro heq hopen
    rw [heq, hread, hall hopen]

/-- A byte `0xFF` of the device between two answers, and another byte when the queue is full. -/
def between : List (Event PlainPort) :=
  [.received [255, 253, 44] true, .serial [255] true, .poll true]

/-- A byte `0xFF` of the device between two answers. -/
theorem client_reads_between :
    ∃ l l', run (step (modemSafe false plainDriver)) (Link.init plainPort) between = some l ∧
      run (step (modemSafe false plainDriver)) (Link.init plainPort)
        (between ++ [.serial [7] false]) = some l' ∧
      (TelnetSession.fromNetworkAll TelnetSession.init [l.out]).2.flatten = [255] ∧
      (TelnetSession.fromNetworkAll TelnetSession.init [l'.out]).2.flatten <+: [255, 7] := by
  have hrun : run (step (modemSafe false plainDriver)) (Link.init plainPort) between = some _ := rfl
  have hdropped : run (step (modemSafe false plainDriver)) (Link.init plainPort)
      (between ++ [.serial [7] false]) = some _ := rfl
  refine ⟨_, _, hrun, hdropped, ?_, ?_⟩
  · exact (client_reads (modemSafe false plainDriver) plainPort hrun [_] (by simp)).2 (by simp) rfl
  · exact (client_reads (modemSafe false plainDriver) plainPort hdropped [_] (by simp)).1

/-! ### The modem lines -/

/-- The high bits of a modem state are the lines. -/
theorem modemLines_or_deltas (b : Backend σ) (p : σ) (last : UInt8) :
    (modemLines b p ||| modemDeltas (modemLines b p) last) &&& 0xf0 = modemLines b p := by
  have hbits : ∀ c d r k e f g h : Bool,
      (((if c then 16 else 0) ||| (if d then 32 else 0) ||| (if r then 64 else 0) |||
        (if k then 128 else 0) : UInt8) ||| ((if e then 1 else 0) ||| (if f then 2 else 0) |||
        (if g then 4 else 0) ||| (if h then 8 else 0))) &&& 0xf0 =
      ((if c then 16 else 0) ||| (if d then 32 else 0) ||| (if r then 64 else 0) |||
        (if k then 128 else 0)) := by
    decide +kernel
  have h := hbits ((b.cts p).getD false) ((b.dsr p).getD false) ((b.ri p).getD false)
    ((b.cd p).getD false) (decide ((modemLines b p ^^^ last) &&& 16 ≠ 0))
    (decide ((modemLines b p ^^^ last) &&& 32 ≠ 0)) (decide ((modemLines b p ^^^ last) &&& 64 ≠ 0))
    (decide ((modemLines b p ^^^ last) &&& 128 ≠ 0))
  simp only [decide_eq_true_eq] at h
  exact h

/-- A change to no line at all has a low bit. -/
theorem last_of_no_change {last : UInt8} (h : modemDeltas 0 last = 0) : last &&& 0xf0 = 0 := by
  have hbits : ∀ x : BitVec 8, x &&& 16 = 0 → x &&& 32 = 0 → x &&& 64 = 0 → x &&& 128 = 0 →
      x &&& 0xf0 = 0 := by
    decide +kernel
  have hlow : ∀ e f g h : Bool, ((if e then 1 else 0) ||| (if f then 2 else 0) |||
      (if g then 4 else 0) ||| (if h then 8 else 0) : UInt8) = 0 →
      e = false ∧ f = false ∧ g = false ∧ h = false := by
    decide
  have hzero : (0 : UInt8) ^^^ last = last := UInt8.zero_xor
  obtain ⟨h16, h32, h64, h128⟩ := hlow (decide (last &&& 16 ≠ 0)) (decide (last &&& 32 ≠ 0))
    (decide (last &&& 64 ≠ 0)) (decide (last &&& 128 ≠ 0)) (by
      simpa only [modemDeltas, hzero, decide_eq_true_eq] using h)
  simp only [decide_eq_false_iff_not, not_not] at h16 h32 h64 h128
  exact UInt8.eq_of_toBitVec_eq (hbits last.toBitVec (congrArg UInt8.toBitVec h16)
    (congrArg UInt8.toBitVec h32) (congrArg UInt8.toBitVec h64) (congrArg UInt8.toBitVec h128))

/-- The client has been told, and its lines are those remembered. -/
def Told (s : Session σ) : Prop :=
  ∃ v, s.notified.getLast? = some v ∧ s.lastModemstate = some (v &&& 0xf0)

/-- A check tells the client the lines, when it is forced or the client knew the last ones. -/
theorem checkModemLines_told {b : Backend σ} {s : Session σ} {force : Bool}
    (hmask : s.modemstateMask = 255) (h : force = true ∨ s.clientIsRfc2217 = true ∧ Told s) :
    Told (checkModemLines b s force) ∧
      (checkModemLines b s force).lastModemstate = some (modemLines b s.port) := by
  have hlines := modemLines_or_deltas b s.port (s.lastModemstate.getD 0)
  have hall : ∀ x : UInt8, x &&& 255 = x := fun x => UInt8.and_neg_one
  unfold checkModemLines
  simp only [hmask, hall]
  generalize hstate : modemLines b s.port |||
    modemDeltas (modemLines b s.port) (s.lastModemstate.getD 0) = modemstate at *
  by_cases hnew : (decide (s.lastModemstate ≠ some modemstate) || force) = true
  · rw [if_pos hnew]
    by_cases hsend : (s.clientIsRfc2217 && decide (modemstate ≠ 0) || force) = true
    · rw [if_pos hsend]
      exact ⟨⟨modemstate, by simp, rfl⟩, congrArg some hlines⟩
    · -- with no line on and none changed, the state is the one remembered
      exfalso
      obtain ⟨hagreed, v, -, hlast⟩ := h.resolve_left fun hf => hsend (by simp [hf])
      have hzero : modemstate = 0 := by
        by_contra hne
        exact hsend (by simp [hagreed, hne])
      have hoff : modemLines b s.port = 0 := by rw [← hlines, hzero]; rfl
      rw [hoff, hlast, hzero, UInt8.zero_or, Option.getD_some] at hstate
      have hv : v &&& 0xf0 = 0 := by
        have := last_of_no_change hstate
        rwa [UInt8.and_assoc, UInt8.and_self] at this
      simp_all
  -- not new: what was sent last has the lines of now in its upper half
  · rw [if_neg hnew]
    have hsame : s.lastModemstate = some modemstate := by
      by_contra hne
      exact hnew (by simp [hne])
    obtain ⟨-, v, hv, hlast⟩ := h.resolve_left fun hf => hnew (by simp [hf])
    have hhigh : v &&& 0xf0 = modemstate := Option.some.inj (hlast.symm.trans hsame)
    refine ⟨⟨v, hv, hlast⟩, ?_⟩
    rw [hsame, ← hlines, ← hhigh, UInt8.and_assoc, UInt8.and_self]

/-- Until the client sets a mask, one that has agreed has been told. -/
def Current (s : Session σ) : Prop :=
  s.masked = false → s.modemstateMask = 255 ∧ (s.clientIsRfc2217 = true → Told s)

/-- The client knows the lines as they were last read. -/
theorem checkModemLines_current {b : Backend σ} {s : Session σ} (h : Current s) (force : Bool) :
    Current (checkModemLines b s force) := by
  obtain ⟨buf, last, notified, heq⟩ := checkModemLines_frame (b := b) s force
  have hmasked : (checkModemLines b s force).masked = s.masked := by rw [heq]
  have hmask : (checkModemLines b s force).modemstateMask = s.modemstateMask := by rw [heq]
  have hagreed : (checkModemLines b s force).clientIsRfc2217 = s.clientIsRfc2217 := by rw [heq]
  intro hfree
  obtain ⟨hall, htold⟩ := h (hmasked ▸ hfree)
  refine ⟨hmask.trans hall, fun ha => ?_⟩
  rw [hagreed] at ha
  exact (checkModemLines_told hall (Or.inr ⟨ha, htold ha⟩)).1

/-- Nothing that a session does changes what the client knows but a look at the lines. -/
theorem keeps_current (b : Backend σ) (l : Link σ) :
    Keeps b fun s => Current ({ l with session := s } : Link σ).session where
  perform _ _ h := h
  sendOption _ _ _ _ h := h
  send _ _ _ _ h := h
  check _ force h := checkModemLines_current h force
  agree s h := by
    obtain ⟨buf, last, notified, heq⟩ := clientOk_frame (b := b) s
    intro hfree
    have hall : s.modemstateMask = 255 := (h (by rw [heq] at hfree; exact hfree)).1
    refine ⟨by rw [heq]; exact hall, fun _ => ?_⟩
    exact (checkModemLines_told (s := { s with clientIsRfc2217 := true }) hall (Or.inl rfl)).1
  mask _ _ _ h := by cases h
  linestate _ _ h := h
  fails _ _ h := h
  options _ _ _ h := h
  parser _ _ _ _ h := h

/-- **The modem lines are known.**  In any run, after a poll the last modem state that a client
    was sent shows the lines as they are, if the client has agreed to RFC 2217 and has set no
    mask. -/
theorem poll_tells (b : Backend σ) (port : σ) {es : List (Event σ)} {l l' : Link σ}
    (hrun : run (step b) (Link.init port) es = some l) {room : Bool}
    (hpoll : step b l (.poll room) = some l')
    (hagreed : l.session.clientIsRfc2217 = true) (hfree : l.session.masked = false) :
    ∃ told, l'.session.notified.getLast? = some told ∧
      told &&& 0xf0 = modemLines b l.session.port := by
  have hserial : ∀ (l : Link σ) data room, Current l.session →
      Current (l.feedFromSerial data room).session := fun l data room h => by
    rw [(feedFromSerial_session l data room).1]
    exact h
  have hcurrent := keeps_run (R := fun l => Current l.session) (keeps_current b) (fun _ _ h => h)
    hserial (fun _ h => h) (fun _ _ h => h) (fun _ => ⟨rfl, fun h => by cases h⟩) hrun
  obtain ⟨hall, htold⟩ := hcurrent hfree
  have hforce : false = true ∨ l.session.clientIsRfc2217 = true ∧ Told l.session :=
    Or.inr ⟨hagreed, htold hagreed⟩
  obtain ⟨⟨v, hv, hlast⟩, hlines⟩ := checkModemLines_told hall hforce
  simp only [step] at hpoll
  split_ifs at hpoll
  obtain rfl := Option.some.inj hpoll
  exact ⟨v, hv, Option.some.inj (hlast.symm.trans hlines)⟩

/-- The client agrees, and CTS goes off. -/
def ctsOff : List (Event PlainPort) :=
  [.received [255, 253, 44] true, .port { plainPort with cts := false }]

/-- The peer drops CTS, and the next poll says so. -/
theorem poll_tells_ctsOff :
    ∃ l l', run (step (modemSafe false plainDriver)) (Link.init plainPort) ctsOff = some l ∧
      step (modemSafe false plainDriver) l (.poll true) = some l' ∧
      ∃ told, l'.session.notified.getLast? = some told ∧ told &&& 0xf0 = 0 := by
  have hrun : run (step (modemSafe false plainDriver)) (Link.init plainPort) ctsOff = some _ := rfl
  exact ⟨_, _, hrun, rfl, poll_tells (modemSafe false plainDriver) plainPort hrun rfl rfl rfl⟩

/-! ### Setting the port -/

/-- What the answer to a request to set something says, read as the request is: the setting of
    the port. -/
def Shows (b : Backend σ) (p : σ) (command : UInt8) (told : Bytes) : Prop :=
  match command.toNat with
  | 1 => unpackI told = .ok (b.baudrate p)
  | 2 => unpackB told = .ok (b.bytesize p)
  | 3 => ∃ n, unpackB told = .ok n ∧ Parity.ofCode? n = some (b.parity p)
  | 4 => ∃ n, unpackB told = .ok n ∧ Stopbits.ofCode? n = some (b.stopbits p)
  | _ => False

/-- A byte that was packed is unpacked. -/
theorem unpackB_of_packB {n : Nat} {told : Bytes} (h : packB n = .ok told) :
    unpackB told = .ok n := by
  unfold packB at h
  split_ifs at h with hn
  obtain rfl := Except.ok.inj h
  simp [unpackB, Nat.mod_eq_of_lt hn]

/-- A number that was packed is unpacked. -/
theorem unpackI_of_packI {n : Nat} {told : Bytes} (h : packI n = .ok told) :
    unpackI told = .ok n := by
  unfold packI at h
  split_ifs at h with hn
  obtain rfl := Except.ok.inj h
  simp [unpackI]
  omega

/-- What an answer that is sent is. -/
theorem sendAnswer_eq {s : Session σ} {option : UInt8} {value : Except Exc Bytes}
    (h : (s.sendAnswer option value).failed = none) :
    s.failed = none ∧ ∃ told, value = .ok told ∧
      s.sendAnswer option value = s.sendSubnegotiation option told := by
  unfold sendAnswer at h ⊢
  by_cases hs : s.failed = none
  · cases value with
    | ok told => exact ⟨hs, told, rfl, if_pos hs⟩
    | error e => simp [hs, raise] at h
  · cases value with
    | ok told =>
      dsimp only at h
      rw [if_neg hs] at h
      exact absurd h hs
    | error e =>
      dsimp only at h
      rw [if_neg hs] at h
      exact absurd h hs

/-- A setting that does not raise is answered by what the port has afterwards, and does nothing
    else. -/
theorem setSetting_eq {b : Backend σ} {s : Session σ} {value : Except Exc Nat}
    {assign : Nat → Except Exc PortOp} {backup : PortOp} {option : UInt8}
    {current : σ → Except Exc Bytes}
    (h : (setSetting b s value assign backup option current).failed = none) :
    ∃ p told, current p = .ok told ∧
      setSetting b s value assign backup option current =
        { s with port := p, failed := none }.sendSubnegotiation option told := by
  have hperform : ∀ (t : Session σ) (op : PortOp), (perform b t op).failed = none →
      perform b t op = { t with port := (perform b t op).port, failed := none } := by
    intro t op ht
    rw [← ht]
    rfl
  unfold setSetting at h ⊢
  split at h
  · simp [raise] at h
  · obtain ⟨hs, told, htold, heq⟩ := sendAnswer_eq h
    refine ⟨s.port, told, htold, heq.trans ?_⟩
    rw [← hs]
  -- a value outside the table raises, the other two paths set the port and answer
  · split at h
    · simp [raise] at h
    · rename_i op hassign
      dsimp only at h ⊢
      split_ifs at h ⊢
      · obtain ⟨hs, told, htold, heq⟩ := sendAnswer_eq h
        refine ⟨_, told, htold, heq.trans ?_⟩
        rw [hperform _ backup hs]
        rfl
      · obtain ⟨hs, told, htold, heq⟩ := sendAnswer_eq h
        refine ⟨_, told, htold, heq.trans ?_⟩
        rw [hperform _ op hs]

/-- **Requests are answered truthfully.**  A request to set the speed, the size, the parity or the
    stop bits (or to ask for them) that does not end the session is answered once; the answer
    shows what the port has then, whether the driver took the value or not, and also on a
    read-only mapping. -/
theorem answer_setting (readOnly : Bool) (driver : Backend σ) {s : Session σ} {command : UInt8}
    (hcommand : command ∈ [1, 2, 3, 4]) (value : Bytes)
    (hok : (processSubnegotiation (modemSafe readOnly driver) s
      ([comPortOption, command] ++ value)).failed = none) :
    ∃ p told, Shows driver p command told ∧ (readOnly = true → p = s.port) ∧
      processSubnegotiation (modemSafe readOnly driver) s ([comPortOption, command] ++ value) =
        { s with port := p, failed := none }.sendSubnegotiation (command + 100) told := by
  -- a read-only port is never written, whatever is asked
  have hsame : readOnly = true →
      (processSubnegotiation (modemSafe readOnly driver) s ([comPortOption, command] ++ value)).port =
        s.port := by
    rintro rfl
    exact (keeps_port driver ⟨s, false, [], [], s.port⟩).processSubnegotiation rfl _
  have hset : ∃ p told, Shows driver p command told ∧
      processSubnegotiation (modemSafe readOnly driver) s ([comPortOption, command] ++ value) =
        { s with port := p, failed := none }.sendSubnegotiation (command + 100) told := by
    simp only [List.mem_cons, List.not_mem_nil, or_false] at hcommand
    -- the four settings of RFC 2217, each with its own encoding of the value
    rcases hcommand with rfl | rfl | rfl | rfl
    · have hproc : processSubnegotiation (modemSafe readOnly driver) s
          ([comPortOption, 1] ++ value) = _ := if_pos rfl
      obtain ⟨p, told, htold, heq⟩ := setSetting_eq (hproc ▸ hok)
      exact ⟨p, told, unpackI_of_packI htold, hproc.trans heq⟩
    · have hproc : processSubnegotiation (modemSafe readOnly driver) s
          ([comPortOption, 2] ++ value) = _ := if_pos rfl
      obtain ⟨p, told, htold, heq⟩ := setSetting_eq (hproc ▸ hok)
      exact ⟨p, told, unpackB_of_packB htold, hproc.trans heq⟩
    · have hproc : processSubnegotiation (modemSafe readOnly driver) s
          ([comPortOption, 3] ++ value) = _ := if_pos rfl
      obtain ⟨p, told, htold, heq⟩ := setSetting_eq (hproc ▸ hok)
      obtain rfl := Except.ok.inj htold
      refine ⟨p, _, ⟨_, rfl, ?_⟩, hproc.trans heq⟩
      show Parity.ofCode? (driver.parity p).code.toNat = some (driver.parity p)
      cases driver.parity p <;> rfl
    · have hproc : processSubnegotiation (modemSafe readOnly driver) s
          ([comPortOption, 4] ++ value) = _ := if_pos rfl
      obtain ⟨p, told, htold, heq⟩ := setSetting_eq (hproc ▸ hok)
      obtain rfl := Except.ok.inj htold
      refine ⟨p, _, ⟨_, rfl, ?_⟩, hproc.trans heq⟩
      show Stopbits.ofCode? (driver.stopbits p).code.toNat = some (driver.stopbits p)
      cases driver.stopbits p <;> rfl
  -- both facts are about the same end state, so the ports agree
  obtain ⟨p, told, hshows, heq⟩ := hset
  refine ⟨p, told, hshows, fun hro => ?_, heq⟩
  have hport := hsame hro
  rw [heq] at hport
  exact hport

/-- 250000 baud asked for on a read-only mapping: the answer shows the speed as it is. -/
theorem answer_setting_refused :
    ∃ p told, Shows plainDriver p 1 told ∧ p = plainPort ∧
      processSubnegotiation (modemSafe true plainDriver) (Session.init plainPort)
        ([comPortOption, 1] ++ [0, 3, 208, 144]) =
          { Session.init plainPort with port := p, failed := none }.sendSubnegotiation 101 told := by
  have hcommand : (1 : UInt8) ∈ [1, 2, 3, 4] := by decide
  have hok : (processSubnegotiation (modemSafe true plainDriver) (Session.init plainPort)
    ([comPortOption, 1] ++ [0, 3, 208, 144])).failed = none := rfl
  obtain ⟨p, told, hshows, hport, heq⟩ := answer_setting true plainDriver hcommand _ hok
  exact ⟨p, told, hshows, hport rfl, heq⟩

end Ser2Net.Engine.Rfc2217
