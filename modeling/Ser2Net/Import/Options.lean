import Ser2Net.Import.Conn

namespace Ser2Net.Import

open Ser2Net.Lib Ser2Net.Config Logged

/-!
# Import — escapes and options of a connection

* `convert` — ser2net's escapes into texts of this program;
* `option` — one entry of `options:`; the keywords of 3.x map onto the same names;
* `remaddr` — the allowed clients;
* `finish` — what depends on the whole connection.
-/

/-! ### Escapes -/

/-- What a converted text is for. -/
inductive EscapeKind
  /-- The banner keeps the escapes that its renderer knows. -/
  | banner
  /-- A text that is sent or looked for as it is. -/
  | bytes
  /-- The name of a trace file. -/
  | file
  deriving DecidableEq, Repr

/-- `_C_ESCAPES`. -/
def cEscapes : List (Char × Char) :=
  [('a', Char.ofNat 7), ('b', Char.ofNat 8), ('f', Char.ofNat 12), ('t', '\t'),
    ('v', Char.ofNat 11), ('\\', '\\'), ('?', '?'), ('\'', '\''), ('"', '"')]

/-- `_TIME_ESCAPES`. -/
def timeEscapes : Text := "YyMmADeUHhiSqPT"

/-- `_GONE`: it marks a dropped escape until it is removed. -/
def gone : Char := Char.ofNat 0xe000

/-- `x[0-9a-fA-F]{1,2}|[0-7]{1,3}|.` behind a backslash. -/
def escapeAt : Text → Option Text
  | [] => none
  | c :: rest =>
    if c = 'x' then some (c :: (rest.take 2).takeWhile PyText.isHexDigit)
    else if PyText.isOctDigit c then some (((c :: rest).take 3).takeWhile PyText.isOctDigit)
    else some [c]

/-- What an escape stands for, and the escape itself when it is written as a fixed text or
    dropped. -/
structure Escaped where
  text : Text
  fixed : List Text := []
  dropped : List Text := []

/-- The text behind the last slash. -/
def baseName (device : Text) : Text := (device.reverse.takeWhile (· ≠ '/')).reverse

/-- `one` of `_convert`; the escape is not empty. -/
def convertOne (c : Conn) (kind : EscapeKind) (e : Text) : Escaped :=
  match e with
  | [] => ⟨[], [], []⟩
  | ch :: digits =>
    if ch = 'x' && digits ≠ [] then ⟨[Char.ofNat (PyText.hexOf digits)], [], []⟩
    else if PyText.isOctDigit ch then ⟨[Char.ofNat (PyText.octOf e % 256)], [], []⟩
    else
      match cEscapes.lookup ch with
      | some d => ⟨[d], [], []⟩
      | none =>
        if ch = 'r' then ⟨if kind = .banner then ['\\', 'r'] else ['\r'], [], []⟩
        else if ch = 'n' then ⟨if kind = .banner then ['\\', 'n'] else ['\n'], [], []⟩
        else if ch = 'd' || ch = 'o' then
          ⟨match kind with
            | .banner => ['\\', 'd']
            | .file => baseName c.device
            | .bytes => c.device, [], []⟩
        else if ch = 'p' then
          ⟨if kind = .banner then ['\\', 'p'] else PyText.ofInt c.network.port, [], []⟩
        else if ch = 'N' && !c.v3 then
          ⟨if kind = .banner then ['\\', 'N'] else c.name, [], []⟩
        else if ch = 'I' && kind = .banner then ⟨['\\', 'I'], [], []⟩
        else if ch = 'B' || (ch = 's' && kind ≠ .file) then ⟨c.serialText, [['\\', ch]], []⟩
        else if timeEscapes.contains ch || ch = 'I' || ch = 's' then
          ⟨[gone], [], [['\\', ch]]⟩
        else ⟨[ch], [], []⟩

/-- `_ESCAPE.sub(one, text)`; the number says how many characters of an escape are still to be
    skipped. -/
def convertFrom (c : Conn) (kind : EscapeKind) : Nat → Text → Escaped
  | _, [] => ⟨[], [], []⟩
  | skip + 1, _ :: rest => convertFrom c kind skip rest
  | 0, ch :: rest =>
    match if ch = '\\' then escapeAt rest else none with
    | none =>
      let out := convertFrom c kind 0 rest
      { out with text := ch :: out.text }
    | some e =>
      let one := convertOne c kind e
      let out := convertFrom c kind e.length rest
      ⟨one.text ++ out.text, one.fixed ++ out.fixed, one.dropped ++ out.dropped⟩

/-- The separators that a dropped part of a file name takes along. -/
def isSeparator (c : Char) : Bool := ['-', '_', '.', ':', ' '].contains c

/-- The marks of dropped escapes removed; in a file name with the separator before them. -/
def dropGone (file : Bool) : Text → Text
  | [] => []
  | [c] => if c = gone then [] else [c]
  | c :: d :: rest =>
    if file && isSeparator c && d = gone then dropGone file rest
    else if c = gone then dropGone file (d :: rest)
    else c :: dropGone file (d :: rest)

/-- `_convert`. -/
def convert (c : Conn) (text : Text) (kind : EscapeKind) (what : Text) : Text × Conn :=
  -- real line breaks become the banner's escapes
  let text := if kind = .banner then
      PyText.replace ['\n'] ['\\', 'n'] (PyText.replace ['\r'] ['\\', 'r'] text)
    else text
  let out := convertFrom c kind 0 text
  let c := if out.fixed = [] then c
    else c.note (what ++ ": " ++ PyText.join ['/'] (PyText.fromKeys out.fixed) ++
      " (serial parameters) is written as the fixed text " ++ c.serialText)
  let parts := PyText.join [' '] (PyText.fromKeys out.dropped)
  let c := if out.dropped = [] then c
    else c.note (if kind = .file then what ++ ": " ++ parts ++
        " in the file name left out (one trace file per mapping here, rotated by size)"
      else what ++ ": " ++ parts ++ " not supported here, left out")
  (dropGone (kind = .file) out.text, c)

/-! ### Options -/

section
variable (env : ImportEnv)

/-- `_flag`. -/
def flag (c : Conn) (key value : Text) : Option Bool × Conn :=
  match bool env value with
  | none => (none, c.note (key ++ ": '" ++ value ++ "' is not true/false, ignored"))
  | some b => (some b, c)

/-- `_idle_timeout`. -/
def idleTimeout (c : Conn) (value : Text) : ImportM Conn :=
  let v := strip value
  if PyText.isDigitText v then do
    let n ← int v
    let c := { c with options := { c.options with idleTimeoutS := some (min n maxTimerS) } }
    return if maxTimerS < n then
        c.note ("timeout " ++ v ++ " s is longer than the maximum here: set to " ++
          PyText.ofInt maxTimerS ++ " s")
      else c
  else if v ≠ [] then
    pure (c.note ("timeout '" ++ value ++ "' is not a number of seconds, ignored"))
  else pure c

/-- The words in front of the address in an entry of `remaddr`. -/
def remaddrWords : List Text := families ++ netTerminals

/-- The address fields of one entry of `remaddr`: those that are not blank, without the words
    in front of the address. -/
def remaddrFields (entry : Text) : List Text :=
  (cleanFields (entry.splitOn ',')).dropWhile fun f => remaddrWords.contains (env.lower f)

/-- The loop body of `_remaddr`; the entry is not empty. -/
def remaddrEntry (c : Conn) (entry : Text) : Conn :=
  if startsWith entry ['!'] then
    c.note ("remaddr " ++ entry ++ ": connect-back addresses are not imported")
  else
    let fields := remaddrFields env entry
    let host := fields.headD []
    match Ipaddress.ipNetwork (String.ofList host) with
    | none => c.note ("remaddr " ++ entry ++ ": only IP addresses and subnets can be imported")
    | some _ =>
      let c := if fields.tail = [] || fields.tail.head? = some ['0'] then c
        else c.note ("remaddr " ++ entry ++
          ": only the client address is checked here, not its port")
      let allowed := c.network.allowedClientIps.getD []
      if allowed.contains host then c
      else { c with network := { c.network with allowedClientIps := some (allowed ++ [host]) } }

/-- `re.split(r"[;\s]+", value.strip())` without its empty parts. -/
def remaddrEntries (value : Text) : List Text :=
  ((strip value).splitOnP fun ch => ch = ';' || PyText.isSpace ch).filter (· ≠ [])

/-- `_remaddr`. -/
def remaddr (c : Conn) (value : Text) : Conn :=
  (remaddrEntries value).foldl (remaddrEntry env)
    { c with
      accessGiven := true
      network := { c.network with
        allowedClientIps := some (c.network.allowedClientIps.getD []) } }

/-- The directions under their names in the options. -/
def traceKinds : List (Text × TraceKind) :=
  [("both", .both), ("read", .read), ("write", .write)]

/-- `_TRACE_MOD.fullmatch(k)`. -/
def traceMod (k : Text) : Option (Option TraceKind × TraceMod) :=
  ([("trace-hexdump", (none, .hexdump)), ("trace-timestamp", (none, .timestamp)),
    ("trace-both-hexdump", (some .both, .hexdump)),
    ("trace-both-timestamp", (some .both, .timestamp)),
    ("trace-read-hexdump", (some .read, .hexdump)),
    ("trace-read-timestamp", (some .read, .timestamp)),
    ("trace-write-hexdump", (some .write, .hexdump)),
    ("trace-write-timestamp", (some .write, .timestamp))] :
      List (Text × Option TraceKind × TraceMod)).lookup k

/-- The options with a text under their names. -/
def stringKeys : List (Text × StringKey) :=
  [("banner", .banner), ("openstr", .openstr), ("closestr", .closestr), ("closeon", .closeon)]

/-- `_option`. -/
def option (c : Conn) (key value : Text) : ImportM Conn :=
  let k := env.lower (strip key)
  if k = "timeout" || k = "connection timeout" then idleTimeout c value
  else if k = "kickolduser" then
    let (b, c) := flag env c key value
    pure (b.elim c fun b => { c with network := { c.network with kickOldUser := some b } })
  else if k = "max-connections" then
    let n := strip value
    let ignored := c.note ("max-connections '" ++ value ++ "' is not a number >= 1, ignored")
    if PyText.isDigitText n then do
      let m ← int n
      return if 1 ≤ m then { c with network := { c.network with maxConnections := some m } }
        else ignored
    else pure ignored
  else
    match stringKeys.lookup k with
    | some s => pure { c with strings := dictSet c.strings s value }
    | none =>
      match if startsWith k "trace-" then traceKinds.lookup (k.drop 6) else none with
      | some t =>
        pure (if strip value ≠ [] then { c with traces := dictSet c.traces t (strip value) } else c)
      | none =>
        match traceMod k with
        | some m =>
          let (b, c) := flag env c key value
          pure (b.elim c fun b => { c with traceMods := dictSet c.traceMods m b })
        | none =>
          if k = "remaddr" then pure (remaddr env c value)
          else if k = "no-acc-to-con" then
            let (b, c) := flag env c key value
            pure (if b = some true then { c with network := { c.network with readOnly := some true } }
              else c)
          else if k = "telnet-brk-on-sync" then
            pure (if bool env value = some true && c.network.protocol ≠ .raw then c.drop key else c)
          else if k = "chardelay" then pure c
          else pure (c.drop key)

/-! ### The whole connection -/

/-- How warnings name a trace. -/
def traceLabel (v3 : Bool) : TraceKind → Text
  | .both => if v3 then "tb" else "trace-both"
  | .read => if v3 then "tr" else "trace-read"
  | .write => if v3 then "tw" else "trace-write"

/-- `_finish`: the flow control. -/
def finishFlow (c : Conn) : Conn :=
  let c := if c.rtscts && c.xonxoff then
      c.note ("both RTS/CTS and XON/XOFF are on: only RTS/CTS is imported (one flow control " ++
        "per port here)")
    else c
  { c with serial := { c.serial with
      flowcontrol := some (if c.rtscts then "rtscts" else if c.xonxoff then "xonxoff" else "none") } }

/-- `_finish`: what the protocol asks of the rest. -/
def finishProtocol (c : Conn) : Conn :=
  let c := if c.network.mode = .udp && c.network.protocol ≠ .raw then
      let c := c.note (c.network.protocol.text ++
        " over UDP is not supported here: imported as raw UDP")
      { c with network := { c.network with protocol := .raw } }
    else c
  if c.network.protocol = .rfc2217 && 1 < c.network.maxConnections.getD 1 then
    let c := c.note "RFC2217 allows a single client here: max-connections set to 1"
    { c with network := { c.network with maxConnections := some 1 } }
  else c

/-- `_finish`: one of the texts with escapes. -/
def finishString (c : Conn) (key : StringKey) : Conn :=
  match c.strings.lookup key with
  | none => c
  | some raw =>
    let (t, c) := convert c raw (if key = .banner then .banner else .bytes) key.text
    { c with options := { c.options with strings := dictSet c.options.strings key t } }

/-- `_finish`: the name of the trace file. -/
def finishTraceFile (c : Conn) (kind : TraceKind) (raw : Text) : Conn :=
  let label := traceLabel c.v3 kind
  let (path, c) := convert c raw .file label
  let name := (traceFileName env.platform.py (str path)).toList
  if name = [] then c
  else
    let c := { c with options := { c.options with traceBoth := some path } }
    let c := if kind = .both then c
      else c.note (label ++ ": both directions are traced into one file here")
    if name = path then c
    else c.note ("trace file: written as traces/<mapping id>-" ++ name ++
      " in the data directory (" ++ path ++ " is not used)")

/-- `_finish`: a switch of the trace. -/
def finishTraceMod (kind : TraceKind) (c : Conn) (mod : TraceMod) : Conn :=
  match (c.traceMods.lookup (some kind, mod)).or (c.traceMods.lookup (none, mod)) with
  | none => c
  | some b => { c with options := { c.options with traceMods := dictSet c.options.traceMods mod b } }

/-- `_finish`: the trace. -/
def finishTrace (c : Conn) : Conn :=
  match [TraceKind.both, .read, .write].findSome? fun k => (c.traces.lookup k).map (k, ·) with
  | none => c
  | some (kind, raw) =>
    let c := finishTraceFile env c kind raw
    let c := c.traces.foldl (fun c other =>
      if other.1 = kind then c
      else c.note (traceLabel c.v3 other.1 ++
        " is not imported: one trace file per mapping")) c
    [TraceMod.hexdump, .timestamp].foldl (finishTraceMod kind) c

/-- `_finish`: a connection with restrictions that could not be kept comes in disabled. -/
def finishHold (c : Conn) : Conn :=
  let c := if c.accessGiven && c.network.allowedClientIps.getD [] = [] then
      { c with hold := ("remaddr could not be imported: the mapping is imported disabled rather " ++
        "than open to every client") }
    else c
  if c.hold = [] then c else { c with enabled := false }.note c.hold

/-- `_finish`: the options that have no equivalent. -/
def finishDropped (c : Conn) : Conn :=
  if c.dropped = [] then c
  else c.note ("not imported (no equivalent here): " ++ PyText.join [',', ' '] c.dropped)

/-- `_finish`. -/
def finish (c : Conn) : Conn :=
  let c := finishProtocol (finishFlow c)
  let c := [StringKey.banner, .openstr, .closestr, .closeon].foldl finishString c
  finishDropped (finishHold (finishTrace env c))

/-- `_notes`. -/
def notes (c : Conn) (imported : Bool) : List Text :=
  (if imported then c.notes else c.skipped).map fun n => c.label ++ ": " ++ n

end

end Ser2Net.Import
