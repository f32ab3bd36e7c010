import Ser2Net.Import.Reader
import Ser2Net.Import.Options

namespace Ser2Net.Import

open Ser2Net.Lib Ser2Net.Config Logged

/-!
# Import — ser2net 4.x

`_substitute`, `_Yaml` and `_from_yaml`: the top-level entries of a `ser2net.yaml` in order,
with the defines and defaults that come before an entry in force for it.

* `substitute` — references inside texts;
* `Yaml.makeConn` — one connection entry; the flag says that it is imported;
* `Yaml.entry`, `fromYaml` — the entries one after the other.
-/

/-- What `_substitute` does at one character: what it writes and notes, and how many of the
    characters that follow it takes. -/
structure Subst where
  out : Text
  notes : List Text := []
  skip : Nat := 0

/-- The reference that begins at `ch`: `open_` is the bracket behind it, `after` what follows. -/
def substituteRef (aliases : List (Text × Text)) (ours : Bool) (ch open_ : Char) (after : Text) :
    Subst :=
  if ours && after.head? = some ch then ⟨[ch, open_], [], 2⟩
  else
    match PyText.find (if open_ = '(' then ')' else '}') after with
    | none => ⟨[ch], [], 0⟩
    | some close =>
      let ref := after.take close
      if open_ = '{' then
        ⟨[], [[ch] ++ "\x7b" ++ ref ++ "\x7d (a file on the ser2net host) is left out"], close + 2⟩
      else
        match aliases.lookup ref with
        | some t => ⟨t, [], close + 2⟩
        | none =>
          ⟨[ch], if ours then ["unknown reference " ++ [ch] ++ "(" ++ ref ++ ") left as it is"]
            else [], 0⟩

/-- One turn of the loop of `_substitute`. -/
def substituteStep (aliases : List (Text × Text)) (act : Text) (ch : Char) (rest : Text) :
    Subst :=
  let ours := act.contains ch
  match rest with
  | [] => ⟨[ch], [], 0⟩
  | next :: after =>
    if ours && next = ch then ⟨[ch], [], 1⟩
    else if (ours && (next = '(' || next = '{')) || (ch = '$' && next = '(') then
      substituteRef aliases ours ch next after
    else ⟨[ch], [], 0⟩

/-- The loop of `_substitute`; the number says how many characters are still to be skipped. -/
def substituteFrom (aliases : List (Text × Text)) (act : Text) : Nat → Text → Text × List Text
  | _, [] => ([], [])
  | skip + 1, _ :: rest => substituteFrom aliases act skip rest
  | 0, ch :: rest =>
    let step := substituteStep aliases act ch rest
    let (out, notes) := substituteFrom aliases act step.skip rest
    (step.out ++ out, step.notes ++ notes)

/-- `_substitute`: the text, and the notes it adds. -/
def substitute (aliases : List (Text × Text)) (act s : Text) : Text × List Text :=
  substituteFrom aliases act 0 s

/-- `_Yaml`. -/
structure Yaml where
  act : Text
  aliases : List (Text × Text) := []
  warnings : List Text := []
  conns : List Conn := []
  serialDefaults : List (Text × Text) := []
  optionDefaults : List (Text × Text) := []

/-- `_SERIAL_DEFAULTS`. -/
def serialDefaultNames : List Text :=
  ["speed", "nobreak", "rtscts", "xonxoff", "local", "hangup-when-done", "dtr", "rts",
    "custspeed", "rs485", "uucplock", "flock"]

/-- `_OPTION_DEFAULTS`. -/
def optionDefaultNames : List Text :=
  ["kickolduser", "max-connections", "remaddr", "telnet-brk-on-sync", "chardelay",
    "trace-hexdump", "trace-timestamp", "trace-both-hexdump", "trace-both-timestamp"]

namespace Yaml

/-- `self.warnings.append(msg)`. -/
def warn (y : Yaml) (msg : Text) : Yaml := { y with warnings := y.warnings ++ [msg] }

/-- `text`: the text of a value, and the notes it adds. -/
def text (y : Yaml) (node : Node) (what : Text) : Text × List Text :=
  match node with
  | .text t => substitute y.aliases y.act t
  | _ => ([], [what ++ " is not a single value, ignored"])

/-- `gtext`: the notes become warnings about `what`. -/
def gtext (y : Yaml) (node : Node) (what : Text) : Text × Yaml :=
  let (value, notes) := y.text node what
  (value, { y with warnings := y.warnings ++ notes.map fun n => what ++ ": " ++ n })

section
variable (env : ImportEnv)

/-- `_YMap.get`: the last value of a key. -/
def get (entries : List (Text × Node × Text)) (k : Text) (default : Node) : Node :=
  ((entries.reverse.find? fun e => env.lower e.1 = k).map fun e => e.2.1).getD default

/-- `default`. -/
def default (y : Yaml) (name value cls : Text) : Yaml :=
  let n := env.lower (strip name)
  let cls := env.lower (strip cls)
  if n = [] || !(["", "serialdev", "sdev", "ser2net"] : List Text).contains cls then y
  else if serialDefaultNames.contains n && cls ≠ "ser2net" then
    { y with serialDefaults := dictSet y.serialDefaults n (strip value) }
  else if optionDefaultNames.contains n && (cls = [] || cls = "ser2net") then
    { y with optionDefaults := dictSet y.optionDefaults n (strip value) }
  else y.warn ("default " ++ name ++ ": " ++ value ++ " is not imported (no equivalent here)")

/-- `delete_default`. -/
def deleteDefault (y : Yaml) (name : Text) : Yaml :=
  let n := env.lower (strip name)
  { y with
    serialDefaults := y.serialDefaults.filter fun d => d.1 ≠ n
    optionDefaults := y.optionDefaults.filter fun d => d.1 ≠ n }

/-- `text` inside a connection: the notes are the connection's. -/
def connText (y : Yaml) (c : Conn) (node : Node) (what : Text) : Text × Conn :=
  let (value, notes) := y.text node what
  (value, { c with notes := c.notes ++ notes })

/-- One entry of `options:`. -/
def connOption (y : Yaml) (c : Conn) (e : Text × Node × Text) : ImportM Conn :=
  let (value, c) := y.connText c e.2.1 e.1
  option env c e.1 value

/-- One entry of a connection that is neither its accepter nor its connector. -/
def connEntry (y : Yaml) (c : Conn) (e : Text × Node × Text) : ImportM Conn :=
  let k := env.lower e.1
  if k = "options" then
    match e.2.1 with
    | .map options => options.foldlM (y.connOption env) c
    | v =>
      pure (if strip (v.str env) ≠ [] then c.note "options is not a mapping, ignored" else c)
  else if (["accepter", "connector", "enable"] : List Text).contains k then pure c
  else y.connOption env c e

/-- `settings`. -/
def settings (y : Yaml) (c : Conn) (body : List (Text × Node × Text)) : ImportM Conn := do
  let (enable, c) := y.connText c (get env body "enable" (.text "on")) "enable"
  let b := bool env enable
  let c := if b = none then
      c.note ("enable '" ++ enable ++ "' is not on/off: imported disabled")
    else c
  let c := { c with enabled := b = some true }
  let c ← y.optionDefaults.foldlM (fun c (d : Text × Text) => option env c d.1 d.2) c
  body.foldlM (y.connEntry env) c

/-- `connection` behind the accepter. -/
def connected (y : Yaml) (c : Conn) (body : List (Text × Node × Text)) (spec : Text) :
    ImportM (Bool × Conn) := do
  let defaults := y.serialDefaults.map fun d => d.1 ++ ['='] ++ d.2
  let (ok, c) ← connector env c spec defaults
  if ok then do
    let c ← y.settings env c body
    return (true, finish env c)
  else return (false, c)

/-- `connection`: the connection, and whether it is imported. -/
def makeConn (y : Yaml) (name : Text) (body : Node) : ImportM (Bool × Conn) :=
  let c : Conn := { name := name, label := if name = [] then "a connection without a name" else name }
  match body with
  | .map entries => do
    let (accepterText, c) := y.connText c (get env entries "accepter" (.text [])) "accepter"
    let (connectorText, c) := y.connText c (get env entries "connector" (.text [])) "connector"
    if strip accepterText = [] || strip connectorText = [] then
      return (false, c.skip "it needs both an accepter and a connector")
    else do
      let (ok, c) ← accepter env c (strip accepterText)
      if ok then
        let name' := "ser2net-" ++ PyText.ofInt c.network.port
        y.connected env (if name = [] then { c with name := name', label := name' } else c) entries
          (strip connectorText)
      else return (false, c)
  | _ => pure (false, c.skip "not a mapping")

/-- The name of a connection stands for itself in references. -/
def nameAlias (y : Yaml) (name : Text) : Yaml :=
  if name = [] then y else { y with aliases := dictSet y.aliases name name }

/-- `connection`. -/
def connection (y : Yaml) (name : Text) (body : Node) : ImportM Yaml := do
  let y := y.nameAlias name
  let (imported, c) ← y.makeConn env name body
  return { y with
    conns := if imported then y.conns ++ [c] else y.conns
    warnings := y.warnings ++ notes c imported }

/-- `self.aliases[name] = self.gtext(value, f"define {name}")`. -/
def define (y : Yaml) (name : Text) (value : Node) : Yaml :=
  let (t, y) := y.gtext value ("define " ++ name)
  { y with aliases := dictSet y.aliases name t }

/-- One member of `defaults:`. -/
def defaultMember (y : Yaml) (name : Text) (body : Node) : Yaml :=
  match body with
  | .map entries =>
    let what := "default " ++ name
    let (value, y) := y.gtext (get env entries "value" (.text [])) what
    let (cls, y) := y.gtext (get env entries "class" (.text [])) what
    y.default env name value cls
  | _ => y

/-- A `default:` entry. -/
def defaultEntry (y : Yaml) (entries : List (Text × Node × Text)) : Yaml :=
  let (name, y) := y.gtext (get env entries "name" (.text [])) "default"
  let (value, y) := y.gtext (get env entries "value" (.text [])) "default"
  let (cls, y) := y.gtext (get env entries "class" (.text [])) "default"
  y.default env name value cls

/-- The `rotator:` and `rotators:` entries. -/
def rotators (y : Yaml) (names : List Text) : Yaml :=
  (if names = [] then [("(unnamed)" : Text)] else names).foldl (fun y name =>
    y.warn ("rotator " ++ name ++ ": not imported (rotators are not supported here)")) y

/-- The keys that are known but need a mapping for their value. -/
def quietKeys : List Text :=
  ["led", "leds", "defines", "connections", "defaults", "delete_default", "delete_defaults",
    "default"]

/-- The branches of `entry` that make no connection and need no mapping. -/
def plainSetting (y : Yaml) (key : Text) (value : Node) (anchor : Text) : Yaml :=
  let k := env.lower key
  if k = "rotator" then y.rotators [anchor]
  else if k = "rotators" then
    y.rotators (match value with | .map entries => entries.map (·.1) | _ => [])
  else if k = "admin" || k = "admins" then
    y.warn ("the ser2net admin interface is not imported (the web UI and REST API take its " ++
      "place)")
  else if k = "include" then
    let (t, y) := y.gtext value "include"
    y.warn ("include " ++ t ++ ": included files are not read; import each of them as well")
  else if quietKeys.contains k then y
  else y.warn ("unknown top-level entry '" ++ key ++ "' ignored")

/-- The branches of `entry` that make no connection. -/
def setting (y : Yaml) (key : Text) (value : Node) (anchor : Text) : Yaml :=
  let k := env.lower key
  if k = "define" then if anchor = [] then y else y.define anchor value
  else
    match value with
    | .map entries =>
      if k = "defines" then entries.foldl (fun y e => y.define e.1 e.2.1) y
      else if k = "default" then y.defaultEntry env entries
      else if k = "defaults" then entries.foldl (fun y e => y.defaultMember env e.1 e.2.1) y
      else if k = "delete_default" then
        let (name, y) := y.gtext (get env entries "name" (.text [])) "delete_default"
        y.deleteDefault env name
      else if k = "delete_defaults" then entries.foldl (fun y e => y.deleteDefault env e.1) y
      else y.plainSetting env key value anchor
    | _ => y.plainSetting env key value anchor

/-- The connections that a top-level entry holds, with their names. -/
def connections (e : Text × Node × Text) : List (Text × Node) :=
  let k := env.lower e.1
  if k = "connection" then [(e.2.2, e.2.1)]
  else if k = "connections" then
    match e.2.1 with
    | .map entries => entries.map fun m => (m.1, m.2.1)
    | _ => []
  else []

/-- `entry`. -/
def entry (y : Yaml) (e : Text × Node × Text) : ImportM Yaml :=
  let k := env.lower e.1
  if k = "connection" || (k = "connections" && isMap e.2.1) then
    (connections env e).foldlM (fun y (m : Text × Node) => y.connection env m.1 m.2) y
  else pure (y.setting env e.1 e.2.1 e.2.2)
where
  /-- `isinstance(value, _YMap)`. -/
  isMap : Node → Bool
    | .map _ => true
    | _ => false

end

end Yaml

/-- The top-level entries of the documents that are mappings. -/
def topEntries (docs : List Node) : List (Text × Node × Text) :=
  docs.flatMap fun d => match d with
    | .map entries => entries
    | _ => []

/-- `_V1_KEYS`. -/
def v1Keys : List Text :=
  ["connection", "define", "default", "delete_default", "rotator", "led", "admin"]

/-- `_V2_KEYS`. -/
def v2Keys : List Text :=
  ["connections", "defines", "defaults", "delete_defaults", "rotators", "leds", "admins"]

/-- `except _YamlError as e: raise ConfigError(f"{label}: {e}")`. -/
def yamlToConfig (label : Text) : ImportExc → ImportExc
  | .yaml line msg => .config (label ++ ": line " ++ PyText.ofNat line ++ ": " ++ msg)
  | e => e

/-- The state before the first entry: the version decides which references there are. -/
def Yaml.start (v1 v2 : Bool) : Yaml :=
  let y : Yaml := { act := if v2 && !v1 then "=" else if v2 then "*=" else "*" }
  if v1 && v2 then y.warn "the file mixes ser2net version 1 and version 2 YAML entries" else y

/-- `_from_yaml`. -/
def fromYaml (env : ImportEnv) (text label : Text) : ImportM (List Conn × List Text) := do
  let docs ← handle (documents env text) id (yamlToConfig label)
  let entries := topEntries docs
  let v1 := entries.any fun e => v1Keys.contains (env.lower e.1)
  let v2 := entries.any fun e => v2Keys.contains (env.lower e.1)
  if !(v1 || v2) then
    raise (.config (label ++ (" is not a ser2net configuration: it has no connection, define " ++
      "or default entries.")))
  else do
    let y ← entries.foldlM (Yaml.entry env) (Yaml.start v1 v2)
    return (y.conns, y.warnings)

end Ser2Net.Import
