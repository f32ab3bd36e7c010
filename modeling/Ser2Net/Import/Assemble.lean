import Ser2Net.Import.Yaml
import Ser2Net.Import.V3

namespace Ser2Net.Import

open Ser2Net.Lib Ser2Net.Config Logged

/-!
# Import — the public entry point

`_assemble` and `parse_ser2net_config`.

* `keepOne` — a connection that validates and listens where no earlier one does is kept;
* `nameOne` — names become unique, and one mapping per device stays enabled;
* `parse` — the whole import.
-/

/-- `"udp" if network["mode"] == "udp" else "tcp"`. -/
def Conn.proto (c : Conn) : Text := if c.network.mode = .udp then "udp" else "tcp"

/-- The two connections would listen at the same place. -/
def Conn.clashes (o c : Conn) : Bool :=
  o.network.port = c.network.port && o.proto = c.proto &&
    ipOverlaps (str o.network.bindIp) (str c.network.bindIp)

/-- `MappingConfig.from_dict(c.to_dict()).validate()`; no check looks at the new id. -/
def Conn.check (env : ImportEnv) (c : Conn) : CfgM MappingConfig :=
  MappingConfig.load env.platform "" c.toDict

/-- One turn of the first loop of `_assemble`: the connections kept, and the warnings. -/
def keepOne (env : ImportEnv) (s : List Conn × List Text) (c : Conn) :
    ImportM (List Conn × List Text) :=
  let skipped (e : PyExc ConfigError) : ImportM (List Conn × List Text) :=
    pure (s.1, s.2 ++ [c.label ++ ": skipped: " ++ env.excText e])
  match c.check env with
  | .error .attributeError => raise .attributeError
  | .error .overflowError => raise .overflowError
  | .error .recursionError => raise .recursionError
  | .error e => skipped e
  | .ok _ =>
    match s.1.find? fun o => o.clashes c with
    | some other =>
      pure (s.1, s.2 ++ [c.label ++ ": skipped: " ++ env.upper c.proto ++ " port " ++
        PyText.ofInt c.network.port ++ " is already used by '" ++ other.name ++ "'"])
    | none => pure (s.1 ++ [c], s.2)

/-- A name with a number behind it. -/
def numbered (base : Text) (k : Nat) : Text := base ++ " (" ++ PyText.ofNat k ++ ")"

/-- The loop `while c.name in used`, from the number `k` on; the last name is free when all the
    names before it are used. -/
def freeName (used : List Text) (base : Text) : Nat → Nat → Text
  | 0, k => numbered base k
  | n + 1, k =>
    if used.contains (numbered base k) then freeName used base n (k + 1) else numbered base k

/-- The name that a connection gets. -/
def uniqueName (used : List Text) (base : Text) : Text :=
  if used.contains base then freeName used base used.length 2 else base

/-- The second loop of `_assemble`. -/
structure Naming where
  used : List Text := []
  /-- The device of every enabled mapping so far, with its name. -/
  owner : List (Text × Text) := []
  conns : List Conn := []
  warnings : List Text

/-- One turn of the second loop of `_assemble`. -/
def nameOne (s : Naming) (c : Conn) : Naming :=
  let name := uniqueName s.used c.name
  let renamed := if name = c.name then []
    else [c.label ++ ": renamed to '" ++ name ++ "' (the name is used twice)"]
  match s.owner.lookup c.device with
  | some owner =>
    let disabled := if c.enabled then [c.label ++ ": imported disabled: " ++ c.device ++
        " is also used by '" ++ owner ++ "', and a serial port can be open in only one active " ++
        "mapping here"]
      else []
    { used := s.used ++ [name]
      owner := s.owner
      conns := s.conns ++ [{ c with name := name, enabled := false }]
      warnings := s.warnings ++ renamed ++ disabled }
  | none =>
    { used := s.used ++ [name]
      owner := if c.enabled then s.owner ++ [(c.device, name)] else s.owner
      conns := s.conns ++ [{ c with name := name }]
      warnings := s.warnings ++ renamed }

/-- `_assemble`: the connections that become mappings, and the warnings. -/
def assemble (env : ImportEnv) (conns : List Conn) (warnings : List Text) :
    ImportM (List Conn × List Text) := do
  let (kept, warnings) ← conns.foldlM (keepOne env) ([], warnings)
  let named := kept.foldl nameOne { warnings := warnings }
  return (named.conns, named.warnings)

/-- The words that a top-level key can be, and whether it may end in `s`. -/
def topWords : List (Text × Bool) :=
  [("connection", true), ("define", true), ("default", true), ("delete_default", true),
    ("rotator", true), ("led", true), ("admin", true), ("include", false)]

/-- `[ \t]*:(?:[ \t]|$)` at the beginning of the rest of a line. -/
def topColon (t : Text) : Bool :=
  match t.dropWhile PyText.isBlank with
  | ':' :: rest => rest.head?.all PyText.isBlank
  | _ => false

/-- `_TOP_KEY` at the beginning of a line. -/
def topKey (line : Text) : Bool :=
  topWords.any fun (word, plural) =>
    match PyText.foldPrefix word line with
    | none => false
    | some rest =>
      topColon rest ||
        (plural && match PyText.foldPrefix ("s" : Text) rest with
          | none => false
          | some rest => topColon rest)

/-- `looks_yaml`. -/
def looksYaml (text : Text) : Bool :=
  let first := ((PyText.lines text).map strip).find? fun s => s ≠ [] && !isComment s
  (first.any fun s => startsWith s "%YAML" || marker s "---") || (PyText.lines text).any topKey

/-- The text without a byte order mark and with its line ends made uniform. -/
def normalize (text : Text) : Text :=
  PyText.replace ['\r'] ['\n'] (PyText.replace ['\r', '\n'] ['\n']
    (text.dropWhile fun c => c = Char.ofNat 0xfeff))

/-- The connections of a file and their warnings. -/
def fromText (env : ImportEnv) (text label : Text) : ImportM (List Conn × List Text) :=
  if looksYaml text then fromYaml env text (if label = [] then "ser2net.yaml" else label)
  else
    let lines := v3Lines text
    if lines.any fun l => (directiveMatch l.2).isSome || (stateMatch l.2).isSome then fromV3 env lines
    else raise (.config ((if label = [] then ("The file" : Text) else label) ++
      (" is not a ser2net configuration: expected a ser2net.yaml (ser2net 4.x) or ser2net.conf " ++
        "(ser2net 3.x) file.")))

/-- `parse_ser2net_config`: the connections that become mappings, and the warnings. -/
def parseConns (env : ImportEnv) (text filename : Text) : ImportM (List Conn × List Text) := do
  let text := normalize text
  if strip text = [] then raise (.config "The file is empty.")
  else do
    let (conns, warnings) ← fromText env text (lastComponent filename)
    let (kept, warnings) ← assemble env conns warnings
    return (kept, if kept ≠ [] then warnings
      else warnings ++ [if conns ≠ [] then ("No connection could be imported." : Text)
        else "The file has no ser2net connections to import."])

/-- `parse_ser2net_config`: mappings and warnings. -/
def parse (env : ImportEnv) (text filename : Text) : ImportM (List Json × List Text) := do
  let (kept, warnings) ← parseConns env text filename
  return (kept.map Conn.toDict, warnings)

end Ser2Net.Import
