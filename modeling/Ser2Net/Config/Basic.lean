import Ser2Net.Lib.Ipaddress

namespace Ser2Net.Config

open Ser2Net.Lib

/-!
# Config — errors, checks and normalisation

`config.py` loads its records from parsed JSON without converting the values, so every field
that is not converted stays a `Json` and `validate` runs on values of any type.

* `ConfigError` — the message template that goes through `_()`, and what is formatted in;
* `Platform` — what the checks ask of the machine: Python's text tables and the file system;
* `require` — one check; the others read `if not cond: raise ConfigError(...)`;
* `legacySeconds`, `traceFileName`, `normalizeCidr` — the conversions done on loading.
-/

/-- A value formatted into a message: a text or number written out, a value of the
    configuration, or its `repr`. -/
inductive ErrorArg
  | text (s : String)
  | value (v : Json)
  | repr (v : Json)
  deriving DecidableEq, Repr

/-- `ConfigError`: the template of the message and its arguments. -/
structure ConfigError where
  template : String
  args : List ErrorArg
  deriving DecidableEq, Repr

/-- Configuration code: it may raise `ConfigError` or an exception of the language. -/
abbrev CfgM := PyM ConfigError

/-- The machine under the checks: Python's text tables, and `os.path.isfile` of a path or
    of a file descriptor. -/
structure Platform where
  py : PyEnv
  isFile : Json → Bool

/-- A machine without files, whose texts are ASCII. -/
def bareMachine : Platform := ⟨⟨fun _ => false, fun _ => "", id⟩, fun _ => false⟩

/-- Raise unless the check passes. -/
def require (ok : Bool) (template : String) (args : List ErrorArg) : CfgM Unit :=
  if ok then .ok () else .error (.user ⟨template, args⟩)

/-- A check that passed. -/
theorem require_eq_ok {ok : Bool} {template : String} {args : List ErrorArg} {u : Unit} :
    require ok template args = .ok u ↔ ok = true := by
  unfold require
  split <;> simp_all

/-- `os.path.isfile(p)`: a path is a text, an int is a file descriptor (a C int), and any
    other type raises. -/
def isFile (m : Platform) (v : Json) : CfgM Bool :=
  match v with
  | .str _ | .bool _ => .ok (m.isFile v)
  | .int n => if -2 ^ 31 ≤ n ∧ n < 2 ^ 31 then .ok (m.isFile v) else .error .overflowError
  | _ => .error .typeError

/-- `isinstance(v, int) and lo <= v <= hi`: a bool is an int. -/
def intWithin (v : Json) (lo hi : Int) : Bool :=
  match v.int? with
  | some n => lo ≤ n && n ≤ hi
  | none => false

/-- `isinstance(v, int) and lo <= v`. -/
def intAtLeast (v : Json) (lo : Int) : Bool :=
  match v.int? with
  | some n => lo ≤ n
  | none => false

/-- Text arguments for `{0}`: a tuple of texts as Python writes it. -/
def tuple (l : List String) : ErrorArg :=
  .text ("(" ++ ", ".intercalate (l.map fun s => "'" ++ s ++ "'") ++ ")")

/-! ### Conversions on loading -/

/-- `MAX_TIMER_S`: one year. -/
def maxTimerS : Int := 365 * 86400

/-- A numeric text as `_legacy_seconds` converts it; other values are left alone. -/
def numericText (v : Json) : Json :=
  match v with
  | .str s =>
    match PyFloat.ofText (PyText.strip s) with
    | none => .int 0
    | some x => if x.isInteger then .int (x.toInt?.getD 0) else .float x
  | v => v

/-- `_legacy_seconds`.  `math.isfinite` raises on an int beyond the doubles. -/
def legacySeconds (v : Json) : CfgM Json :=
  match numericText v with
  | .int n =>
    if (PyFloat.ofInt? n).isNone then .error .overflowError
    else if n < 0 then .ok (.int 0)
    else .ok (.int (min n maxTimerS))
  | .float x =>
    if !x.isFinite || !(PyFloat.fin 0).le x then .ok (.int 0)
    else .ok (if x.le (.ofIntExact maxTimerS) then .float x else .int maxTimerS)
  | _ => .ok (.int 0)

/-- `TRACE_DEFAULT_NAME`. -/
def traceDefaultName : String := "trace.log"

/-- `re.split(r"[\\/]", raw)[-1]`: the last path component. -/
def lastComponent (l : List Char) : List Char :=
  (l.reverse.takeWhile fun c => c ≠ '/' && c ≠ '\\').reverse

/-- `_TRACE_NAME_BAD.sub("_", name)`: each run of characters outside `[\w.-]` becomes one
    underscore.  `inRun` says that the character before belongs to such a run. -/
def subBad (py : PyEnv) : Bool → List Char → List Char
  | _, [] => []
  | inRun, c :: rest =>
    if py.isWord c || c = '.' || c = '-' then c :: subBad py false rest
    else if inRun then subBad py true rest
    else '_' :: subBad py true rest

/-- A dot or a blank, as in `.strip(". ")`. -/
def isDotOrBlank (c : Char) : Bool := c = '.' || c = ' '

/-- `trace_file_name`. -/
def traceFileName (py : PyEnv) (v : Json) : String :=
  let raw := if v.truthy then PyText.strip (v.toStr py) else ""
  if raw = "" then ""
  else
    let name := subBad py false (lastComponent raw.toList)
    let name := (PyText.stripBy isDotOrBlank name).take 80
    let name := PyText.rstripBy isDotOrBlank name
    if name = [] then traceDefaultName else String.ofList name

/-- `normalize_cidr`. -/
def normalizeCidr (v : Json) : CfgM String := do
  let v ← v.strip
  return if v = "0.0.0.0" then "0.0.0.0/0" else if v = "::" then "::/0" else v

/-- Every entry of an address list reads as a network. -/
def requireNetworks (label : String) : List Json → CfgM Unit
  | [] => .ok ()
  | cidr :: rest => do
    let net ← normalizeCidr cidr
    require (Ipaddress.ipNetwork net).isSome "Invalid {0} client IP/CIDR: {1}."
      [.text label, .repr cidr]
    requireNetworks label rest

/-- `ROLES`. -/
def roles : List String := ["admin", "operator", "viewer"]

end Ser2Net.Config
