import Ser2Net.Lib.Logged
import Ser2Net.Lib.PyStr
import Ser2Net.Config.App

namespace Ser2Net.Import

open Ser2Net.Lib Ser2Net.Config

/-!
# Import — texts, exceptions and conversions

`app/ser2net_import.py` reads a configuration of the classic ser2net.  Its code converts pieces
of the file with `chr`, `int` and `socket.getservbyname`; each conversion is recorded, so that
it can be said afterwards which texts a run depended on.

* `ImportExc` — `ConfigError`, the reader's own `_YamlError`, and the exceptions of the language;
* `Literal` — a value handed to a conversion, and which of them are `Bad`;
* `ImportEnv` — the machine: Python's text tables, the services database, the texts of errors.

Messages are those of the default language.  A text is a list of characters; a lone surrogate,
which only an escape like `\uD800` can make, is read as U+FFFD.
-/

/-- A Python `str`. -/
abbrev Text := List Char

instance : Coe String Text := ⟨String.toList⟩

/-- The exceptions of the import. -/
inductive ImportExc
  /-- `ConfigError`. -/
  | config (msg : Text)
  /-- `_YamlError`, with its line. -/
  | yaml (line : Nat) (msg : Text)
  | valueError (msg : Text)
  | typeError
  | attributeError
  | overflowError
  | recursionError
  /-- The bound on the number of steps of a loop was too small; it never is. -/
  | fuel
  deriving DecidableEq, Repr

/-- A value handed to a conversion. -/
inductive Literal
  /-- `chr(n)`. -/
  | codePoint (n : Nat)
  /-- `chr(n)` inside a flow collection, where a `ValueError` is turned into a `_YamlError`. -/
  | flowCodePoint (n : Nat)
  /-- `int(t)`. -/
  | number (t : Text)
  /-- `socket.getservbyname(t)`. -/
  | service (t : Text)
  deriving DecidableEq, Repr

/-- The conversion raises an exception that nothing catches. -/
def Literal.Bad : Literal → Prop
  | .codePoint n => 0x110000 ≤ n
  | .flowCodePoint n => 2 ^ 31 ≤ n
  | .number t => PyText.intOf t = none
  | .service t => Char.ofNat 0 ∈ t

/-- Code of the import. -/
abbrev ImportM := Logged ImportExc Literal

open Logged

/-- A node of the reader: a scalar, a list, or a `_YMap` of keys, values and anchors. -/
inductive Node
  | text (t : Text)
  | seq (items : List Node)
  | map (entries : List (Text × Node × Text))
  deriving Inhabited, Repr

/-- What the import asks of the machine. -/
structure ImportEnv where
  platform : Platform
  /-- `socket.getservbyname` of a name without NUL; `none` is `OSError` or `UnicodeError`. -/
  service : Text → Option Nat
  /-- `str(e)` of an exception of the configuration code. -/
  excText : PyExc ConfigError → Text
  /-- `s.upper()` of a text beyond ASCII. -/
  upperOther : Text → Text
  /-- `str(node)` of a list or a mapping of the reader. -/
  reprNode : Node → Text

/-- `s.lower()`. -/
def ImportEnv.lower (env : ImportEnv) (t : Text) : Text :=
  (env.platform.py.lower (String.ofList t)).toList

/-- `s.upper()`. -/
def ImportEnv.upper (env : ImportEnv) (t : Text) : Text :=
  if t.all (fun c => c.toNat < 128) then t.map Char.toUpper else env.upperOther t

/-- `chr(n)`.  The argument is a C int. -/
def chr (n : Nat) : ImportM Char :=
  convert (.codePoint n) <|
    if 2 ^ 31 ≤ n then .error .overflowError
    else if 0x110000 ≤ n then .error (.valueError "chr() arg not in range(0x110000)")
    else if n.isValidChar then .ok (Char.ofNat n) else .ok (Char.ofNat 0xfffd)

/-- `int(t)`. -/
def int (t : Text) : ImportM Int :=
  convert (.number t) <|
    match PyText.intOf t with
    | some n => .ok n
    | none => .error (.valueError ("invalid literal for int(): " ++ t))

/-- `socket.getservbyname(t)`, with `None` for the exceptions that the caller catches. -/
def getservbyname (env : ImportEnv) (t : Text) : ImportM (Option Nat) :=
  convert (.service t) <|
    if t.contains (Char.ofNat 0) then .error (.valueError "embedded null character")
    else .ok (env.service t)

/-- `s.strip()`. -/
def strip (t : Text) : Text := PyText.stripBy PyText.isSpace t

/-- `s.startswith(p)`. -/
def startsWith (t p : Text) : Bool := p.isPrefixOf t

/-- `name, sep, value = s.partition(c)`: without the separator the value is empty. -/
def partition (c : Char) (t : Text) : Text × Bool × Text :=
  match PyText.partition c t with
  | some (before, after) => (before, true, after)
  | none => (t, false, [])

/-- Whether the exception is one that the callers of the import do not expect. -/
def ImportExc.Foreign : ImportExc → Prop
  | .config _ => False
  | _ => True

end Ser2Net.Import
