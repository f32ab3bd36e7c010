import Ser2Net.Import.Scalar

namespace Ser2Net.Import

open Ser2Net.Lib Logged

/-!
# Import — the YAML reader

`_YamlReader`: block mappings and sequences by indentation, with repeated keys kept in order.

* `Reader` — the lines still to be read, their position, and the anchors;
* `Reader.plain`, `quoted`, `flow`, `blockScalar` — the scalars that go over several lines;
* `Reader.node`, `map`, `seq`, `value` — the block structure;
* `documents` — the whole text.

The four functions of the block structure call one another; `fuel` bounds the depth of their
calls, and `documents` gives them more than they can use (`Import/Progress`).
-/

/-- `_YamlReader`: `lines` is `self.lines[self.i:]`. -/
structure Reader where
  lines : List Text
  /-- The next line to read. -/
  i : Nat
  /-- The last line consumed. -/
  last : Nat
  anchors : List (Text × Node)

namespace Reader

/-- `_YamlReader(text)`. -/
def init (text : Text) : Reader := ⟨PyText.lines text, 0, 0, []⟩

/-- `raise self._err(msg)`. -/
def err {α : Type} (r : Reader) (msg : Text) : ImportM α := raise (.yaml (r.last + 1) msg)

/-- `raise self._err(msg, self.i)`. -/
def errHere {α : Type} (r : Reader) (msg : Text) : ImportM α := raise (.yaml (r.i + 1) msg)

/-- `self.i += 1`. -/
def skip (r : Reader) : Reader := { r with lines := r.lines.tail, i := r.i + 1 }

/-- `_take`. -/
def take (r : Reader) : Reader := { r.skip with last := r.i }

/-- A blank line or a comment. -/
def insignificant (line : Text) : Bool := (indent line).2 = [] || isComment (indent line).2

/-- The lines from the first significant one on, and its position. -/
def skipInsignificant : List Text → Nat → List Text × Nat
  | [], i => ([], i)
  | line :: rest, i => if insignificant line then skipInsignificant rest (i + 1) else (line :: rest, i)

/-- `_peek`: the reader at the next significant line. -/
def advance (r : Reader) : Reader :=
  { r with lines := (skipInsignificant r.lines r.i).1, i := (skipInsignificant r.lines r.i).2 }

/-- `_peek`: indentation and text of the next significant line; `none` at a document end. -/
def peek (r : Reader) : Option (Int × Text) :=
  match r.advance.lines with
  | [] => none
  | line :: _ => if boundary (indent line).1 (indent line).2 then none else some (indent line)

/-! ### Scalars over several lines -/

/-- The loop of `_plain`: the text so far and the line breaks after it. -/
def plainFrom (parent : Int) (out : Text) (breaks : Nat) : List Text → Reader → Text × Reader
  | [], r => (out, r)
  | line :: rest, r =>
    let (ind, body) := indent line
    if body = [] then plainFrom parent out (breaks + 1) rest r.skip
    else if isComment body then plainFrom parent out breaks rest r.skip
    else if ind ≤ parent || boundary ind body then (out, r)
    else
      let sep := if breaks ≠ 0 then List.replicate breaks '\n' else [' ']
      plainFrom parent (out ++ sep ++ cutComment body) 0 rest r.take

/-- `_plain`. -/
def plain (r : Reader) (first : Text) (parent : Int) : Text × Reader :=
  plainFrom parent (cutComment first) 0 r.lines r

/-- The end of `_quoted`: what stands behind the closing quote, and the text. -/
def finishQuoted (r : Reader) (quote : Char) (before : List Text) (part : Text) (stop : Nat) :
    ImportM (Text × Reader) :=
  let tail := strip (part.drop (stop + 1))
  if tail ≠ [] && !isComment tail then r.err "unexpected text after a quoted string"
  else do
    let t ← foldQuoted (before ++ [part.take stop]) quote
    return (t, r)

/-- The loop of `_quoted`; `part` is `parts[-1]`. -/
def quotedFrom (quote : Char) (before : List Text) (part : Text) :
    List Text → Reader → ImportM (Text × Reader)
  | [], r =>
    match closeQuote quote part with
    | none => r.err "unterminated quoted string"
    | some stop => r.finishQuoted quote before part stop
  | line :: rest, r =>
    match closeQuote quote part with
    | none => quotedFrom quote (before ++ [part]) line rest r.take
    | some stop => r.finishQuoted quote before part stop

/-- `_quoted` of a text that begins with a quote. -/
def quoted (r : Reader) (quote : Char) (tail : Text) : ImportM (Text × Reader) :=
  quotedFrom quote [] tail r.lines r

/-- What `_flow` records is inside a `try`. -/
def markFlow : Literal → Literal
  | .codePoint n => .flowCodePoint n
  | l => l

/-- `except ValueError as e: raise self._err(str(e))`. -/
def catchValueError (line : Nat) : ImportExc → ImportExc
  | .valueError msg => .yaml line msg
  | e => e

/-- The end of `_flow`: what stands behind the collection, and the collection. -/
def finishFlow (env : ImportEnv) (r : Reader) (text : Text) (stop : Nat) :
    ImportM (Node × Reader) :=
  let tail := strip (text.drop stop)
  if tail ≠ [] && !isComment tail then r.err "unexpected text after ] or \x7d"
  else do
    let node ← handle (Flow.read env r.anchors (text.take stop)) markFlow
      (catchValueError (r.last + 1))
    return (node, r)

/-- The loop of `_flow`. -/
def flowFrom (env : ImportEnv) (text : Text) : List Text → Reader → ImportM (Node × Reader)
  | [], r =>
    match flowEnd text with
    | none => r.err "unterminated [...] or \x7b...\x7d"
    | some stop => r.finishFlow env text stop
  | line :: rest, r =>
    match flowEnd text with
    | none => flowFrom env (text ++ '\n' :: line) rest r.take
    | some stop => r.finishFlow env text stop

/-- `_flow`. -/
def flow (env : ImportEnv) (r : Reader) (s : Text) : ImportM (Node × Reader) :=
  flowFrom env s r.lines r

/-- The header of a block scalar: its style, its chomping and its indentation indicator. -/
structure BlockHeader where
  style : Char
  chomp : Option Char
  width : Option Nat
  deriving DecidableEq, Repr

/-- `[+-]?` at the beginning of a text. -/
def optSign : Text → Option Char × Text
  | '+' :: rest => (some '+', rest)
  | '-' :: rest => (some '-', rest)
  | rest => (none, rest)

/-- `[1-9]?` at the beginning of a text. -/
def optDigit : Text → Option Nat × Text
  | [] => (none, [])
  | c :: rest =>
    if '1' ≤ c ∧ c ≤ '9' then (some (c.toNat - '0'.toNat), rest) else (none, c :: rest)

/-- `re.match(r"([|>])([+-]?)([1-9]?)([+-]?)\s*(?:#.*)?$", header)`. -/
def blockHeader : Text → Option BlockHeader
  | [] => none
  | style :: rest =>
    let (before, rest) := optSign rest
    let (width, rest) := optDigit rest
    let (after, rest) := optSign rest
    let rest := rest.dropWhile PyText.isSpace
    if rest = [] || isComment rest then some ⟨style, before.or after, width⟩ else none

/-- The first loop of `_block_scalar`: its lines; `indentation` is negative before the first. -/
def blockLines (parent indentation : Int) (out : List Text) :
    List Text → Reader → List Text × Reader
  | [], r => (out, r)
  | line :: rest, r =>
    let (ind, body) := indent line
    if body = [] then blockLines parent indentation (out ++ [[]]) rest r.skip
    else
      let indentation := if indentation < 0 then ind else indentation
      if ind < indentation || ind ≤ parent then (out, r)
      else
        blockLines parent indentation
          (out ++ [List.replicate (ind - indentation).toNat ' ' ++ body]) rest r.take

/-- The lines of a folded block scalar put together. -/
def foldBlock (text : Text) (blank : Nat) : List Text → Text
  | [] => text
  | ln :: rest =>
    if ln = [] then foldBlock text (blank + 1) rest
    else
      let sep := if blank ≠ 0 then List.replicate blank '\n' else [' ']
      foldBlock (if text ≠ [] then text ++ sep ++ ln else ln) 0 rest

/-- The text of a block scalar from its lines. -/
def blockText (h : BlockHeader) (lines : List Text) : Text :=
  let body := (lines.reverse.dropWhile (· = [])).reverse
  let trailing := lines.length - body.length
  let text := if h.style = '|' then PyText.join ['\n'] body else foldBlock [] 0 body
  if h.chomp = some '-' || text = [] then text
  else text ++ List.replicate (if h.chomp = some '+' then 1 + trailing else 1) '\n'

/-- `_block_scalar`. -/
def blockScalar (r : Reader) (header : Text) (parent : Int) : ImportM (Text × Reader) :=
  match blockHeader header with
  | none => r.err "bad | or > block header"
  | some h =>
    let indentation := h.width.elim (-1) fun w => max parent 0 + w
    let (lines, r) := blockLines parent indentation [] r.lines r
    pure (blockText h lines, r)

/-! ### The block structure -/

/-- The tags and the anchor in front of a value; `n` bounds the number of them. -/
def properties : Nat → Text → Text → Text × Text
  | 0, s, anchor => (s, anchor)
  | n + 1, s, anchor =>
    match s with
    | c :: rest =>
      if c = '&' || c = '!' then
        let name := rest.takeWhile fun c => !PyText.isSpace c
        let after := (rest.dropWhile fun c => !PyText.isSpace c).dropWhile PyText.isSpace
        properties n after (if c = '&' then name else anchor)
      else (s, anchor)
    | [] => ([], anchor)

/-- `self.anchors[anchor] = node`. -/
def setAnchor (r : Reader) (anchor : Text) (node : Node) : Reader :=
  { r with anchors := dictSet r.anchors anchor node }

/-- `_value` of a text that holds the value: an alias or a scalar. -/
def scalar (env : ImportEnv) (r : Reader) (s : Text) (parent : Int) : ImportM (Node × Reader) :=
  match s with
  | [] => pure (.text [], r)
  | c :: tail =>
    if c = '*' && !(tail.head? = some '(' || tail.head? = some '{') then
      let name := aliasName tail
      match r.anchors.lookup name with
      | none => r.err ("unknown alias *" ++ name)
      | some node => pure (node, r)
    else if c = '"' || c = '\'' then do
      let (t, r) ← r.quoted c tail
      return (.text t, r)
    else if c = '[' || c = '{' then r.flow env s
    else if c = '|' || c = '>' then do
      let (t, r) ← r.blockScalar s parent
      return (.text t, r)
    else
      let (t, r) := r.plain s parent
      pure (.text t, r)

/-- `isinstance(value, (_YMap, list))`. -/
def isCollection : Node → Bool
  | .text _ => false
  | _ => true

mutual

/-- `_node`. -/
def node (env : ImportEnv) : Nat → Reader → Int → ImportM (Node × Reader)
  | 0, _, _ => raise .fuel
  | fuel + 1, r, parent =>
    match r.peek with
    | none => pure (.text [], r.advance)
    | some (ind, body) =>
      if ind ≤ parent then pure (.text [], r.advance)
      else if isItem body then seq env fuel r.advance ind []
      else if (key body).isSome then map env fuel r.advance ind (parent < 0) []
      else do
        let (node, _, r) ← value env fuel r.advance.take body parent false
        return (node, r)

/-- `_map`. -/
def map (env : ImportEnv) :
    Nat → Reader → Int → Bool → List (Text × Node × Text) → ImportM (Node × Reader)
  | 0, _, _, _, _ => raise .fuel
  | fuel + 1, r, ind, root, entries =>
    match r.peek with
    | none => pure (.map entries, r.advance)
    | some (at_, body) =>
      if at_ < ind then pure (.map entries, r.advance)
      else
        match if at_ = ind then key body else none with
        | none =>
          if at_ = ind && isItem body then pure (.map entries, r.advance)
          else r.advance.errHere "expected 'key: value' here"
        | some (k, rest) => do
          let (v, anchor, r) ← value env fuel r.advance.take rest ind true
          let r := if root && anchor ≠ [] && isCollection v then r.setAnchor anchor (.text anchor)
            else r
          map env fuel r ind root (entries ++ [(k, v, anchor)])

/-- `_seq`. -/
def seq (env : ImportEnv) : Nat → Reader → Int → List Node → ImportM (Node × Reader)
  | 0, _, _, _ => raise .fuel
  | fuel + 1, r, ind, items =>
    match r.peek with
    | none => pure (.seq items, r.advance)
    | some (at_, body) =>
      if at_ < ind || (at_ = ind && !isItem body) then pure (.seq items, r.advance)
      else if ind < at_ then r.advance.errHere "unexpected indentation"
      else
        let rest := body.tail
        let inner := rest.dropWhile PyText.isBlank
        if inner ≠ [] && !isComment inner && (isItem inner || (key inner).isSome) then do
          -- "- key: value": the dash is replaced by blanks and a block begins on this line
          let width := (ind + 1 + rest.length - inner.length).toNat
          let line := List.replicate width ' ' ++ inner
          let (item, r) ← node env fuel
            { r.advance with lines := line :: r.advance.lines.tail } ind
          seq env fuel r ind (items ++ [item])
        else do
          let (item, _, r) ← value env fuel r.advance.take rest ind false
          seq env fuel r ind (items ++ [item])

/-- `_value`: the value behind `key:` or `- `, whose line is consumed already, and its
    anchor. -/
def value (env : ImportEnv) :
    Nat → Reader → Text → Int → Bool → ImportM (Node × Text × Reader)
  | 0, _, _, _, _ => raise .fuel
  | fuel + 1, r, text, parent, inMap => do
    let (s, anchor) := properties (strip text).length (strip text) []
    let (v, r) ← (if s = [] || isComment s then
        match r.peek with
        | none => node env fuel r.advance parent
        | some (at_, body) =>
          if inMap && at_ = parent && isItem body then seq env fuel r.advance parent []
          else node env fuel r.advance parent
      else r.scalar env s parent)
    let r := if anchor ≠ [] then r.setAnchor anchor v else r
    return (v, anchor, r)

end

/-- How deep the calls of the block structure can go on these lines. -/
def depth (r : Reader) : Nat := 3 * (r.lines.map fun l => l.length + 1).sum + 3

/-- The loop of `documents`. -/
def documentsFrom (env : ImportEnv) : Nat → Reader → List Node → ImportM (List Node)
  | 0, _, _ => raise .fuel
  | fuel + 1, r, docs =>
    match r.lines with
    | [] => pure docs
    | line :: _ =>
      if insignificant line || boundary (indent line).1 (indent line).2 then
        documentsFrom env fuel r.skip docs
      else do
        let (doc, r) ← r.node env r.depth (-1)
        -- dedented below a nested block: not YAML
        (if r.peek.isSome then r.advance.errHere "unexpected indentation"
         else documentsFrom env fuel r.advance (docs ++ [doc]))

end Reader

/-- `_YamlReader(text).documents()`. -/
def documents (env : ImportEnv) (text : Text) : ImportM (List Node) :=
  Reader.documentsFrom env (2 * text.length + 4) (Reader.init text) []

end Ser2Net.Import
