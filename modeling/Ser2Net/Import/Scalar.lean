import Ser2Net.Import.Basic

namespace Ser2Net.Import

open Ser2Net.Lib Logged

/-!
# Import — lines, scalars and flow collections of the YAML reader

The functions below the block structure: how a line is cut into its indentation, key and
value, and how a quoted scalar or a flow collection is read.

* `indent`, `boundary`, `isItem`, `key` — one line;
* `dqUnescape`, `foldQuoted` — quoted scalars; `\x`, `\u` and `\U` go through `chr`;
* `flowEnd`, `Flow.value` — flow collections.

The loops over a text that the source writes with an index run on the rest of the text; what
the source reads at `j - 1` is passed along as the character before.
-/

/-! ### One line -/

/-- `_indent`: the column of the text on a line, and the text. -/
def indent (line : Text) : Int × Text :=
  (PyText.columns (line.takeWhile PyText.isBlank), line.dropWhile PyText.isBlank)

/-- `_marker`. -/
def marker (body mark : Text) : Bool :=
  body = mark || startsWith body (mark ++ [' ']) || startsWith body (mark ++ ['\t'])

/-- `_boundary`: a directive or a document marker. -/
def boundary (ind : Int) (body : Text) : Bool :=
  ind = 0 && (startsWith body ['%'] || marker body "---" || marker body "...")

/-- `_is_item`. -/
def isItem (body : Text) : Bool :=
  body = ['-'] || startsWith body ['-', ' '] || startsWith body ['-', '\t']

/-- `s.startswith("#")`. -/
def isComment (body : Text) : Bool := startsWith body ['#']

/-- `_cut_comment`. -/
def cutComment (s : Text) : Text := PyText.rstripBy PyText.isSpace (PyText.beforeComment s)

/-- `re.search(r":(?:[ \t]|$)", body)`: the text before the colon and the text after it. -/
def splitColon : Text → Option (Text × Text)
  | [] => none
  | c :: rest =>
    if c = ':' && (rest.head?.map PyText.isBlank).getD true then some ([], rest)
    else (splitColon rest).map fun (before, after) => (c :: before, after)

/-- The key of a line that begins with a quote: quotes inside it are not looked at. -/
def quotedKey (quote : Char) (tail : Text) : Option (Text × Text) := do
  let stop ← PyText.find quote tail
  match (tail.drop (stop + 1)).dropWhile PyText.isBlank with
  | ':' :: rest =>
    if (rest.head?.map PyText.isBlank).getD true then some (tail.take stop, rest) else none
  | _ => none

/-- The characters that no plain key begins with. -/
def notKey : Text := "[]\x7b\x7d,&*!|>%@`#"

/-- `_key`: key and text after the colon of a `key: value` line. -/
def key : Text → Option (Text × Text)
  | [] => none
  | c :: tail =>
    if c = '"' || c = '\'' then quotedKey c tail
    else if notKey.contains c || isItem (c :: tail) then none
    else
      match splitColon (c :: tail) with
      | none => none
      | some (before, after) =>
        let k := PyText.rstripBy PyText.isSpace before
        if k = [] || PyText.hasComment k then none else some (k, after)

/-! ### Quoted scalars -/

/-- `_close_quote`: the position of the closing quote. -/
def closeQuote (quote : Char) : Text → Option Nat
  | [] => none
  | [c] => if c = quote then some 0 else none
  | c :: d :: rest =>
    if quote = '"' ∧ c = '\\' then (closeQuote quote rest).map (· + 2)
    else if c = quote then
      if quote = '\'' ∧ d = '\'' then (closeQuote quote rest).map (· + 2) else some 0
    else (closeQuote quote (d :: rest)).map (· + 1)

/-- `_DQ_ESCAPES`. -/
def dqEscapes : List (Char × Char) :=
  [('0', Char.ofNat 0), ('a', Char.ofNat 7), ('b', Char.ofNat 8), ('t', '\t'), ('\t', '\t'),
    ('n', '\n'), ('v', Char.ofNat 11), ('f', Char.ofNat 12), ('r', '\r'), ('e', Char.ofNat 0x1b),
    (' ', ' '), ('"', '"'), ('/', '/'), ('\\', '\\'), ('N', Char.ofNat 0x85),
    ('_', Char.ofNat 0xa0), ('L', Char.ofNat 0x2028), ('P', Char.ofNat 0x2029)]

/-- `[0-9a-fA-F]{n}` at the beginning of a text. -/
def hexRun (n : Nat) (t : Text) : Option Text :=
  if (t.take n).length = n && (t.take n).all PyText.isHexDigit then some (t.take n) else none

/-- The digits of a numeric escape; the text begins behind the backslash. -/
def numericEscape : Text → Option Text
  | 'x' :: rest => hexRun 2 rest
  | 'u' :: rest => hexRun 4 rest
  | 'U' :: rest => hexRun 8 rest
  | _ => none

/-- `_dq_unescape`; the number says how many characters of an escape are still to be skipped.
    A text that is no YAML escape is kept, it may be one of ser2net. -/
def dqUnescapeFrom : Nat → Text → ImportM Text
  | _, [] => pure []
  | skip + 1, _ :: rest => dqUnescapeFrom skip rest
  | 0, c :: rest =>
    if c = '\\' then
      match numericEscape rest with
      | some digits => do
        let ch ← chr (PyText.hexOf digits)
        let out ← dqUnescapeFrom (digits.length + 1) rest
        return ch :: out
      | none =>
        match rest.head? with
        | none => pure [c]
        | some e => do
          let out ← dqUnescapeFrom 1 rest
          return ((dqEscapes.lookup e).elim [c, e] ([·])) ++ out
    else do
      let out ← dqUnescapeFrom 0 rest
      return c :: out

/-- `_dq_unescape`. -/
def dqUnescape (s : Text) : ImportM Text := dqUnescapeFrom 0 s

/-- The loop of `_fold_quoted`: the text so far, and how many empty lines came after it. -/
def foldLines (quote : Char) (text : Text) (blank : Nat) : List Text → Text
  | [] => text
  | raw :: rest =>
    let last := rest.isEmpty
    let seg := if last then raw.dropWhile PyText.isBlank else PyText.stripBy PyText.isBlank raw
    if seg = [] && !last then foldLines quote text (blank + 1) rest
    else
      let text := PyText.rstripBy PyText.isBlank text
      let trailing := text.length - (PyText.rstripBy (· = '\\') text).length
      if quote = '"' && trailing % 2 = 1 then foldLines quote (text.dropLast ++ seg) 0 rest
      else
        let sep := if blank ≠ 0 then List.replicate blank '\n' else [' ']
        foldLines quote (text ++ sep ++ seg) 0 rest

/-- `_fold_quoted`; there is at least one part. -/
def foldQuoted (parts : List Text) (quote : Char) : ImportM Text :=
  let text := foldLines quote (parts.headD []) 0 parts.tail
  if quote = '"' then dqUnescape text else pure (PyText.replace ['\'', '\''] ['\''] text)

/-! ### Flow collections -/

/-- Where `_flow_end` is. -/
inductive FlowMode
  | plain
  | quoted (quote : Char)
  /-- Behind a backslash in a double-quoted text. -/
  | escaped (quote : Char)
  | comment
  deriving DecidableEq, Repr

/-- `s[j - 1] in " \t\n"`, or there is no such character. -/
def afterBlank (prev : Option Char) : Bool := prev.all fun c => [' ', '\t', '\n'].contains c

/-- One character of `_flow_end`: the depth and the mode behind it. -/
def flowStep (depth : Int) (prev : Option Char) (c : Char) : FlowMode → Int × FlowMode
  | .comment => (depth, if c = '\n' then .plain else .comment)
  | .escaped quote => (depth, .quoted quote)
  | .quoted quote =>
    if c = '\\' && quote = '"' then (depth, .escaped quote)
    else if c = quote then (depth, .plain)
    else (depth, .quoted quote)
  | .plain =>
    if (c = '"' || c = '\'') &&
        prev.all (fun p => [' ', '\t', '\n', ',', '[', '{', ':'].contains p) then
      (depth, .quoted c)
    else if c = '#' && afterBlank prev then (depth, .comment)
    else if c = '[' || c = '{' then (depth + 1, .plain)
    else if c = ']' || c = '}' then (depth - 1, .plain)
    else (depth, .plain)

/-- The loop of `_flow_end`. -/
def flowEndFrom (depth : Int) (mode : FlowMode) (prev : Option Char) : Text → Option Nat
  | [] => none
  | c :: rest =>
    let (depth', mode') := flowStep depth prev c mode
    if depth' < depth && depth' = 0 then some 1
    else (flowEndFrom depth' mode' (some c) rest).map (· + 1)

/-- `_flow_end`: how long the collection is that the text begins with. -/
def flowEnd (text : Text) : Option Nat := flowEndFrom 0 .plain none text

/-- A place in the text of a flow collection: `s[j - 1]` and `s[j:]`. -/
structure Cursor where
  prev : Option Char
  rest : Text
  deriving DecidableEq, Repr

/-- `self.j += n`. -/
def Cursor.advance (a : Cursor) (n : Nat) : Cursor :=
  ⟨((a.rest.take n).getLast?).or a.prev, a.rest.drop n⟩

/-- The loop of `_Flow._ws`; the flag says that it is inside a comment. -/
def skipWs (comment : Bool) (prev : Option Char) : Text → Cursor
  | [] => ⟨prev, []⟩
  | c :: rest =>
    if comment && c ≠ '\n' then skipWs true (some c) rest
    else if [' ', '\t', '\n'].contains c then skipWs false (some c) rest
    else if c = '#' && afterBlank prev then skipWs true (some c) rest
    else ⟨prev, c :: rest⟩

/-- `_Flow._ws`. -/
def Cursor.ws (a : Cursor) : Cursor := skipWs false a.prev a.rest

/-- `self.s.startswith(c, self.j)`. -/
def Cursor.at (a : Cursor) (c : Char) : Bool := a.rest.head? = some c

/-- A plain scalar of a flow collection ends before this text. -/
def flowStop (prev : Option Char) (ch : Char) (rest : Text) : Bool :=
  [',', '[', ']', '{', '}'].contains ch ||
    (ch = ':' && rest.head?.all fun n => [' ', '\t', '\n', ',', ']', '}'].contains n) ||
    (ch = '#' && prev.any fun p => [' ', '\t', '\n'].contains p)

/-- The length of a plain scalar of a flow collection. -/
def flowPlain (prev : Option Char) : Text → Nat
  | [] => 0
  | ch :: rest => if flowStop prev ch rest then 0 else flowPlain (some ch) rest + 1

/-- `" ".join(ln.strip() for ln in s.split("\n") if ln.strip())`. -/
def joinLines (s : Text) : Text :=
  PyText.join [' '] (((PyText.lines s).map strip).filter (· ≠ []))

/-- `_ALIAS_NAME` at the beginning of a text; empty when it does not match. -/
def aliasName (t : Text) : Text :=
  t.takeWhile fun c => !(PyText.isSpace c || [',', '[', ']', '{', '}'].contains c)

/-- `str(node)`. -/
def Node.str (env : ImportEnv) : Node → Text
  | .text t => t
  | n => env.reprNode n

/-- `_Flow.value` of a scalar: a quoted text, an alias or a plain text. -/
def Flow.scalar (anchors : List (Text × Node)) (a : Cursor) : ImportM (Node × Cursor) :=
  match a.rest with
  | [] => pure (.text [], a)
  | c :: tail =>
    if c = '\'' || c = '"' then
      match closeQuote c tail with
      | none => raise (.valueError "unterminated quoted string")
      | some stop => do
        let t ← foldQuoted (PyText.lines (tail.take stop)) c
        return (.text t, a.advance (stop + 2))
    else if c = '*' then
      let name := aliasName tail
      match anchors.lookup name with
      | none => raise (.valueError ("unknown alias *" ++ name))
      | some node => pure (node, a.advance (1 + name.length))
    else
      let n := flowPlain a.prev a.rest
      pure (.text (joinLines (a.rest.take n)), a.advance n)

/-- The bracket that closes a collection. -/
def closing (opening : Char) : Char := if opening = '[' then ']' else '}'

mutual

/-- `_Flow.value`. -/
def Flow.value (env : ImportEnv) (anchors : List (Text × Node)) :
    Nat → Cursor → ImportM (Node × Cursor)
  | 0, _ => raise .fuel
  | fuel + 1, a =>
    let a := a.ws
    if a.at '[' then Flow.collection env anchors '[' fuel (a.advance 1) [] []
    else if a.at '{' then Flow.collection env anchors '{' fuel (a.advance 1) [] []
    else Flow.scalar anchors a

/-- The loop of `_Flow._collection`, behind the opening bracket. -/
def Flow.collection (env : ImportEnv) (anchors : List (Text × Node)) (opening : Char) :
    Nat → Cursor → List Node → List (Text × Node × Text) → ImportM (Node × Cursor)
  | 0, _, _, _ => raise .fuel
  | fuel + 1, a, items, entries => do
    let a := a.ws
    if a.at (closing opening) then
      return (if opening = '[' then .seq items else .map entries, a.advance 1)
    else do
      let (item, a) ← Flow.value env anchors fuel a
      let a := a.ws
      let (items, entries, a) ← (if opening = '{' then do
          let (val, a) ← (if a.at ':' then do
              let (val, a) ← Flow.value env anchors fuel (a.advance 1)
              pure (val, a.ws)
            else pure (.text [], a))
          pure (items, entries ++ [(item.str env, val, [])], a)
        else pure (items ++ [item], entries, a))
      if a.at ',' then Flow.collection env anchors opening fuel (a.advance 1) items entries
      else if a.at (closing opening) then
        Flow.collection env anchors opening fuel a items entries
      else raise (.valueError ("expected ',' or '" ++ [closing opening] ++ "'"))

end

/-- `_Flow(text, anchors).value()`. -/
def Flow.read (env : ImportEnv) (anchors : List (Text × Node)) (text : Text) : ImportM Node := do
  let (node, _) ← Flow.value env anchors (3 * text.length + 2) ⟨none, text⟩
  return node

end Ser2Net.Import
