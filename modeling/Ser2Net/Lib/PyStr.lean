import Ser2Net.Lib.PyText

namespace Ser2Net.Lib.PyText

/-!
# Python text as a list of characters

The `str` methods that line and option parsers use, on `List Char`: splitting, replacing,
`isdigit`, `expandtabs`, and the few regular-expression classes they need.

* `words` — `s.split()`;
* `replace` — `s.replace(old, new)`;
* `isDigitText` — `s.isdigit()`, which is wider than what `int(s)` accepts;
* `foldEq` — one letter of a pattern with `re.IGNORECASE`.
-/

/-- A blank or a tab, as in `.strip(" \t")`. -/
def isBlank (c : Char) : Bool := c = ' ' || c = '\t'

/-- `s.split()`. -/
def words (l : List Char) : List (List Char) := (l.splitOnP isSpace).filter (· ≠ [])

/-- `s.replace(old, new)` for a non-empty `old`; the number says how many characters of an
    occurrence are still to be skipped. -/
def replaceFrom (old new : List Char) : Nat → List Char → List Char
  | _, [] => []
  | skip + 1, _ :: rest => replaceFrom old new skip rest
  | 0, c :: rest =>
    if old.isPrefixOf (c :: rest) then new ++ replaceFrom old new (old.length - 1) rest
    else c :: replaceFrom old new 0 rest

/-- `s.replace(old, new)`. -/
def replace (old new l : List Char) : List Char := replaceFrom old new 0 l

/-- The position of the first `c`, for `s.find(c)`. -/
def find (c : Char) (l : List Char) : Option Nat := l.findIdx? (· = c)

/-- The column behind blanks and tabs, with tab stops every eight columns. -/
def columns (l : List Char) : Nat :=
  l.foldl (fun col c => if c = '\t' then (col / 8 + 1) * 8 else col + 1) 0

/-- The ranges of characters that are digits for `str.isdigit` but not decimal. -/
def digitRanges : List (Nat × Nat) :=
  [(0xb2, 0xb3), (0xb9, 0xb9), (0x1369, 0x1371), (0x19da, 0x19da), (0x2070, 0x2070),
    (0x2074, 0x2079), (0x2080, 0x2089), (0x2460, 0x2468), (0x2474, 0x247c), (0x2488, 0x2490),
    (0x24ea, 0x24ea), (0x24f5, 0x24fd), (0x24ff, 0x24ff), (0x2776, 0x277e), (0x2780, 0x2788),
    (0x278a, 0x2792), (0x10a40, 0x10a43), (0x10e60, 0x10e68), (0x11052, 0x1105a),
    (0x1f100, 0x1f10a)]

/-- `c.isdigit()` of one character. -/
def isDigitChar (c : Char) : Bool :=
  (digitValue c).isSome || digitRanges.any fun r => r.1 ≤ c.toNat && c.toNat ≤ r.2

/-- `s.isdigit()`. -/
def isDigitText (l : List Char) : Bool := l ≠ [] && l.all isDigitChar

/-- `int(s)`; `none` is `ValueError`. -/
def intOf (l : List Char) : Option Int := int (String.ofList l)

/-- A hexadecimal digit of a pattern. -/
def isHexDigit (c : Char) : Bool :=
  c.isDigit || ('a' ≤ c && c ≤ 'f') || ('A' ≤ c && c ≤ 'F')

/-- The value of a hexadecimal digit. -/
def hexDigit (c : Char) : Nat :=
  if c.isDigit then c.toNat - '0'.toNat
  else if 'a' ≤ c ∧ c ≤ 'f' then c.toNat - 'a'.toNat + 10
  else c.toNat - 'A'.toNat + 10

/-- `int(s, 16)` of hexadecimal digits. -/
def hexOf (l : List Char) : Nat := l.foldl (fun n c => n * 16 + hexDigit c) 0

/-- An octal digit of a pattern. -/
def isOctDigit (c : Char) : Bool := '0' ≤ c && c ≤ '7'

/-- `int(s, 8)` of octal digits. -/
def octOf (l : List Char) : Nat := l.foldl (fun n c => n * 8 + (c.toNat - '0'.toNat)) 0

/-- The lower-case ASCII letter `p` of a pattern matches `c` with `re.IGNORECASE`. -/
def foldEq (p c : Char) : Bool :=
  c = p || c = p.toUpper || (p = 's' && c.toNat = 0x17f) ||
    (p = 'i' && (c.toNat = 0x130 || c.toNat = 0x131)) || (p = 'k' && c.toNat = 0x212a)

/-- The lower-case word `p` of a pattern is a prefix with `re.IGNORECASE`; what follows it. -/
def foldPrefix : List Char → List Char → Option (List Char)
  | [], l => some l
  | _ :: _, [] => none
  | p :: ps, c :: l => if foldEq p c then foldPrefix ps l else none

/-- `s.split("\n")`. -/
def lines (l : List Char) : List (List Char) := l.splitOn '\n'

/-- `sep.join(parts)`. -/
def join (sep : List Char) (parts : List (List Char)) : List Char := sep.intercalate parts

/-- `dict.fromkeys(l)`: the first occurrence of each. -/
def fromKeys (l : List (List Char)) : List (List Char) :=
  l.foldl (fun acc t => if acc.contains t then acc else acc ++ [t]) []

/-- `str(n)`. -/
def ofNat (n : Nat) : List Char := Nat.toDigits 10 n

/-- `str(n)` of an int. -/
def ofInt (n : Int) : List Char := (toString n).toList

/-- The text before the first whitespace character that a `#` follows (`re.search(r"\s#")`). -/
def beforeComment : List Char → List Char
  | [] => []
  | c :: rest => if isSpace c && rest.head? = some '#' then [] else c :: beforeComment rest

/-- `re.search(r"\s#", s)` finds something. -/
def hasComment : List Char → Bool
  | [] => false
  | c :: rest => (isSpace c && rest.head? = some '#') || hasComment rest

end Ser2Net.Lib.PyText
