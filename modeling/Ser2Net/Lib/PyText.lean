import Mathlib

namespace Ser2Net.Lib.PyText

/-!
# Python text

The `str` operations and conversions that the embedding uses, on `String` through its
character list: whitespace, `strip`, `partition` and `rpartition`, ASCII case folding and
`int(text)`.  Each follows the documented behaviour of Python 3, Unicode included.
-/

/-- `str.isspace` of one character. -/
def isSpace (c : Char) : Bool :=
  let n := c.toNat
  (9 ≤ n && n ≤ 13) || (28 ≤ n && n ≤ 32) || n == 0x85 || n == 0xa0 || n == 0x1680 ||
    (0x2000 ≤ n && n ≤ 0x200a) || n == 0x2028 || n == 0x2029 || n == 0x202f || n == 0x205f ||
    n == 0x3000

/-- Drop the characters of a class from the end. -/
def rstripBy (p : Char → Bool) (l : List Char) : List Char := (l.reverse.dropWhile p).reverse

/-- Drop the characters of a class from both ends. -/
def stripBy (p : Char → Bool) (l : List Char) : List Char := rstripBy p (l.dropWhile p)

/-- `s.strip()`. -/
def strip (s : String) : String := String.ofList (stripBy isSpace s.toList)

/-- `s.strip()` is empty: the text is blank. -/
def blank (s : String) : Bool := s.toList.all isSpace

/-- `s.lower()` on the ASCII letters. -/
def lower (s : String) : String := String.ofList (s.toList.map Char.toLower)

/-- `s.startswith(p)`. -/
def startsWith (s p : String) : Bool := p.toList.isPrefixOf s.toList

/-- The text before and after the first separator (`s.partition(c)`, `none` without one). -/
def partition (c : Char) (l : List Char) : Option (List Char × List Char) :=
  if c ∈ l then some (l.takeWhile (· ≠ c), (l.dropWhile (· ≠ c)).tail) else none

/-- The text before and after the last separator (`s.rpartition(c)`, `none` without one). -/
def rpartition (c : Char) (l : List Char) : Option (List Char × List Char) :=
  (partition c l.reverse).map fun (after, before) => (before.reverse, after.reverse)

/-- A text whose first part is free of the separator is cut at it. -/
theorem partition_append {c : Char} {a b : List Char} (h : c ∉ a) :
    partition c (a ++ c :: b) = some (a, b) := by
  have hmem : c ∈ a ++ c :: b := List.mem_append_right a List.mem_cons_self
  have htake : ∀ x ∈ a, decide (x ≠ c) = true := by
    intro x hx
    exact decide_eq_true fun hxc => h (hxc ▸ hx)
  unfold partition
  rw [if_pos hmem, List.takeWhile_append_of_pos htake, List.dropWhile_append_of_pos htake]
  simp

/-- A text whose last part is free of the separator is cut at it. -/
theorem rpartition_append {c : Char} {a b : List Char} (h : c ∉ b) :
    rpartition c (a ++ c :: b) = some (a, b) := by
  have hrev : (a ++ c :: b).reverse = b.reverse ++ c :: a.reverse := by
    rw [List.reverse_append, List.reverse_cons, List.append_assoc]
    rfl
  unfold rpartition
  rw [hrev, partition_append (fun hc => h (List.mem_reverse.1 hc))]
  simp

/-- The text before and after the first occurrence of a separator (`s.split(sep, 1)`, `none`
    without one). -/
def partitionAt (sep : List Char) : List Char → Option (List Char × List Char)
  | [] => if sep = [] then some ([], []) else none
  | c :: rest =>
    if sep.isPrefixOf (c :: rest) then some ([], (c :: rest).drop sep.length)
    else (partitionAt sep rest).map fun (before, after) => (c :: before, after)

/-! ### `int(text)` -/

/-- The code points of the zero of every decimal digit script (category Nd), as the Unicode 15.0
    of Python 3.12 has them. -/
def digitZeros : List Nat :=
  [0x30, 0x660, 0x6f0, 0x7c0, 0x966, 0x9e6, 0xa66, 0xae6, 0xb66, 0xbe6, 0xc66, 0xce6, 0xd66,
    0xde6, 0xe50, 0xed0, 0xf20, 0x1040, 0x1090, 0x17e0, 0x1810, 0x1946, 0x19d0, 0x1a80, 0x1a90,
    0x1b50, 0x1bb0, 0x1c40, 0x1c50, 0xa620, 0xa8d0, 0xa900, 0xa9d0, 0xa9f0, 0xaa50, 0xabf0,
    0xff10, 0x104a0, 0x10d30, 0x11066, 0x110f0, 0x11136, 0x111d0, 0x112f0, 0x11450, 0x114d0,
    0x11650, 0x116c0, 0x11730, 0x118e0, 0x11950, 0x11c50, 0x11d50, 0x11da0, 0x11f50, 0x16a60,
    0x16ac0, 0x16b50, 0x1d7ce, 0x1d7d8, 0x1d7e2, 0x1d7ec, 0x1d7f6, 0x1e140, 0x1e2f0, 0x1e4f0,
    0x1e950, 0x1fbf0]

/-- The value of a decimal digit of any script. -/
def digitValue (c : Char) : Option Nat :=
  (digitZeros.find? fun z => z ≤ c.toNat && c.toNat < z + 10).map (c.toNat - ·)

/-- The whitespace `int` and `float` skip: ASCII controls 28–31 are not among it. -/
def isNumberSpace (c : Char) : Bool := isSpace c && !(28 ≤ c.toNat && c.toNat ≤ 31)

/-- Digits with single underscores between them, read after the digits `acc`. -/
def digitsFrom (acc : Nat) : List Char → Option Nat
  | [] => some acc
  | c :: rest =>
    match digitValue c with
    | some d => digitsFrom (acc * 10 + d) rest
    | none =>
      match c, rest with
      | '_', d :: rest' => (digitValue d).bind fun v => digitsFrom (acc * 10 + v) rest'
      | _, _ => none

/-- A non-empty digit string. -/
def digits : List Char → Option Nat
  | [] => none
  | c :: rest => (digitValue c).bind fun v => digitsFrom v rest

/-- The sign in front of a number, and the rest. -/
def sign : List Char → Bool × List Char
  | '-' :: r => (true, r)
  | '+' :: r => (false, r)
  | r => (false, r)

/-- The most digits `int(text)` converts. -/
def maxStrDigits : Nat := 4300

/-- `int(text)`; `none` is `ValueError`. -/
def int (s : String) : Option Int :=
  let body := stripBy isNumberSpace s.toList
  let (neg, ds) := sign body
  if maxStrDigits < ds.countP (fun c => c ≠ '_') then none
  else (digits ds).map fun n => if neg then -(n : Int) else n

/-- The digits of a run that has begun, and what follows it. -/
def moreDigits : List Char → List Nat × List Char
  | [] => ([], [])
  | c :: rest =>
    match digitValue c with
    | some d => (d :: (moreDigits rest).1, (moreDigits rest).2)
    | none =>
      match c, rest with
      | '_', d :: rest' =>
        match digitValue d with
        | some v => (v :: (moreDigits rest').1, (moreDigits rest').2)
        | none => ([], c :: rest)
      | _, _ => ([], c :: rest)

/-- A run of digits with single underscores between them, and what follows it. -/
def digitRun (l : List Char) : List Nat × List Char :=
  match l with
  | c :: rest =>
    match digitValue c with
    | some d => let (ds, r) := moreDigits rest; (d :: ds, r)
    | none => ([], l)
  | [] => ([], [])

/-- The number a list of decimal digits writes. -/
def ofDigits (ds : List Nat) : Nat := ds.foldl (fun acc d => acc * 10 + d) 0

example : int " +0_5\n" = some 5 := by decide
example : int "5__5" = none := by decide

end Ser2Net.Lib.PyText
