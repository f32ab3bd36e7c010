import Ser2Net.Lib.PyUnicode

namespace Ser2Net.Lib.PyJson

open Ser2Net.Lib.PyUnicode

/-!
# `json.dumps` and `json.loads`

The pieces of a text that `json.dumps` writes, in ASCII, and `json.loads` of any text.

* `dumpsStr`, `dumpsInt`, `dumpsObj` — a text, a number and an object as they are written;
* `loads` — the parser; it raises for a number of more digits than `int` takes and for lists and
  objects nested too deep, and everything else that it refuses is a `ValueError`;
* `merged` — what comes back of a text: two surrogates that make a pair come back as one
  character; `merged_eq_iff` — nothing changes in a text without a pair;
* `Written` — a text of a value that is read back; `loads_dumpsObj` — an object of such values is
  read back;
* `plain_dumpsObj` — what is written is ASCII.
-/

/-! ### Writing -/

/-- `\uXXXX` of a UTF-16 unit. -/
def unicodeEscape (n : Nat) : List Char :=
  ['\\', 'u', Nat.digitChar (n / 4096), Nat.digitChar (n / 256 % 16), Nat.digitChar (n / 16 % 16),
    Nat.digitChar (n % 16)]

/-- The escapes of one letter, by the letter. -/
def simpleEscapes : List (Char × Char) :=
  [('"', '"'), ('\\', '\\'), ('/', '/'), ('b', Char.ofNat 8), ('f', Char.ofNat 12), ('n', '\n'),
    ('r', '\r'), ('t', '\t')]

/-- The letter of the escape that a character has when it is written. -/
def escapeLetter (c : Char) : Option Char :=
  if c = '"' then some '"'
  else if c = '\\' then some '\\'
  else if c = '\n' then some 'n'
  else if c = '\r' then some 'r'
  else if c = '\t' then some 't'
  else if c = Char.ofNat 12 then some 'f'
  else if c = Char.ofNat 8 then some 'b'
  else none

/-- A code point in a text of JSON, with `ensure_ascii`. -/
def escapePoint : Point → List Char
  | .surrogate n => unicodeEscape (0xd800 + n)
  | .char c =>
    match escapeLetter c with
    | some e => ['\\', e]
    | none =>
      if 0x20 ≤ c.toNat ∧ c.toNat ≤ 0x7e then [c]
      else if c.toNat < 0x10000 then unicodeEscape c.toNat
      else
        unicodeEscape (0xd800 + (c.toNat - 0x10000) / 1024) ++
          unicodeEscape (0xdc00 + (c.toNat - 0x10000) % 1024)

/-- `json.dumps` of a text. -/
def dumpsStr (s : UStr) : List Char := '"' :: (s.flatMap escapePoint ++ ['"'])

/-- `repr` of a number, without the bound on its digits. -/
def intText (n : Int) : List Char :=
  if n < 0 then '-' :: Nat.toDigits 10 n.natAbs else Nat.toDigits 10 n.natAbs

/-- The number has no more digits than are converted between numbers and texts. -/
def Printable (n : Int) : Prop := n.natAbs < 10 ^ PyText.maxStrDigits

/-- `json.dumps` of a number. -/
def dumpsInt (n : Int) : Except Raised (List Char) :=
  if (Nat.toDigits 10 n.natAbs).length ≤ PyText.maxStrDigits then .ok (intText n)
  else .error .valueError

/-- Members of an object, each with the text of its value. -/
def joinMembers : List (UStr × List Char) → List Char
  | [] => []
  | [(k, text)] => dumpsStr k ++ [':', ' '] ++ text
  | (k, text) :: m :: ms => dumpsStr k ++ [':', ' '] ++ text ++ ',' :: ' ' :: joinMembers (m :: ms)

/-- `json.dumps` of an object. -/
def dumpsObj (members : List (UStr × List Char)) : List Char :=
  '\x7b' :: (joinMembers members ++ ['\x7d'])

/-! ### Reading -/

/-- White space between tokens. -/
def isWs : Point → Bool
  | .char c => [' ', '\t', '\n', '\r'].contains c
  | .surrogate _ => false

def skipWs (s : UStr) : UStr := s.dropWhile isWs

/-- The code point of a UTF-16 unit. -/
def unitPoint (n : Nat) : Point :=
  if h : 0xd800 ≤ n ∧ n < 0xe000 then .surrogate ⟨n - 0xd800, by omega⟩ else .char (Char.ofNat n)

/-- A control character, which no text of JSON holds as it is. -/
def isControl : Point → Bool
  | .char c => c.toNat ≤ 0x1f
  | .surrogate _ => false

/-- The code points of a text up to its closing quote, and whether each was written by its
    number; `none` is a `ValueError`. -/
def scanChars : UStr → Option (List (Point × Bool) × UStr)
  | [] => none
  | .char '\\' :: .char 'u' :: .char a :: .char b :: .char c :: .char d :: rest =>
    if [a, b, c, d].all PyText.isHexDigit then
      (scanChars rest).map fun r => ((unitPoint (PyText.hexOf [a, b, c, d]), true) :: r.1, r.2)
    else none
  | .char '\\' :: .char e :: rest =>
    match simpleEscapes.lookup e with
    | some c => (scanChars rest).map fun r => ((.char c, false) :: r.1, r.2)
    | none => none
  | p :: rest =>
    if p = .char '"' then some ([], rest)
    else if p = .char '\\' || isControl p then none
    else (scanChars rest).map fun r => ((p, false) :: r.1, r.2)
termination_by structural s => s

/-- The character of a pair of surrogates. -/
def combine (h l : Fin 2048) : Char := Char.ofNat (0x10000 + h * 1024 + (l - 1024))

/-- The first half of a pair. -/
def isHigh : Point → Bool
  | .surrogate n => n.val < 1024
  | .char _ => false

/-- The second half. -/
def isLow : Point → Bool
  | .surrogate n => 1024 ≤ n.val
  | .char _ => false

/-- The text of scanned code points: a pair that was written by its numbers is one character. -/
def joinPairs : List (Point × Bool) → UStr
  | [] => []
  | [(p, _)] => [p]
  | (.surrogate h, true) :: (.surrogate l, true) :: rest =>
    if h.val < 1024 ∧ 1024 ≤ l.val then .char (combine h l) :: joinPairs rest
    else .surrogate h :: joinPairs ((.surrogate l, true) :: rest)
  | (p, _) :: q :: rest => p :: joinPairs (q :: rest)

/-- A text behind its opening quote. -/
def scanString (s : UStr) : Option (UStr × UStr) :=
  (scanChars s).map fun r => (joinPairs r.1, r.2)

/-- Digits, and what follows them. -/
def digitRun : UStr → List Char × UStr
  | .char c :: rest =>
    if c.isDigit then (c :: (digitRun rest).1, (digitRun rest).2) else ([], .char c :: rest)
  | s => ([], s)

/-- A point and digits, or nothing. -/
def fraction : UStr → List Char × UStr
  | .char '.' :: rest =>
    if (digitRun rest).1 = [] then ([], .char '.' :: rest)
    else ('.' :: (digitRun rest).1, (digitRun rest).2)
  | s => ([], s)

/-- A sign, or nothing. -/
def optSign : UStr → List Char × UStr
  | .char '+' :: rest => (['+'], rest)
  | .char '-' :: rest => (['-'], rest)
  | s => ([], s)

/-- An exponent, or nothing. -/
def exponent : UStr → List Char × UStr
  | .char e :: rest =>
    if (e = 'e' ∨ e = 'E') ∧ (digitRun (optSign rest).2).1 ≠ [] then
      (e :: (optSign rest).1 ++ (digitRun (optSign rest).2).1, (digitRun (optSign rest).2).2)
    else ([], .char e :: rest)
  | s => ([], s)

/-- The digits in front of a point: a zero stands alone. -/
def wholePart : UStr → List Char × UStr
  | .char '0' :: rest => (['0'], rest)
  | s => digitRun s

/-- A number behind its sign. -/
def scanUnsigned (neg : Bool) (s : UStr) : Except Raised (Value × UStr) :=
  let (whole, rest) := wholePart s
  let (frac, rest₁) := fraction rest
  let (exp, rest₂) := exponent rest₁
  if whole = [] then .error .valueError
  else if frac = [] ∧ exp = [] then
    if PyText.maxStrDigits < whole.length then .error .valueError
    else
      let n : Int := Nat.ofDigitChars 10 whole 0
      .ok (.int (if neg then -n else n), rest)
  else
    match PyFloat.ofText (String.ofList ((if neg then ['-'] else []) ++ whole ++ frac ++ exp)) with
    | some x => .ok (.float x, rest₂)
    | none => .error .valueError

/-- A number. -/
def scanNumber : UStr → Except Raised (Value × UStr)
  | .char '-' :: rest => scanUnsigned true rest
  | s => scanUnsigned false s

/-- `d[k] = v`. -/
def setItem (kvs : List (UStr × Value)) (k : UStr) (v : Value) : List (UStr × Value) :=
  if kvs.any (·.1 == k) then kvs.map fun p => if p.1 == k then (k, v) else p else kvs ++ [(k, v)]

/-- The words that stand for values. -/
def wordValues : List (List Char × Value) :=
  [("null".toList, .null), ("true".toList, .bool true), ("false".toList, .bool false),
    ("NaN".toList, .float .nan), ("Infinity".toList, .float (.inf false)),
    ("-Infinity".toList, .float (.inf true))]

/-- The value of the word that a text begins with. -/
def scanWord (s : UStr) : Option (Value × UStr) :=
  (wordValues.find? fun w => (ofText w.1).isPrefixOf s).map fun w => (w.2, s.drop w.1.length)

mutual

/-- `scan_once`.  `depth` is how many more lists and objects there is stack for; every turn of a
    loop takes a character, so `fuel` is enough from twice the length of the text on. -/
def scanValue : Nat → Nat → UStr → Except Raised (Value × UStr)
  | 0, _, _ => .error .valueError
  | fuel + 1, depth, s =>
    match s with
    | [] => .error .valueError
    | p :: rest =>
      if p = .char '"' then
        match scanString rest with
        | some (t, rest) => .ok (.str t, rest)
        | none => .error .valueError
      else if p = .char '\x7b' then
        match depth with
        | 0 => .error .recursionError
        | depth + 1 =>
          if (skipWs rest).head? = some (.char '\x7d') then .ok (.obj [], (skipWs rest).tail)
          else scanMembers fuel depth [] (skipWs rest)
      else if p = .char '[' then
        match depth with
        | 0 => .error .recursionError
        | depth + 1 =>
          if (skipWs rest).head? = some (.char ']') then .ok (.arr [], (skipWs rest).tail)
          else scanItems fuel depth [] (skipWs rest)
      else
        match scanWord (p :: rest) with
        | some r => .ok r
        | none => scanNumber (p :: rest)

/-- The members of an object, from a key on. -/
def scanMembers : Nat → Nat → List (UStr × Value) → UStr → Except Raised (Value × UStr)
  | 0, _, _, _ => .error .valueError
  | fuel + 1, depth, kvs, s =>
    match s with
    | .char '"' :: rest =>
      match scanString rest with
      | none => .error .valueError
      | some (k, rest) =>
        match skipWs rest with
        | .char ':' :: rest => do
          let (v, rest) ← scanValue fuel depth (skipWs rest)
          match skipWs rest with
          | .char '\x7d' :: rest => .ok (.obj (setItem kvs k v), rest)
          | .char ',' :: rest => scanMembers fuel depth (setItem kvs k v) (skipWs rest)
          | _ => .error .valueError
        | _ => .error .valueError
    | _ => .error .valueError

/-- The elements of a list. -/
def scanItems : Nat → Nat → List Value → UStr → Except Raised (Value × UStr)
  | 0, _, _, _ => .error .valueError
  | fuel + 1, depth, items, s => do
    let (v, rest) ← scanValue fuel depth s
    match skipWs rest with
    | .char ']' :: rest => .ok (.arr (items ++ [v]), rest)
    | .char ',' :: rest => scanItems fuel depth (items ++ [v]) (skipWs rest)
    | _ => .error .valueError

end

/-- `json.loads(s)`; `limit` is how deep lists and objects may be nested. -/
def loads (limit : Nat) (s : UStr) : Except Raised Value :=
  if s.head? = some (.char (Char.ofNat 0xfeff)) then .error .valueError
  else do
    let (v, rest) ← scanValue (2 * s.length + 1) limit (skipWs s)
    if skipWs rest = [] then .ok v else .error .valueError

/-! ### Numbers -/

/-- Up to the bound on the digits a number is written. -/
theorem dumpsInt_eq_ok {n : Int} {t : List Char} :
    dumpsInt n = .ok t ↔ Printable n ∧ intText n = t := by
  have hlen : (Nat.toDigits 10 n.natAbs).length ≤ PyText.maxStrDigits ↔ Printable n :=
    Nat.length_toDigits_le_iff (by decide) (by decide)
  unfold dumpsInt
  split
  · next h => simp [hlen.1 h]
  · next h => simp [mt hlen.2 h]

/-- A number of up to three digits is written. -/
theorem printable_of_lt {n : Int} (h : n.natAbs < 10 ^ 3) : Printable n :=
  h.trans_le (Nat.pow_le_pow_right (by decide) (by decide))

/-- Only zero is written with a zero in front. -/
theorem head_toDigits {n : Nat} (h : n ≠ 0) : (Nat.toDigits 10 n).head? ≠ some '0' := by
  induction n using Nat.strong_induction_on with
  | h n ih =>
    by_cases hlt : n < 10
    · rw [Nat.toDigits_of_lt_base hlt]
      revert h
      interval_cases n <;> decide
    · rw [Nat.toDigits_of_base_le (by decide) (by omega),
        List.head?_append_of_ne_nil _ Nat.toDigits_ne_nil]
      exact ih (n / 10) (by omega) (by omega)

/-- What follows a number does not go on with it. -/
def EndsNumber (s : UStr) : Prop :=
  ∀ c rest, s = .char c :: rest → c.isDigit = false ∧ c ≠ '.' ∧ c ≠ 'e' ∧ c ≠ 'E'

/-- The run of digits is all there is up to what ends the number. -/
theorem digitRun_append {ds : List Char} (h : ∀ c ∈ ds, c.isDigit = true) {rest : UStr}
    (hrest : EndsNumber rest) : digitRun (ofText ds ++ rest) = (ds, rest) := by
  induction ds with
  | nil =>
    show digitRun rest = _
    unfold digitRun
    split
    · next c rest' =>
      rw [(hrest c rest' rfl).1, if_neg Bool.false_ne_true]
    · rfl
  | cons c ds ih =>
    show digitRun (.char c :: (ofText ds ++ rest)) = _
    rw [digitRun, if_pos (h c List.mem_cons_self), ih fun d hd => h d (List.mem_cons_of_mem _ hd)]

theorem wholePart_toDigits (n : Nat) {rest : UStr} (hrest : EndsNumber rest) :
    wholePart (ofText (Nat.toDigits 10 n) ++ rest) = (Nat.toDigits 10 n, rest) := by
  by_cases hn : n = 0
  · subst hn
    rfl
  · have hhead := head_toDigits hn
    have hdigits : ∀ c ∈ Nat.toDigits 10 n, c.isDigit = true := fun c hc =>
      Nat.isDigit_of_mem_toDigits (by decide) (by decide) hc
    have hrun := digitRun_append hdigits hrest
    cases hl : Nat.toDigits 10 n with
    | nil => exact absurd hl Nat.toDigits_ne_nil
    | cons c ds =>
      rw [hl] at hhead hrun
      unfold wholePart
      split
      · next heq =>
        obtain ⟨hc, -⟩ := List.cons.inj heq
        exact absurd (congrArg some (Point.char.inj hc)) hhead
      · exact hrun

theorem fraction_of_ends {s : UStr} (h : EndsNumber s) : fraction s = ([], s) := by
  unfold fraction
  split
  · next rest => exact absurd rfl (h '.' rest rfl).2.1
  · rfl

theorem exponent_of_ends {s : UStr} (h : EndsNumber s) : exponent s = ([], s) := by
  unfold exponent
  split
  · next e rest =>
    have he := (h e rest rfl).2.2
    rw [if_neg fun hand => hand.1.elim he.1 he.2]
  · rfl

/-- A number is read back, up to what follows it. -/
theorem scanNumber_intText {n : Int} (hn : Printable n) {rest : UStr} (hrest : EndsNumber rest) :
    scanNumber (ofText (intText n) ++ rest) = .ok (.int n, rest) := by
  have hlen : ¬ PyText.maxStrDigits < (Nat.toDigits 10 n.natAbs).length :=
    not_lt.2 ((Nat.length_toDigits_le_iff (by decide) (by decide)).2 hn)
  have hunsigned : ∀ neg, scanUnsigned neg (ofText (Nat.toDigits 10 n.natAbs) ++ rest) =
      .ok (.int (if neg then -(n.natAbs : Int) else n.natAbs), rest) := by
    intro neg
    unfold scanUnsigned
    rw [wholePart_toDigits _ hrest]
    dsimp only
    rw [fraction_of_ends hrest]
    dsimp only
    rw [exponent_of_ends hrest]
    dsimp only
    rw [if_neg Nat.toDigits_ne_nil, if_pos ⟨rfl, rfl⟩, if_neg hlen, Nat.ofDigitChars_ten_toDigits]
  unfold intText
  split
  · next hneg =>
    show scanUnsigned true (ofText (Nat.toDigits 10 n.natAbs) ++ rest) = _
    have hvalue : -(n.natAbs : Int) = n := by omega
    rw [hunsigned, if_pos rfl, hvalue]
  · next hpos =>
    have hvalue : (n.natAbs : Int) = n := by omega
    have hplain : scanNumber (ofText (Nat.toDigits 10 n.natAbs) ++ rest) =
        scanUnsigned false (ofText (Nat.toDigits 10 n.natAbs) ++ rest) := by
      -- no digit is a minus
      unfold scanNumber
      split
      · next tail heq =>
        cases hl : Nat.toDigits 10 n.natAbs with
        | nil => exact absurd hl Nat.toDigits_ne_nil
        | cons c ds =>
          rw [hl] at heq
          have hc : c.isDigit = true :=
            Nat.isDigit_of_mem_toDigits (by decide) (by decide) (hl ▸ List.mem_cons_self)
          obtain rfl := Point.char.inj (List.cons.inj heq).1
          exact absurd hc (by decide)
      · rfl
    rw [hplain, hunsigned, if_neg Bool.false_ne_true, hvalue]

/-! ### Texts -/

/-- What is scanned of the escape of a code point. -/
def units : Point → List (Point × Bool)
  | .surrogate n => [(.surrogate n, true)]
  | .char c =>
    if c.toNat < 0x10000 then
      [(.char c, (escapeLetter c).isNone && !(0x20 ≤ c.toNat && c.toNat ≤ 0x7e))]
    else
      [(unitPoint (0xd800 + (c.toNat - 0x10000) / 1024), true),
        (unitPoint (0xdc00 + (c.toNat - 0x10000) % 1024), true)]

/-- Four digits of a unit read back as the unit. -/
theorem scanChars_unicodeEscape {n : Nat} (h : n < 0x10000) (rest : UStr) :
    scanChars (ofText (unicodeEscape n) ++ rest) =
      (scanChars rest).map fun r => ((unitPoint n, true) :: r.1, r.2) := by
  have hdigit : ∀ k, k < 16 → PyText.isHexDigit (Nat.digitChar k) = true ∧
      PyText.hexDigit (Nat.digitChar k) = k := by decide
  obtain ⟨h₁, v₁⟩ := hdigit (n / 4096) (by omega)
  obtain ⟨h₂, v₂⟩ := hdigit (n / 256 % 16) (by omega)
  obtain ⟨h₃, v₃⟩ := hdigit (n / 16 % 16) (by omega)
  obtain ⟨h₄, v₄⟩ := hdigit (n % 16) (by omega)
  have hvalue : PyText.hexOf [Nat.digitChar (n / 4096), Nat.digitChar (n / 256 % 16),
      Nat.digitChar (n / 16 % 16), Nat.digitChar (n % 16)] = n := by
    simp only [PyText.hexOf, List.foldl_cons, List.foldl_nil, v₁, v₂, v₃, v₄]
    omega
  show scanChars (.char '\\' :: .char 'u' :: .char _ :: .char _ :: .char _ :: .char _ :: rest) = _
  rw [scanChars, hvalue, if_pos (by simp [h₁, h₂, h₃, h₄])]

/-- The letter of an escape is read as its character. -/
theorem scanChars_letter {e c : Char} (h : simpleEscapes.lookup e = some c) (hu : e ≠ 'u')
    (rest : UStr) : scanChars (.char '\\' :: .char e :: rest) =
      (scanChars rest).map fun r => ((.char c, false) :: r.1, r.2) := by
  rw [scanChars, h]
  intro a b c d rest' hrest
  exact hu

/-- The letter of an escape reads back as its character. -/
theorem escapeLetter_eq_some {c e : Char} (h : escapeLetter c = some e) :
    simpleEscapes.lookup e = some c ∧ e ≠ 'u' ∧ c.toNat < 0x10000 := by
  unfold escapeLetter at h
  split_ifs at h
  all_goals
    subst_vars
    cases h
    decide

/-- A code point that is written as it is. -/
theorem scanChars_plain {p : Point} (hquote : p ≠ .char '"') (hslash : p ≠ .char '\\')
    (hcontrol : isControl p = false) (rest : UStr) :
    scanChars (p :: rest) = (scanChars rest).map fun r => ((p, false) :: r.1, r.2) := by
  have hstep : scanChars (p :: rest) =
      if p = .char '"' then some ([], rest)
      else if p = .char '\\' || isControl p then none
      else (scanChars rest).map fun r => ((p, false) :: r.1, r.2) :=
    scanChars.eq_4 p rest (fun _ _ _ _ _ h _ => hslash h) fun _ _ h _ => hslash h
  rw [hstep, if_neg hquote, hcontrol, Bool.or_false, if_neg (by simpa using hslash)]

/-- The number of a character is that of no surrogate. -/
theorem char_range (c : Char) :
    ¬ (0xd800 ≤ c.toNat ∧ c.toNat < 0xe000) ∧ c.toNat < 0x110000 := by
  have hvalid := c.valid
  simp only [UInt32.isValidChar, Nat.isValidChar] at hvalid
  simp only [Char.toNat]
  omega

/-- Every escape reads back as its units. -/
theorem scanChars_escapePoint (p : Point) (rest : UStr) :
    scanChars (ofText (escapePoint p) ++ rest) =
      (scanChars rest).map fun r => (units p ++ r.1, r.2) := by
  cases p with
  -- a lone surrogate is one escape of its own unit
  | surrogate n =>
    have hn := n.isLt
    have hunit : unitPoint (0xd800 + n) = .surrogate n := by
      rw [unitPoint, dif_pos ⟨by omega, by omega⟩]
      simp
    rw [escapePoint, scanChars_unicodeEscape (by omega), hunit]
    rfl
  | char c =>
    obtain ⟨hrange, hmax⟩ := char_range c
    -- a short escape, a plain character, or the units of what is beyond ASCII
    cases hletter : escapeLetter c with
    | some e =>
      obtain ⟨hlookup, hu, hsmall⟩ := escapeLetter_eq_some hletter
      have hunits : units (.char c) = [(.char c, false)] := by simp [units, hsmall, hletter]
      rw [escapePoint, hletter, hunits]
      exact scanChars_letter hlookup hu rest
    | none =>
      rw [escapePoint, hletter]
      dsimp only
      by_cases hplain : 0x20 ≤ c.toNat ∧ c.toNat ≤ 0x7e
      · have hunits : units (.char c) = [(.char c, false)] := by
          simp [units, hplain, show c.toNat < 0x10000 by omega]
        rw [if_pos hplain, hunits]
        refine scanChars_plain ?_ ?_ ?_ rest
        · rintro h
          rw [Point.char.inj h] at hletter
          exact absurd hletter (by decide)
        · rintro h
          rw [Point.char.inj h] at hletter
          exact absurd hletter (by decide)
        · simp only [isControl, decide_eq_false_iff_not]
          omega
      · rw [if_neg hplain]
        -- up to U+FFFF one unit, beyond it the two halves of the pair
        by_cases hsmall : c.toNat < 0x10000
        · have hunit : unitPoint c.toNat = .char c := by
            rw [unitPoint, dif_neg hrange, Char.ofNat_toNat]
          have hunits : units (.char c) = [(.char c, true)] := by
            have hflag : ¬ (32 ≤ c.toNat ∧ c.toNat ≤ 126) := hplain
            simp only [units, hsmall, if_true, hletter]
            simp only [not_and_or] at hflag
            rcases hflag with h | h <;> simp [h]
          rw [if_pos hsmall, scanChars_unicodeEscape hsmall, hunit, hunits]
          rfl
        · have hunits : units (.char c) =
              [(unitPoint (0xd800 + (c.toNat - 0x10000) / 1024), true),
                (unitPoint (0xdc00 + (c.toNat - 0x10000) % 1024), true)] := if_neg hsmall
          rw [if_neg hsmall, hunits]
          show scanChars (List.map Point.char (_ ++ _) ++ rest) = _
          rw [List.map_append, List.append_assoc]
          show scanChars (ofText (unicodeEscape _) ++ (ofText (unicodeEscape _) ++ rest)) = _
          rw [scanChars_unicodeEscape (by omega), scanChars_unicodeEscape (by omega), Option.map_map]
          rfl

/-- A text is read back as its units, up to the quote. -/
theorem scanChars_dumps (s rest : UStr) :
    scanChars (ofText (s.flatMap escapePoint) ++ .char '"' :: rest) = some (s.flatMap units, rest) := by
  induction s with
  | nil => rfl
  | cons p s ih =>
    rw [List.flatMap_cons, ofText, List.map_append, List.append_assoc]
    show scanChars (ofText (escapePoint p) ++ (ofText (s.flatMap escapePoint) ++ .char '"' :: rest)) = _
    rw [scanChars_escapePoint, ih, List.flatMap_cons]
    rfl

/-! ### Pairs -/

/-- Two surrogates that make a pair. -/
def Pair (p q : Point) : Prop := isHigh p = true ∧ isLow q = true

instance (p q : Point) : Decidable (Pair p q) := inferInstanceAs (Decidable (_ ∧ _))

/-- The text has no pair of surrogates, one behind the other. -/
def Unpaired (s : UStr) : Prop := s.IsChain fun p q => ¬ Pair p q

instance (s : UStr) : Decidable (Unpaired s) := inferInstanceAs (Decidable (List.IsChain _ _))

/-- What comes back of a text. -/
def merged (s : UStr) : UStr := joinPairs (s.flatMap units)

/-- A character beyond the first plane is written as a pair, which makes it again. -/
theorem joinPairs_halves {c : Char} (h : ¬ c.toNat < 0x10000) (us : List (Point × Bool)) :
    joinPairs (units (.char c) ++ us) = .char c :: joinPairs us := by
  obtain ⟨-, hmax⟩ := char_range c
  have hhigh : 0xd800 ≤ 0xd800 + (c.toNat - 0x10000) / 1024 ∧
      0xd800 + (c.toNat - 0x10000) / 1024 < 0xe000 := by omega
  have hlow : 0xd800 ≤ 0xdc00 + (c.toNat - 0x10000) % 1024 ∧
      0xdc00 + (c.toNat - 0x10000) % 1024 < 0xe000 := by omega
  have hvalue : 0x10000 + (0xd800 + (c.toNat - 0x10000) / 1024 - 0xd800) * 1024 +
      (0xdc00 + (c.toNat - 0x10000) % 1024 - 0xd800 - 1024) = c.toNat := by omega
  rw [units, if_neg h, unitPoint, dif_pos hhigh, unitPoint, dif_pos hlow, List.cons_append,
    List.cons_append, List.nil_append, joinPairs, if_pos (by dsimp only; omega), combine]
  dsimp only
  rw [hvalue, Char.ofNat_toNat]

/-- Behind a character nothing is joined to it. -/
theorem joinPairs_char (c : Char) (b : Bool) (us : List (Point × Bool)) :
    joinPairs ((.char c, b) :: us) = .char c :: joinPairs us := by
  cases us with
  | nil => rfl
  | cons u us =>
    obtain ⟨q, b'⟩ := u
    rw [joinPairs]
    exact nofun

theorem joinPairs_units_char (c : Char) (us : List (Point × Bool)) :
    joinPairs (units (.char c) ++ us) = .char c :: joinPairs us := by
  by_cases h : c.toNat < 0x10000
  · rw [units, if_pos h]
    exact joinPairs_char c _ us
  · exact joinPairs_halves h us

/-- A surrogate is joined only to a second half that was written by its number. -/
theorem joinPairs_surrogate {n : Fin 2048} {us : List (Point × Bool)}
    (h : ∀ l us', us = (.surrogate l, true) :: us' → ¬ (n.val < 1024 ∧ 1024 ≤ l.val)) :
    joinPairs ((.surrogate n, true) :: us) = .surrogate n :: joinPairs us := by
  match us with
  | [] => rfl
  | (.surrogate l, true) :: us' => rw [joinPairs, if_neg (h l us' rfl)]
  | (.surrogate l, false) :: us' => rfl
  | (.char c, b) :: us' => rfl

/-- A code point that makes no pair with the next one comes back as it is. -/
theorem merged_cons {p : Point} {s : UStr} (h : ∀ q ∈ s.head?, ¬ Pair p q) :
    merged (p :: s) = p :: merged s := by
  cases p with
  | char c => exact joinPairs_units_char c _
  | surrogate n =>
    show joinPairs ((.surrogate n, true) :: s.flatMap units) = _
    refine joinPairs_surrogate fun l us' hus hpair => ?_
    cases s with
    | nil => cases hus
    | cons q s =>
      cases q with
      | surrogate m =>
        obtain ⟨hl, -⟩ := List.cons.inj hus
        obtain rfl : m = l := Point.surrogate.inj (Prod.mk.inj hl).1
        exact h _ rfl ⟨decide_eq_true hpair.1, decide_eq_true hpair.2⟩
      | char c =>
        -- a character begins with itself, or with the first half of a pair
        rw [List.flatMap_cons, units] at hus
        split at hus
        · exact absurd (congrArg Prod.fst (List.cons.inj hus).1) nofun
        · next hbig =>
          have hmax := (char_range c).2
          have hfirst := congrArg Prod.fst (List.cons.inj hus).1
          rw [unitPoint, dif_pos (by omega)] at hfirst
          have hl := congrArg Fin.val (Point.surrogate.inj hfirst)
          dsimp only at hl
          omega

/-- A pair comes back as one character. -/
theorem merged_pair {p q : Point} (h : Pair p q) (s : UStr) :
    ∃ c, merged (p :: q :: s) = .char c :: merged s := by
  obtain ⟨hhigh, hlow⟩ := h
  cases p with
  | char c => cases hhigh
  | surrogate n =>
    cases q with
    | char c => cases hlow
    | surrogate l =>
      refine ⟨combine n l, ?_⟩
      show joinPairs ((.surrogate n, true) :: (.surrogate l, true) :: s.flatMap units) = _
      rw [joinPairs, if_pos ⟨of_decide_eq_true hhigh, of_decide_eq_true hlow⟩]
      rfl

/-- A text comes back as it is when no two of its surrogates make a pair, and only then. -/
theorem merged_eq_iff {s : UStr} : merged s = s ↔ Unpaired s := by
  induction s with
  | nil => exact iff_of_true rfl List.isChain_nil
  | cons p s ih =>
    by_cases h : ∀ q ∈ s.head?, ¬ Pair p q
    · rw [merged_cons h, Unpaired, List.isChain_cons, List.cons_inj_right, ih]
      exact ⟨fun hs => ⟨h, hs⟩, And.right⟩
    · refine iff_of_false ?_ fun hs => h (List.isChain_cons.1 hs).1
      push Not at h
      obtain ⟨q, hq, hpair⟩ := h
      cases s with
      | nil => cases hq
      | cons r s =>
        obtain rfl : r = q := Option.some.inj hq
        obtain ⟨c, hc⟩ := merged_pair hpair s
        -- the first half of a pair is no character
        rw [hc]
        intro heq
        rw [← (List.cons.inj heq).1] at hpair
        cases hpair.1

/-- A written text is read back as `merged` says. -/
theorem scanString_dumps (s rest : UStr) :
    scanString (ofText (s.flatMap escapePoint) ++ .char '"' :: rest) = some (merged s, rest) := by
  rw [scanString, scanChars_dumps]
  rfl

/-! ### Values and objects -/

/-- A number begins with a minus or with a digit. -/
theorem intText_cons (n : Int) : ∃ c cs, intText n = c :: cs ∧
    ((c = '-' ∧ ∃ d ds, cs = d :: ds ∧ d.isDigit = true) ∨ c.isDigit = true) := by
  have hdigits : ∃ d ds, Nat.toDigits 10 n.natAbs = d :: ds ∧ d.isDigit = true := by
    cases hl : Nat.toDigits 10 n.natAbs with
    | nil => exact absurd hl Nat.toDigits_ne_nil
    | cons d ds =>
      exact ⟨d, ds, rfl,
        Nat.isDigit_of_mem_toDigits (by decide) (by decide) (hl ▸ List.mem_cons_self)⟩
  obtain ⟨d, ds, hl, hd⟩ := hdigits
  unfold intText
  split
  · exact ⟨'-', _, rfl, .inl ⟨rfl, d, ds, hl, hd⟩⟩
  · exact ⟨d, ds, hl, .inr hd⟩

/-- No word begins as a number does. -/
theorem scanWord_intText (n : Int) (rest : UStr) :
    scanWord (ofText (intText n) ++ rest) = none := by
  obtain ⟨c, cs, heq, h⟩ := intText_cons n
  rw [heq, scanWord, Option.map_eq_none_iff, List.find?_eq_none]
  intro w hw
  simp only [wordValues, List.mem_cons, List.not_mem_nil, or_false] at hw
  rcases h with ⟨rfl, d, ds, rfl, hd⟩ | hc
  · rcases hw with rfl | rfl | rfl | rfl | rfl | rfl
    all_goals simp [ofText]
    rintro rfl
    exact absurd hd (by decide)
  · rcases hw with rfl | rfl | rfl | rfl | rfl | rfl
    all_goals
      simp [ofText]
      rintro rfl
      exact absurd hc (by decide)

/-- A text as a value. -/
theorem scanValue_dumpsStr (fuel depth : Nat) (s rest : UStr) :
    scanValue (fuel + 1) depth (ofText (dumpsStr s) ++ rest) = .ok (.str (merged s), rest) := by
  have htext : ofText (dumpsStr s) ++ rest =
      .char '"' :: (ofText (s.flatMap escapePoint) ++ .char '"' :: rest) := by
    simp [dumpsStr, ofText]
  rw [htext, scanValue.eq_def]
  dsimp only
  rw [if_pos rfl, scanString_dumps]

/-- A number as a value. -/
theorem scanValue_intText (fuel depth : Nat) {n : Int} (hn : Printable n) {rest : UStr}
    (hrest : EndsNumber rest) :
    scanValue (fuel + 1) depth (ofText (intText n) ++ rest) = .ok (.int n, rest) := by
  have hword := scanWord_intText n rest
  have hnumber := scanNumber_intText hn hrest
  obtain ⟨c, cs, heq, h⟩ := intText_cons n
  have hne : ∀ d ∈ ['"', '\x7b', '['], (.char c : Point) ≠ .char d := by
    rintro d hd hcd
    obtain rfl := Point.char.inj hcd
    rcases h with ⟨rfl, -⟩ | hc
    · exact absurd hd (by decide)
    · fin_cases hd <;> exact absurd hc (by decide)
  rw [heq] at hword hnumber ⊢
  show scanValue (fuel + 1) depth (.char c :: (ofText cs ++ rest)) = _
  rw [scanValue.eq_def]
  dsimp only
  rw [if_neg (hne _ (by decide)), if_neg (hne _ (by decide)), if_neg (hne _ (by decide))]
  rw [show Point.char c :: (ofText cs ++ rest) = ofText (c :: cs) ++ rest from rfl, hword]
  exact hnumber

/-- A written value, with what comes back of it. -/
def Written (text : List Char) (v : Value) : Prop :=
  (∃ c cs, text = c :: cs ∧ isWs (.char c) = false) ∧
    ∀ fuel depth c rest, c = ',' ∨ c = '\x7d' →
      scanValue (fuel + 1) depth (ofText text ++ .char c :: rest) = .ok (v, .char c :: rest)

theorem written_dumpsStr (s : UStr) : Written (dumpsStr s) (.str (merged s)) :=
  ⟨⟨'"', _, rfl, rfl⟩, fun fuel depth _ _ _ => scanValue_dumpsStr fuel depth s _⟩

theorem written_intText {n : Int} (hn : Printable n) : Written (intText n) (.int n) := by
  constructor
  · obtain ⟨c, cs, heq, h⟩ := intText_cons n
    refine ⟨c, cs, heq, ?_⟩
    by_contra hws
    have hmem : c ∈ [' ', '\t', '\n', '\r'] := List.contains_iff_mem.1 (Bool.not_eq_false _ ▸ hws)
    rcases h with ⟨rfl, -⟩ | hc
    · exact absurd hmem (by decide)
    · fin_cases hmem <;> exact absurd hc (by decide)
  · intro fuel depth c rest hc
    refine scanValue_intText fuel depth hn fun d _ heq => ?_
    rw [← Point.char.inj (List.cons.inj heq).1]
    rcases hc with rfl | rfl <;> decide

/-- A member up to what follows its value. -/
theorem scanMembers_written (fuel depth : Nat) (kvs : List (UStr × Value)) (k : UStr)
    {text : List Char} {v : Value} (hv : Written text v) {c : Char} (hc : c = ',' ∨ c = '\x7d')
    (rest : UStr) :
    scanMembers (fuel + 2) depth kvs
        (ofText (dumpsStr k ++ [':', ' '] ++ text) ++ .char c :: rest) =
      if c = ',' then scanMembers (fuel + 1) depth (setItem kvs (merged k) v) (skipWs rest)
      else .ok (.obj (setItem kvs (merged k) v), rest) := by
  obtain ⟨⟨a, as, rfl, ha⟩, hscan⟩ := hv
  -- the member splits into its key, the colon and its value
  have htext : ofText (dumpsStr k ++ [':', ' '] ++ a :: as) ++ .char c :: rest =
      .char '"' :: (ofText (k.flatMap escapePoint) ++ .char '"' ::
        (.char ':' :: .char ' ' :: (ofText (a :: as) ++ .char c :: rest))) := by
    simp [dumpsStr, ofText]
  have hskip : skipWs (.char ' ' :: (ofText (a :: as) ++ .char c :: rest)) =
      ofText (a :: as) ++ .char c :: rest := by
    show (Point.char a :: (ofText as ++ _)).dropWhile isWs = _
    rw [List.dropWhile_cons_of_neg (by simp [ha])]
    rfl
  have hcolon : skipWs (.char ':' :: .char ' ' :: (ofText (a :: as) ++ .char c :: rest)) =
      .char ':' :: .char ' ' :: (ofText (a :: as) ++ .char c :: rest) := rfl
  rw [htext, scanMembers, scanString_dumps]
  simp only [hcolon]
  rw [hskip, hscan _ _ _ _ hc, except_ok_bind]
  rcases hc with rfl | rfl <;> rfl

/-- The object of members that were read one after the other. -/
def readMembers (kvs : List (UStr × Value)) : List (UStr × List Char × Value) → List (UStr × Value)
  | [] => kvs
  | (k, _, v) :: ms => readMembers (setItem kvs (merged k) v) ms

/-- What members are written as. -/
def texts (ms : List (UStr × List Char × Value)) : List (UStr × List Char) :=
  ms.map fun m => (m.1, m.2.1)

theorem joinMembers_cons_cons (k : UStr) (text : List Char) (m : UStr × List Char)
    (ms : List (UStr × List Char)) :
    ofText (joinMembers ((k, text) :: m :: ms)) =
      ofText (dumpsStr k ++ [':', ' '] ++ text) ++
        .char ',' :: .char ' ' :: ofText (joinMembers (m :: ms)) := by
  simp [joinMembers, ofText]

/-- Members begin with the quote of a key. -/
theorem joinMembers_head (m : UStr × List Char) (ms : List (UStr × List Char)) :
    ∃ rest, joinMembers (m :: ms) = '"' :: rest := by
  cases ms with
  | nil => exact ⟨_, rfl⟩
  | cons m' ms => exact ⟨_, rfl⟩

/-- White space is not skipped before members, as there is none. -/
theorem skipWs_joinMembers (m : UStr × List Char) (ms : List (UStr × List Char)) (rest : UStr) :
    skipWs (ofText (joinMembers (m :: ms)) ++ rest) = ofText (joinMembers (m :: ms)) ++ rest := by
  obtain ⟨text, htext⟩ := joinMembers_head m ms
  rw [htext]
  rfl

/-- Members are read up to the closing brace. -/
theorem scanMembers_join (depth : Nat) (m : UStr × List Char × Value)
    (ms : List (UStr × List Char × Value)) (hw : ∀ m' ∈ m :: ms, Written m'.2.1 m'.2.2)
    (fuel : Nat) (hfuel : ms.length + 2 ≤ fuel) (kvs : List (UStr × Value)) (rest : UStr) :
    scanMembers fuel depth kvs (ofText (joinMembers (texts (m :: ms))) ++ .char '\x7d' :: rest) =
      .ok (.obj (readMembers kvs (m :: ms)), rest) := by
  induction ms generalizing m fuel kvs with
  | nil =>
    obtain ⟨fuel, rfl⟩ := Nat.exists_eq_add_of_le' hfuel
    exact (scanMembers_written fuel depth kvs m.1 (hw m List.mem_cons_self) (.inr rfl) rest).trans
      (if_neg (by decide))
  | cons m' ms ih =>
    obtain ⟨k, text, v⟩ := m
    obtain ⟨fuel, rfl⟩ := Nat.exists_eq_add_of_le' (show 2 ≤ fuel by simp at hfuel; omega)
    have hrest := ih m' (fun m'' hm => hw m'' (List.mem_cons_of_mem _ hm)) (fuel + 1)
      (by simp at hfuel; omega) (setItem kvs (merged k) v)
    have hw₁ : Written text v := hw (k, text, v) List.mem_cons_self
    -- the first member ends with a comma, so the reader goes on with the next
    show scanMembers (fuel + 2) depth kvs (ofText (joinMembers ((k, text) :: (m'.1, m'.2.1) ::
      texts ms)) ++ .char '\x7d' :: rest) = _
    rw [joinMembers_cons_cons, List.append_assoc, List.cons_append,
      scanMembers_written fuel depth kvs k hw₁ (.inl rfl), if_pos rfl, List.cons_append]
    show scanMembers (fuel + 1) depth (setItem kvs (merged k) v)
      (skipWs (ofText (joinMembers (texts (m' :: ms))) ++ .char '\x7d' :: rest)) = _
    rw [texts, List.map_cons, skipWs_joinMembers]
    exact hrest

/-- Every member takes a character at least. -/
theorem length_le_joinMembers (ms : List (UStr × List Char)) :
    ms.length ≤ (joinMembers ms).length := by
  induction ms with
  | nil => exact Nat.le_refl 0
  | cons m ms ih =>
    obtain ⟨k, text⟩ := m
    cases ms with
    | nil => simp [joinMembers, dumpsStr]
    | cons m' ms =>
      simp only [joinMembers, List.length_append, List.length_cons] at ih ⊢
      omega

/-- **Objects.**  An object whose values were written is read back. -/
theorem loads_dumpsObj {limit : Nat} (hlimit : 0 < limit) (ms : List (UStr × List Char × Value))
    (hw : ∀ m ∈ ms, Written m.2.1 m.2.2) :
    loads limit (ofText (dumpsObj (texts ms))) = .ok (.obj (readMembers [] ms)) := by
  -- a reader of one level is enough, as no value here is a container
  obtain ⟨depth, rfl⟩ := Nat.exists_eq_add_of_le' hlimit
  have htext : ofText (dumpsObj (texts ms)) =
      .char '\x7b' :: (ofText (joinMembers (texts ms)) ++ [.char '\x7d']) := by
    simp [dumpsObj, ofText]
  have hbrace : (.char '\x7b' : Point) ≠ .char '"' := by decide
  rw [loads, htext, if_neg (by rw [List.head?_cons]; decide)]
  show (scanValue _ (depth + 1) (.char '\x7b' :: _) >>= fun r => _) = _
  rw [scanValue.eq_def]
  dsimp only
  rw [if_neg hbrace, if_pos rfl]
  cases ms with
  | nil => rfl
  | cons m ms =>
    -- there is a member, so the first character behind the brace is no blank
    obtain ⟨body, hbody⟩ := joinMembers_head (m.1, m.2.1) (texts ms)
    have hlen := length_le_joinMembers (texts (m :: ms))
    have hskip : skipWs (ofText (joinMembers (texts (m :: ms))) ++ [.char '\x7d']) =
        ofText (joinMembers (texts (m :: ms))) ++ [.char '\x7d'] := skipWs_joinMembers _ _ _
    rw [hskip, if_neg, scanMembers_join depth m ms hw, except_ok_bind]
    · rfl
    · simp [texts, ofText] at hlen ⊢
      omega
    · show ¬ (ofText (joinMembers ((m.1, m.2.1) :: texts ms)) ++ _).head? = _
      rw [hbody]
      simp [ofText]

/-! ### ASCII -/

/-- Nothing but ASCII, and no control character. -/
def Plain (t : List Char) : Prop := ∀ c ∈ t, 0x20 ≤ c.toNat ∧ c.toNat < 0x7f

theorem Plain.append {s t : List Char} (hs : Plain s) (ht : Plain t) : Plain (s ++ t) := fun c hc =>
  (List.mem_append.1 hc).elim (hs c) (ht c)

/-- `\uXXXX` is ASCII. -/
theorem plain_unicodeEscape {n : Nat} (h : n < 0x10000) : Plain (unicodeEscape n) := by
  have hdigit : ∀ k, k < 16 → 0x20 ≤ (Nat.digitChar k).toNat ∧ (Nat.digitChar k).toNat < 0x7f := by
    decide
  intro c hc
  simp only [unicodeEscape, List.mem_cons, List.not_mem_nil, or_false] at hc
  rcases hc with rfl | rfl | rfl | rfl | rfl | rfl
  · decide
  · decide
  · exact hdigit _ (by omega)
  · exact hdigit _ (by omega)
  · exact hdigit _ (by omega)
  · exact hdigit _ (by omega)

theorem plain_escapePoint (p : Point) : Plain (escapePoint p) := by
  cases p with
  | surrogate n => exact plain_unicodeEscape (by omega)
  | char c =>
    obtain ⟨-, hmax⟩ := char_range c
    rw [escapePoint]
    split
    · next e he =>
      have hletters : ∀ w ∈ simpleEscapes, Plain ['\\', w.1] := by simp [simpleEscapes, Plain]
      exact hletters (e, c) (mem_of_lookup (escapeLetter_eq_some he).1)
    · split
      · next hplain =>
        intro d hd
        obtain rfl := List.mem_singleton.1 hd
        omega
      · split
        · next hsmall => exact plain_unicodeEscape hsmall
        · exact (plain_unicodeEscape (by omega)).append (plain_unicodeEscape (by omega))

theorem plain_dumpsStr (s : UStr) : Plain (dumpsStr s) := by
  intro c hc
  rw [dumpsStr, List.mem_cons, List.mem_append, List.mem_flatMap, List.mem_singleton] at hc
  rcases hc with rfl | ⟨p, -, hp⟩ | rfl
  · decide
  · exact plain_escapePoint p c hp
  · decide

theorem plain_intText (n : Int) : Plain (intText n) := by
  have hdigits : Plain (Nat.toDigits 10 n.natAbs) := by
    intro c hc
    have hdigit := Nat.isDigit_of_mem_toDigits (by decide) (by decide) hc
    obtain ⟨hlow, hhigh⟩ := Char.isDigit_iff_toNat.1 hdigit
    have h0 : '0'.toNat = 48 := rfl
    have h9 : '9'.toNat = 57 := rfl
    omega
  unfold intText
  split
  · exact (show Plain ['-'] by simp [Plain]).append hdigits
  · exact hdigits

theorem plain_joinMembers {ms : List (UStr × List Char)} (h : ∀ m ∈ ms, Plain m.2) :
    Plain (joinMembers ms) := by
  have hcolon : Plain [':', ' '] := by simp [Plain]
  have hcomma : Plain [',', ' '] := by simp [Plain]
  induction ms with
  | nil => exact fun _ hc => absurd hc List.not_mem_nil
  | cons m ms ih =>
    have hm := ((plain_dumpsStr m.1).append hcolon).append (h m List.mem_cons_self)
    cases ms with
    | nil => exact hm
    | cons m' ms =>
      have hms := ih fun m hmem => h m (List.mem_cons_of_mem _ hmem)
      exact hm.append (hcomma.append hms)

/-- An object is written in ASCII when its values are. -/
theorem plain_dumpsObj {ms : List (UStr × List Char)} (h : ∀ m ∈ ms, Plain m.2) :
    Plain (dumpsObj ms) := by
  have hopen : Plain ['\x7b'] := by simp [Plain]
  have hclose : Plain ['\x7d'] := by simp [Plain]
  exact hopen.append ((plain_joinMembers h).append hclose)

end Ser2Net.Lib.PyJson
