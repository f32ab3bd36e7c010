import Ser2Net.Lib.PyText
import Ser2Net.Lib.Binary
import Ser2Net.Lib.Dict

namespace Ser2Net.Lib

open PyText

/-!
# Python values as `json.loads` makes them

Configuration code that takes a parsed JSON document runs on values of any JSON type in any
field.  `Json` is the type of these values, `PyExc` the exceptions that the operations of
the language raise on the wrong type, and the functions below are those operations.

* `PyFloat` — a float as an integer multiple of `2^-1074`, so that comparisons are exact and
  computable (`-0.0` is `0.0`, which `==` does not tell apart);
* `truthy`, `isInt`, `isNumber`, `eqInt`, `eqStr`, `leInt` — tests and comparisons;
* `strip`, `elements`, `containsChar`, `toDict` — method calls and iteration, in `PyM`.
-/

/-- A Python `float`: `fin n` is `n * 2^-1074`. -/
inductive PyFloat
  | nan
  | inf (neg : Bool)
  | fin (n : Int)
  deriving DecidableEq, Repr

namespace PyFloat

/-- `1.0` in units of `2^-1074`. -/
def one : Int := 2 ^ 1074

/-- Comparison `x ≤ y`; every comparison with NaN is false. -/
def le : PyFloat → PyFloat → Bool
  | .nan, _ | _, .nan => false
  | .inf true, _ | _, .inf false => true
  | .inf false, _ | _, .inf true => false
  | .fin a, .fin b => a ≤ b

/-- An integer as an exact value (Python compares int and float exactly). -/
def ofIntExact (n : Int) : PyFloat := .fin (n * one)

/-- `math.isfinite`. -/
def isFinite : PyFloat → Bool
  | .fin _ => true
  | _ => false

/-- Round `num / den` units of `2^-1074` to 53 significant bits, ties to even. -/
def round (num den : Nat) : Nat := Format.roundUnits .binary64 num den

/-- One past the largest finite double, in units. -/
def bound : Nat := 2 ^ 2098

/-- A rounded magnitude with its sign; beyond the largest double it is infinite. -/
def signed (neg : Bool) (m : Nat) : PyFloat :=
  if bound ≤ m then .inf neg else .fin (if neg then -m else m)

/-- `float(n)` of an int; `none` is `OverflowError`. -/
def ofInt? (n : Int) : Option PyFloat :=
  match signed (n < 0) (round (n.natAbs * 2 ^ 1074) 1) with
  | .inf _ => none
  | x => some x

/-- `int(x)`: towards zero; `none` for NaN and the infinities. -/
def toInt? : PyFloat → Option Int
  | .fin n => some (n.tdiv one)
  | _ => none

/-- `x.is_integer()`. -/
def isInteger : PyFloat → Bool
  | .fin n => n % one == 0
  | _ => false

/-- The decimal `digits * 10^exp`, rounded.  The two guards only keep the powers of ten
    small: a value above `10^400` is infinite and one below `10^-400` is zero. -/
def ofDecimal (neg : Bool) (digits : List Nat) (exp : Int) : PyFloat :=
  let ds := digits.dropWhile (· = 0)
  if ds = [] ∨ ds.length + exp < -400 then .fin 0
  else if 400 < ds.length + exp then .inf neg
  else signed neg (round (ofDigits ds * 10 ^ exp.toNat * 2 ^ 1074) (10 ^ (-exp).toNat))

/-- The exponent part of a decimal literal; `none` when something else follows. -/
def exponent : List Char → Option Int
  | [] => some 0
  | c :: rest =>
    if c = 'e' ∨ c = 'E' then
      let (neg, body) := sign rest
      match digitRun body with
      | (d :: ds, []) => some (if neg then -(ofDigits (d :: ds) : Int) else ofDigits (d :: ds))
      | _ => none
    else none

/-- `float(text)`; `none` is `ValueError`. -/
def ofText (s : String) : Option PyFloat :=
  let (neg, body) := sign (stripBy isNumberSpace s.toList)
  let word := body.map Char.toLower
  if word = "inf".toList ∨ word = "infinity".toList then some (.inf neg)
  else if word = "nan".toList then some .nan
  else
    let (whole, rest) := digitRun body
    let (frac, rest) := match rest with
      | '.' :: r => digitRun r
      | r => ([], r)
    if whole = [] ∧ frac = [] then none
    else (exponent rest).map fun e => ofDecimal neg (whole ++ frac) (e - frac.length)

/-- The double written `0.1`. -/
def tenth : PyFloat := .fin (3602879701896397 * 2 ^ 1019)

example : ofText "0.1" = some tenth := by decide +kernel
example : ofText "1_e5" = none := by decide +kernel

end PyFloat

/-- A value of a parsed JSON document. -/
inductive Json
  | null
  | bool (b : Bool)
  | int (n : Int)
  | float (x : PyFloat)
  | str (s : String)
  | arr (l : List Json)
  | obj (kvs : List (String × Json))
  deriving Repr

namespace Json

mutual

/-- Structural equality test. -/
def same : Json → Json → Bool
  | .null, .null => true
  | .bool a, .bool b => a == b
  | .int a, .int b => a == b
  | .float a, .float b => a == b
  | .str a, .str b => a == b
  | .arr a, .arr b => sameList a b
  | .obj a, .obj b => sameFields a b
  | _, _ => false

/-- `same` on lists. -/
def sameList : List Json → List Json → Bool
  | [], [] => true
  | a :: as, b :: bs => same a b && sameList as bs
  | _, _ => false

/-- `same` on the members of an object. -/
def sameFields : List (String × Json) → List (String × Json) → Bool
  | [], [] => true
  | (k, a) :: as, (l, b) :: bs => k == l && same a b && sameFields as bs
  | _, _ => false

end

mutual

/-- The test for equality is exact. -/
theorem same_iff : ∀ a b : Json, same a b = true ↔ a = b
  | .arr a, .arr b => by simp [same, sameList_iff a b]
  | .obj a, .obj b => by simp [same, sameFields_iff a b]
  | .null, b => by cases b <;> simp [same]
  | .bool a, b => by cases b <;> simp [same]
  | .int a, b => by cases b <;> simp [same]
  | .float a, b => by cases b <;> simp [same]
  | .str a, b => by cases b <;> simp [same]
  | .arr _, .null | .arr _, .bool _ | .arr _, .int _ | .arr _, .float _ | .arr _, .str _
  | .arr _, .obj _ => by simp [same]
  | .obj _, .null | .obj _, .bool _ | .obj _, .int _ | .obj _, .float _ | .obj _, .str _
  | .obj _, .arr _ => by simp [same]

/-- The same for lists. -/
theorem sameList_iff : ∀ a b : List Json, sameList a b = true ↔ a = b
  | [], [] => by simp [sameList]
  | [], _ :: _ => by simp [sameList]
  | _ :: _, [] => by simp [sameList]
  | a :: as, b :: bs => by simp [sameList, same_iff a b, sameList_iff as bs]

/-- The same for members. -/
theorem sameFields_iff : ∀ a b : List (String × Json), sameFields a b = true ↔ a = b
  | [], [] => by simp [sameFields]
  | [], _ :: _ => by simp [sameFields]
  | _ :: _, [] => by simp [sameFields]
  | (k, a) :: as, (l, b) :: bs => by
    simp [sameFields, same_iff a b, sameFields_iff as bs, and_assoc]

end

instance : DecidableEq Json := fun a b => decidable_of_iff _ (same_iff a b)

instance : Inhabited Json := ⟨.null⟩

/-- `bool(v)`. -/
def truthy : Json → Bool
  | .null => false
  | .bool b => b
  | .int n => n ≠ 0
  | .float x => x ≠ .fin 0
  | .str s => s ≠ ""
  | .arr l => !l.isEmpty
  | .obj kvs => !kvs.isEmpty

/-- The number a value is (a bool is an int), if it is one. -/
def number? : Json → Option PyFloat
  | .bool b => some (.ofIntExact (if b then 1 else 0))
  | .int n => some (.ofIntExact n)
  | .float x => some x
  | _ => none

/-- The integer a value is, for `isinstance(v, int)` (a bool is an int). -/
def int? : Json → Option Int
  | .bool b => some (if b then 1 else 0)
  | .int n => some n
  | _ => none

/-- `isinstance(v, int) and not isinstance(v, bool)`. -/
def isInt : Json → Bool
  | .int _ => true
  | _ => false

/-- `isinstance(v, (int, float)) and not isinstance(v, bool)`. -/
def isNumber : Json → Bool
  | .int _ | .float _ => true
  | _ => false

/-- `v == n` for an int `n`. -/
def eqInt (v : Json) (n : Int) : Bool :=
  match v.number? with
  | some x => x == .ofIntExact n
  | none => false

/-- `v == x` for a float `x` that is not NaN. -/
def eqFloat (v : Json) (x : PyFloat) : Bool :=
  match v.number? with
  | some y => y == x
  | none => false

/-- `v == s` for a text `s`. -/
def eqStr (v : Json) (s : String) : Bool := v == .str s

/-- `v in (s₁, …)` for texts. -/
def inStrs (v : Json) (l : List String) : Bool := l.any v.eqStr

/-- `v in (n₁, …)` for ints. -/
def inInts (v : Json) (l : List Int) : Bool := l.any v.eqInt

/-- `lo <= v <= hi` for a value known to be a number. -/
def between (v : Json) (lo hi : PyFloat) : Bool :=
  match v.number? with
  | some x => lo.le x && x.le hi
  | none => false

/-- `lo <= v <= hi` for ints and a value known to be a number. -/
def betweenInts (v : Json) (lo hi : Int) : Bool :=
  v.between (.ofIntExact lo) (.ofIntExact hi)

/-- Two numbers are equal; NaN is not equal to itself. -/
def numEq (x y : PyFloat) : Bool := x == y && x != .nan

/-- The first member with key `k`. -/
def lookup (kvs : List (String × Json)) (k : String) : Option Json :=
  (kvs.find? fun p => p.1 == k).map (·.2)

/-- `d.get(k, default)`. -/
def get (kvs : List (String × Json)) (k : String) (default : Json) : Json :=
  (lookup kvs k).getD default

/-- `d.pop(k, default)`: the value and the members left. -/
def pop (kvs : List (String × Json)) (k : String) (default : Json) :
    Json × List (String × Json) :=
  (get kvs k default, kvs.filter fun p => p.1 ≠ k)

/-- `==` of two values neither of which is a list or an object. -/
def scalarEq : Json → Json → Bool
  | .null, .null => true
  | .str a, .str b => a == b
  | a, b =>
    match a.number?, b.number? with
    | some x, some y => numEq x y
    | _, _ => false

mutual

/-- How deep lists and objects are nested in a value. -/
def nesting : Json → Nat
  | .arr l => nestingList l + 1
  | .obj kvs => nestingMembers kvs + 1
  | _ => 0

/-- `nesting` of the elements of a list. -/
def nestingList : List Json → Nat
  | [] => 0
  | a :: as => max (nesting a) (nestingList as)

/-- `nesting` of the members of an object. -/
def nestingMembers : List (String × Json) → Nat
  | [] => 0
  | (_, a) :: as => max (nesting a) (nestingMembers as)

end

mutual

/-- `a == b`.  A NaN equals nothing, also inside a list or an object, where Python finds one and the
    same object equal to itself. -/
def pyEq : Json → Json → Bool
  | .arr a, .arr b => pyEqList a b
  | .obj a, .obj b => a.length == b.length && pyEqMembers a b
  | a, b => scalarEq a b

/-- `==` of lists. -/
def pyEqList : List Json → List Json → Bool
  | [], [] => true
  | a :: as, b :: bs => pyEq a b && pyEqList as bs
  | _, _ => false

/-- Every member of the first object has an equal one in the second. -/
def pyEqMembers : List (String × Json) → List (String × Json) → Bool
  | [], _ => true
  | (k, a) :: as, bs =>
    (match lookup bs k with
      | some b => pyEq a b
      | none => false) && pyEqMembers as bs

end

/-- A text is equal only to itself. -/
theorem pyEq_str (v : Json) (s : String) : pyEq v (.str s) = eqStr v s := by
  cases v <;> simp [pyEq, scalarEq, number?, eqStr, beq_eq_decide]

/-- Equal objects with the same first key agree on it. -/
theorem pyEq_obj_head {k : String} {a b : Json} {as bs : List (String × Json)}
    (h : pyEq (.obj ((k, a) :: as)) (.obj ((k, b) :: bs)) = true) : pyEq a b = true := by
  simp only [pyEq, pyEqMembers, lookup, List.find?_cons_of_pos, beq_self_eq_true,
    Option.map_some, Bool.and_eq_true] at h
  exact h.2.1

end Json

/-! ### Text of a value -/

/-- What the embedding leaves open of Python's text tables: which characters beyond ASCII
    are alphanumeric, the `str` of floats, lists and objects, and the lower case of texts
    beyond ASCII. -/
structure PyEnv where
  isAlnum : Char → Bool
  strOther : Json → String
  lowerOther : String → String

/-- `str(v)`. -/
def Json.toStr (env : PyEnv) : Json → String
  | .null => "None"
  | .bool b => if b then "True" else "False"
  | .int n => toString n
  | .str s => s
  | v => env.strOther v

/-- A word character (`\w`) of a regular expression. -/
def PyEnv.isWord (env : PyEnv) (c : Char) : Bool :=
  if c.toNat < 128 then c.isAlphanum || c == '_' else env.isAlnum c

/-- `s.lower()`. -/
def PyEnv.lower (env : PyEnv) (s : String) : String :=
  if s.toList.all (fun c => c.toNat < 128) then PyText.lower s else env.lowerOther s

/-! ### Exceptions and the operations that raise them -/

/-- A Python exception; `user` is the program's own class, a subclass of `ValueError`. -/
inductive PyExc (ε : Type)
  | user (e : ε)
  | valueError
  | typeError
  | attributeError
  | overflowError
  | recursionError
  deriving DecidableEq, Repr

/-- Code that may raise. -/
abbrev PyM (ε α : Type) := Except (PyExc ε) α

/-- `except ValueError` catches it. -/
def PyExc.isValueError {ε : Type} : PyExc ε → Bool
  | .user _ | .valueError => true
  | _ => false

section
variable {ε : Type}

/-- `v.strip()`. -/
def Json.strip : Json → PyM ε String
  | .str s => .ok (PyText.strip s)
  | _ => .error .attributeError

/-- `not v.strip()`. -/
def Json.blank : Json → PyM ε Bool
  | .str s => .ok (PyText.blank s)
  | _ => .error .attributeError

/-- `lo <= v <= hi` on a value of any type. -/
def Json.inRange (v : Json) (lo hi : Int) : PyM ε Bool :=
  match v.number? with
  | some x => .ok ((PyFloat.ofIntExact lo).le x && x.le (.ofIntExact hi))
  | none => .error .typeError

/-- `float(v)`. -/
def Json.toFloat : Json → PyM ε PyFloat
  | .bool b => .ok (.ofIntExact (if b then 1 else 0))
  | .int n =>
    match PyFloat.ofInt? n with
    | some x => .ok x
    | none => .error .overflowError
  | .float x => .ok x
  | .str s =>
    match PyFloat.ofText s with
    | some x => .ok x
    | none => .error .valueError
  | _ => .error .typeError

/-- `int(v)`. -/
def Json.toInt : Json → PyM ε Int
  | .bool b => .ok (if b then 1 else 0)
  | .int n => .ok n
  | .float x =>
    match x, x.toInt? with
    | _, some n => .ok n
    | .nan, none => .error .valueError
    | _, none => .error .overflowError
  | .str s =>
    match PyText.int s with
    | some n => .ok n
    | none => .error .valueError
  | _ => .error .typeError

/-- `for x in v`. -/
def Json.elements : Json → PyM ε (List Json)
  | .arr l => .ok l
  | .str s => .ok (s.toList.map fun c => .str (String.ofList [c]))
  | .obj kvs => .ok (kvs.map fun p => .str p.1)
  | _ => .error .typeError

/-- `c in v` for a one-character text. -/
def Json.containsChar (v : Json) (c : Char) : PyM ε Bool :=
  match v with
  | .str s => .ok (s.toList.contains c)
  | .arr l => .ok (l.any fun x => x.eqStr (String.ofList [c]))
  | .obj kvs => .ok (kvs.any fun p => p.1 == String.ofList [c])
  | _ => .error .typeError

/-- The value can be a dictionary key. -/
def Json.hashable : Json → Bool
  | .arr _ | .obj _ => false
  | _ => true

/-- `dict(pairs)` of a list: every element is a sequence of two, the first a key.  Keys
    that are no text are dropped, as nothing can look them up by name. -/
def dictOfPairs : List (String × Json) → List Json → PyM ε (List (String × Json))
  | d, [] => .ok d
  | d, e :: rest =>
    match e with
    | .arr _ | .str _ | .obj _ => do
      let seq ← e.elements
      match seq with
      | [k, v] =>
        if k.hashable then
          dictOfPairs (match k with | .str s => dictSet d s v | _ => d) rest
        else .error .typeError
      | _ => .error .valueError
    | _ => .error .typeError

/-- `dict(v or {})`. -/
def Json.toDict (v : Json) : PyM ε (List (String × Json)) :=
  if v.truthy then
    match v with
    | .obj kvs => .ok kvs
    | .arr l => dictOfPairs [] l
    | .str _ => .error .valueError
    | _ => .error .typeError
  else .ok []

/-- `dict` of an object. -/
theorem Json.toDict_obj (kvs : List (String × Json)) :
    (Json.obj kvs).toDict = (.ok kvs : PyM ε _) := by
  cases kvs <;> rfl

/-- `v.items()`, as the members of an object. -/
def Json.items : Json → PyM ε (List (String × Json))
  | .obj kvs => .ok kvs
  | _ => .error .attributeError

end

end Ser2Net.Lib
