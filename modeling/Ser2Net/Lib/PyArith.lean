import Ser2Net.Lib.PyValue

namespace Ser2Net.Lib

/-!
# Arithmetic of Python numbers

The operators that code applies to the numbers of a parsed document: products, true division,
rounding, the single-precision form of a float, and the operands of the bit operators.

* `PyFloat.mul`, `quotient`, `roundInt` — correctly rounded, ties to even;
* `PyFloat.toSingle?`, `ofSingle`, `ofDouble` — `struct` formats `>f` and `>d` by bit pattern;
* `Json.timesInt`, `timesFloat`, `bitOperand` — `value * v` and `v & mask`, with the exceptions
  of a wrong type;
* `eqInt_of_int?`, `inRange_of_int?` — what the comparisons say about an int or a bool.
-/

namespace PyFloat

/-- `x * y`. -/
def mul : PyFloat → PyFloat → PyFloat
  | .nan, _ | _, .nan => .nan
  | .inf s, .inf t => .inf (s != t)
  | .inf s, .fin b => if b = 0 then .nan else .inf (s != decide (b < 0))
  | .fin a, .inf t => if a = 0 then .nan else .inf (decide (a < 0) != t)
  | .fin a, .fin b =>
    signed (decide (a < 0) != decide (b < 0)) (round (a.natAbs * b.natAbs) (2 ^ 1074))

/-- The float nearest to `a / b`: the true quotient of two ints, and, as the unit cancels, that
    of two finite floats of `a` and `b` units. -/
def quotient (a b : Int) : PyFloat :=
  signed (decide (a < 0) != decide (b < 0)) (round (a.natAbs * 2 ^ 1074) b.natAbs)

/-- `round(x)` of `n` units: to the nearest integer, ties to even. -/
def roundInt (n : Int) : Int :=
  let q : Int := Format.roundDiv n.natAbs (2 ^ 1074)
  if n < 0 then -q else q

/-- The pattern of `x` in single precision; `none` is `OverflowError`. -/
def toSingle? : PyFloat → Option Nat
  | .nan => some 0x7FC00000
  | .inf neg => some ((if neg then 2 ^ 31 else 0) + Format.infinity .binary32)
  | .fin n =>
    (Format.pattern .binary32 (Format.roundUnits .binary32 n.natAbs (2 ^ 925))).map
      ((if n < 0 then 2 ^ 31 else 0) + ·)

/-- The float with the single-precision pattern `p`. -/
def ofSingle (p : Nat) : PyFloat :=
  let mag := p % 2 ^ 31
  let neg : Bool := 2 ^ 31 ≤ p
  if mag < Format.infinity .binary32 then
    let n : Int := Format.units .binary32 mag * 2 ^ 925
    .fin (if neg then -n else n)
  else if mag = Format.infinity .binary32 then .inf neg
  else .nan

/-- The float with the double-precision pattern `p`. -/
def ofDouble (p : Nat) : PyFloat :=
  let mag := p % 2 ^ 63
  let neg : Bool := 2 ^ 63 ≤ p
  if mag < Format.infinity .binary64 then
    let n : Int := Format.units .binary64 mag
    .fin (if neg then -n else n)
  else if mag = Format.infinity .binary64 then .inf neg
  else .nan

example : toSingle? (.ofIntExact 1) = some 0x3F800000 := by decide +kernel
example : ofDouble 0x3FF0000000000000 = .ofIntExact 1 := by decide +kernel

end PyFloat

section
variable {ε : Type}

/-- The float an operand of a float operator is taken for. -/
def Json.floatOperand : Json → PyM ε PyFloat
  | .bool b => .ok (.ofIntExact (if b then 1 else 0))
  | .int n =>
    match PyFloat.ofInt? n with
    | some x => .ok x
    | none => .error .overflowError
  | .float x => .ok x
  | _ => .error .typeError

/-- The integer an operand of `&` and `>>` is taken for; a float is none. -/
def Json.bitOperand (v : Json) : PyM ε Int :=
  match v.int? with
  | some n => .ok n
  | none => .error .typeError

/-- `n * v` for an int `n`: the product of numbers, or a sequence repeated. -/
def Json.timesInt (n : Int) (v : Json) : PyM ε Json :=
  match v with
  | .str s => .ok (.str (String.ofList (List.replicate n.toNat s.toList).flatten))
  | .arr l => .ok (.arr (List.replicate n.toNat l).flatten)
  | .float y => do return .float (PyFloat.mul (← (Json.int n).floatOperand) y)
  | _ =>
    match v.int? with
    | some m => .ok (.int (n * m))
    | none => .error .typeError

/-- `x * v` for a float `x`. -/
def Json.timesFloat (x : PyFloat) (v : Json) : PyM ε Json := do
  return .float (PyFloat.mul x (← v.floatOperand))

end

/-! ### Comparisons with ints -/

/-- Floats of integers are told apart. -/
theorem PyFloat.ofIntExact_injective : Function.Injective PyFloat.ofIntExact := by
  intro a b h
  have hone : PyFloat.one ≠ 0 := by decide +kernel
  exact Int.eq_of_mul_eq_mul_right hone (PyFloat.fin.inj h)

/-- Floats of integers compare like them. -/
theorem PyFloat.le_ofIntExact {a b : Int} :
    (PyFloat.ofIntExact a).le (.ofIntExact b) = true ↔ a ≤ b := by
  have hone : 0 < PyFloat.one := by decide +kernel
  unfold PyFloat.ofIntExact
  generalize PyFloat.one = u at hone
  show decide (a * u ≤ b * u) = true ↔ a ≤ b
  rw [decide_eq_true_eq]
  exact Int.mul_le_mul_right hone

/-- An integer as a number. -/
theorem Json.number?_of_int? {v : Json} {n : Int} (h : v.int? = some n) :
    v.number? = some (.ofIntExact n) := by
  cases v with
  | bool b => rw [← Option.some.inj h]; rfl
  | int m => rw [← Option.some.inj h]; rfl
  | _ => cases h

/-- An integer compared with a constant. -/
theorem Json.eqInt_of_int? {v : Json} {n m : Int} (h : v.int? = some n) :
    v.eqInt m = true ↔ n = m := by
  unfold Json.eqInt
  rw [Json.number?_of_int? h]
  show (PyFloat.ofIntExact n == .ofIntExact m) = true ↔ n = m
  rw [beq_iff_eq]
  exact PyFloat.ofIntExact_injective.eq_iff

/-- An integer looked for among constants. -/
theorem Json.inInts_of_int? {v : Json} {n : Int} (h : v.int? = some n) {l : List Int} :
    v.inInts l = true ↔ n ∈ l := by
  unfold Json.inInts
  rw [List.any_eq_true]
  constructor
  · rintro ⟨m, hm, heq⟩
    rw [Json.eqInt_of_int? h] at heq
    exact heq ▸ hm
  · intro hn
    exact ⟨n, hn, (Json.eqInt_of_int? h).2 rfl⟩

/-- An integer between two bounds. -/
theorem Json.inRange_of_int? {ε : Type} {v : Json} {n lo hi : Int} (h : v.int? = some n) :
    v.inRange lo hi = (.ok true : PyM ε Bool) ↔ lo ≤ n ∧ n ≤ hi := by
  unfold Json.inRange
  rw [Json.number?_of_int? h]
  show (Except.ok ((PyFloat.ofIntExact lo).le (.ofIntExact n) &&
    (PyFloat.ofIntExact n).le (.ofIntExact hi)) : PyM ε Bool) = .ok true ↔ _
  rw [Except.ok.injEq, Bool.and_eq_true, PyFloat.le_ofIntExact, PyFloat.le_ofIntExact]

end Ser2Net.Lib
