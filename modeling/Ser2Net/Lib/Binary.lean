import Mathlib

namespace Ser2Net.Lib

/-!
# Bytes, binary floats and fallible code

Small libraries that the codecs and the configuration reader share.

* `except_bind_eq_ok` — inversion of a `do` block of `Except` that returned;
* `packLE`, `unpackLE` — little-endian integers (`struct` format `<`), with their round trip
  `unpackLE_packLE`;
* `At data pos bs` — the buffer `data` holds the bytes `bs` from position `pos` on;
* `Format`, `convert`, `ofInt` — IEEE 754 interchange formats by bit pattern: rounding to
  nearest even, narrowing with overflow, widening, and the conversion of an integer.
-/

/-! ### Inversion of `Except` -/

/-- A sequence of two fallible steps returned exactly when both did. -/
theorem except_bind_eq_ok {ε α β : Type} {x : Except ε α} {f : α → Except ε β} {b : β} :
    (x >>= f) = .ok b ↔ ∃ a, x = .ok a ∧ f a = .ok b := by
  cases x with
  | error e => simp [bind, Except.bind]
  | ok a => simp [bind, Except.bind]

/-- A value is handed on. -/
@[simp] theorem except_ok_bind {ε α β : Type} (a : α) (f : α → Except ε β) :
    ((.ok a : Except ε α) >>= f) = f a := rfl

/-- An exception ends the code. -/
@[simp] theorem except_error_bind {ε α β : Type} (e : ε) (f : α → Except ε β) :
    ((.error e : Except ε α) >>= f) = .error e := rfl

/-- Code that does nothing. -/
@[simp] theorem except_pure {ε α : Type} (a : α) : (pure a : Except ε α) = .ok a := rfl

/-! ### Little-endian integers -/

/-- Byte strings. -/
abbrev Bytes := List UInt8

/-- The low `k` bytes of `n`, least significant first. -/
def packLE : Nat → Nat → Bytes
  | 0, _ => []
  | k + 1, n => UInt8.ofNat (n % 256) :: packLE k (n / 256)

/-- The number little-endian bytes spell. -/
def unpackLE : Bytes → Nat
  | [] => 0
  | b :: bs => b.toNat + 256 * unpackLE bs

/-- As many bytes as asked for. -/
@[simp] theorem packLE_length (k n : Nat) : (packLE k n).length = k := by
  induction k generalizing n with
  | zero => rfl
  | succ k ih => simp [packLE, ih]

/-- Little-endian bytes read back as the number, reduced to the width they hold. -/
theorem unpackLE_packLE (k n : Nat) : unpackLE (packLE k n) = n % 256 ^ k := by
  induction k generalizing n with
  | zero => simp [packLE, unpackLE, Nat.mod_one]
  | succ k ih =>
    have hbyte : (UInt8.ofNat (n % 256)).toNat = n % 256 := by simp
    rw [packLE, unpackLE, ih, hbyte, Nat.pow_succ', Nat.mod_mul]

/-! ### Bytes at a position -/

/-- The buffer holds `bs` from position `pos` on, whatever stands before and after. -/
def At (data : Bytes) (pos : Nat) (bs : Bytes) : Prop := bs <+: data.drop pos

/-- The first byte, and the others behind it. -/
theorem at_cons {data : Bytes} {pos : Nat} {b : UInt8} {bs : Bytes} :
    At data pos (b :: bs) ↔ data[pos]? = some b ∧ At data (pos + 1) bs := by
  unfold At
  rw [← List.head?_drop, ← List.tail_drop]
  cases data.drop pos with
  | nil => simp
  | cons c rest => simp [List.cons_prefix_cons, eq_comm]

/-- A run of bytes behind another. -/
theorem at_append {data : Bytes} {pos : Nat} {as bs : Bytes} :
    At data pos (as ++ bs) ↔ At data pos as ∧ At data (pos + as.length) bs := by
  induction as generalizing pos with
  | nil => simp [At]
  | cons a as ih =>
    rw [List.cons_append, at_cons, at_cons, ih, List.length_cons, and_assoc,
      Nat.add_assoc pos 1, Nat.add_comm 1]

/-- All of the bytes are at the beginning. -/
theorem at_self (bs : Bytes) : At bs 0 bs := List.prefix_rfl

/-- What stands at a position ends inside the buffer. -/
theorem At.length_le {data : Bytes} {pos : Nat} {bs : Bytes} (h : At data pos bs)
    (hp : pos ≤ data.length) : pos + bs.length ≤ data.length := by
  have := List.IsPrefix.length_le h
  rw [List.length_drop] at this
  omega

/-- The slice that a run of bytes covers is that run. -/
theorem At.slice {data : Bytes} {pos : Nat} {bs : Bytes} (h : At data pos bs) :
    (data.drop pos).take bs.length = bs :=
  (List.prefix_iff_eq_take.1 h).symm

/-- The rest of the buffer from a run of bytes on. -/
theorem At.drop_eq {data : Bytes} {pos : Nat} {bs : Bytes} (h : At data pos bs) :
    data.drop pos = bs ++ data.drop (pos + bs.length) := by
  obtain ⟨rest, hrest⟩ := h
  rw [← List.drop_drop, ← hrest, List.drop_left]

/-! ### Binary interchange formats -/

/-- An IEEE 754 binary format: stored mantissa bits and exponent bits. -/
structure Format where
  mantissa : Nat
  exponent : Nat

namespace Format

/-- Double precision. -/
def binary64 : Format := ⟨52, 11⟩

/-- Single precision. -/
def binary32 : Format := ⟨23, 8⟩

variable (f : Format)

/-- The smallest positive value is `2 ^ -unit`; magnitudes are counted in it. -/
def unit : Nat := 2 ^ (f.exponent - 1) - 1 + f.mantissa - 1

/-- The pattern of infinity; a larger magnitude is a NaN. -/
def infinity : Nat := (2 ^ f.exponent - 1) * 2 ^ f.mantissa

/-- The sign bit. -/
def signBit : Nat := 2 ^ (f.mantissa + f.exponent)

/-- `num / den` rounded to an integer, ties to even. -/
def roundDiv (num den : Nat) : Nat :=
  let q := num / den
  let r := num % den
  if den < 2 * r || (den == 2 * r && q % 2 == 1) then q + 1 else q

/-- `num / den` units rounded to the precision of the format. -/
def roundUnits (num den : Nat) : Nat :=
  let drop := (num / den).log2 - f.mantissa
  roundDiv num (den * 2 ^ drop) * 2 ^ drop

/-- The pattern of a magnitude of `n` units (as `roundUnits` makes them); `none` is
    overflow. -/
def pattern (n : Nat) : Option Nat :=
  if n < 2 ^ f.mantissa then some n
  else
    let shift := n.log2 - f.mantissa
    let p := (shift + 1) * 2 ^ f.mantissa + (n / 2 ^ shift - 2 ^ f.mantissa)
    if p < f.infinity then some p else none

/-- The units of a finite pattern. -/
def units (p : Nat) : Nat :=
  let e := p / 2 ^ f.mantissa
  if e = 0 then p else (2 ^ f.mantissa + p % 2 ^ f.mantissa) * 2 ^ (e - 1)

/-- The value of format `f` with pattern `p`, in format `g`: rounded to nearest even, a NaN
    quieted with the top bits of its payload; `none` when a finite value overflows. -/
def convert (f g : Format) (p : Nat) : Option Nat :=
  let mag := p % f.signBit
  let sign := if f.signBit ≤ p then g.signBit else 0
  if mag < f.infinity then
    (g.pattern (g.roundUnits (f.units mag * 2 ^ g.unit) (2 ^ f.unit))).map (sign + ·)
  else if mag = f.infinity then some (sign + g.infinity)
  else
    let payload := (mag - f.infinity) * 2 ^ g.mantissa / 2 ^ f.mantissa
    some (sign + (g.infinity + (payload ||| 2 ^ (g.mantissa - 1))))

/-- The pattern of an integer; `none` is overflow. -/
def ofInt (n : Int) : Option Nat :=
  let sign := if n < 0 then f.signBit else 0
  (f.pattern (f.roundUnits (n.natAbs * 2 ^ f.unit) 1)).map (sign + ·)

end Format

/-- A double by its bit pattern. -/
abbrev F64 := BitVec 64

/-- A single by its bit pattern. -/
abbrev F32 := BitVec 32

/-- Narrowing to single precision; `none` is overflow. -/
def F64.toSingle (x : F64) : Option F32 :=
  (Format.convert .binary64 .binary32 x.toNat).map (BitVec.ofNat 32)

/-- Widening to double precision, which is exact. -/
def F32.toDouble (x : F32) : F64 :=
  BitVec.ofNat 64 ((Format.convert .binary32 .binary64 x.toNat).getD 0)

/-- The double nearest to an integer; `none` is overflow. -/
def F64.ofInt? (n : Int) : Option F64 := (Format.ofInt .binary64 n).map (BitVec.ofNat 64)

end Ser2Net.Lib
