import Ser2Net.Engine.SparkplugRoundTrip

namespace Ser2Net.Engine.Sparkplug

open Ser2Net.Lib

/-!
# Integers on the wire of the Sparkplug B codec

The integer datatypes travel in a 32-bit or a 64-bit unsigned field.  Encoders write a negative
number as two's complement of the whole field, or of the datatype's own width; the decoder takes
both.

* `TwosComplement bits v raw` — `raw` is the two's complement pattern of `v`;
* `WireInt` — the numbers that a wire value stands for;
* `intFromWire_iff` — the decoder returns that number, of which there is at most one, and refuses
  a wire value that stands for none.
-/

/-- `raw` is the two's complement pattern of `v` in `bits` bits. -/
def TwosComplement (bits : Nat) (v : Int) (raw : Nat) : Prop :=
  ∃ x : BitVec bits, x.toInt = v ∧ x.toNat = raw

/-- The wire value `raw` of a `fieldBits`-wide field stands for `v`, of a datatype with this sign
    and width: `v` is in the range, and `raw` is its sign extension over the field, or the zero
    extension of its own pattern; without a sign, `raw` is `v`. -/
def WireInt (isSigned : Bool) (bits fieldBits raw : Nat) (v : Int) : Prop :=
  loOf isSigned bits ≤ v ∧ v ≤ hiOf isSigned bits ∧
    if isSigned then TwosComplement fieldBits v raw ∨ bits ≤ fieldBits ∧ TwosComplement bits v raw
    else (raw : Int) = v

theorem two_pow_pred {bits : Nat} (h : 0 < bits) : 2 ^ bits = 2 * 2 ^ (bits - 1) := by
  obtain ⟨n, rfl⟩ := Nat.exists_eq_add_of_lt h
  rw [Nat.zero_add, Nat.add_sub_cancel, Nat.pow_succ, Nat.mul_comm]

/-- `not raw >> bits`. -/
theorem shiftRight_eq_zero_iff_lt {raw bits : Nat} : raw >>> bits = 0 ↔ raw < 2 ^ bits := by
  have hpos : 0 < 2 ^ bits := Nat.two_pow_pos bits
  rw [Nat.shiftRight_eq_div_pow, Nat.div_eq_zero_iff]
  omega

/-- `_signed` by comparison with half the range. -/
theorem signed_eq {raw bits : Nat} (hbits : 0 < bits) :
    signed raw bits =
      if raw < 2 ^ (bits - 1) then (raw : Int) else raw - (2 * 2 ^ (bits - 1) : Nat) := by
  have hcast : (2 : Int) ^ bits = ((2 * 2 ^ (bits - 1) : Nat) : Int) := by
    rw [← two_pow_pred hbits]
    push_cast
    rfl
  unfold signed
  simp only [ne_eq, shiftRight_eq_zero_iff_lt, hcast]
  by_cases h : raw < 2 ^ (bits - 1)
  · rw [if_neg (not_not.2 h), if_pos h]
  · rw [if_pos h, if_neg h]

/-- `_signed` reads two's complement. -/
theorem twosComplement_iff {bits raw : Nat} (hbits : 0 < bits) {v : Int} :
    TwosComplement bits v raw ↔ raw < 2 ^ bits ∧ v = signed raw bits := by
  have hhalf := two_pow_pred hbits
  have hint : ∀ x : BitVec bits, x.toInt = signed x.toNat bits := by
    intro x
    rw [signed_eq hbits, BitVec.toInt_eq_toNat_cond, hhalf]
    split_ifs <;> omega
  constructor
  · rintro ⟨x, rfl, rfl⟩
    exact ⟨x.isLt, hint x⟩
  · rintro ⟨hraw, rfl⟩
    refine ⟨BitVec.ofNat bits raw, ?_, ?_⟩
    · rw [hint, BitVec.toNat_ofNat, Nat.mod_eq_of_lt hraw]
    · rw [BitVec.toNat_ofNat, Nat.mod_eq_of_lt hraw]

/-- A signed datatype: the two forms agree where a wire value has both. -/
theorem intFromWire_signed {m : Metric} {bits : Nat}
    (htype : intTypes.lookup m.datatype = some (true, bits)) {fieldBits raw : Nat}
    (hbits : 0 < bits) (hfield : 0 < fieldBits) (hraw : raw < 2 ^ fieldBits) (v : Int) :
    intFromWire raw fieldBits m = .ok v ↔ WireInt true bits fieldBits raw v := by
  have hhalf := two_pow_pred hbits
  have hhalf' := two_pow_pred hfield
  have hwide : bits < fieldBits → 2 ^ bits ≤ 2 ^ (fieldBits - 1) := fun h =>
    Nat.pow_le_pow_right (by decide) (by omega)
  have hmono : bits ≤ fieldBits → bits = fieldBits ∨ bits < fieldBits := fun h => by omega
  have hs := @signed_eq raw fieldBits hfield
  have hcast : (2 : Int) ^ (bits - 1) = ((2 ^ (bits - 1) : Nat) : Int) := by push_cast; rfl
  unfold intFromWire WireInt
  rw [htype]
  simp only [Bool.not_true, Bool.false_eq_true, if_false, if_true, loOf, hiOf,
    twosComplement_iff hbits, twosComplement_iff hfield, shiftRight_eq_zero_iff_lt, hcast]
  -- the pattern read over the whole field is in the range of the type
  by_cases hrange : -((2 ^ (bits - 1) : Nat) : Int) ≤ signed raw fieldBits ∧
      signed raw fieldBits < (2 ^ (bits - 1) : Nat)
  · rw [if_pos hrange, Except.ok.injEq]
    constructor
    · rintro rfl
      exact ⟨hrange.1, by omega, Or.inl ⟨hraw, rfl⟩⟩
    · rintro ⟨-, -, ⟨-, rfl⟩ | ⟨hle, hown, rfl⟩⟩
      · rfl
      · -- a pattern of its own width, read over the field: both are the number itself
        rcases hmono hle with rfl | hlt
        · rfl
        · have hw := hwide hlt
          rw [signed_eq hbits]
          split_ifs at hs ⊢ <;> omega
  · rw [if_neg hrange]
    -- out of range over the field, but it may be the pattern of the type's own width
    by_cases hown : bits < fieldBits ∧ raw < 2 ^ bits
    · have ho := @signed_eq raw bits hbits
      rw [if_pos hown, Except.ok.injEq]
      constructor
      · rintro rfl
        refine ⟨?_, ?_, Or.inr ⟨by omega, hown.2, rfl⟩⟩ <;> split_ifs at ho <;> omega
      · rintro ⟨hlo, hhi, ⟨-, rfl⟩ | ⟨-, -, rfl⟩⟩
        · exact absurd ⟨hlo, by omega⟩ hrange
        · rfl
    · rw [if_neg hown]
      constructor
      · intro h
        cases h
      · rintro ⟨hlo, hhi, ⟨-, rfl⟩ | ⟨hle, hfit, rfl⟩⟩
        · exact absurd ⟨hlo, by omega⟩ hrange
        · rcases hmono hle with rfl | hlt
          · exact absurd ⟨hlo, by omega⟩ hrange
          · exact absurd ⟨hlt, hfit⟩ hown

/-- A datatype without a sign. -/
theorem intFromWire_unsigned {m : Metric} {bits : Nat}
    (htype : intTypes.lookup m.datatype = some (false, bits)) (fieldBits raw : Nat) (v : Int) :
    intFromWire raw fieldBits m = .ok v ↔ WireInt false bits fieldBits raw v := by
  have hcast : (2 : Int) ^ bits = ((2 ^ bits : Nat) : Int) := by push_cast; rfl
  unfold intFromWire WireInt
  rw [htype]
  simp only [Bool.not_false, Bool.false_eq_true, if_false, if_true, loOf, hiOf, ne_eq,
    shiftRight_eq_zero_iff_lt, hcast]
  by_cases h : raw < 2 ^ bits
  · rw [if_neg (not_not.2 h), Except.ok.injEq]
    omega
  · rw [if_pos h]
    constructor
    · intro he
      cases he
    · rintro ⟨-, hhi, rfl⟩
      omega

/-- The only exception of an integer datatype is a `ValueError`. -/
theorem intFromWire_error {m : Metric} {ty : Bool × Nat}
    (htype : intTypes.lookup m.datatype = some ty) {raw fieldBits : Nat} {e : SpError}
    (h : intFromWire raw fieldBits m = .error e) : e.isValueError = true := by
  unfold intFromWire at h
  rw [htype] at h
  dsimp only at h
  split_ifs at h <;> cases h <;> rfl

/-- **Integers on the wire.**  For every integer datatype and every wire value of a 32-bit or a
    64-bit field, the decoder returns exactly the number that the wire value stands for.  It
    stands for one number at most, and where it stands for none the decoder raises a
    `ValueError`. -/
theorem intFromWire_iff (m : Metric) (isSigned : Bool) (bits fieldBits raw : Nat)
    (htype : intTypes.lookup m.datatype = some (isSigned, bits))
    (hfield : fieldBits = 32 ∨ fieldBits = 64) (hraw : raw < 2 ^ fieldBits) :
    (∀ v, intFromWire raw fieldBits m = .ok v ↔ WireInt isSigned bits fieldBits raw v) ∧
      (∀ v w, WireInt isSigned bits fieldBits raw v → WireInt isSigned bits fieldBits raw w →
        v = w) ∧
      ((∀ v, ¬ WireInt isSigned bits fieldBits raw v) →
        ∃ e, intFromWire raw fieldBits m = .error e ∧ e.isValueError = true) := by
  have hbits : 0 < bits := by
    have := (intTypes_lookup htype).1
    omega
  -- signed and unsigned types by their own lemmas
  have hiff : ∀ v, intFromWire raw fieldBits m = .ok v ↔ WireInt isSigned bits fieldBits raw v := by
    cases isSigned with
    | true => exact intFromWire_signed htype hbits (by omega) hraw
    | false => exact intFromWire_unsigned htype fieldBits raw
  refine ⟨hiff, fun v w hv hw => ?_, fun hnone => ?_⟩
  · have hv' := (hiff v).2 hv
    rw [(hiff w).2 hw] at hv'
    exact (Except.ok.inj hv').symm
  · cases h : intFromWire raw fieldBits m with
    | ok v => exact absurd ((hiff v).1 h) (hnone v)
    | error e => exact ⟨e, rfl, intFromWire_error htype h⟩

/-- Minus one as an `Int16` in the 32-bit field: in both forms, and no other way. -/
theorem intFromWire_iff_int16 :
    intFromWire 0xFFFFFFFF 32 { datatype := DataType.int16 } = .ok (-1) ∧
      intFromWire 0xFFFF 32 { datatype := DataType.int16 } = .ok (-1) ∧
      ¬ WireInt true 16 32 0x1FFFF (-1) := by
  have htype : intTypes.lookup DataType.int16 = some (true, 16) := by decide
  have hiff := fun raw h => (intFromWire_iff { datatype := DataType.int16 } true 16 32 raw htype
    (Or.inl rfl) h).1 (-1)
  refine ⟨(hiff _ (by decide)).2 ⟨by decide, by decide, Or.inl ⟨0xFFFFFFFF#32, rfl, rfl⟩⟩,
    (hiff _ (by decide)).2 ⟨by decide, by decide, Or.inr ⟨by decide, 0xFFFF#16, rfl, rfl⟩⟩,
    fun h => ?_⟩
  have hread := (hiff 0x1FFFF (by decide)).2 h
  exact absurd hread (by decide +kernel)

end Ser2Net.Engine.Sparkplug
