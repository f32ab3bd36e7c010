import Mathlib

namespace Ser2Net.Lib.Crc

/-!
# Cyclic redundancy checks

The reflected shift register of width `w` with the polynomial `poly`, fed symbols of `m` bits:
a symbol is added to the register (exclusive or), which is then shifted `m` times.

* `shift_xor`, `shift_injective` — one shift is linear, and invertible when the polynomial has
  its top bit set;
* `iterate_shift_shiftLeft` — `m` shifts bring bits moved up by `m` places back;
* `register_pair_injective` — a burst within two consecutive symbols always changes the
  register, wherever it stands and however long the message is;
* `register_pair_eq_zero` — a message followed by its own checksum, low half first, leaves the
  register clear, and one followed by any other pair of symbols does not.
-/

variable {w : Nat} (poly : BitVec w)

/-- One shift of the register. -/
def shift (c : BitVec w) : BitVec w :=
  if c.getLsbD 0 then (c >>> 1) ^^^ poly else c >>> 1

/-- The register after one symbol of `m` bits. -/
def symbol (m : Nat) (c x : BitVec w) : BitVec w := (shift poly)^[m] (c ^^^ x)

/-- The register after the symbols. -/
def register (m : Nat) (c : BitVec w) (xs : List (BitVec w)) : BitVec w :=
  xs.foldl (symbol poly m) c

/-! ### One shift -/

/-- A shift of a sum. -/
theorem shift_xor (a b : BitVec w) : shift poly (a ^^^ b) = shift poly a ^^^ shift poly b := by
  unfold shift
  simp only [BitVec.getLsbD_xor, BitVec.ushiftRight_xor_distrib]
  cases a.getLsbD 0 with
  | false =>
    cases b.getLsbD 0 with
    | false => simp
    | true => simp [BitVec.xor_assoc]
  | true =>
    cases b.getLsbD 0 with
    | false =>
      simp only [Bool.xor_false, if_true, Bool.false_eq_true, if_false]
      rw [BitVec.xor_assoc, BitVec.xor_assoc, BitVec.xor_comm poly]
    | true =>
      -- the polynomial is added twice
      simp only [Bool.xor_self, Bool.false_eq_true, if_false, if_true]
      rw [BitVec.xor_assoc, BitVec.xor_comm _ poly, ← BitVec.xor_assoc poly, ← BitVec.xor_assoc]
      simp

/-- A shift of nothing. -/
theorem shift_zero : shift poly 0#w = 0#w := by
  simp [shift]

/-- What shifts to nothing is nothing. -/
theorem shift_eq_zero {c : BitVec w} (hpoly : poly.msb = true) (h : shift poly c = 0#w) :
    c = 0#w := by
  have hw : 0 < w := by
    rcases Nat.eq_zero_or_pos w with rfl | hw
    · simp [BitVec.msb, BitVec.getMsbD] at hpoly
    · exact hw
  have hbit : ∀ i, (shift poly c).getLsbD i = false := by
    intro i
    rw [h]
    exact BitVec.getLsbD_zero
  unfold shift at hbit
  -- the top bit after the shift says which branch was taken
  cases hlow : c.getLsbD 0 with
  | true =>
    have htop := hbit (w - 1)
    have hout : c.getLsbD (1 + (w - 1)) = false := BitVec.getLsbD_of_ge _ _ (by omega)
    rw [hlow, if_pos rfl, BitVec.getLsbD_xor, BitVec.getLsbD_ushiftRight, hout, Bool.false_xor,
      ← BitVec.msb_eq_getLsbD_last, hpoly] at htop
    exact absurd htop (by decide)
  | false =>
    simp only [hlow, Bool.false_eq_true, if_false, BitVec.getLsbD_ushiftRight] at hbit
    apply BitVec.eq_of_getLsbD_eq
    intro i hi
    rw [BitVec.getLsbD_zero]
    cases i with
    | zero => exact hlow
    | succ i =>
      rw [Nat.add_comm]
      exact hbit i

/-- No two registers shift to the same. -/
theorem shift_injective (hpoly : poly.msb = true) : Function.Injective (shift poly) := by
  intro a b h
  have hxor : shift poly (a ^^^ b) = 0#w := by
    rw [shift_xor, h]
    exact BitVec.xor_self
  exact BitVec.xor_eq_zero_iff.1 (shift_eq_zero poly hpoly hxor)

/-! ### Several shifts -/

/-- Shifts of a sum. -/
theorem iterate_shift_xor (n : Nat) (a b : BitVec w) :
    (shift poly)^[n] (a ^^^ b) = (shift poly)^[n] a ^^^ (shift poly)^[n] b := by
  induction n generalizing a b with
  | zero => rfl
  | succ n ih => rw [Function.iterate_succ_apply, shift_xor, ih]; rfl

/-- A shift undoes a doubling that loses no bit. -/
theorem shift_shiftLeft_one {x : BitVec w} (hx : x.toNat * 2 < 2 ^ w) :
    shift poly (x <<< 1) = x := by
  have hlow : (x <<< 1).getLsbD 0 = false := by simp
  unfold shift
  rw [hlow, if_neg Bool.false_ne_true]
  apply BitVec.eq_of_toNat_eq
  rw [BitVec.toNat_ushiftRight, BitVec.toNat_shiftLeft, Nat.shiftLeft_eq, Nat.shiftRight_eq_div_pow,
    Nat.pow_one, Nat.mod_eq_of_lt hx]
  omega

/-- Bits that are moved up by `m` places without loss come back after `m` shifts. -/
theorem iterate_shift_shiftLeft (m : Nat) {x : BitVec w} (hx : x.toNat * 2 ^ m < 2 ^ w) :
    (shift poly)^[m] (x <<< m) = x := by
  induction m with
  | zero => simp
  | succ m ih =>
    have hle : x.toNat * 2 ^ m * 2 < 2 ^ w := by
      rw [Nat.mul_assoc, ← Nat.pow_succ]
      exact hx
    have hm : x.toNat * 2 ^ m < 2 ^ w := by omega
    have hval : (x <<< m).toNat = x.toNat * 2 ^ m := by
      rw [BitVec.toNat_shiftLeft, Nat.shiftLeft_eq, Nat.mod_eq_of_lt hm]
    rw [Function.iterate_succ_apply, BitVec.shiftLeft_add, shift_shiftLeft_one poly (hval ▸ hle)]
    exact ih hm

/-! ### Messages -/

variable {poly}

/-- The register after one message and then another. -/
theorem register_append (m : Nat) (c : BitVec w) (xs ys : List (BitVec w)) :
    register poly m c (xs ++ ys) = register poly m (register poly m c xs) ys :=
  List.foldl_append

/-- Different registers stay different over the same symbols. -/
theorem register_injective (hpoly : poly.msb = true) (m : Nat) (xs : List (BitVec w)) :
    Function.Injective fun c => register poly m c xs := by
  induction xs with
  | nil => exact fun _ _ h => h
  | cons x xs ih =>
    intro c d h
    have hsym : (shift poly)^[m] (c ^^^ x) = (shift poly)^[m] (d ^^^ x) := ih h
    exact (BitVec.xor_left_inj x).1 ((shift_injective poly hpoly).iterate m hsym)

/-- Two symbols `a`, `b` give what `a'`, `b'` give only if they are the same, once two symbols
    fit into the register. -/
theorem pair_injective (hpoly : poly.msb = true) {m : Nat} (hm : 2 * m ≤ w) {c a b a' b' : BitVec w}
    (ha : a.toNat < 2 ^ m) (hb : b.toNat < 2 ^ m) (ha' : a'.toNat < 2 ^ m) (hb' : b'.toNat < 2 ^ m)
    (h : register poly m c [a, b] = register poly m c [a', b']) : a = a' ∧ b = b' := by
  have hbnat : (b ^^^ b').toNat < 2 ^ m := by
    rw [BitVec.toNat_xor]
    exact Nat.xor_lt_two_pow hb hb'
  have hanat : (a ^^^ a').toNat < 2 ^ m := by
    rw [BitVec.toNat_xor]
    exact Nat.xor_lt_two_pow ha ha'
  have hfit : (b ^^^ b').toNat * 2 ^ m < 2 ^ w := by
    calc (b ^^^ b').toNat * 2 ^ m < 2 ^ m * 2 ^ m :=
          Nat.mul_lt_mul_of_pos_right hbnat (Nat.two_pow_pos m)
      _ = 2 ^ (2 * m) := by rw [← Nat.pow_add, Nat.two_mul]
      _ ≤ 2 ^ w := Nat.pow_le_pow_right (by omega) hm
  -- take the second symbol's shifts off, then both sides' registers apart
  have hsnd : (shift poly)^[m] (c ^^^ a) ^^^ b = (shift poly)^[m] (c ^^^ a') ^^^ b' :=
    (shift_injective poly hpoly).iterate m h
  have hdiff : (shift poly)^[m] (a ^^^ a') = b ^^^ b' := by
    have hcancel : a ^^^ a' = (c ^^^ a) ^^^ (c ^^^ a') := by
      rw [BitVec.xor_comm c a, BitVec.xor_assoc, ← BitVec.xor_assoc c c, BitVec.xor_self,
        BitVec.zero_xor]
    rw [hcancel, iterate_shift_xor]
    generalize (shift poly)^[m] (c ^^^ a) = p at hsnd ⊢
    generalize (shift poly)^[m] (c ^^^ a') = q at hsnd ⊢
    have hq : q = p ^^^ b ^^^ b' := by
      rw [hsnd, BitVec.xor_assoc, BitVec.xor_self, BitVec.xor_zero]
    rw [hq, BitVec.xor_assoc, ← BitVec.xor_assoc p p, BitVec.xor_self, BitVec.zero_xor]
  -- the difference of the second symbols is the one of the first, moved up out of its reach
  have hup : a ^^^ a' = (b ^^^ b') <<< m :=
    (shift_injective poly hpoly).iterate m
      (hdiff.trans (iterate_shift_shiftLeft poly m hfit).symm)
  have hval : (a ^^^ a').toNat = (b ^^^ b').toNat * 2 ^ m := by
    rw [hup, BitVec.toNat_shiftLeft, Nat.shiftLeft_eq, Nat.mod_eq_of_lt hfit]
  have hzero : (b ^^^ b').toNat = 0 := by
    by_contra hne
    have hge : 1 * 2 ^ m ≤ (b ^^^ b').toNat * 2 ^ m :=
      Nat.mul_le_mul_right _ (Nat.pos_of_ne_zero hne)
    omega
  rw [hzero, Nat.zero_mul] at hval
  exact ⟨BitVec.xor_eq_zero_iff.1 (BitVec.eq_of_toNat_eq hval),
    BitVec.xor_eq_zero_iff.1 (BitVec.eq_of_toNat_eq hzero)⟩

/-- **Burst detection.**  Messages that differ within two consecutive symbols only leave
    different registers. -/
theorem register_pair_injective (hpoly : poly.msb = true) {m : Nat} (hm : 2 * m ≤ w)
    {c a b a' b' : BitVec w} (ha : a.toNat < 2 ^ m) (hb : b.toNat < 2 ^ m) (ha' : a'.toNat < 2 ^ m)
    (hb' : b'.toNat < 2 ^ m) {pre post : List (BitVec w)}
    (h : register poly m c (pre ++ a :: b :: post) = register poly m c (pre ++ a' :: b' :: post)) :
    a = a' ∧ b = b' := by
  rw [register_append, register_append] at h
  exact pair_injective hpoly hm ha hb ha' hb' (register_injective hpoly m post h)

/-- **The checksum clears the register.**  Two symbols leave the register clear exactly when
    they are the low and the high half of what it held. -/
theorem register_pair_eq_zero (hpoly : poly.msb = true) {m : Nat} (hm : 2 * m = w)
    {c lo hi : BitVec w} (hlo : lo.toNat < 2 ^ m) (hhi : hi.toNat < 2 ^ m) :
    register poly m c [lo, hi] = 0#w ↔ c.toNat = lo.toNat + 2 ^ m * hi.toNat := by
  have hfit : hi.toNat * 2 ^ m < 2 ^ w := by
    calc hi.toNat * 2 ^ m < 2 ^ m * 2 ^ m := Nat.mul_lt_mul_of_pos_right hhi (Nat.two_pow_pos m)
      _ = 2 ^ w := by rw [← Nat.pow_add, ← Nat.two_mul, hm]
  have hzero : (shift poly)^[m] 0#w = 0#w := Function.iterate_fixed (shift_zero poly) m
  have hhigh : (hi <<< m).toNat = hi.toNat * 2 ^ m := by
    rw [BitVec.toNat_shiftLeft, Nat.shiftLeft_eq, Nat.mod_eq_of_lt hfit]
  -- the halves do not overlap, so their exclusive or is their sum
  have hsum : (lo ^^^ hi <<< m).toNat = lo.toNat + 2 ^ m * hi.toNat := by
    have hdiv : (lo.toNat ^^^ hi.toNat * 2 ^ m) / 2 ^ m = hi.toNat := by
      rw [Nat.xor_div_two_pow, Nat.div_eq_of_lt hlo, Nat.mul_div_cancel _ (Nat.two_pow_pos m),
        Nat.zero_xor]
    have hmod : (lo.toNat ^^^ hi.toNat * 2 ^ m) % 2 ^ m = lo.toNat := by
      rw [Nat.xor_mod_two_pow, Nat.mod_eq_of_lt hlo, Nat.mul_mod_left, Nat.xor_zero]
    rw [BitVec.toNat_xor, hhigh]
    have hparts := Nat.mod_add_div (lo.toNat ^^^ hi.toNat * 2 ^ m) (2 ^ m)
    rw [hdiv, hmod] at hparts
    exact hparts.symm
  have hiff : register poly m c [lo, hi] = 0#w ↔ c = lo ^^^ hi <<< m := by
    show (shift poly)^[m] ((shift poly)^[m] (c ^^^ lo) ^^^ hi) = 0#w ↔ _
    constructor
    · intro h
      -- each run of `m` shifts is injective, and can be taken back from the end
      have hfst : (shift poly)^[m] (c ^^^ lo) = hi :=
        BitVec.xor_eq_zero_iff.1 ((shift_injective poly hpoly).iterate m (h.trans hzero.symm))
      have hcl : c ^^^ lo = hi <<< m :=
        (shift_injective poly hpoly).iterate m
          (hfst.trans (iterate_shift_shiftLeft poly m hfit).symm)
      rw [← hcl, BitVec.xor_comm c lo, ← BitVec.xor_assoc, BitVec.xor_self, BitVec.zero_xor]
    · rintro rfl
      rw [BitVec.xor_comm lo, BitVec.xor_assoc, BitVec.xor_self, BitVec.xor_zero,
        iterate_shift_shiftLeft poly m hfit, BitVec.xor_self, hzero]
  rw [hiff, ← hsum]
  exact ⟨fun h => h ▸ rfl, fun h => BitVec.eq_of_toNat_eq h⟩

end Ser2Net.Lib.Crc
