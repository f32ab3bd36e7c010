import Ser2Net.Engine.ModbusPdu

namespace Ser2Net.Engine.Modbus

open Ser2Net.Lib

/-!
# Engine — what a Modbus slave does with the requests

A slave after the Modbus specification: four tables, and for each function the checks of the
quantity and of the addresses before it acts.  The requests that the builders make are such
that the slave performs them, and its replies read back.

* `Slave`, `Slave.answer` — the slave;
* `bitAt_packBits`, `wordAt_flatMap_be16` — the packed states and words, one by one;
* `answer_writeSingleCoil` … `answer_writeMultipleRegisters` — what a built request writes;
* `answer_readCoil`, `answer_readHolding` — what reading a point gives.
-/

/-! ### The slave -/

/-- The tables of a slave. -/
structure Slave where
  coils : Nat → Bool
  discreteInputs : Nat → Bool
  holding : Nat → UInt16
  input : Nat → UInt16

/-- The table with `count` entries from `a` on replaced. -/
def overwrite {α : Type} (table : Nat → α) (a count : Nat) (new : Nat → α) (x : Nat) : α :=
  if a ≤ x ∧ x < a + count then new (x - a) else table x

/-- Word `i` of packed registers. -/
def wordAt (data : Bytes) (i : Nat) : UInt16 :=
  UInt16.ofNat (word (data.getD (2 * i) 0) (data.getD (2 * i + 1) 0))

/-- States packed into bytes of eight, least significant bit first. -/
def stateBytes (states : List Bool) : Bytes :=
  (List.range ((states.length + 7) / 8)).map fun k =>
    UInt8.ofNat ((states.drop (8 * k)).take 8 |>.foldr (fun on n => 2 * n + on.toNat) 0)

namespace Slave

/-- The exception codes illegal function, illegal data address and illegal data value. -/
def illegalFunction : UInt8 := 1

/-- See `illegalFunction`. -/
def illegalAddress : UInt8 := 2

/-- See `illegalFunction`. -/
def illegalValue : UInt8 := 3

/-- A request for `count` entries from `a` on: the quantity is checked first, then the
    addresses; then `done` is the reply. -/
def checked {α : Type} (fn : UInt8) (valueOk : Bool) (a count : Nat) (refused : Bytes → α)
    (done : α) : α :=
  if ¬ valueOk then refused (exceptionPdu fn illegalValue)
  else if 0x10000 < a + count then refused (exceptionPdu fn illegalAddress)
  else done

/-- Read `count` bits. -/
def readBits (fn : UInt8) (table : Nat → Bool) (a count : Nat) : Bytes :=
  checked fn (1 ≤ count ∧ count ≤ 2000) a count id
    (let data := stateBytes ((List.range count).map fun i => table (a + i))
     fn :: UInt8.ofNat data.length :: data)

/-- Read `count` registers. -/
def readRegisters (fn : UInt8) (table : Nat → UInt16) (a count : Nat) : Bytes :=
  checked fn (1 ≤ count ∧ count ≤ 125) a count id
    (fn :: UInt8.ofNat (2 * count) :: (List.range count).flatMap fun i => be16 (table (a + i)).toNat)

/-- The reply to a request, and the slave after it. -/
def answer (m : Slave) (pdu : Bytes) : Slave × Bytes :=
  match pdu with
  | fn :: a1 :: a0 :: q1 :: q0 :: data =>
    let a := word a1 a0
    let q := word q1 q0
    if fn = 1 then (m, readBits fn m.coils a q)
    else if fn = 2 then (m, readBits fn m.discreteInputs a q)
    else if fn = 3 then (m, readRegisters fn m.holding a q)
    else if fn = 4 then (m, readRegisters fn m.input a q)
    else if fn = 5 then
      checked fn (q = 0xFF00 ∨ q = 0) a 1 (m, ·)
        ({ m with coils := overwrite m.coils a 1 fun _ => q = 0xFF00 }, pdu)
    else if fn = 6 then
      ({ m with holding := overwrite m.holding a 1 fun _ => UInt16.ofNat q }, pdu)
    else if fn = 15 then
      checked fn (1 ≤ q ∧ q ≤ 1968 ∧ data.head? = some (UInt8.ofNat ((q + 7) / 8)) ∧
          data.length = 1 + (q + 7) / 8) a q (m, ·)
        ({ m with coils := overwrite m.coils a q (bitAt data.tail) }, [fn, a1, a0, q1, q0])
    else if fn = 16 then
      checked fn (1 ≤ q ∧ q ≤ 123 ∧ data.head? = some (UInt8.ofNat (2 * q)) ∧
          data.length = 1 + 2 * q) a q (m, ·)
        ({ m with holding := overwrite m.holding a q (wordAt data.tail) }, [fn, a1, a0, q1, q0])
    else (m, exceptionPdu fn illegalFunction)
  | fn :: _ => (m, exceptionPdu fn illegalFunction)
  | [] => (m, [])

end Slave

/-! ### Bytes of 16-bit numbers -/

/-- The low byte of a number. -/
theorem lowByte_toNat (n : Int) : ((lowByte n).toNat : Int) = n % 256 := by
  have hlo := Int.emod_nonneg n (show (256 : Int) ≠ 0 by decide)
  have hhi := Int.emod_lt_of_pos n (show (0 : Int) < 256 by decide)
  rw [lowByte, UInt8.toNat_ofNat']
  omega

/-- The two bytes of an address or a quantity read back as it. -/
theorem word_be16 {n : Nat} (hn : n < 65536) :
    word (lowByte ((n : Int) / 256)) (lowByte n) = n := by
  have hhi := lowByte_toNat ((n : Int) / 256)
  have hlo := lowByte_toNat (n : Int)
  rw [word_eq]
  omega

/-- A word has two bytes. -/
theorem be16_length (n : Int) : (be16 n).length = 2 := rfl

/-- Words in a row. -/
theorem flatMap_be16_length (ns : List Int) : (ns.flatMap be16).length = 2 * ns.length := by
  induction ns with
  | nil => rfl
  | cons n ns ih =>
    rw [List.flatMap_cons, List.length_append, be16_length, ih, List.length_cons]
    omega

/-- The words of packed registers. -/
theorem wordAt_flatMap_be16 {ns : List Int} (hns : ∀ n ∈ ns, 0 ≤ n ∧ n ≤ 0xFFFF) {i : Nat}
    (hi : i < ns.length) : ((wordAt (ns.flatMap be16) i).toNat : Int) = ns.get ⟨i, hi⟩ := by
  induction ns generalizing i with
  | nil => exact absurd hi (Nat.not_lt_zero i)
  | cons n ns ih =>
    cases i with
    | zero =>
      obtain ⟨hlo, hhi⟩ := hns n List.mem_cons_self
      obtain ⟨k, rfl⟩ := Int.eq_ofNat_of_zero_le hlo
      have hk : k < 65536 := by omega
      show ((UInt16.ofNat (word (lowByte ((k : Int) / 256)) (lowByte k))).toNat : Int) = k
      rw [word_be16 hk, UInt16.toNat_ofNat', Nat.mod_eq_of_lt hk]
    | succ i =>
      -- two bytes further on
      have hrest : wordAt ((n :: ns).flatMap be16) (i + 1) = wordAt (ns.flatMap be16) i := rfl
      rw [hrest]
      exact ih (fun m hm => hns m (List.mem_cons_of_mem n hm)) (Nat.lt_of_succ_lt_succ hi)

/-! ### Packed bits -/

/-- Setting bit `i` sets that bit. -/
theorem bitAt_modify (data : Bytes) {i : Nat} (hi : i / 8 < data.length) (j : Nat) :
    bitAt (data.modify (i / 8) (· ||| 1 <<< UInt8.ofNat (i % 8))) j =
      (bitAt data j || decide (j = i)) := by
  have hshift : (UInt8.ofNat (i % 8)).toNat = i % 8 := by
    rw [UInt8.toNat_ofNat']
    omega
  have hpow : 2 ^ (i % 8) < 2 ^ 8 := Nat.pow_lt_pow_right (by decide) (Nat.mod_lt i (by decide))
  -- the mask that is added has the bit `i % 8` only
  have hmask : ∀ b : UInt8, (b ||| 1 <<< UInt8.ofNat (i % 8)).toNat = b.toNat ||| 2 ^ (i % 8) := by
    intro b
    rw [UInt8.toNat_or, UInt8.toNat_shiftLeft, hshift]
    show b.toNat ||| 1 <<< (i % 8 % 8) % 2 ^ 8 = _
    rw [Nat.mod_mod, Nat.one_shiftLeft, Nat.mod_eq_of_lt hpow]
  unfold bitAt
  rw [List.getD_eq_getElem?_getD, List.getD_eq_getElem?_getD, List.getElem?_modify]
  by_cases hbyte : i / 8 = j / 8
  · simp only [if_pos hbyte]
    rw [← hbyte, List.getElem?_eq_getElem hi]
    show (data[i / 8] ||| 1 <<< UInt8.ofNat (i % 8)).toNat.testBit (j % 8) =
      (data[i / 8].toNat.testBit (j % 8) || decide (j = i))
    rw [hmask, Nat.testBit_or, Nat.testBit_two_pow]
    have hij : (i % 8 = j % 8) = (j = i) := by
      apply propext
      omega
    simp only [hij]
  · have hne : j ≠ i := fun h => hbyte (h ▸ rfl)
    simp only [if_neg hbyte]
    rw [decide_eq_false hne, Bool.or_false, id_map']

/-- The loop sets the bits of the states that are on, from bit `i` on. -/
theorem packFrom_spec (states : List Bool) (packed : Bytes) (i : Nat)
    (hroom : i + states.length ≤ 8 * packed.length) :
    (packFrom packed i states).length = packed.length ∧
      ∀ j, bitAt (packFrom packed i states) j =
        (bitAt packed j || (decide (i ≤ j) && states.getD (j - i) false)) := by
  induction states generalizing packed i with
  | nil => simp [packFrom]
  | cons on rest ih =>
    rw [List.length_cons] at hroom
    cases on with
    | false =>
      obtain ⟨hlen, hbits⟩ := ih packed (i + 1) (by omega)
      refine ⟨hlen, fun j => ?_⟩
      show bitAt (packFrom packed (i + 1) rest) j = _
      rw [hbits]
      -- bits before, at and after the one the loop is at
      rcases Nat.lt_trichotomy j i with h | rfl | h
      · simp [show ¬ i ≤ j by omega, show ¬ i + 1 ≤ j by omega]
      · simp
      · obtain ⟨d, rfl⟩ := Nat.exists_eq_add_of_lt h
        simp [show i + d + 1 - i = d + 1 by omega, show i + d + 1 - (i + 1) = d by omega,
          show i ≤ i + d + 1 by omega]
    | true =>
      have hi : i / 8 < packed.length := by omega
      obtain ⟨hlen, hbits⟩ :=
        ih (packed.modify (i / 8) (· ||| 1 <<< UInt8.ofNat (i % 8))) (i + 1)
          (by rw [List.length_modify]; omega)
      refine ⟨hlen.trans (List.length_modify _ _ _), fun j => ?_⟩
      show bitAt (packFrom (packed.modify (i / 8) (· ||| 1 <<< UInt8.ofNat (i % 8))) (i + 1) rest)
        j = _
      rw [hbits, bitAt_modify packed hi]
      rcases Nat.lt_trichotomy j i with h | rfl | h
      · simp [show ¬ i ≤ j by omega, show ¬ i + 1 ≤ j by omega, show j ≠ i by omega]
      · simp
      · obtain ⟨d, rfl⟩ := Nat.exists_eq_add_of_lt h
        simp [show i + d + 1 - i = d + 1 by omega, show i + d + 1 - (i + 1) = d by omega,
          show i ≤ i + d + 1 by omega, show i + d + 1 ≠ i by omega]

/-- Eight states a byte. -/
theorem packBits_length (states : List Bool) :
    (packBits states).length = (states.length + 7) / 8 := by
  unfold packBits
  rw [(packFrom_spec states _ 0 (by rw [List.length_replicate]; omega)).1, List.length_replicate]

/-- The packed states, one by one; the bits that fill the last byte are off. -/
theorem bitAt_packBits (states : List Bool) (j : Nat) :
    bitAt (packBits states) j = states.getD j false := by
  have hzero : bitAt (List.replicate ((states.length + 7) / 8) 0) j = false := by
    unfold bitAt
    rw [List.getD_eq_getElem?_getD, List.getElem?_replicate]
    split
    · exact Nat.zero_testBit _
    · exact Nat.zero_testBit _
  unfold packBits
  rw [(packFrom_spec states _ 0 (by rw [List.length_replicate]; omega)).2 j, hzero]
  simp

/-! ### The builders -/

/-- A number in its range passes. -/
theorem checkInt_int {n lo hi : Int} {what : String} (h : lo ≤ n ∧ n ≤ hi) :
    checkInt (.int n) lo hi what = .ok n := if_pos h

/-- A failed check is a `ValueError`. -/
theorem checkInt_int_error {n lo hi : Int} (what : String) (h : ¬ (lo ≤ n ∧ n ≤ hi)) :
    ∃ e, checkInt (.int n) lo hi what = .error (.user e) := ⟨_, if_neg h⟩

/-- A span inside the address space passes. -/
theorem checkSpan_int {a count : Nat} (h : a + count ≤ 0x10000) (ha : a ≤ 0xFFFF) :
    checkSpan (.int a) count = .ok (a : Int) := by
  unfold checkSpan
  rw [checkInt_int ⟨by omega, by omega⟩, except_ok_bind, if_neg (by omega)]
  rfl

/-- A span that leaves the address space does not. -/
theorem checkSpan_int_error {a count : Nat} (h : ¬ a + count ≤ 0x10000) (ha : a ≤ 0xFFFF) :
    ∃ e, checkSpan (.int a) count = .error (.user e) := by
  unfold checkSpan
  rw [checkInt_int ⟨by omega, by omega⟩, except_ok_bind, if_pos (by omega)]
  exact ⟨_, rfl⟩

/-- A boolean is a coil's state. -/
theorem coilState_bool (on : Bool) (what : String) : coilState (.bool on) what = .ok on := by
  cases on with
  | false => rfl
  | true => rfl

/-- Booleans are coils' states. -/
theorem coilStates_bool (i : Nat) (states : List Bool) :
    coilStates i (states.map Json.bool) = .ok states := by
  induction states generalizing i with
  | nil => rfl
  | cons on rest ih =>
    rw [List.map_cons, coilStates, coilState_bool, except_ok_bind, ih, except_ok_bind]
    rfl

/-- Words in their range pass. -/
theorem registerWords_ok (i : Nat) {ns : List Int} (hns : ∀ n ∈ ns, 0 ≤ n ∧ n ≤ 0xFFFF) :
    registerWords i ns = .ok ns := by
  induction ns generalizing i with
  | nil => rfl
  | cons n ns ih =>
    rw [registerWords, checkInt_int (hns n List.mem_cons_self), except_ok_bind,
      ih (i + 1) fun m hm => hns m (List.mem_cons_of_mem n hm), except_ok_bind]
    rfl

/-- The request that writes a coil. -/
theorem writeSingleCoilPdu_bool {a : Nat} (ha : a ≤ 0xFFFF) (on : Bool) :
    writeSingleCoilPdu (.int a) (.bool on) =
      .ok (writeSingleCoil :: (be16 a ++ be16 (if on then 0xFF00 else 0))) := by
  unfold writeSingleCoilPdu
  rw [checkInt_int ⟨by omega, by omega⟩, except_ok_bind, coilState_bool, except_ok_bind]
  rfl

/-- The request that writes a register. -/
theorem writeSingleRegisterPdu_int {a n : Nat} (ha : a ≤ 0xFFFF) (hn : n ≤ 0xFFFF) :
    writeSingleRegisterPdu (.int a) n = .ok (writeSingleRegister :: (be16 a ++ be16 n)) := by
  unfold writeSingleRegisterPdu
  rw [checkInt_int ⟨by omega, by omega⟩, except_ok_bind, checkInt_int ⟨by omega, by omega⟩,
    except_ok_bind]
  rfl

/-- The request that writes coils in a row. -/
theorem writeMultipleCoilsPdu_bool {a : Nat} {states : List Bool} (hne : states ≠ [])
    (hlen : states.length ≤ maxWriteCoils) (hspan : a + states.length ≤ 0x10000) :
    writeMultipleCoilsPdu (.int a) (states.map Json.bool) =
      .ok (writeMultipleCoils :: (be16 a ++ be16 states.length ++
        lowByte (packBits states).length :: packBits states)) := by
  have hpos : 1 ≤ states.length := List.length_pos_iff.2 hne
  unfold writeMultipleCoilsPdu
  rw [coilStates_bool, except_ok_bind, checkInt_int ⟨by omega, by omega⟩, except_ok_bind,
    checkSpan_int hspan (by omega), except_ok_bind]
  rfl

/-- A list that the builder refuses. -/
theorem writeMultipleCoilsPdu_bool_error {a : Nat} (ha : a ≤ 0xFFFF) {states : List Bool}
    (h : states = [] ∨ maxWriteCoils < states.length ∨ 0x10000 < a + states.length) :
    ∃ e, writeMultipleCoilsPdu (.int a) (states.map Json.bool) = .error (.user e) := by
  unfold writeMultipleCoilsPdu
  rw [coilStates_bool, except_ok_bind]
  by_cases hcount : (1 : Int) ≤ states.length ∧ (states.length : Int) ≤ maxWriteCoils
  · have hspan : ¬ a + states.length ≤ 0x10000 := by
      rcases h with rfl | h | h
      · exact absurd hcount.1 (by decide)
      · omega
      · omega
    obtain ⟨e, he⟩ := checkSpan_int_error hspan ha
    rw [checkInt_int hcount, except_ok_bind, he]
    exact ⟨e, rfl⟩
  · obtain ⟨e, he⟩ := checkInt_int_error "coil count" hcount
    rw [he]
    exact ⟨e, rfl⟩

/-- The request that writes registers in a row. -/
theorem writeMultipleRegistersPdu_int {a : Nat} {ns : List Int} (hne : ns ≠ [])
    (hlen : ns.length ≤ maxWriteRegisters) (hns : ∀ n ∈ ns, 0 ≤ n ∧ n ≤ 0xFFFF)
    (hspan : a + ns.length ≤ 0x10000) :
    writeMultipleRegistersPdu (.int a) ns =
      .ok (writeMultipleRegisters :: (be16 a ++ be16 ns.length ++
        lowByte (ns.flatMap be16).length :: ns.flatMap be16)) := by
  have hpos : 1 ≤ ns.length := List.length_pos_iff.2 hne
  unfold writeMultipleRegistersPdu
  rw [registerWords_ok 0 hns, except_ok_bind, checkInt_int ⟨by omega, by omega⟩, except_ok_bind,
    checkSpan_int hspan (by omega), except_ok_bind]
  rfl

/-- No request writes registers beyond the address space. -/
theorem writeMultipleRegistersPdu_int_error {a : Nat} {ns : List Int}
    (hns : ∀ n ∈ ns, 0 ≤ n ∧ n ≤ 0xFFFF) (ha : a ≤ 0xFFFF) (hspan : 0x10000 < a + ns.length) :
    ∃ e, writeMultipleRegistersPdu (.int a) ns = .error (.user e) := by
  unfold writeMultipleRegistersPdu
  rw [registerWords_ok 0 hns, except_ok_bind]
  by_cases hcount : (1 : Int) ≤ ns.length ∧ (ns.length : Int) ≤ maxWriteRegisters
  · obtain ⟨e, he⟩ := checkSpan_int_error (Nat.not_le.2 hspan) ha
    rw [checkInt_int hcount, except_ok_bind, he]
    exact ⟨e, rfl⟩
  · obtain ⟨e, he⟩ := checkInt_int_error "register count" hcount
    rw [he]
    exact ⟨e, rfl⟩

/-! ### The replies -/

/-- The reply to a single write is the request, that to a multiple write its first five
    bytes; both are accepted. -/
theorem checkWriteResponse_ok {function : UInt8} (hf : function ∈ writeFunctions) (b1 b2 b3 b4 : UInt8)
    (data : Bytes) (hsingle : function = writeSingleCoil ∨ function = writeSingleRegister → data = []) :
    checkWriteResponse [function, b1, b2, b3, b4] (function :: b1 :: b2 :: b3 :: b4 :: data) =
      .ok () := by
  have hreq : ¬ ((function :: b1 :: b2 :: b3 :: b4 :: data).length < 5 ∨
      function ∉ writeFunctions) := by
    rintro (h | h)
    · simp only [List.length_cons] at h
      omega
    · exact h hf
  -- no write function has the bit of an exception set
  have hexc : ¬ function = function ||| 0x80 := by
    have hall : ∀ f ∈ writeFunctions, ¬ f = f ||| 0x80 := by decide +kernel
    exact hall function hf
  -- the single writes are echoed whole, the others by their first five bytes
  have hexpected : (if function = writeSingleCoil ∨ function = writeSingleRegister then
      function :: b1 :: b2 :: b3 :: b4 :: data else [function, b1, b2, b3, b4]) =
        [function, b1, b2, b3, b4] := by
    split
    · next h => rw [hsingle h]
    · rfl
  unfold checkWriteResponse
  simp only
  rw [if_neg hreq, if_neg hexc, if_neg (not_not.2 rfl)]
  simp only [List.take_succ_cons, List.take_zero, hexpected]
  rw [if_neg (Nat.lt_irrefl _), if_neg (not_not.2 rfl)]

section
variable {a : Nat} (ha : a ≤ 0xFFFF) (m : Slave)
include ha

/-- The slave writes a coil and echoes the request. -/
theorem answer_writeSingleCoil (on : Bool) :
    m.answer (writeSingleCoil :: (be16 a ++ be16 (if on then 0xFF00 else 0))) =
      ({ m with coils := overwrite m.coils a 1 fun _ => on },
        writeSingleCoil :: (be16 a ++ be16 (if on then 0xFF00 else 0))) := by
  have haddr := word_be16 (n := a) (by omega)
  -- the two words of a coil's state are what the slave checks for
  have hstate : ∀ hi lo : UInt8, word hi lo = (if on then 0xFF00 else 0) →
      m.answer [5, lowByte ((a : Int) / 256), lowByte a, hi, lo] =
        ({ m with coils := overwrite m.coils a 1 fun _ => on },
          [5, lowByte ((a : Int) / 256), lowByte a, hi, lo]) := by
    intro hi lo h
    show Slave.checked 5 (decide (word hi lo = 0xFF00 ∨ word hi lo = 0))
      (word (lowByte ((a : Int) / 256)) (lowByte a)) 1 (m, ·)
      ({ m with coils := (overwrite m.coils (word (lowByte ((a : Int) / 256)) (lowByte a)) 1
          fun _ => decide (word hi lo = 0xFF00)) },
        [5, lowByte ((a : Int) / 256), lowByte a, hi, lo]) = _
    rw [haddr, h, Slave.checked, if_neg (by cases on <;> decide), if_neg (by omega)]
    cases on with
    | false => rfl
    | true => rfl
  cases on with
  | false => exact hstate 0 0 (by decide)
  | true => exact hstate 0xFF 0 (by decide)

/-- The slave writes a register and echoes the request. -/
theorem answer_writeSingleRegister {n : Nat} (hn : n ≤ 0xFFFF) :
    m.answer (writeSingleRegister :: (be16 a ++ be16 n)) =
      ({ m with holding := overwrite m.holding a 1 fun _ => UInt16.ofNat n },
        writeSingleRegister :: (be16 a ++ be16 n)) := by
  have haddr := word_be16 (n := a) (by omega)
  have hword := word_be16 (n := n) (by omega)
  show ({ m with holding := (overwrite m.holding (word (lowByte ((a : Int) / 256)) (lowByte a)) 1
    fun _ => UInt16.ofNat (word (lowByte ((n : Int) / 256)) (lowByte n))) }, _) = _
  rw [haddr, hword]

/-- The slave writes coils in a row. -/
theorem answer_writeMultipleCoils {states : List Bool} (hne : states ≠ [])
    (hlen : states.length ≤ maxWriteCoils) (hspan : a + states.length ≤ 0x10000) :
    m.answer (writeMultipleCoils :: (be16 a ++ be16 states.length ++
        lowByte (packBits states).length :: packBits states)) =
      ({ m with coils := overwrite m.coils a states.length fun i => states.getD i false },
        writeMultipleCoils :: (be16 a ++ be16 states.length)) := by
  have hpos : 1 ≤ states.length := List.length_pos_iff.2 hne
  have hmax : states.length ≤ 1968 := hlen
  have haddr := word_be16 (n := a) (by omega)
  have hcount := word_be16 (n := states.length) (by omega)
  have hbits : bitAt (packBits states) = fun i => states.getD i false :=
    funext (bitAt_packBits states)
  have hbytes : lowByte (packBits states).length = UInt8.ofNat ((states.length + 7) / 8) := by
    apply UInt8.toNat_inj.1
    have h := lowByte_toNat (packBits states).length
    rw [packBits_length] at h ⊢
    rw [UInt8.toNat_ofNat']
    omega
  -- the parser sees four bytes and reads two words from them
  generalize hq1 : lowByte ((states.length : Int) / 256) = q1 at hcount
  generalize hq0 : lowByte (states.length : Int) = q0 at hcount
  generalize ha1 : lowByte ((a : Int) / 256) = a1 at haddr
  generalize ha0 : lowByte (a : Int) = a0 at haddr
  simp only [be16, hq1, hq0, ha1, ha0, List.cons_append, List.nil_append]
  show Slave.checked 15 (decide (1 ≤ word q1 q0 ∧ word q1 q0 ≤ 1968 ∧
      some (lowByte (packBits states).length) = some (UInt8.ofNat ((word q1 q0 + 7) / 8)) ∧
        (packBits states).length + 1 = 1 + (word q1 q0 + 7) / 8)) (word a1 a0) (word q1 q0) (m, ·)
      ({ m with coils := overwrite m.coils (word a1 a0) (word q1 q0) (bitAt (packBits states)) },
        [15, a1, a0, q1, q0]) = _
  rw [haddr, hcount, hbits, hbytes, packBits_length, Slave.checked, if_neg, if_neg (by omega)]
  · rfl
  · rw [decide_eq_true_eq, not_not]
    exact ⟨hpos, hmax, rfl, by omega⟩

/-- The slave writes registers in a row. -/
theorem answer_writeMultipleRegisters {ns : List Int} (hne : ns ≠ [])
    (hlen : ns.length ≤ maxWriteRegisters) (hspan : a + ns.length ≤ 0x10000) :
    m.answer (writeMultipleRegisters :: (be16 a ++ be16 ns.length ++
        lowByte (ns.flatMap be16).length :: ns.flatMap be16)) =
      ({ m with holding := overwrite m.holding a ns.length (wordAt (ns.flatMap be16)) },
        writeMultipleRegisters :: (be16 a ++ be16 ns.length)) := by
  have hpos : 1 ≤ ns.length := List.length_pos_iff.2 hne
  have hmax : ns.length ≤ 123 := hlen
  have haddr := word_be16 (n := a) (by omega)
  have hcount := word_be16 (n := ns.length) (by omega)
  have hbytes : lowByte (ns.flatMap be16).length = UInt8.ofNat (2 * ns.length) := by
    apply UInt8.toNat_inj.1
    have h := lowByte_toNat (ns.flatMap be16).length
    rw [flatMap_be16_length] at h ⊢
    rw [UInt8.toNat_ofNat']
    omega
  -- the byte count of the request is a byte, as 123 registers are 246 bytes
  have hdata := flatMap_be16_length ns
  generalize ns.flatMap be16 = data at hbytes hdata ⊢
  generalize hq1 : lowByte ((ns.length : Int) / 256) = q1 at hcount
  generalize hq0 : lowByte (ns.length : Int) = q0 at hcount
  generalize ha1 : lowByte ((a : Int) / 256) = a1 at haddr
  generalize ha0 : lowByte (a : Int) = a0 at haddr
  simp only [be16, hq1, hq0, ha1, ha0, List.cons_append, List.nil_append]
  -- the slave's own test, spelled with the parsed words in place of the bytes
  show Slave.checked 16 (decide (1 ≤ word q1 q0 ∧ word q1 q0 ≤ 123 ∧
      some (lowByte data.length) = some (UInt8.ofNat (2 * word q1 q0)) ∧
        data.length + 1 = 1 + 2 * word q1 q0)) (word a1 a0) (word q1 q0) (m, ·)
      ({ m with holding := overwrite m.holding (word a1 a0) (word q1 q0) (wordAt data) },
        [16, a1, a0, q1, q0]) = _
  rw [haddr, hcount, hbytes, hdata, Slave.checked, if_neg, if_neg (by omega)]
  · rfl
  · rw [decide_eq_true_eq, not_not]
    exact ⟨hpos, hmax, rfl, by omega⟩

/-! ### Reading back -/

/-- The slave reads a coil. -/
theorem answer_readCoil :
    m.answer (1 :: (be16 a ++ be16 1)) = (m, [1, 1, if m.coils a then 1 else 0]) := by
  have haddr := word_be16 (n := a) (by omega)
  show (m, Slave.readBits 1 m.coils (word (lowByte ((a : Int) / 256)) (lowByte a)) 1) = _
  have hbyte : ∀ on : Bool, stateBytes [on] = [if on then 1 else 0] := by decide
  have hstates : ((List.range 1).map fun i => m.coils (a + i)) = [m.coils a] := rfl
  rw [haddr, Slave.readBits, Slave.checked, if_neg (by decide), if_neg (by omega), hstates, hbyte]
  rfl

/-- The slave reads registers in a row. -/
theorem answer_readHolding {count : Nat} (hpos : 1 ≤ count) (hmax : count ≤ 125)
    (hspan : a + count ≤ 0x10000) :
    m.answer (3 :: (be16 a ++ be16 count)) =
      (m, 3 :: UInt8.ofNat (2 * count) ::
        (List.range count).flatMap fun i => be16 (m.holding (a + i)).toNat) := by
  have haddr := word_be16 (n := a) (by omega)
  have hcount := word_be16 (n := count) (by omega)
  show (m, Slave.readRegisters 3 m.holding (word (lowByte ((a : Int) / 256)) (lowByte a))
    (word (lowByte ((count : Int) / 256)) (lowByte count))) = _
  rw [haddr, hcount, Slave.readRegisters, Slave.checked, if_neg (by simpa using ⟨hpos, hmax⟩),
    if_neg (by omega)]

end

end Ser2Net.Engine.Modbus
