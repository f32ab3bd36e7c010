import Ser2Net.Engine.ModbusPoint

namespace Ser2Net.Engine.Modbus

open Ser2Net.Lib Ser2Net.Config

/-!
# Engine — writing the points of a Modbus gateway

A write through `write_point` meets a slave after the Modbus specification: which values the
request builder refuses, what the slave's tables hold afterwards, and what reading the point
then gives.

* `WritesInt`, `WritesCoils` — a value is refused, or it is stored, acknowledged and read back;
* `encodeValue_int`, `unpack_intWords` — the words of an integer and back;
* `write_point_iff` — exactly when a valid point is written so.
-/

/-! ### What a write is to do -/

/-- The number that `k` registers from `a` on hold, high word first. -/
def registersValue (table : Nat → UInt16) (a k : Nat) : Nat :=
  (List.range k).foldl (fun v i => v * 65536 + (table (a + i)).toNat) 0

/-- The slave acknowledges the request, and reading the point then gives `value`. -/
def ReadsBack (p : ModbusPoint) (m : Slave) (pdu : Bytes) (value : Json) : Prop :=
  checkWriteResponse (m.answer pdu).2 pdu = .ok () ∧
    ∃ req, readRequest p = .ok req ∧ pointValue p ((m.answer pdu).1.answer req).2 = .ok value

/-- The registers `a .. a + k - 1` hold `n` in two's complement, and all else is as before. -/
structure RegistersHold (m m' : Slave) (a k : Nat) (n : Int) : Prop where
  span : (registersValue m'.holding a k : Int) = n % 2 ^ (16 * k)
  others : ∀ x, ¬ (a ≤ x ∧ x < a + k) → m'.holding x = m.holding x
  coils : m'.coils = m.coils
  discreteInputs : m'.discreteInputs = m.discreteInputs
  input : m'.input = m.input

/-- The coils from `a` on have the states, and all else is as before. -/
structure CoilsHold (m m' : Slave) (a : Nat) (states : List Bool) : Prop where
  span : ∀ i (hi : i < states.length), m'.coils (a + i) = states.get ⟨i, hi⟩
  others : ∀ x, ¬ (a ≤ x ∧ x < a + states.length) → m'.coils x = m.coils x
  holding : m'.holding = m.holding
  discreteInputs : m'.discreteInputs = m.discreteInputs
  input : m'.input = m.input

/-- Building the request raises `ValueError`. -/
def Refuses (p : ModbusPoint) (value : Json) : Prop :=
  ∃ e, writePdu p value = .error e ∧ e.isValueError = true

/-- The integer does not fit the type, or its registers run past address 65535. -/
def IntUnfit (t : Dtype) (a : Nat) (n : Int) : Prop :=
  ¬ (t.range.1 ≤ n ∧ n ≤ t.range.2) ∨ 65535 < a + t.registers - 1

/-- An integer is refused just when it is unfit, and otherwise stored and read back. -/
def WritesInt (p : ModbusPoint) (t : Dtype) (a : Nat) (n : Int) : Prop :=
  (Refuses p (.int n) ↔ IntUnfit t a n) ∧
    (¬ IntUnfit t a n → ∃ pdu, writePdu p (.int n) = .ok pdu ∧
      ∀ m : Slave, RegistersHold m (m.answer pdu).1 a t.registers n ∧ ReadsBack p m pdu (.int n))

/-- What is written to coils: one state, or a list of them for consecutive coils. -/
inductive CoilValue
  | one (on : Bool)
  | list (states : List Bool)

/-- The value as `write_point` gets it. -/
def CoilValue.json : CoilValue → Json
  | one on => .bool on
  | list states => .arr (states.map Json.bool)

/-- The states of the coils it is for. -/
def CoilValue.states : CoilValue → List Bool
  | one on => [on]
  | list states => states

/-- No states, too many of them, or coils past address 65535. -/
def CoilsUnfit (a : Nat) (v : CoilValue) : Prop :=
  v.states = [] ∨ 1968 < v.states.length ∨ 65535 < a + v.states.length - 1

/-- Coil states are refused just when they are unfit, and otherwise stored, the first one being
    read back. -/
def WritesCoils (p : ModbusPoint) (a : Nat) (v : CoilValue) : Prop :=
  (Refuses p v.json ↔ CoilsUnfit a v) ∧
    (¬ CoilsUnfit a v → ∃ pdu, writePdu p v.json = .ok pdu ∧
      ∀ m : Slave, CoilsHold m (m.answer pdu).1 a v.states ∧
        ReadsBack p m pdu (.bool (v.states.headD false)))

/-! ### Words of integers -/

theorem unpackBE_foldl (acc : Nat) (bs : Bytes) :
    bs.foldl (fun n b => n * 256 + b.toNat) acc = acc * 256 ^ bs.length + unpackBE bs := by
  unfold unpackBE
  induction bs generalizing acc with
  | nil => simp
  | cons b bs ih =>
    rw [List.foldl_cons, List.foldl_cons, ih, ih (0 * 256 + b.toNat), List.length_cons, pow_succ]
    ring

/-- The registers of a reply read as one number. -/
theorem unpackBE_registers (table : Nat → UInt16) (a k : Nat) :
    unpackBE ((List.range k).flatMap fun i => be16 (table (a + i)).toNat) =
      registersValue table a k := by
  unfold registersValue
  induction k with
  | zero => rfl
  | succ k ih =>
    rw [List.range_succ, List.flatMap_append, List.foldl_append, ← ih]
    unfold unpackBE at ih ⊢
    rw [List.foldl_append, unpackBE_foldl]
    show _ * 256 ^ 2 + unpackBE (be16 (table (a + k)).toNat) = _
    have hx : (table (a + k)).toNat < 65536 := (table (a + k)).toNat_lt
    have hhi := lowByte_toNat (((table (a + k)).toNat : Int) / 256)
    have hlo := lowByte_toNat ((table (a + k)).toNat : Int)
    have hbytes : unpackBE (be16 (table (a + k)).toNat) = (table (a + k)).toNat := by
      show (0 * 256 + (lowByte (((table (a + k)).toNat : Int) / 256)).toNat) * 256 +
        (lowByte ((table (a + k)).toNat : Int)).toNat = _
      omega
    rw [hbytes]
    rfl

/-- An integer of the type comes back from its bits. -/
theorem unpack_of_range {t : Dtype} (ht : t ≠ .float32) {n : Int}
    (hn : t.range.1 ≤ n ∧ n ≤ t.range.2) {v : Nat} (hv : (v : Int) = n % 2 ^ (16 * t.registers)) :
    t.unpack v = .int n := by
  cases t with
  | uint16 =>
    simp only [Dtype.range, Dtype.registers] at hn hv
    show Json.int v = .int n
    congr 1
    omega
  | int16 =>
    simp only [Dtype.range, Dtype.registers] at hn hv
    show Json.int (signed 16 v) = .int n
    -- a two's complement word is read back with its sign
    unfold signed
    congr 1
    split <;> omega
  | uint32 =>
    simp only [Dtype.range, Dtype.registers] at hn hv
    show Json.int v = .int n
    congr 1
    omega
  | int32 =>
    simp only [Dtype.range, Dtype.registers] at hn hv
    show Json.int (signed 32 v) = .int n
    unfold signed
    congr 1
    split <;> omega
  | float32 => exact absurd rfl ht

theorem scales_orElse {scale : Json} (h : scales scale = false) :
    scales (orElse scale (.float (.ofIntExact 1))) = false := by
  unfold orElse
  split
  · exact h
  · decide +kernel

/-- What an unscaled integer is encoded as. -/
theorem encodeValue_int {t : Dtype} (ht : t ≠ .float32) {scale : Json} (hscale : scales scale = false)
    (n : Int) :
    encodeValue (.int n) (.str t.name) scale =
      if t.range.1 ≤ n ∧ n ≤ t.range.2 then .ok (intWords t.registers n)
      else valueError (.rawOutOfRange (.int n) n (.str t.name) t.range.1 t.range.2) := by
  unfold encodeValue
  rw [dtypeOf_name, except_ok_bind]
  simp only [except_pure, except_ok_bind, not_true_eq_false, if_false, hscale, Bool.false_eq_true,
    if_neg ht]

theorem intWords_range {k : Nat} (n : Int) : ∀ w ∈ intWords k n, 0 ≤ w ∧ w ≤ 0xFFFF := by
  intro w hw
  unfold intWords at hw
  split at hw
  · rw [List.mem_singleton.1 hw]
    omega
  · rcases List.mem_cons.1 hw with rfl | hw
    · omega
    · rw [List.mem_singleton.1 hw]
      omega

/-! ### The tables after a write -/

theorem overwrite_span {α : Type} (table new : Nat → α) {a k i : Nat} (hi : i < k) :
    overwrite table a k new (a + i) = new i := by
  unfold overwrite
  rw [if_pos ⟨by omega, by omega⟩, Nat.add_sub_cancel_left]

theorem overwrite_others {α : Type} (table new : Nat → α) {a k x : Nat}
    (hx : ¬ (a ≤ x ∧ x < a + k)) : overwrite table a k new x = table x := if_neg hx

/-- One register written. -/
theorem registersHold_one (m : Slave) (a : Nat) (n : Int) :
    RegistersHold m { m with holding := overwrite m.holding a 1 fun _ => UInt16.ofNat (n % 65536).toNat }
      a 1 n := by
  refine ⟨?_, fun x hx => overwrite_others m.holding (fun _ => _) hx, rfl, rfl, rfl⟩
  show ((0 * 65536 + (overwrite m.holding a 1 (fun _ => UInt16.ofNat (n % 65536).toNat)
    (a + 0)).toNat : Nat) : Int) = n % 65536
  rw [overwrite_span m.holding _ Nat.zero_lt_one, UInt16.toNat_ofNat']
  omega

/-- Two registers written, high word first. -/
theorem registersHold_two (m : Slave) (a : Nat) (n : Int) :
    RegistersHold m { m with holding := overwrite m.holding a 2 (wordAt ((intWords 2 n).flatMap be16)) }
      a 2 n := by
  refine ⟨?_, fun x hx => overwrite_others _ _ hx, rfl, rfl, rfl⟩
  show (((0 * 65536 + (overwrite m.holding a 2 (wordAt ((intWords 2 n).flatMap be16)) (a + 0)).toNat) *
    65536 + (overwrite m.holding a 2 (wordAt ((intWords 2 n).flatMap be16)) (a + 1)).toNat : Nat) :
      Int) = n % 4294967296
  rw [overwrite_span m.holding _ (by decide : 0 < 2), overwrite_span m.holding _ (by decide : 1 < 2)]
  have hhi : ((wordAt ((intWords 2 n).flatMap be16) 0).toNat : Int) = n / 65536 % 65536 :=
    wordAt_flatMap_be16 (intWords_range n) (by decide : 0 < 2)
  have hlo : ((wordAt ((intWords 2 n).flatMap be16) 1).toNat : Int) = n % 65536 :=
    wordAt_flatMap_be16 (intWords_range n) (by decide : 1 < 2)
  omega

theorem coilsHold_overwrite (m : Slave) (a : Nat) (states : List Bool) :
    CoilsHold m { m with coils := overwrite m.coils a states.length fun i => states.getD i false }
      a states := by
  refine ⟨fun i hi => ?_, fun x hx => overwrite_others m.coils (fun i => states.getD i false) hx, rfl,
    rfl, rfl⟩
  show overwrite m.coils a states.length (fun i => states.getD i false) (a + i) = _
  rw [overwrite_span m.coils _ hi, List.getD_eq_getElem?_getD, List.getElem?_eq_getElem hi]
  rfl

/-! ### Reading back -/

/-- The data of a reply to a read request. -/
theorem responseData_ok {fn : Json} {f : Int} (hf : fn.int? = some f) (hcode : 1 ≤ f ∧ f ≤ 4)
    {data : Bytes} (hlen : data.length < 256) :
    responseData (lowByte f :: UInt8.ofNat data.length :: data) fn = .ok data := by
  have hlow := lowByte_toNat f
  have hfn : fn.eqInt (lowByte f).toNat = true := by
    rw [Json.eqInt_of_int? hf]
    omega
  have hexc : ¬ lowByte f = lowByte f ||| 0x80 := by
    intro h
    -- the exception bit would have to be set in a code below it
    have hbit := congrArg (fun b : UInt8 => b.toNat.testBit 7) h
    simp only [UInt8.toNat_or, Nat.testBit_or] at hbit
    have hsmall : (lowByte f).toNat.testBit 7 = false := Nat.testBit_lt_two_pow (by omega)
    rw [hsmall] at hbit
    exact absurd hbit (by decide)
  have hcount : (UInt8.ofNat data.length).toNat = data.length := by
    rw [UInt8.toNat_ofNat', Nat.mod_eq_of_lt hlen]
  unfold responseData Json.bitOperand
  rw [hf]
  simp only [except_ok_bind]
  rw [if_neg hexc, if_neg (not_not.2 hfn), hcount, List.take_length, if_neg (not_not.2 rfl)]
  rfl

section
variable {p : ModbusPoint} (hp : PointValid p) {a : Nat} (haddr : p.address = .int a)
include hp haddr

/-- A coil read with the point's own request. -/
theorem read_coil (hfn : p.fn.int? = some 1) (m : Slave) :
    ∃ req, readRequest p = .ok req ∧ pointValue p (m.answer req).2 = .ok (.bool (m.coils a)) := by
  have hbits : p.fn.inInts [readCoils, readDiscreteInputs] = true :=
    (Json.inInts_of_int? hfn).2 List.mem_cons_self
  have hint : p.address.int? = some (a : Int) := by rw [haddr]; rfl
  obtain ⟨hlo, hhi⟩ := (Json.inRange_of_int? hint).1 hp.address
  have hcount : pointCount p = 1 := (pointCount_le hp).2.2 hbits
  refine ⟨_, (readRequest_eq_ok hp).2 ⟨1, a, hfn, hint, by decide, by decide, hlo, hhi,
    fun _ => by rw [haddr]; rfl, rfl⟩, ?_⟩
  rw [hcount]
  show pointValue p (m.answer (1 :: (be16 a ++ be16 1))).2 = _
  rw [answer_readCoil (by omega) m]
  have hlen : [if m.coils a then (1 : UInt8) else 0].length < 256 := by
    rw [List.length_singleton]
    decide
  have hdata := responseData_ok hfn (by decide) hlen
  unfold pointValue
  rw [if_pos hbits]
  show (responseData (lowByte 1 :: UInt8.ofNat 1 :: [if m.coils a then 1 else 0]) p.fn >>= fun data =>
    decodeBits data 1 >>= fun bits => pure (Json.bool (bits.headD false))) = _
  rw [List.length_singleton] at hdata
  rw [hdata]
  -- one coil is one bit of the answer's byte
  cases m.coils a with
  | false => rfl
  | true => rfl

/-- Registers read with the point's own request. -/
theorem read_registers (hfn : p.fn.int? = some 3) {t : Dtype} (ht : t ≠ .float32)
    (hdtype : p.dtype = .str t.name) (hscale : scales p.scale = false) {n : Int}
    (hn : t.range.1 ≤ n ∧ n ≤ t.range.2) (hend : a + t.registers ≤ 0x10000) {m : Slave}
    (hm : (registersValue m.holding a t.registers : Int) = n % 2 ^ (16 * t.registers)) :
    ∃ req, readRequest p = .ok req ∧ pointValue p (m.answer req).2 = .ok (.int n) := by
  have hbits : ¬ p.fn.inInts [readCoils, readDiscreteInputs] = true := by
    rw [Json.inInts_of_int? hfn]
    decide
  have hint : p.address.int? = some (a : Int) := by rw [haddr]; rfl
  obtain ⟨hlo, hhi⟩ := (Json.inRange_of_int? hint).1 hp.address
  have hregs : 1 ≤ t.registers ∧ t.registers ≤ 2 := by cases t <;> decide
  have hcount : pointCount p = t.registers := by
    unfold pointCount
    rw [if_neg hbits, hdtype, dtypeOf_name]
  refine ⟨_, (readRequest_eq_ok hp).2 ⟨3, a, hfn, hint, by decide, by decide, hlo, hhi,
    fun h => absurd h hbits, rfl⟩, ?_⟩
  rw [hcount]
  show pointValue p (m.answer (3 :: (be16 a ++ be16 t.registers))).2 = _
  rw [answer_readHolding (by omega) m hregs.1 (by omega) hend]
  -- the data are the registers, two bytes each
  have hvalue := unpackBE_registers m.holding a t.registers
  have hlen : ((List.range t.registers).flatMap fun i => be16 (m.holding (a + i)).toNat).length =
      2 * t.registers := by
    have hflat := flatMap_be16_length ((List.range t.registers).map fun i =>
      ((m.holding (a + i)).toNat : Int))
    rw [List.flatMap_map, List.length_map, List.length_range] at hflat
    exact hflat
  generalize ((List.range t.registers).flatMap fun i => be16 (m.holding (a + i)).toNat) = data
    at hvalue hlen ⊢
  have hdata : responseData (3 :: UInt8.ofNat (2 * t.registers) :: data) p.fn = .ok data := by
    rw [← hlen]
    exact responseData_ok hfn (by decide) (by omega)
  unfold pointValue
  rw [if_neg hbits, hdata, except_ok_bind]
  unfold decodeValue
  rw [hdtype, dtypeOf_name, except_ok_bind]
  simp only [hscale, Bool.false_eq_true, if_false]
  rw [Nat.mul_comm, ← hlen, List.take_length, if_neg (Nat.lt_irrefl _), hvalue,
    unpack_of_range ht hn hm]
  rfl

end

/-! ### Writing points -/

section
variable {p : ModbusPoint} (hp : PointValid p) {a : Nat} (haddr : p.address = .int a)
include hp haddr

theorem address_le : a ≤ 0xFFFF := by
  have hint : p.address.int? = some (a : Int) := by rw [haddr]; rfl
  have := (Json.inRange_of_int? hint).1 hp.address
  omega

variable (hw : p.writable.truthy = true)
include hw

/-- The request for an integer, or its refusal. -/
theorem writePdu_int (hfn : p.fn.inInts [1, 2] = false) {t : Dtype} (ht : t ≠ .float32)
    (hdtype : p.dtype = .str t.name) (hscale : scales p.scale = false) (n : Int) :
    (IntUnfit t a n → ∃ e, writePdu p (.int n) = .error (.user e)) ∧
      (¬ IntUnfit t a n → ∃ pdu, writePdu p (.int n) = .ok pdu ∧ ∀ m : Slave,
        RegistersHold m (m.answer pdu).1 a t.registers n ∧
          checkWriteResponse (m.answer pdu).2 pdu = .ok ()) := by
  have ha := address_le hp haddr
  have hcoil : ¬ p.fn.eqInt readCoils = true := by
    intro h
    have hin : p.fn.inInts [1, 2] = true := List.any_eq_true.2 ⟨1, List.mem_cons_self, h⟩
    rw [hfn] at hin
    cases hin
  -- the words of an integer that fits, and the builder that takes them
  have hpdu : writePdu p (.int n) =
      if t.range.1 ≤ n ∧ n ≤ t.range.2 then
        if t.registers = 1 then writeSingleRegisterPdu (.int a) ((n % 65536).toNat : Int)
        else writeMultipleRegistersPdu (.int a) (intWords 2 n)
      else valueError (.rawOutOfRange (.int n) n (.str t.name) t.range.1 t.range.2) := by
    unfold writePdu
    rw [if_neg (not_not.2 hw), if_neg hcoil, hdtype, haddr, encodeValue_int ht (scales_orElse hscale)]
    split
    · have hword : ((n % 65536).toNat : Int) = n % 65536 := by omega
      rw [hword]
      cases t with
      | uint16 => rfl
      | int16 => rfl
      | uint32 => rfl
      | int32 => rfl
      | float32 => exact absurd rfl ht
    · rfl
  have hregs : t.registers = 1 ∨ t.registers = 2 := by cases t <;> decide
  unfold IntUnfit
  rw [hpdu]
  by_cases hn : t.range.1 ≤ n ∧ n ≤ t.range.2
  · rw [if_pos hn]
    rcases hregs with hr | hr
    · rw [if_pos hr, hr, writeSingleRegisterPdu_int ha (by omega)]
      refine ⟨?_, fun _ => ⟨_, rfl, fun m => ?_⟩⟩
      · rintro (h | h)
        · exact absurd hn h
        · omega
      · rw [answer_writeSingleRegister ha m (by omega)]
        exact ⟨registersHold_one m a n, checkWriteResponse_ok (by decide) _ _ _ _ [] fun _ => rfl⟩
    · rw [if_neg (by omega), hr]
      have hrange := intWords_range (k := 2) n
      constructor
      · rintro (h | h)
        · exact absurd hn h
        · have hspan : 0x10000 < a + (intWords 2 n).length := by
            show 0x10000 < a + 2
            omega
          exact writeMultipleRegistersPdu_int_error hrange ha hspan
      · intro h
        have hspan : a + (intWords 2 n).length ≤ 0x10000 := by
          show a + 2 ≤ 0x10000
          omega
        have hne : intWords 2 n ≠ [] := List.cons_ne_nil _ _
        have hlen : (intWords 2 n).length ≤ maxWriteRegisters := by
          show 2 ≤ 123
          decide
        refine ⟨_, writeMultipleRegistersPdu_int hne hlen hrange hspan, fun m => ?_⟩
        rw [answer_writeMultipleRegisters ha m hne hlen hspan]
        exact ⟨registersHold_two m a n, checkWriteResponse_ok (by decide) _ _ _ _ _ (by
          rintro (h | h)
          · exact absurd h (by decide)
          · exact absurd h (by decide))⟩
  · rw [if_neg hn]
    exact ⟨fun _ => ⟨_, rfl⟩, fun h => absurd (Or.inl hn) h⟩

/-- The request for coil states, or its refusal. -/
theorem writePdu_coils (hfn : p.fn.eqInt readCoils = true) (v : CoilValue) :
    (CoilsUnfit a v → ∃ e, writePdu p v.json = .error (.user e)) ∧
      (¬ CoilsUnfit a v → ∃ pdu, writePdu p v.json = .ok pdu ∧ ∀ m : Slave,
        CoilsHold m (m.answer pdu).1 a v.states ∧
          checkWriteResponse (m.answer pdu).2 pdu = .ok ()) := by
  have ha := address_le hp haddr
  unfold writePdu CoilsUnfit
  rw [if_neg (not_not.2 hw), if_pos hfn, haddr]
  cases v with
  -- a single state is no list: only its address could be unfit, and is not
  | one on =>
    show (([on] = [] ∨ 1968 < 1 ∨ 65535 < a + 1 - 1) → _) ∧ _
    refine ⟨?_, fun _ => ?_⟩
    · rintro (h | h | h)
      · cases h
      · omega
      · omega
    · refine ⟨_, writeSingleCoilPdu_bool ha on, fun m => ?_⟩
      rw [answer_writeSingleCoil ha m on]
      refine ⟨⟨fun i hi => ?_, fun x hx => overwrite_others m.coils (fun _ => on) hx, rfl, rfl, rfl⟩,
        checkWriteResponse_ok (by decide) _ _ _ _ [] fun _ => rfl⟩
      obtain rfl : i = 0 := Nat.lt_one_iff.1 hi
      exact overwrite_span m.coils (fun _ => on) Nat.zero_lt_one
  | list states =>
    -- the three refusals of `write_multiple_coils_pdu`: empty, too many, past the end
    show ((states = [] ∨ 1968 < states.length ∨ 65535 < a + states.length - 1) →
      ∃ e, writeMultipleCoilsPdu (.int a) (states.map Json.bool) = .error (.user e)) ∧
        (¬ (states = [] ∨ 1968 < states.length ∨ 65535 < a + states.length - 1) →
          ∃ pdu, writeMultipleCoilsPdu (.int a) (states.map Json.bool) = .ok pdu ∧ _)
    constructor
    · intro h
      apply writeMultipleCoilsPdu_bool_error ha
      rcases h with h | h | h
      · exact Or.inl h
      · exact Or.inr (Or.inl h)
      · exact Or.inr (Or.inr (by omega))
    · intro h
      have hne : states ≠ [] := fun hs => h (Or.inl hs)
      have hlen : states.length ≤ maxWriteCoils := Nat.le_of_not_lt fun hl => h (Or.inr (Or.inl hl))
      have hspan : a + states.length ≤ 0x10000 := by
        have hend : ¬ 65535 < a + states.length - 1 := fun hl => h (Or.inr (Or.inr hl))
        omega
      refine ⟨_, writeMultipleCoilsPdu_bool hne hlen hspan, fun m => ?_⟩
      rw [answer_writeMultipleCoils ha m hne hlen hspan]
      exact ⟨coilsHold_overwrite m a states, checkWriteResponse_ok (by decide) _ _ _ _ _ (by
        rintro (h | h)
        · exact absurd h (by decide)
        · exact absurd h (by decide))⟩

end

/-- A request that reads the point is built only when its function code is no float. -/
theorem int?_of_readsBack {p : ModbusPoint} (hp : PointValid p) {m : Slave} {pdu : Bytes}
    {value : Json} (h : ReadsBack p m pdu value) : p.fn.int?.isSome = true := by
  obtain ⟨-, req, hreq, -⟩ := h
  obtain ⟨f, a, hf, -⟩ := (readRequest_eq_ok hp).1 hreq
  rw [hf]
  rfl

/-- A slave with empty tables. -/
def Slave.empty : Slave := ⟨fun _ => false, fun _ => false, fun _ => 0, fun _ => 0⟩

/-- A write that is refused just when it is unfit, and otherwise stored and acknowledged, is one
    that is also read back just when the function code is no float. -/
theorem written_iff {p : ModbusPoint} (hp : PointValid p) {value back : Json} {Unfit : Prop}
    (Hold : Slave → Slave → Prop)
    (hrefused : Unfit → ∃ e, writePdu p value = .error (.user e))
    (hwritten : ¬ Unfit → ∃ pdu, writePdu p value = .ok pdu ∧ ∀ m : Slave,
      Hold m (m.answer pdu).1 ∧ checkWriteResponse (m.answer pdu).2 pdu = .ok ())
    (hread : ¬ Unfit → p.fn.int?.isSome = true → ∀ m m' : Slave, Hold m m' →
      ∃ req, readRequest p = .ok req ∧ pointValue p (m'.answer req).2 = .ok back) :
    ((Refuses p value ↔ Unfit) ∧ (¬ Unfit → ∃ pdu, writePdu p value = .ok pdu ∧
      ∀ m : Slave, Hold m (m.answer pdu).1 ∧ ReadsBack p m pdu back)) ↔
        (p.fn.int?.isSome = true ∨ Unfit) := by
  have hrefuses : Refuses p value ↔ Unfit := by
    constructor
    · rintro ⟨e, he, -⟩
      by_contra hfit
      obtain ⟨pdu, hpdu, -⟩ := hwritten hfit
      rw [hpdu] at he
      cases he
    · intro h
      obtain ⟨e, he⟩ := hrefused h
      exact ⟨_, he, rfl⟩
  constructor
  -- for a fit value, reading back from any slave at all shows the function code
  · rintro ⟨-, h⟩
    by_cases hfit : Unfit
    · exact Or.inr hfit
    · obtain ⟨pdu, -, hall⟩ := h hfit
      exact Or.inl (int?_of_readsBack hp (hall .empty).2)
  · intro h
    refine ⟨hrefuses, fun hfit => ?_⟩
    obtain ⟨pdu, hpdu, hall⟩ := hwritten hfit
    refine ⟨pdu, hpdu, fun m => ?_⟩
    obtain ⟨hhold, hreply⟩ := hall m
    exact ⟨hhold, hreply, hread hfit (h.resolve_right hfit) m _ hhold⟩

/-- **Writing valid points.**  A writable point that the validator accepts, with an integer
    address: an integer for an unscaled holding register, or coil states, are refused just when
    they are out of range, too many or past the end, and otherwise stored exactly, acknowledged
    and read back; except that a point whose function code is a float cannot be read. -/
theorem write_point_iff (q : ModbusPoll) (hq : q.validate = .ok ()) (p : ModbusPoint)
    (hmem : p ∈ q.points) (hw : p.writable.truthy = true) (a : Nat) (haddr : p.address = .int a) :
    (∀ (t : Dtype) (n : Int), t ≠ .float32 → p.dtype = .str t.name → scales p.scale = false →
      (WritesInt p t a n ↔ p.fn.int?.isSome = true ∨ IntUnfit t a n)) ∧
    (p.fn.eqInt readCoils = true → ∀ v : CoilValue,
      (WritesCoils p a v ↔ p.fn.int?.isSome = true ∨ CoilsUnfit a v)) := by
  have hp : PointValid p := pointValid_of_validated ⟨q, hq, hmem⟩
  refine ⟨fun t n ht hdtype hscale => ?_, fun hfn v => ?_⟩
  · have hfn : p.fn.inInts [1, 2] = false := by
      rw [hp.bits, hdtype]
      cases t <;> decide
    obtain ⟨hrefused, hwritten⟩ := writePdu_int hp haddr hw hfn ht hdtype hscale n
    refine written_iff hp (fun m m' => RegistersHold m m' a t.registers n) hrefused hwritten
      fun hfit hsome m m' hhold => ?_
    obtain ⟨f, hf⟩ := Option.isSome_iff_exists.1 hsome
    -- writable and no coil: a holding register
    have hf3 : p.fn.int? = some 3 := by
      have hcode := (Json.inInts_of_int? hf).1 (hp.writable hw)
      rcases List.mem_cons.1 hcode with rfl | hcode
      · have hin : p.fn.inInts [1, 2] = true := (Json.inInts_of_int? hf).2 List.mem_cons_self
        rw [hfn] at hin
        cases hin
      · rw [hf, List.mem_singleton.1 hcode]
    obtain ⟨hn, hend⟩ := not_or.1 hfit
    have hregs : 1 ≤ t.registers := by cases t <;> decide
    exact read_registers hp haddr hf3 ht hdtype hscale (not_not.1 hn) (by omega) hhold.span
  · obtain ⟨hrefused, hwritten⟩ := writePdu_coils hp haddr hw hfn v
    refine written_iff hp (fun m m' => CoilsHold m m' a v.states) hrefused hwritten
      fun hfit hsome m m' hhold => ?_
    obtain ⟨f, hf⟩ := Option.isSome_iff_exists.1 hsome
    have hf1 : p.fn.int? = some 1 := by
      have heq : f = 1 := (Json.eqInt_of_int? hf).1 hfn
      rw [hf, heq]
    -- the first state is the one at the point's own address
    have hfirst : m'.coils a = v.states.headD false := by
      cases hs : v.states with
      | nil => exact absurd (Or.inl hs) hfit
      | cons on rest =>
        have hspan := hhold.span 0 (by rw [hs]; exact Nat.succ_pos _)
        simp only [Nat.add_zero, hs, List.get_eq_getElem, List.getElem_cons_zero] at hspan
        rw [hspan]
        rfl
    obtain ⟨req, hreq, hvalue⟩ := read_coil hp haddr hf1 m'
    exact ⟨req, hreq, hfirst ▸ hvalue⟩

/-- A list with one writable `int16` point at address 10. -/
def setpoint (fn : Json) : ModbusPoll :=
  ⟨.ofIntExact 5, [ModbusPoint.ofMembers [("name", .str "setpoint"), ("fn", fn), ("address", .int 10),
    ("dtype", .str "int16"), ("writable", .bool true)]]⟩

theorem write_point_iff_setpoint :
    WritesInt (ModbusPoint.ofMembers [("name", .str "setpoint"), ("fn", .int 3), ("address", .int 10),
        ("dtype", .str "int16"), ("writable", .bool true)]) .int16 10 (-12) ↔
      (Json.int 3).int?.isSome = true ∨ IntUnfit .int16 10 (-12) :=
  (write_point_iff (setpoint (.int 3)) (by decide +kernel) _ List.mem_cons_self rfl 10 rfl).1
    .int16 (-12) (by decide) rfl (by decide +kernel)

/-- A function code that the document writes as `3.0`: the validator accepts the point and the
    write goes out, but no request reads it. -/
theorem write_point_float_function :
    (setpoint (.float (.ofIntExact 3))).validate = .ok () ∧
      ∃ p ∈ (setpoint (.float (.ofIntExact 3))).points,
        p.writable.truthy = true ∧ p.address = .int 10 ∧ p.dtype = .str Dtype.int16.name ∧
          scales p.scale = false ∧ ¬ WritesInt p .int16 10 7 := by
  have hvalid : (setpoint (.float (.ofIntExact 3))).validate = .ok () := by decide +kernel
  refine ⟨hvalid, _, List.mem_cons_self, rfl, rfl, rfl, by decide +kernel, ?_⟩
  rintro ⟨-, h⟩
  have hp := pointValid_of_validated ⟨_, hvalid, List.mem_cons_self⟩
  have hfit : ¬ IntUnfit .int16 10 7 := by
    unfold IntUnfit
    decide
  obtain ⟨pdu, -, hall⟩ := h hfit
  have hint := int?_of_readsBack hp (hall .empty).2
  exact absurd hint (by decide +kernel)

end Ser2Net.Engine.Modbus
