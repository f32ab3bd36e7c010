import Ser2Net.Config.Mapping
import Ser2Net.Engine.ModbusSlave

namespace Ser2Net.Engine.Modbus

open Ser2Net.Lib Ser2Net.Config

/-!
# Engine — the points of a Modbus gateway (`app/engine/modbus_gateway.py`)

How the gateway reads and writes the points that `ModbusPoll.validate` let through.  A point
keeps its fields as the JSON document has them, so a number may be an int, a float or a bool.

* `readRequest`, `pointValue`, `writePdu` — `_read_point` and `write_point` around the bus;
* `PointValid` — what the validator checks of one point;
* `readRequest_iff` — exactly when a valid point gets a request within the address space.
-/

/-- `_read_point`, as far as the request it sends. -/
def readRequest (p : ModbusPoint) : PduM Bytes :=
  if p.fn.inInts [readCoils, readDiscreteInputs] then readBitsPdu p.fn p.address 1
  else do
    let count ← dtypeRegisters p.dtype
    readPdu p.fn p.address count

/-- `_read_point`, from the reply on. -/
def pointValue (p : ModbusPoint) (rpdu : Bytes) : PduM Json :=
  if p.fn.inInts [readCoils, readDiscreteInputs] then do
    let bits ← decodeBits (← responseData rpdu p.fn) 1
    return .bool (bits.headD false)
  else do
    decodeValue (← responseData rpdu p.fn) p.dtype p.scale

/-- `write_point`, as far as the request it sends. -/
def writePdu (p : ModbusPoint) (value : Json) : PduM Bytes :=
  if ¬ p.writable.truthy then valueError (.notWritable p.name)
  else if p.fn.eqInt readCoils then
    match value with
    | .arr states => writeMultipleCoilsPdu p.address states
    | _ => writeSingleCoilPdu p.address value
  else do
    let regs ← encodeValue value p.dtype (orElse p.scale (.float (.ofIntExact 1)))
    match regs with
    | [word] => writeSingleRegisterPdu p.address word
    | _ => writeMultipleRegistersPdu p.address regs

/-! ### What the validator checks -/

/-- A point that `ModbusPoll.validate` accepts: it stands in a list of points that passes. -/
def Validated (p : ModbusPoint) : Prop := ∃ q : ModbusPoll, q.validate = .ok () ∧ p ∈ q.points

/-- What is checked of a point by itself. -/
structure PointValid (p : ModbusPoint) : Prop where
  name : ∃ s, p.name = .str s ∧ PyText.blank s = false
  unit : p.unit.inRange 0 255 = (.ok true : CfgM Bool)
  fn : p.fn.inInts [1, 2, 3, 4] = true
  address : p.address.inRange 0 65535 = (.ok true : CfgM Bool)
  dtype : p.dtype.inStrs modbusDtypes = true
  bits : p.fn.inInts [1, 2] = p.dtype.eqStr "bool"
  writable : p.writable.truthy = true → p.fn.inInts [1, 3] = true

/-- A point that passes, after points with the names `seen`. -/
theorem pointValid_of_validate {seen : List Json} {p : ModbusPoint}
    (h : p.validate seen = .ok ()) : PointValid p ∧ seen.any p.name.pyEq = false := by
  -- the checks in the order of the source, one for each line that raises
  unfold ModbusPoint.validate at h
  obtain ⟨blank, hblank, h⟩ := except_bind_eq_ok.1 h
  obtain ⟨⟨⟩, hname, h⟩ := except_bind_eq_ok.1 h
  obtain ⟨⟨⟩, hseen, h⟩ := except_bind_eq_ok.1 h
  obtain ⟨unitOk, hunitRange, h⟩ := except_bind_eq_ok.1 h
  obtain ⟨⟨⟩, hunit, h⟩ := except_bind_eq_ok.1 h
  obtain ⟨⟨⟩, hfn, h⟩ := except_bind_eq_ok.1 h
  obtain ⟨addressOk, hrange, h⟩ := except_bind_eq_ok.1 h
  obtain ⟨⟨⟩, haddress, h⟩ := except_bind_eq_ok.1 h
  obtain ⟨⟨⟩, hdtype, h⟩ := except_bind_eq_ok.1 h
  obtain ⟨⟨⟩, hbits, hwritable⟩ := except_bind_eq_ok.1 h
  rw [require_eq_ok] at hname hseen hunit hfn haddress hdtype hbits hwritable
  rw [Bool.not_eq_true'] at hname hseen
  refine ⟨⟨?_, hunit ▸ hunitRange, hfn, haddress ▸ hrange, hdtype, beq_iff_eq.1 hbits,
    fun hw => ?_⟩, hseen⟩
  · rw [hname] at hblank
    -- only a text has `strip`, so the name is one
    cases htext : p.name with
    | str s =>
      rw [htext] at hblank
      exact ⟨s, rfl, Except.ok.inj hblank⟩
    | _ =>
      rw [htext] at hblank
      cases hblank
  · rw [hw, Bool.true_and, Bool.not_not] at hwritable
    exact hwritable

/-- The points of a poll that passes have passed, also where there are none. -/
theorem validatePoints_of_validate {q : ModbusPoll} (hq : q.validate = .ok ()) :
    validatePoints [] q.points = .ok () := by
  unfold ModbusPoll.validate at hq
  split at hq
  · next hempty =>
    rw [List.isEmpty_iff.1 hempty]
    rfl
  · obtain ⟨⟨⟩, -, hq⟩ := except_bind_eq_ok.1 hq
    exact hq

/-- Points that pass the check are valid. -/
theorem pointValid_of_validatePoints {points : List ModbusPoint} {seen : List Json}
    (h : validatePoints seen points = .ok ()) : ∀ p ∈ points, PointValid p := by
  induction points generalizing seen with
  | nil => intro p hp; cases hp
  | cons first rest ih =>
    obtain ⟨⟨⟩, hfirst, hrest⟩ := except_bind_eq_ok.1 h
    intro p hp
    rcases List.mem_cons.1 hp with rfl | hp
    · exact (pointValid_of_validate hfirst).1
    · exact ih hrest p hp

/-- A point that passes the check is valid. -/
theorem pointValid_of_validated {p : ModbusPoint} (h : Validated p) : PointValid p := by
  obtain ⟨q, hq, hp⟩ := h
  exact pointValid_of_validatePoints (validatePoints_of_validate hq) p hp

/-- A type is found by its name. -/
theorem Dtype.ofName?_name (t : Dtype) : Dtype.ofName? t.name = some t := by
  cases t <;> decide

/-- The same for a value of the configuration. -/
theorem dtypeOf_name (t : Dtype) : dtypeOf (.str t.name) = .ok t := by
  unfold dtypeOf
  simp only [Dtype.ofName?_name]

namespace PointValid

variable {p : ModbusPoint} (hp : PointValid p)
include hp

/-- The data type of a point that holds registers. -/
theorem dtype_of_registers (hfn : p.fn.inInts [1, 2] = false) : ∃ t : Dtype, p.dtype = .str t.name := by
  have hbool : p.dtype.eqStr "bool" = false := hp.bits ▸ hfn
  have htypes : modbusDtypes = [Dtype.uint16, .int16, .uint32, .int32, .float32].map Dtype.name ++
      ["bool"] := rfl
  have hdtype := hp.dtype
  unfold Json.inStrs at hdtype
  rw [htypes, List.any_append, Bool.or_eq_true, List.any_map, List.any_eq_true] at hdtype
  rcases hdtype with ⟨t, -, ht⟩ | h
  · exact ⟨t, beq_iff_eq.1 ht⟩
  · rw [List.any_cons, hbool] at h
    cases h

end PointValid

/-! ### The request for a point -/

/-- The registers of the data type, or one bit. -/
def pointCount (p : ModbusPoint) : Nat :=
  if p.fn.inInts [readCoils, readDiscreteInputs] then 1
  else
    match dtypeOf p.dtype with
    | .ok t => t.registers
    | .error _ => 0

/-- A request is built: it has the point's function code, address and count, and the addresses
    `address .. address + count - 1` are within 0..65535. -/
def RequestFits (p : ModbusPoint) : Prop :=
  ∃ f a1 a0 c1 c0, readRequest p = .ok [f, a1, a0, c1, c0] ∧
    p.fn.eqInt f.toNat = true ∧ p.address.eqInt (word a1 a0) = true ∧
    word c1 c0 = pointCount p ∧ word a1 a0 + pointCount p - 1 ≤ 65535

/-- The function code is no float; the address of a coil or a discrete input is an int and no
    bool, that of registers an int with all of them before the end of the address space. -/
def Requestable (p : ModbusPoint) : Prop :=
  p.fn.int?.isSome ∧
    if p.fn.inInts [readCoils, readDiscreteInputs] then p.address.isInt = true
    else ∃ a, p.address.int? = some a ∧ a + pointCount p ≤ 0x10000

/-- A read request, from its function and address. -/
theorem readPdu_eq_ok {function address : Json} {count : Nat} {pdu : Bytes} :
    readPdu function address count = .ok pdu ↔
      ∃ f a, function.int? = some f ∧ address.int? = some a ∧
        pdu = lowByte f :: (be16 a ++ be16 count) := by
  unfold readPdu Json.bitOperand
  cases function.int? with
  | none => simp
  | some f =>
    cases address.int? with
    | none => simp
    | some a => simp [eq_comm]

/-- A request for one bit, from its function and address. -/
theorem readBitsPdu_eq_ok {function address : Json} {pdu : Bytes} :
    readBitsPdu function address 1 = .ok pdu ↔
      ∃ f a, function.int? = some f ∧ (f = 1 ∨ f = 2) ∧ address = .int a ∧ 0 ≤ a ∧ a ≤ 65535 ∧
        pdu = lowByte f :: (be16 a ++ be16 1) := by
  have hcount : checkInt (.int (1 : Nat)) 1 maxReadBits "bit count" = .ok 1 := checkInt_int (by decide)
  unfold readBitsPdu
  constructor
  · intro h
    split at h
    · cases h
    · next hfn =>
      rw [hcount, except_ok_bind, except_bind_eq_ok] at h
      obtain ⟨a, hspan, h⟩ := h
      obtain ⟨f, b, hf, hb, rfl⟩ := readPdu_eq_ok.1 h
      rw [not_not, Json.inInts_of_int? hf] at hfn
      -- the address passed `_check_int`, so it is an int in the range
      have haddr : address = .int a ∧ 0 ≤ a ∧ a ≤ 65535 := by
        obtain ⟨a', hcheck, hspan⟩ := except_bind_eq_ok.1 hspan
        have hle : a' = a := by
          split at hspan
          · cases hspan
          · exact Except.ok.inj hspan
        subst hle
        unfold checkInt at hcheck
        split at hcheck
        · split at hcheck
          · next hr =>
            obtain rfl := Except.ok.inj hcheck
            exact ⟨rfl, hr⟩
          · cases hcheck
        · cases hcheck
      obtain ⟨rfl, hlo, hhi⟩ := haddr
      obtain rfl : a = b := Option.some.inj hb
      refine ⟨f, a, hf, ?_, rfl, hlo, hhi, rfl⟩
      simpa [readCoils, readDiscreteInputs] using hfn
  · rintro ⟨f, a, hf, hbit, rfl, hlo, hhi, rfl⟩
    have hfn : function.inInts [readCoils, readDiscreteInputs] = true := by
      rw [Json.inInts_of_int? hf]
      simpa [readCoils, readDiscreteInputs] using hbit
    obtain ⟨k, rfl⟩ := Int.eq_ofNat_of_zero_le hlo
    rw [if_neg (not_not.2 hfn), hcount, except_ok_bind, checkSpan_int (by omega) (by omega),
      except_ok_bind]
    exact readPdu_eq_ok.2 ⟨f, k, hf, rfl, rfl⟩

/-- The request of a valid point, where there is one. -/
theorem readRequest_eq_ok {p : ModbusPoint} (hp : PointValid p) {pdu : Bytes} :
    readRequest p = .ok pdu ↔
      ∃ f a, p.fn.int? = some f ∧ p.address.int? = some a ∧ 1 ≤ f ∧ f ≤ 4 ∧ 0 ≤ a ∧ a ≤ 65535 ∧
        (p.fn.inInts [readCoils, readDiscreteInputs] = true → p.address.isInt = true) ∧
        pdu = lowByte f :: (be16 a ++ be16 (pointCount p)) := by
  have hrange : ∀ a, p.address.int? = some a → 0 ≤ a ∧ a ≤ 65535 := by
    intro a ha
    exact (Json.inRange_of_int? ha).1 hp.address
  have hcode : ∀ f, p.fn.int? = some f → 1 ≤ f ∧ f ≤ 4 := by
    intro f hf
    have hmem := (Json.inInts_of_int? hf).1 hp.fn
    simp only [List.mem_cons, List.not_mem_nil, or_false] at hmem
    omega
  -- `_read_point` goes by the function code: bits are checked against it again, registers are not
  unfold readRequest pointCount
  by_cases hbits : p.fn.inInts [readCoils, readDiscreteInputs] = true
  · rw [if_pos hbits, if_pos hbits, readBitsPdu_eq_ok]
    constructor
    · rintro ⟨f, a, hf, -, haddr, hlo, hhi, rfl⟩
      refine ⟨f, a, hf, by rw [haddr]; rfl, (hcode f hf).1, (hcode f hf).2, hlo, hhi, ?_, rfl⟩
      intro _
      rw [haddr]
      rfl
    -- for bits the builder wants an int and nothing that only equals one
    · rintro ⟨f, a, hf, ha, -, -, hlo, hhi, hint, rfl⟩
      have haddr : p.address = .int a := by
        have hint := hint hbits
        cases hv : p.address with
        | int n =>
          rw [hv] at ha
          rw [← Option.some.inj ha]
        | _ =>
          rw [hv] at hint
          cases hint
      refine ⟨f, a, hf, ?_, haddr, hlo, hhi, rfl⟩
      simpa [readCoils, readDiscreteInputs] using (Json.inInts_of_int? hf).1 hbits
  · obtain ⟨t, ht⟩ := hp.dtype_of_registers (Bool.not_eq_true _ ▸ hbits)
    rw [if_neg hbits, if_neg hbits, ht]
    unfold dtypeRegisters
    rw [dtypeOf_name, except_ok_bind, except_pure, except_ok_bind, readPdu_eq_ok]
    constructor
    · rintro ⟨f, a, hf, ha, rfl⟩
      exact ⟨f, a, hf, ha, (hcode f hf).1, (hcode f hf).2, (hrange a ha).1, (hrange a ha).2,
        fun h => absurd h hbits, rfl⟩
    · rintro ⟨f, a, hf, ha, -, -, -, -, -, rfl⟩
      exact ⟨f, a, hf, ha, rfl⟩

/-- A point has one register or two, and one bit. -/
theorem pointCount_le {p : ModbusPoint} (hp : PointValid p) :
    1 ≤ pointCount p ∧ pointCount p ≤ 2 ∧
      (p.fn.inInts [readCoils, readDiscreteInputs] = true → pointCount p = 1) := by
  unfold pointCount
  by_cases hbits : p.fn.inInts [readCoils, readDiscreteInputs] = true
  · rw [if_pos hbits]
    exact ⟨le_refl _, by omega, fun _ => rfl⟩
  · obtain ⟨t, ht⟩ := hp.dtype_of_registers (Bool.not_eq_true _ ▸ hbits)
    have ht' : 1 ≤ t.registers ∧ t.registers ≤ 2 := by cases t <;> decide
    rw [if_neg hbits, ht, dtypeOf_name]
    exact ⟨ht'.1, ht'.2, fun h => absurd h hbits⟩

/-- **Requests of valid points.**  A point that the validator accepts gets a request for its
    function and for addresses within 0..65535 exactly when its function code is no float and
    its address is an integer with all of its registers before the end of the address space. -/
theorem readRequest_iff (q : ModbusPoll) (hq : q.validate = .ok ()) (p : ModbusPoint)
    (hmem : p ∈ q.points) : RequestFits p ↔ Requestable p := by
  have hp : PointValid p := pointValid_of_validated ⟨q, hq, hmem⟩
  obtain ⟨hpos, hmax, hone⟩ := pointCount_le hp
  have hword : word (lowByte ((pointCount p : Int) / 256)) (lowByte (pointCount p)) = pointCount p :=
    word_be16 (by omega)
  constructor
  · rintro ⟨f, a1, a0, c1, c0, hreq, -, haddr, -, hend⟩
    obtain ⟨fn, a, hf, ha, -, -, hlo, hhi, hint, hpdu⟩ := (readRequest_eq_ok hp).1 hreq
    refine ⟨by rw [hf]; rfl, ?_⟩
    by_cases hbits : p.fn.inInts [readCoils, readDiscreteInputs] = true
    · rw [if_pos hbits]
      exact hint hbits
    · rw [if_neg hbits]
      refine ⟨a, ha, ?_⟩
      have hval := (Json.eqInt_of_int? ha).1 haddr
      omega
  · rintro ⟨hf, hrest⟩
    obtain ⟨f, hf⟩ := Option.isSome_iff_exists.1 hf
    have hcode := (Json.inInts_of_int? hf).1 hp.fn
    simp only [List.mem_cons, List.not_mem_nil, or_false] at hcode
    -- the address as an int, and where its last register is
    obtain ⟨a, ha, hint, hend⟩ : ∃ a, p.address.int? = some a ∧
        (p.fn.inInts [readCoils, readDiscreteInputs] = true → p.address.isInt = true) ∧
          (0 ≤ a → a ≤ 65535 → a + pointCount p ≤ 0x10000) := by
      by_cases hbits : p.fn.inInts [readCoils, readDiscreteInputs] = true
      · rw [if_pos hbits] at hrest
        cases hv : p.address with
        | int n =>
          refine ⟨n, rfl, fun _ => rfl, fun _ h => ?_⟩
          rw [hone hbits]
          omega
        | _ =>
          rw [hv] at hrest
          cases hrest
      · rw [if_neg hbits] at hrest
        obtain ⟨a, ha, hend⟩ := hrest
        exact ⟨a, ha, fun h => absurd h hbits, fun _ _ => hend⟩
    obtain ⟨hlo, hhi⟩ := (Json.inRange_of_int? ha).1 hp.address
    obtain ⟨k, rfl⟩ := Int.eq_ofNat_of_zero_le hlo
    have hk := word_be16 (n := k) (by omega)
    have hlow := lowByte_toNat f
    refine ⟨lowByte f, lowByte ((k : Int) / 256), lowByte k, _, _,
      (readRequest_eq_ok hp).2 ⟨f, k, hf, ha, by omega, by omega, hlo, hhi, hint, rfl⟩, ?_, ?_, hword,
      ?_⟩
    · rw [Json.eqInt_of_int? hf]
      omega
    · rw [Json.eqInt_of_int? ha, hk]
    · rw [hk]
      have := hend hlo hhi
      omega

/-- A list with one point that only names a holding register. -/
def onePoint (address : Json) (dtype : String) : ModbusPoll :=
  ⟨.ofIntExact 5, [ModbusPoint.ofMembers
    [("name", .str "total"), ("address", address), ("dtype", .str dtype)]]⟩

/-- A point of two registers. -/
theorem readRequest_iff_total :
    RequestFits (ModbusPoint.ofMembers
        [("name", .str "total"), ("address", .int 20), ("dtype", .str "uint32")]) ↔
      Requestable (ModbusPoint.ofMembers
        [("name", .str "total"), ("address", .int 20), ("dtype", .str "uint32")]) :=
  readRequest_iff (onePoint (.int 20) "uint32") (by decide +kernel) _ List.mem_cons_self

/-- Two registers at the last address: the validator accepts the point, and the request runs
    past the end. -/
theorem readRequest_past_end :
    (onePoint (.int 65535) "uint32").validate = .ok () ∧
      ∃ p ∈ (onePoint (.int 65535) "uint32").points, ¬ RequestFits p := by
  have hvalid : (onePoint (.int 65535) "uint32").validate = .ok () := by decide +kernel
  refine ⟨hvalid, _, List.mem_cons_self, ?_⟩
  rintro ⟨f, a1, a0, c1, c0, hreq, -, -, hcount, hend⟩
  have hread : readRequest (ModbusPoint.ofMembers
      [("name", .str "total"), ("address", .int 65535), ("dtype", .str "uint32")]) =
        .ok [3, 0xFF, 0xFF, 0, 2] := by decide +kernel
  rw [hread] at hreq
  cases hreq
  rw [← hcount] at hend
  exact absurd hend (by decide)

end Ser2Net.Engine.Modbus
