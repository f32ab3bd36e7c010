import Ser2Net.Lib.PyArith
import Ser2Net.Engine.Modbus

namespace Ser2Net.Engine.Modbus

open Ser2Net.Lib

/-!
# Engine — Modbus requests and replies (`app/engine/modbus.py`)

The PDUs that a Modbus master reads and writes points with.  Addresses, function codes, data
types and scales come out of a JSON document and may be any value there; a builder raises what
the operators and checks of the source raise on it.

* `readPdu`, `readBitsPdu`, `responseData`, `decodeBits`, `decodeValue` — reading;
* `writeSingleCoilPdu` … `writeMultipleRegistersPdu`, `encodeValue`, `checkWriteResponse` —
  writing.
-/

/-! ### Errors -/

/-- The texts of the `ValueError`s with their arguments. -/
inductive PduError
  /-- `{what} must be an integer {lo}..{hi}, got {value!r}` -/
  | notInteger (what : String) (lo hi : Int) (value : Json)
  /-- `address {address} + quantity {count} runs past address 65535` -/
  | pastEnd (address : Int) (count : Nat)
  /-- `{what} must be True/False (or 1/0), got {value!r}` -/
  | notCoilState (what : String) (value : Json)
  /-- `read_bits_pdu needs function 1 or 2, got {function!r}` -/
  | notBitFunction (function : Json)
  /-- `unknown dtype {dtype!r}` -/
  | unknownDtype (dtype : Json)
  /-- `value must be a number, got {value!r}` -/
  | notNumber (value : Json)
  /-- `value must be a finite number, got {value!r}` -/
  | notFinite (value : Json)
  /-- `scale must be a finite number, got {scale!r}` -/
  | scaleNotFinite (scale : Json)
  /-- `value {value!r} out of range for {dtype}` -/
  | outOfRange (value dtype : Json)
  /-- `value {value!r} / scale {scale!r} out of range for {dtype}` -/
  | quotientOutOfRange (value scale dtype : Json)
  /-- `value {value!r} (raw {number}) out of range for {dtype} ({lo}..{hi})` -/
  | rawOutOfRange (value : Json) (number : Int) (dtype : Json) (lo hi : Int)
  /-- `empty PDU` -/
  | emptyPdu
  /-- `modbus exception 0x{code:02x}` -/
  | modbusException (code : UInt8)
  /-- `unexpected response function` -/
  | unexpectedResponse
  /-- `short response data` -/
  | shortData
  /-- `not enough data for {count} bits ({length} of {need} bytes)` -/
  | notEnoughBits (count length need : Nat)
  /-- `not enough data for dtype` -/
  | notEnoughData
  /-- `request is not a Modbus write PDU (FC5/6/15/16)` -/
  | notWriteRequest
  /-- `unexpected response function 0x{function:02x}` -/
  | unexpectedFunction (function : UInt8)
  /-- `short write response ({length} of {expected} bytes)` -/
  | shortReply (length expected : Nat)
  /-- `write response {pdu} does not match the request ({expected})` -/
  | replyMismatch (pdu expected : Bytes)
  /-- `point {name!r} is not writable` -/
  | notWritable (name : Json)
  deriving DecidableEq, Repr

/-- Code that builds or reads a PDU; `user` is a `ValueError` with its text. -/
abbrev PduM := PyM PduError

/-- `raise ValueError(…)`. -/
def valueError {α : Type} (e : PduError) : PduM α := .error (.user e)

/-! ### Function codes and limits -/

/-- `READ_COILS`. -/
def readCoils : Nat := 1

/-- `READ_DISCRETE_INPUTS`. -/
def readDiscreteInputs : Nat := 2

/-- `WRITE_SINGLE_COIL`. -/
def writeSingleCoil : UInt8 := 5

/-- `WRITE_SINGLE_REGISTER`. -/
def writeSingleRegister : UInt8 := 6

/-- `WRITE_MULTIPLE_COILS`. -/
def writeMultipleCoils : UInt8 := 15

/-- `WRITE_MULTIPLE_REGISTERS`. -/
def writeMultipleRegisters : UInt8 := 16

/-- `MAX_READ_BITS`. -/
def maxReadBits : Nat := 2000

/-- `MAX_WRITE_COILS`. -/
def maxWriteCoils : Nat := 1968

/-- `MAX_WRITE_REGISTERS`. -/
def maxWriteRegisters : Nat := 123

/-- `_WRITE_FUNCTIONS`. -/
def writeFunctions : List UInt8 :=
  [writeSingleCoil, writeSingleRegister, writeMultipleCoils, writeMultipleRegisters]

/-! ### Checks -/

/-- `_check_int`. -/
def checkInt (value : Json) (lo hi : Int) (what : String) : PduM Int :=
  match value with
  | .int n => if lo ≤ n ∧ n ≤ hi then .ok n else valueError (.notInteger what lo hi value)
  | _ => valueError (.notInteger what lo hi value)

/-- `_check_span`, and the integer that the address then is. -/
def checkSpan (address : Json) (count : Nat) : PduM Int := do
  let a ← checkInt address 0 0xFFFF "address"
  if 0x10000 < a + count then valueError (.pastEnd a count) else return a

/-- `_coil_state`. -/
def coilState (value : Json) (what : String) : PduM Bool :=
  if value.int? = some 0 then .ok false
  else if value.int? = some 1 then .ok true
  else valueError (.notCoilState what value)

/-- The states of a list of coils; the next one has the number `i`. -/
def coilStates (i : Nat) : List Json → PduM (List Bool)
  | [] => .ok []
  | v :: rest => do
    let on ← coilState v ("coil state [" ++ toString i ++ "]")
    return on :: (← coilStates (i + 1) rest)

/-- The checked words of a list of registers; the next one has the number `i`. -/
def registerWords (i : Nat) : List Int → PduM (List Int)
  | [] => .ok []
  | r :: rest => do
    let word ← checkInt (.int r) 0 0xFFFF ("register value [" ++ toString i ++ "]")
    return word :: (← registerWords (i + 1) rest)

/-! ### Data types -/

/-- The keys of `_DTYPE_REGS`. -/
inductive Dtype
  | uint16 | int16 | uint32 | int32 | float32
  deriving DecidableEq, Repr

/-- The name of a data type. -/
def Dtype.name : Dtype → String
  | uint16 => "uint16"
  | int16 => "int16"
  | uint32 => "uint32"
  | int32 => "int32"
  | float32 => "float32"

/-- The values of `_DTYPE_REGS`. -/
def Dtype.registers : Dtype → Nat
  | uint16 | int16 => 1
  | uint32 | int32 | float32 => 2

/-- `_INT_RANGE`; the range of `float32` is not used. -/
def Dtype.range : Dtype → Int × Int
  | uint16 => (0, 0xFFFF)
  | int16 => (-0x8000, 0x7FFF)
  | uint32 => (0, 0xFFFFFFFF)
  | int32 => (-0x80000000, 0x7FFFFFFF)
  | float32 => (0, 0)

/-- The data type with a name. -/
def Dtype.ofName? (s : String) : Option Dtype :=
  [uint16, int16, uint32, int32, float32].find? fun t => t.name = s

/-- The check of `dtype_registers`, and the type that passed it. -/
def dtypeOf (dtype : Json) : PduM Dtype :=
  match dtype with
  | .str s =>
    match Dtype.ofName? s with
    | some t => .ok t
    | none => valueError (.unknownDtype dtype)
  | .arr _ | .obj _ => .error .typeError
  | _ => valueError (.unknownDtype dtype)

/-- `dtype_registers`. -/
def dtypeRegisters (dtype : Json) : PduM Nat := do
  return (← dtypeOf dtype).registers

/-! ### Reading -/

/-- `n & 0xFF`. -/
def lowByte (n : Int) : UInt8 := UInt8.ofNat (n % 256).toNat

/-- `(n >> 8) & 0xFF, n & 0xFF`. -/
def be16 (n : Int) : Bytes := [lowByte (n / 256), lowByte n]

/-- `read_pdu`. -/
def readPdu (function address : Json) (count : Nat) : PduM Bytes := do
  let f ← function.bitOperand
  let a ← address.bitOperand
  return lowByte f :: (be16 a ++ be16 count)

/-- `read_bits_pdu`. -/
def readBitsPdu (function address : Json) (count : Nat) : PduM Bytes :=
  if ¬ function.inInts [readCoils, readDiscreteInputs] then valueError (.notBitFunction function)
  else do
    let _ ← checkInt (.int count) 1 maxReadBits "bit count"
    let _ ← checkSpan address count
    readPdu function address count

/-- `response_data`. -/
def responseData (pdu : Bytes) (function : Json) : PduM Bytes :=
  match pdu with
  | [] => valueError .emptyPdu
  | first :: rest => do
    let f ← function.bitOperand
    if first = lowByte f ||| 0x80 then valueError (.modbusException (rest.headD 0))
    else if ¬ function.eqInt first.toNat then valueError .unexpectedResponse
    else
      match rest with
      | [] => valueError .unexpectedResponse
      | byteCount :: body =>
        if (body.take byteCount.toNat).length ≠ byteCount.toNat then valueError .shortData
        else return body.take byteCount.toNat

/-- Bit `i` of packed bits, least significant bit first. -/
def bitAt (data : Bytes) (i : Nat) : Bool := (data.getD (i / 8) 0).toNat.testBit (i % 8)

/-- `decode_bits`. -/
def decodeBits (data : Bytes) (count : Nat) : PduM (List Bool) :=
  let need := (count + 7) / 8
  if data.length < need then valueError (.notEnoughBits count data.length need)
  else .ok ((List.range count).map (bitAt data))

/-- A big-endian number. -/
def unpackBE (bs : Bytes) : Nat := bs.foldl (fun n b => n * 256 + b.toNat) 0

/-- The signed number with the two's complement `n` in `bits` bits. -/
def signed (bits n : Nat) : Int := if n < 2 ^ (bits - 1) then n else (n : Int) - 2 ^ bits

/-- `struct.unpack` with the format of the type. -/
def Dtype.unpack (t : Dtype) (n : Nat) : Json :=
  match t with
  | uint16 | uint32 => .int n
  | int16 => .int (signed 16 n)
  | int32 => .int (signed 32 n)
  | float32 => .float (PyFloat.ofSingle n)

/-- `scale and scale != 1.0`. -/
def scales (scale : Json) : Bool := scale.truthy && !scale.eqInt 1

/-- `value * scale`. -/
def scaled (value scale : Json) : PduM Json :=
  match value with
  | .int n => Json.timesInt n scale
  | .float x => Json.timesFloat x scale
  | _ => .error .typeError

/-- `decode_value`. -/
def decodeValue (data : Bytes) (dtype scale : Json) : PduM Json := do
  let t ← dtypeOf dtype
  let need := t.registers * 2
  if (data.take need).length < need then valueError .notEnoughData
  else
    let value := t.unpack (unpackBE (data.take need))
    if scales scale then scaled value scale else return value

/-! ### Writing -/

/-- `write_single_coil_pdu`. -/
def writeSingleCoilPdu (address on : Json) : PduM Bytes := do
  let a ← checkInt address 0 0xFFFF "address"
  let value := if ← coilState on "coil state" then 0xFF00 else 0x0000
  return writeSingleCoil :: (be16 a ++ be16 value)

/-- `write_single_register_pdu`. -/
def writeSingleRegisterPdu (address : Json) (raw : Int) : PduM Bytes := do
  let a ← checkInt address 0 0xFFFF "address"
  let word ← checkInt (.int raw) 0 0xFFFF "register value"
  return writeSingleRegister :: (be16 a ++ be16 word)

/-- The loop that packs the states; the next one has the number `i`. -/
def packFrom (packed : Bytes) (i : Nat) : List Bool → Bytes
  | [] => packed
  | on :: rest =>
    packFrom (if on then packed.modify (i / 8) (· ||| 1 <<< UInt8.ofNat (i % 8)) else packed)
      (i + 1) rest

/-- The states packed, least significant bit first. -/
def packBits (states : List Bool) : Bytes :=
  packFrom (List.replicate ((states.length + 7) / 8) 0) 0 states

/-- `write_multiple_coils_pdu`. -/
def writeMultipleCoilsPdu (address : Json) (values : List Json) : PduM Bytes := do
  let states ← coilStates 0 values
  let count ← checkInt (.int states.length) 1 maxWriteCoils "coil count"
  let a ← checkSpan address states.length
  let packed := packBits states
  return writeMultipleCoils :: (be16 a ++ be16 count ++ lowByte packed.length :: packed)

/-- `write_multiple_registers_pdu`. -/
def writeMultipleRegistersPdu (address : Json) (registers : List Int) : PduM Bytes := do
  let regs ← registerWords 0 registers
  let count ← checkInt (.int regs.length) 1 maxWriteRegisters "register count"
  let a ← checkSpan address regs.length
  let data := regs.flatMap be16
  return writeMultipleRegisters :: (be16 a ++ be16 count ++ lowByte data.length :: data)

/-- `check_write_response`. -/
def checkWriteResponse (pdu request : Bytes) : PduM Unit :=
  match request with
  | function :: _ =>
    if request.length < 5 ∨ function ∉ writeFunctions then valueError .notWriteRequest
    else
      match pdu with
      | [] => valueError .emptyPdu
      | first :: rest =>
        if first = function ||| 0x80 then valueError (.modbusException (rest.headD 0))
        else if first ≠ function then valueError (.unexpectedFunction first)
        else
          let single := function = writeSingleCoil ∨ function = writeSingleRegister
          let expected := if single then request else request.take 5
          if pdu.length < expected.length then
            valueError (.shortReply pdu.length expected.length)
          else if pdu ≠ expected then valueError (.replyMismatch pdu expected)
          else .ok ()
  | [] => valueError .notWriteRequest

/-- `value / scale` in `encode_value`, with the checks around it. -/
def descale (value scale dtype : Json) : PduM Json := do
  let s ← scale.floatOperand
  match s with
  | .fin b =>
    let raw ← match value, scale with
      | .int n, .int m =>
        -- the true quotient of two ints, which overflows with an exception
        match PyFloat.quotient n m with
        | .inf _ => valueError (.outOfRange value dtype)
        | x => pure x
      | .int n, _ =>
        match PyFloat.ofInt? n with
        | some (.fin a) => pure (PyFloat.quotient a b)
        | _ => valueError (.outOfRange value dtype)
      | .float (.fin a), _ => pure (PyFloat.quotient a b)
      | _, _ => valueError (.notNumber value)
    if raw.isFinite then return .float raw
    else valueError (.quotientOutOfRange value scale dtype)
  | _ => valueError (.scaleNotFinite scale)

/-- The words of a raw value as `float32`. -/
def packSingle (raw value dtype : Json) : PduM (List Int) :=
  let packed : Option Nat := match raw with
    | .int n => (PyFloat.ofInt? n).bind PyFloat.toSingle?
    | .float x => x.toSingle?
    | _ => none
  match packed with
  | some p => .ok [(p / 65536 : Nat), (p % 65536 : Nat)]
  | none => valueError (.outOfRange value dtype)

/-- The words of an integer as `k` registers, high word first. -/
def intWords (k : Nat) (n : Int) : List Int :=
  if k = 1 then [n % 65536] else [n / 65536 % 65536, n % 65536]

/-- `encode_value`. -/
def encodeValue (value dtype scale : Json) : PduM (List Int) := do
  let t ← dtypeOf dtype
  let finite ← match value with
    | .int _ => pure true
    | .float x => pure x.isFinite
    | _ => valueError (.notNumber value)
  if ¬ finite then valueError (.notFinite value)
  else
    let raw ← if scales scale then descale value scale dtype else pure value
    if t = .float32 then packSingle raw value dtype
    else
      let number := match raw with
        | .int n => n
        | .float (.fin n) => PyFloat.roundInt n
        | _ => 0
      let (lo, hi) := t.range
      if lo ≤ number ∧ number ≤ hi then return intWords t.registers number
      else valueError (.rawOutOfRange value number dtype lo hi)

end Ser2Net.Engine.Modbus
