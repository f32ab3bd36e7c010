import Ser2Net.Lib.Binary

namespace Ser2Net.Engine.Sparkplug

open Ser2Net.Lib

/-!
# The Sparkplug B payload codec (`app/engine/sparkplug.py`)

The hand-coded protobuf subset that carries Sparkplug payloads: varints and field keys, the
field walk of the decoder with its group skipping, the value `oneof` by datatype, metrics and
payloads.  The decoder works on positions in a buffer, as the source does, and every read
past the end is an `indexError` of its own, so that its absence is a statement.

* `varint`, `readVarint`, `nextField`, `fields` — the wire format;
* `nextField_pos` — every round of the field walk moves forward inside the buffer;
* `encodeValue`, `decodeValue` — the value `oneof` of a metric, by datatype;
* `encodePayload`, `decodePayload` — whole messages.
-/

/-! ### Values and messages -/

/-- The buffer types `_blob` takes. -/
inductive BufferKind
  | bytes
  | bytearray
  | memoryview
  deriving DecidableEq, Repr

/-- A Python object where the source says `Any` or `object`.  Text is sequences of Unicode
    scalar values; floats are bit patterns. -/
inductive Value
  | none
  | bool (b : Bool)
  | int (n : Int)
  | float (x : F64)
  | str (s : String)
  | buffer (kind : BufferKind) (data : Bytes)
  | other
  deriving DecidableEq, Repr

/-- One Sparkplug metric. -/
structure Metric where
  name : String := ""
  datatype : Int := 0
  value : Value := .none
  metricAlias : Value := .none
  timestamp : Value := .none
  isNull : Bool := false
  deriving DecidableEq, Repr

/-- A Sparkplug B payload. -/
structure Payload where
  timestamp : Value
  metrics : List Metric
  seq : Value
  uuid : Value := .none
  body : Value := .none
  deriving DecidableEq, Repr

/-! ### Errors -/

/-- How `_label` names a metric in an error text. -/
inductive Label
  | named (name : String)
  | anonymous
  | aliased (v : Value)
  deriving DecidableEq, Repr

/-- The subject of an error text: `f"{label} {field}"`, or the bare field of the payload. -/
structure What where
  label : Option Label
  field : String
  deriving DecidableEq, Repr

/-- The exceptions of the codec with the arguments of their texts.  All but the last four
    are `ValueError`. -/
inductive SpError
  /-- `varint out of range: {value}` -/
  | varintOutOfRange (value : Int)
  /-- `truncated varint` -/
  | truncatedVarint
  /-- `varint longer than 10 bytes` -/
  | longVarint
  /-- `invalid protobuf field number {number}` -/
  | invalidFieldNumber (number : Nat)
  /-- `unexpected protobuf wire type {wire_type}` -/
  | unexpectedWireType (wireType : Nat)
  /-- `truncated protobuf field` -/
  | truncatedField
  /-- `mismatched protobuf end-group` -/
  | mismatchedEndGroup
  /-- `{what} must be an integer 0..{(1 << bits) - 1}, got {value!r}` -/
  | notUint (what : What) (bits : Nat) (value : Value)
  /-- `{what} must be a str, got {value!r}` -/
  | notStr (what : What) (value : Value)
  /-- `{what} must be bytes, got {value!r}` -/
  | notBytes (what : What) (value : Value)
  /-- `{what} is not valid UTF-8` -/
  | notUtf8 (what : What)
  /-- `{label}: {value!r} is not a valid {type} ({lo}..{hi})` -/
  | notValid (label : Label) (value : Value) (datatype : Int) (lo hi : Int)
  /-- `{label}: {type} value must be a number, got {value!r}` -/
  | notNumber (label : Label) (datatype : Int) (value : Value)
  /-- `{label}: {value!r} is out of range for {type}` -/
  | outOfRange (label : Label) (value : Value) (datatype : Int)
  /-- `{label}: Boolean value must be True/False, got {value!r}` -/
  | notBoolean (label : Label) (value : Value)
  /-- `{label}: {raw} is out of range for {type}` (hexadecimal for a signed type) -/
  | wireOutOfRange (label : Label) (raw : Nat) (datatype : Int)
  /-- `{label}: {type} value in the wrong field ({number})` -/
  | wrongField (label : Label) (datatype : Int) (number : Nat)
  /-- `{label}: unsupported Sparkplug datatype {type}` -/
  | unsupportedDatatype (label : Label) (datatype : Int)
  /-- `{label}: a datatype is needed to encode a value` -/
  | datatypeNeeded (label : Label)
  /-- `{label}: value is None (set is_null=True for a null metric)` -/
  | valueIsNone (label : Label)
  | indexError
  | keyError (datatype : Int)
  | typeError
  | structError
  deriving DecidableEq, Repr

/-- The exception is a `ValueError`. -/
def SpError.isValueError : SpError → Bool
  | .indexError | .keyError _ | .typeError | .structError => false
  | _ => true

/-- Code of the codec. -/
abbrev Sp := Except SpError

/-! ### Wire format -/

/-- `_VARINT`. -/
def wVarint : Nat := 0

/-- `_I64`. -/
def wI64 : Nat := 1

/-- `_LEN`. -/
def wLen : Nat := 2

/-- `_SGROUP`. -/
def wSgroup : Nat := 3

/-- `_EGROUP`. -/
def wEgroup : Nat := 4

/-- `_I32`. -/
def wI32 : Nat := 5

/-- `_U32_MAX`. -/
def u32Max : Nat := 2 ^ 32 - 1

/-- `_U64_MAX`. -/
def u64Max : Nat := 2 ^ 64 - 1

/-- `_MAX_FIELD`, the largest field number. -/
def maxField : Nat := 2 ^ 29 - 1

/-- `_F_INT`, and the other members of the value `oneof` after it. -/
def fInt : Nat := 10

/-- `_F_LONG`. -/
def fLong : Nat := 11

/-- `_F_FLOAT`. -/
def fFloat : Nat := 12

/-- `_F_DOUBLE`. -/
def fDouble : Nat := 13

/-- `_F_BOOL`. -/
def fBool : Nat := 14

/-- `_F_STRING`. -/
def fString : Nat := 15

/-- `_F_BYTES`. -/
def fBytes : Nat := 16

/-- The `while` loop of `_varint`. -/
def varintLoop (value : Nat) : Bytes :=
  if 0x7F < value then UInt8.ofNat (0x80 ||| (value &&& 0x7F)) :: varintLoop (value >>> 7)
  else [UInt8.ofNat value]
termination_by value
decreasing_by
  rw [Nat.shiftRight_eq_div_pow]
  omega

/-- `_varint`: the base-128 varint of an unsigned 64-bit integer. -/
def varint (value : Int) : Sp Bytes :=
  if 0 ≤ value ∧ value ≤ u64Max then .ok (varintLoop value.toNat)
  else .error (.varintOutOfRange value)

/-- The `for` loop of `_read_varint` with `n` rounds left. -/
def readVarintLoop (data : Bytes) : (n shift value pos : Nat) → Sp (Nat × Nat)
  | 0, _, _, _ => .error .longVarint
  | n + 1, shift, value, pos =>
    if data.length ≤ pos then .error .truncatedVarint
    else
      match data[pos]? with
      | none => .error .indexError
      | some byte =>
        let value := value ||| (byte.toNat &&& 0x7F) <<< shift
        -- like protobuf, bits beyond 64 are dropped
        if byte < 0x80 then .ok (value &&& u64Max, pos + 1)
        else readVarintLoop data n (shift + 7) value (pos + 1)

/-- `_read_varint`: the varint at `pos` and the next position. -/
def readVarint (data : Bytes) (pos : Nat) : Sp (Nat × Nat) := readVarintLoop data 10 0 0 pos

/-- `_key`. -/
def key (number wireType : Nat) : Sp Bytes := varint (number <<< 3 ||| wireType : Nat)

/-- `_field_varint`. -/
def fieldVarint (number : Nat) (value : Int) : Sp Bytes := do
  return (← key number wVarint) ++ (← varint value)

/-- `_field_len`. -/
def fieldLen (number : Nat) (value : Bytes) : Sp Bytes := do
  return (← key number wLen) ++ (← varint value.length) ++ value

/-- `_read_key`: the field number, the wire type and the next position. -/
def readKey (data : Bytes) (pos : Nat) : Sp (Nat × Nat × Nat) := do
  let (key, pos) ← readVarint data pos
  let number := key >>> 3
  if 1 ≤ number ∧ number ≤ maxField then .ok (number, key &&& 7, pos)
  else .error (.invalidFieldNumber number)

/-- The check that ends `_value_span`. -/
def spanOf (data : Bytes) (pos size : Nat) : Sp (Nat × Nat) :=
  if (data.length : Int) - pos < size then .error .truncatedField else .ok (pos, pos + size)

/-- `_value_span`: start and end of a non-group value at `pos`. -/
def valueSpan (data : Bytes) (pos wireType : Nat) : Sp (Nat × Nat) :=
  if wireType = wVarint then do
    let (_, fin) ← readVarint data pos
    return (pos, fin)
  else if wireType = wI64 then spanOf data pos 8
  else if wireType = wI32 then spanOf data pos 4
  else if wireType = wLen then do
    let (size, pos) ← readVarint data pos
    spanOf data pos size
  else .error (.unexpectedWireType wireType)

/-! The decoder ends because every key moves the position forward and stays inside the
buffer; these bounds are what the recursion of `skipGroup` and `fields` rests on. -/

/-- The bytes of a varint are taken, and are there. -/
theorem readVarintLoop_pos {data : Bytes} {n shift value pos v pos' : Nat}
    (h : readVarintLoop data n shift value pos = .ok (v, pos')) :
    pos < pos' ∧ pos' ≤ data.length := by
  induction n generalizing shift value pos with
  | zero => simp [readVarintLoop] at h
  | succ n ih =>
    unfold readVarintLoop at h
    split at h
    · cases h
    · split at h
      · cases h
      · dsimp only at h
        split at h
        · simp only [Except.ok.injEq, Prod.mk.injEq] at h
          omega
        · have := ih h
          omega

/-- A varint takes a byte at least. -/
theorem readVarint_pos {data : Bytes} {pos v pos' : Nat}
    (h : readVarint data pos = .ok (v, pos')) : pos < pos' ∧ pos' ≤ data.length :=
  readVarintLoop_pos h

/-- A key takes a byte at least. -/
theorem readKey_pos {data : Bytes} {pos number wireType pos' : Nat}
    (h : readKey data pos = .ok (number, wireType, pos')) :
    pos < pos' ∧ pos' ≤ data.length := by
  rw [readKey, except_bind_eq_ok] at h
  obtain ⟨⟨k, p⟩, hk, h⟩ := h
  dsimp only at h
  split at h
  · simp only [Except.ok.injEq, Prod.mk.injEq] at h
    rw [← h.2.2]
    exact readVarint_pos hk
  · cases h

/-- A span is where it was asked for, and inside the data. -/
theorem spanOf_pos {data : Bytes} {pos size start fin : Nat}
    (h : spanOf data pos size = .ok (start, fin)) :
    start = pos ∧ fin = pos + size ∧ fin ≤ data.length := by
  unfold spanOf at h
  split at h
  · cases h
  · simp only [Except.ok.injEq, Prod.mk.injEq] at h
    omega

/-- A span lies inside the buffer, at or after the position it was asked for. -/
theorem valueSpan_pos {data : Bytes} {pos wireType start fin : Nat}
    (h : valueSpan data pos wireType = .ok (start, fin)) :
    pos ≤ start ∧ start ≤ fin ∧ fin ≤ data.length := by
  unfold valueSpan at h
  split at h
  · obtain ⟨⟨v, p⟩, hv, h⟩ := except_bind_eq_ok.1 h
    have := readVarint_pos hv
    simp only [except_pure, Except.ok.injEq, Prod.mk.injEq] at h
    omega
  split at h
  · have := spanOf_pos h
    omega
  split at h
  · have := spanOf_pos h
    omega
  split at h
  · obtain ⟨⟨v, p⟩, hv, h⟩ := except_bind_eq_ok.1 h
    have := readVarint_pos hv
    have := spanOf_pos h
    omega
  · cases h

/-- `_skip_group`: the position after the end-group key that matches the outermost group
    of the stack. -/
def skipGroup (data : Bytes) (pos : Nat) (openGroups : List Nat) : Sp Nat :=
  match openGroups with
  | [] => .ok pos
  | top :: outer =>
    match _hk : readKey data pos with
    | .error e => .error e
    | .ok (inner, wireType, pos') =>
      if wireType = wSgroup then skipGroup data pos' (inner :: top :: outer)
      else if wireType = wEgroup then
        if top = inner then skipGroup data pos' outer else .error .mismatchedEndGroup
      else
        match _hs : valueSpan data pos' wireType with
        | .error e => .error e
        | .ok (_, fin) => skipGroup data fin (top :: outer)
termination_by data.length - pos
decreasing_by
  all_goals have := readKey_pos _hk
  · omega
  · omega
  · have := valueSpan_pos _hs
    omega

/-- The value of a field: an int for a varint, else its bytes. -/
inductive Raw
  | int (n : Nat)
  | bytes (b : Bytes)
  deriving DecidableEq, Repr

/-- A field that `_fields` yields: number, wire type, value. -/
abbrev Field := Nat × Nat × Raw

/-- `data[start:fin]`. -/
def slice (data : Bytes) (start fin : Nat) : Bytes := (data.drop start).take (fin - start)

/-- One round of `_fields`: the field that is yielded (none for a group) and the next
    position. -/
def nextField (data : Bytes) (pos : Nat) : Sp (Option Field × Nat) := do
  let (number, wireType, pos) ← readKey data pos
  if wireType = wSgroup then
    let pos ← skipGroup data pos [number]
    return (none, pos)
  else if wireType = wVarint then
    let (value, pos) ← readVarint data pos
    return (some (number, wireType, .int value), pos)
  else
    let (start, pos) ← valueSpan data pos wireType
    return (some (number, wireType, .bytes (slice data start pos)), pos)

/-- A group ends inside the data. -/
theorem skipGroup_pos {data : Bytes} {pos : Nat} {stack : List Nat} {pos' : Nat}
    (h : skipGroup data pos stack = .ok pos') (hp : pos ≤ data.length) :
    pos ≤ pos' ∧ pos' ≤ data.length := by
  fun_induction skipGroup data pos stack with
  | case1 pos => simp_all
  | case2 => cases h
  | case3 pos top outer inner p hk ih =>
    have := readKey_pos hk
    have := ih h (by omega)
    omega
  | case4 pos outer inner p hk _ ih =>
    have := readKey_pos hk
    have := ih h (by omega)
    omega
  | case5 => cases h
  | case6 => cases h
  | case7 pos top outer inner wireType p hk _ _ start fin hs ih =>
    have := readKey_pos hk
    have := valueSpan_pos hs
    have := ih h (by omega)
    omega

/-- Every round of the field walk moves strictly forward and stays inside the buffer. -/
theorem nextField_pos {data : Bytes} {pos pos' : Nat} {f : Option Field}
    (h : nextField data pos = .ok (f, pos')) : pos < pos' ∧ pos' ≤ data.length := by
  rw [nextField, except_bind_eq_ok] at h
  obtain ⟨⟨number, wireType, p⟩, hk, h⟩ := h
  have hkey := readKey_pos hk
  dsimp only at h
  split at h
  · obtain ⟨q, hq, h⟩ := except_bind_eq_ok.1 h
    have := skipGroup_pos hq hkey.2
    simp only [except_pure, Except.ok.injEq, Prod.mk.injEq] at h
    omega
  split at h
  · obtain ⟨⟨v, q⟩, hq, h⟩ := except_bind_eq_ok.1 h
    have := readVarint_pos hq
    simp only [except_pure, Except.ok.injEq, Prod.mk.injEq] at h
    omega
  · obtain ⟨⟨start, q⟩, hq, h⟩ := except_bind_eq_ok.1 h
    have := valueSpan_pos hq
    simp only [except_pure, Except.ok.injEq, Prod.mk.injEq] at h
    omega

/-- `for number, wire_type, raw in _fields(data): step`, from position `pos` on.  The
    generator is lazy, so the body of the loop runs before the next field is read. -/
def fields {α : Type} (step : α → Field → Sp α) (data : Bytes) (acc : α) (pos : Nat) : Sp α :=
  if pos < data.length then
    match _hf : nextField data pos with
    | .error e => .error e
    | .ok (none, pos') => fields step data acc pos'
    | .ok (some f, pos') =>
      match step acc f with
      | .error e => .error e
      | .ok acc' => fields step data acc' pos'
  else .ok acc
termination_by data.length - pos
decreasing_by
  all_goals
    have := nextField_pos _hf
    omega

/-! ### Checked conversions -/

/-- `_uint`: an integer of at most `bits` bits, and no bool. -/
def uint (value : Value) (bits : Nat) (what : What) : Sp Int :=
  match value with
  | .int n => if n < 0 ∨ 2 ^ bits ≤ n then .error (.notUint what bits value) else .ok n
  | _ => .error (.notUint what bits value)

/-- The UTF-8 bytes of a text. -/
def utf8Bytes (s : String) : Bytes := s.toByteArray.data.toList

/-- `_text`.  A `String` holds no lone surrogate, so encoding it cannot fail. -/
def text (value : Value) (what : What) : Sp Bytes :=
  match value with
  | .str s => .ok (utf8Bytes s)
  | _ => .error (.notStr what value)

/-- `_blob`. -/
def blob (value : Value) (what : What) : Sp Bytes :=
  match value with
  | .buffer _ data => .ok data
  | _ => .error (.notBytes what value)

/-- `_utf8`. -/
def utf8 (raw : Bytes) (what : What) : Sp String :=
  match String.fromUTF8? ⟨raw.toArray⟩ with
  | some s => .ok s
  | none => .error (.notUtf8 what)

/-! ### Metric values -/

/-! The scalar members of the `DataType` enumeration; no other datatype can be encoded. -/

namespace DataType

def int8 : Int := 1
def int16 : Int := 2
def int32 : Int := 3
def int64 : Int := 4
def uint8 : Int := 5
def uint16 : Int := 6
def uint32 : Int := 7
def uint64 : Int := 8
def float : Int := 9
def double : Int := 10
def boolean : Int := 11
def string : Int := 12
def dateTime : Int := 13
def text : Int := 14
def bytes : Int := 17

end DataType

/-- `_INT_TYPES`: integer datatype to (signed, bit width). -/
def intTypes : List (Int × Bool × Nat) :=
  [(DataType.int8, true, 8), (DataType.int16, true, 16), (DataType.int32, true, 32),
    (DataType.int64, true, 64), (DataType.uint8, false, 8), (DataType.uint16, false, 16),
    (DataType.uint32, false, 32), (DataType.uint64, false, 64), (DataType.dateTime, false, 64)]

/-- `_VALUE_FIELDS`: supported datatype to the value fields accepted when decoding; the
    first one is encoded. -/
def valueFields : List (Int × List Nat) :=
  intTypes.map (fun (dt, _, bits) => (dt, if bits ≤ 32 then [fInt, fLong] else [fLong, fInt])) ++
    [(DataType.float, [fFloat, fDouble]), (DataType.double, [fDouble, fFloat]),
      (DataType.boolean, [fBool]), (DataType.string, [fString]), (DataType.text, [fString]),
      (DataType.bytes, [fBytes])]

/-- `_label`. -/
def label (m : Metric) : Label :=
  if m.name ≠ "" then .named m.name
  else if m.metricAlias = .none then .anonymous else .aliased m.metricAlias

/-- `_signed`: a `bits`-wide two's complement pattern as a signed integer. -/
def signed (raw bits : Nat) : Int :=
  if raw >>> (bits - 1) ≠ 0 then (raw : Int) - 2 ^ bits else raw

/-- `float(value)` of a number that is no bool: `none` for the other types, and
    `some none` on overflow. -/
def floatOf : Value → Option (Option F64)
  | .int n => some (F64.ofInt? n)
  | .float x => some (some x)
  | _ => none

/-- `struct.pack("<f", x)`; `none` is `OverflowError`. -/
def packFloat (x : F64) : Option Bytes := x.toSingle.map fun y => packLE 4 y.toNat

/-- `struct.pack("<d", x)`. -/
def packDouble (x : F64) : Bytes := packLE 8 x.toNat

/-- `struct.unpack("<f", raw)[0]`. -/
def unpackFloat (raw : Bytes) : Sp F64 :=
  if raw.length = 4 then .ok (F32.toDouble (BitVec.ofNat 32 (unpackLE raw)))
  else .error .structError

/-- `struct.unpack("<d", raw)[0]`. -/
def unpackDouble (raw : Bytes) : Sp F64 :=
  if raw.length = 8 then .ok (BitVec.ofNat 64 (unpackLE raw)) else .error .structError

/-- The smallest value of an integer datatype. -/
def loOf (signed : Bool) (bits : Nat) : Int := if signed then -2 ^ (bits - 1) else 0

/-- The largest value of an integer datatype. -/
def hiOf (signed : Bool) (bits : Nat) : Int :=
  if signed then 2 ^ (bits - 1) - 1 else 2 ^ bits - 1

/-- `_encode_value`. -/
def encodeValue (datatype : Int) (value : Value) (label : Label) : Sp Bytes :=
  match valueFields.lookup datatype with
  | none | some [] => .error (.keyError datatype)
  | some (number :: _) =>
    match intTypes.lookup datatype with
    | some (signed, bits) =>
      let lo := loOf signed bits
      let hi := hiOf signed bits
      match value with
      | .int n =>
        if lo ≤ n ∧ n ≤ hi then
          -- `value & mask` keeps the value modulo the field width, negative ones included
          fieldVarint number (n % ((if number = fInt then u32Max else u64Max) + 1 : Nat))
        else .error (.notValid label value datatype lo hi)
      | _ => .error (.notValid label value datatype lo hi)
    | none =>
      if number = fFloat ∨ number = fDouble then
        match floatOf value with
        | none => .error (.notNumber label datatype value)
        | some none => .error (.outOfRange label value datatype)
        | some (some x) =>
          if number = fFloat then do
            let k ← key number wI32
            match packFloat x with
            | some bytes => return k ++ bytes
            | none => .error (.outOfRange label value datatype)
          else do
            return (← key number wI64) ++ packDouble x
      else if number = fBool then
        match value with
        | .bool b => fieldVarint number (if b then 1 else 0)
        | .int n =>
          if n = 0 ∨ n = 1 then fieldVarint number n else .error (.notBoolean label value)
        | _ => .error (.notBoolean label value)
      else if number = fString then do
        fieldLen number (← text value ⟨label, "value"⟩)
      else do
        fieldLen number (← blob value ⟨label, "value"⟩)

/-- `_int_from_wire`: an unsigned wire integer of a `fieldBits`-wide field as the integer of
    the metric's datatype. -/
def intFromWire (raw fieldBits : Nat) (metric : Metric) : Sp Int :=
  match intTypes.lookup metric.datatype with
  | none => .error (.keyError metric.datatype)
  | some (isSigned, bits) =>
    if !isSigned then
      if raw >>> bits ≠ 0 then .error (.wireOutOfRange (label metric) raw metric.datatype)
      else .ok raw
    else
      let value := signed raw fieldBits
      if -2 ^ (bits - 1) ≤ value ∧ value < 2 ^ (bits - 1) then .ok value
      -- the narrow form some encoders emit
      else if bits < fieldBits ∧ raw >>> bits = 0 then .ok (signed raw bits)
      else .error (.wireOutOfRange (label metric) raw metric.datatype)

/-- `_decode_value`. -/
def decodeValue (metric : Metric) (number : Nat) (wire : Value) : Sp Value :=
  match valueFields.lookup metric.datatype with
  | none => .ok wire
  | some accepted =>
    if number ∉ accepted then .error (.wrongField (label metric) metric.datatype number)
    else if (intTypes.lookup metric.datatype).isSome then
      match wire with
      | .int raw => do
        return .int (← intFromWire raw.toNat (if number = fInt then 32 else 64) metric)
      | _ => .error .typeError
    else .ok wire

/-! ### Messages -/

/-- `if value is not None: out += _field_varint(number, _uint(value, bits, what))`. -/
def optUint (number : Nat) (value : Value) (bits : Nat) (what : What) : Sp Bytes :=
  if value = .none then .ok [] else do fieldVarint number (← uint value bits what)

/-- `if value is not None: out += _field_len(number, _text(value, what))`. -/
def optText (number : Nat) (value : Value) (what : What) : Sp Bytes :=
  if value = .none then .ok [] else do fieldLen number (← text value what)

/-- `if value is not None: out += _field_len(number, _blob(value, what))`. -/
def optBlob (number : Nat) (value : Value) (what : What) : Sp Bytes :=
  if value = .none then .ok [] else do fieldLen number (← blob value what)

/-- The name field of `_encode_metric`; an empty name is left off the wire. -/
def nameField (m : Metric) : Sp Bytes :=
  if m.name = "" then .ok [] else do fieldLen 1 (← text (.str m.name) ⟨label m, "name"⟩)

/-- The datatype field of `_encode_metric`, after the check that it is supported. -/
def datatypeField (m : Metric) (includeDatatype : Bool) : Sp Bytes :=
  if m.datatype = 0 then .ok []
  else if (valueFields.lookup m.datatype).isNone then
    .error (.unsupportedDatatype (label m) m.datatype)
  else if includeDatatype then fieldVarint 4 m.datatype
  else .ok []

/-- The null flag or the value of `_encode_metric`. -/
def valueField (m : Metric) : Sp Bytes :=
  if m.isNull then fieldVarint 7 1
  else if m.datatype = 0 then .error (.datatypeNeeded (label m))
  else if m.value = .none then .error (.valueIsNone (label m))
  else encodeValue m.datatype m.value (label m)

/-- `_encode_metric`. -/
def encodeMetric (m : Metric) (includeDatatype : Bool) : Sp Bytes := do
  let name ← nameField m
  let aliasField ← optUint 2 m.metricAlias 64 ⟨label m, "alias"⟩
  let timestamp ← optUint 3 m.timestamp 64 ⟨label m, "timestamp"⟩
  let datatype ← datatypeField m includeDatatype
  let value ← valueField m
  return name ++ aliasField ++ timestamp ++ datatype ++ value

/-- The metrics of a payload, each as a length-delimited field. -/
def encodeMetrics (includeDatatype : Bool) : List Metric → Sp Bytes
  | [] => .ok []
  | m :: rest => do
    let field ← fieldLen 2 (← encodeMetric m includeDatatype)
    return field ++ (← encodeMetrics includeDatatype rest)

/-- `encode_payload`; `include_datatype` is true unless the caller says otherwise. -/
def encodePayload (p : Payload) (includeDatatype : Bool) : Sp Bytes := do
  let timestamp ← optUint 1 p.timestamp 64 ⟨none, "payload timestamp"⟩
  let metrics ← encodeMetrics includeDatatype p.metrics
  let seq ← optUint 3 p.seq 8 ⟨none, "payload seq"⟩
  let uuid ← optText 4 p.uuid ⟨none, "payload uuid"⟩
  let body ← optBlob 5 p.body ⟨none, "payload body"⟩
  return timestamp ++ metrics ++ seq ++ uuid ++ body

/-- A metric is encoded part by part. -/
theorem encodeMetric_eq_ok {m : Metric} {includeDatatype : Bool} {bs : Bytes} :
    encodeMetric m includeDatatype = .ok bs ↔ ∃ name al ts dt val,
      nameField m = .ok name ∧ optUint 2 m.metricAlias 64 ⟨label m, "alias"⟩ = .ok al ∧
      optUint 3 m.timestamp 64 ⟨label m, "timestamp"⟩ = .ok ts ∧
      datatypeField m includeDatatype = .ok dt ∧ valueField m = .ok val ∧
      name ++ al ++ ts ++ dt ++ val = bs := by
  unfold encodeMetric
  constructor
  · intro h
    obtain ⟨name, hname, h⟩ := except_bind_eq_ok.1 h
    obtain ⟨al, hal, h⟩ := except_bind_eq_ok.1 h
    obtain ⟨ts, hts, h⟩ := except_bind_eq_ok.1 h
    obtain ⟨dt, hdt, h⟩ := except_bind_eq_ok.1 h
    obtain ⟨val, hval, h⟩ := except_bind_eq_ok.1 h
    exact ⟨name, al, ts, dt, val, hname, hal, hts, hdt, hval, Except.ok.inj h⟩
  · rintro ⟨name, al, ts, dt, val, hname, hal, hts, hdt, hval, rfl⟩
    rw [hname, except_ok_bind, hal, except_ok_bind, hts, except_ok_bind, hdt, except_ok_bind, hval]
    rfl

/-- Metrics are encoded one after another. -/
theorem encodeMetrics_cons_eq_ok {includeDatatype : Bool} {m : Metric} {rest : List Metric}
    {bs : Bytes} : encodeMetrics includeDatatype (m :: rest) = .ok bs ↔ ∃ inner field more,
      encodeMetric m includeDatatype = .ok inner ∧ fieldLen 2 inner = .ok field ∧
      encodeMetrics includeDatatype rest = .ok more ∧ field ++ more = bs := by
  rw [encodeMetrics]
  constructor
  · intro h
    obtain ⟨inner, hinner, h⟩ := except_bind_eq_ok.1 h
    obtain ⟨field, hfield, h⟩ := except_bind_eq_ok.1 h
    obtain ⟨more, hmore, h⟩ := except_bind_eq_ok.1 h
    exact ⟨inner, field, more, hinner, hfield, hmore, Except.ok.inj h⟩
  · rintro ⟨inner, field, more, hinner, hfield, hmore, rfl⟩
    rw [hinner, except_ok_bind, hfield, except_ok_bind, hmore]
    rfl

/-- A payload is encoded part by part. -/
theorem encodePayload_eq_ok {p : Payload} {includeDatatype : Bool} {bs : Bytes} :
    encodePayload p includeDatatype = .ok bs ↔ ∃ ts ms seq uuid body,
      optUint 1 p.timestamp 64 ⟨none, "payload timestamp"⟩ = .ok ts ∧
      encodeMetrics includeDatatype p.metrics = .ok ms ∧
      optUint 3 p.seq 8 ⟨none, "payload seq"⟩ = .ok seq ∧
      optText 4 p.uuid ⟨none, "payload uuid"⟩ = .ok uuid ∧
      optBlob 5 p.body ⟨none, "payload body"⟩ = .ok body ∧
      ts ++ ms ++ seq ++ uuid ++ body = bs := by
  unfold encodePayload
  constructor
  · intro h
    obtain ⟨ts, hts, h⟩ := except_bind_eq_ok.1 h
    obtain ⟨ms, hms, h⟩ := except_bind_eq_ok.1 h
    obtain ⟨seq, hseq, h⟩ := except_bind_eq_ok.1 h
    obtain ⟨uuid, huuid, h⟩ := except_bind_eq_ok.1 h
    obtain ⟨body, hbody, h⟩ := except_bind_eq_ok.1 h
    exact ⟨ts, ms, seq, uuid, body, hts, hms, hseq, huuid, hbody, Except.ok.inj h⟩
  · rintro ⟨ts, ms, seq, uuid, body, hts, hms, hseq, huuid, hbody, rfl⟩
    rw [hts, except_ok_bind, hms, except_ok_bind, hseq, except_ok_bind, huuid, except_ok_bind, hbody]
    rfl

/-- The state of the loop of `_decode_metric`: the metric, and the field number and wire
    value of the value `oneof` seen last. -/
abbrev MetricState := Metric × Option (Nat × Value)

/-- The body of the loop of `_decode_metric`. -/
def metricField (st : MetricState) (f : Field) : Sp MetricState :=
  let (m, value) := st
  match f with
  | (number, _, .int raw) =>
    if number = 2 then .ok ({ m with metricAlias := .int raw }, value)
    else if number = 3 then .ok ({ m with timestamp := .int raw }, value)
    else if number = 4 then .ok ({ m with datatype := (raw &&& u32Max : Nat) }, value)
    else if number = 7 then .ok ({ m with isNull := raw ≠ 0 }, value)
    else if number = fInt then .ok (m, some (number, .int (raw &&& u32Max : Nat)))
    else if number = fLong then .ok (m, some (number, .int raw))
    else if number = fBool then .ok (m, some (number, .bool (raw ≠ 0)))
    else .ok (m, value)
  | (number, wireType, .bytes raw) =>
    if wireType = wLen then
      if number = 1 then do
        return ({ m with name := ← utf8 raw ⟨none, "metric name"⟩ }, value)
      else if number = fString then do
        return (m, some (number, .str (← utf8 raw ⟨none, "metric string value"⟩)))
      else if number = fBytes then .ok (m, some (number, .buffer .bytes raw))
      else .ok (m, value)
    else if number = fFloat ∧ wireType = wI32 then do
      return (m, some (number, .float (← unpackFloat raw)))
    else if number = fDouble ∧ wireType = wI64 then do
      return (m, some (number, .float (← unpackDouble raw)))
    else .ok (m, value)

/-- The end of `_decode_metric`, after the loop. -/
def finishMetric (st : MetricState) : Sp Metric :=
  match st with
  | (m, some (number, wire)) =>
    if m.isNull then .ok m
    else do return { m with value := ← decodeValue m number wire }
  | (m, none) => .ok m

/-- `_decode_metric`. -/
def decodeMetric (data : Bytes) : Sp Metric := do
  finishMetric (← fields metricField data ({}, none) 0)

/-- The body of the loop of `decode_payload`. -/
def payloadField (p : Payload) (f : Field) : Sp Payload :=
  match f with
  | (number, _, .int raw) =>
    if number = 1 then .ok { p with timestamp := .int raw }
    else if number = 3 then .ok { p with seq := .int raw }
    else .ok p
  | (number, wireType, .bytes raw) =>
    if wireType = wLen then
      if number = 2 then do return { p with metrics := p.metrics ++ [← decodeMetric raw] }
      else if number = 4 then do
        return { p with uuid := .str (← utf8 raw ⟨none, "payload uuid"⟩) }
      else if number = 5 then .ok { p with body := .buffer .bytes raw }
      else .ok p
    else .ok p

/-- `decode_payload`, of a byte string. -/
def decodePayload (data : Bytes) : Sp Payload :=
  fields payloadField data ⟨.none, [], .none, .none, .none⟩ 0

end Ser2Net.Engine.Sparkplug
