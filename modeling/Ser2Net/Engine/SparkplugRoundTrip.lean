import Ser2Net.Engine.SparkplugWire
import Ser2Net.Lib.Dict

namespace Ser2Net.Engine.Sparkplug

open Ser2Net.Lib
open Ser2Net.Lib.Protobuf (Digits IsVarint IsKey)

/-!
# Round trip of the Sparkplug B codec

What `encodePayload` writes, `decodePayload` reads back, up to the normalisation of values
that the datatypes imply (`normalizePayload`).

* `isVarint_varint`, `isKey_key` — the writers write varints and keys of the wire format;
* `isField_varint`, `isField_len`, `isField_fixed` — and fields;
* `Reads` — a run of bytes moves the field walk from one state to another; runs compose
  (`Reads.append`), and the two message theorems are chains of them;
* `intFromWire_encoded` — two's complement in a 32- or 64-bit field, for every integer type;
* `decodeMetric_encodeMetric`, `decodePayload_encodePayload` — metrics and payloads.
-/

/-! ### What the writers write -/

/-- A byte with the continuation bit keeps its low seven bits. -/
theorem continuation_byte (v : Nat) :
    (UInt8.ofNat (0x80 ||| (v &&& 0x7F))).toNat = 128 + v % 128 := by
  have hor : 0x80 ||| v % 128 = 128 + v % 128 := by
    have := @Nat.two_pow_add_eq_or_of_lt 7 (v % 128) (by omega) 1
    simpa using this.symm
  rw [and_low7, hor, UInt8.toNat_ofNat']
  omega

/-- The loop of the writer spells the digits of its number. -/
theorem digits_varintLoop (v : Nat) : Digits (varintLoop v) v := by
  fun_induction varintLoop v with
  | case1 v hbig ih =>
    have hcont := continuation_byte v
    have hnot : ¬ UInt8.ofNat (0x80 ||| (v &&& 0x7F)) < 0x80 := by
      rw [UInt8.lt_iff_toNat_lt, hcont, show (0x80 : UInt8).toNat = 128 from rfl]
      omega
    have hnum : (UInt8.ofNat (0x80 ||| (v &&& 0x7F))).toNat % 128 + (v >>> 7) * 128 = v := by
      rw [hcont, Nat.shiftRight_eq_div_pow]
      omega
    have := Digits.more hnot ih
    rwa [hnum] at this
  | case2 v hsmall =>
    have hnat : (UInt8.ofNat v).toNat = v := by
      rw [UInt8.toNat_ofNat']
      omega
    have hbit : UInt8.ofNat v < 0x80 := by
      rw [UInt8.lt_iff_toNat_lt, hnat, show (0x80 : UInt8).toNat = 128 from rfl]
      omega
    have := Digits.last hbit
    rwa [hnat] at this

/-- `n` digits are enough for `7 * n` bits. -/
theorem length_varintLoop {v n : Nat} (hv : v < 2 ^ (7 * n)) (hn : 0 < n) :
    (varintLoop v).length ≤ n := by
  induction n generalizing v with
  | zero => omega
  | succ n ih =>
    unfold varintLoop
    split
    next hbig =>
      have hpow : 2 ^ (7 * (n + 1)) = 2 ^ (7 * n) * 128 := by rw [Nat.mul_succ, Nat.pow_add]
      have hn' : 0 < n := by
        rcases Nat.eq_zero_or_pos n with rfl | h
        · simp at hv
          omega
        · exact h
      have hshr : v >>> 7 < 2 ^ (7 * n) := by
        rw [Nat.shiftRight_eq_div_pow]
        omega
      rw [List.length_cons]
      exact Nat.succ_le_succ (ih hshr hn')
    next => simp

/-- An accepted value is an unsigned 64-bit integer, and its bytes are its varint. -/
theorem isVarint_varint {value : Int} {bs : Bytes} (h : varint value = .ok bs) :
    ∃ v : Nat, value = v ∧ IsVarint bs v := by
  unfold varint at h
  split at h
  next hr =>
    obtain rfl := Except.ok.inj h
    have hlt : value.toNat < 2 ^ 64 := by
      have : u64Max = 2 ^ 64 - 1 := rfl
      omega
    refine ⟨value.toNat, by omega, value.toNat, digits_varintLoop _, ?_, ?_⟩
    · exact length_varintLoop (by omega) (by omega)
    · rw [Nat.mod_eq_of_lt hlt]
  next => cases h

theorem isKey_key {number wireType : Nat} {bs : Bytes} (hk : key number wireType = .ok bs)
    (hnum : 1 ≤ number ∧ number ≤ maxField) (hw : wireType < 8) : IsKey bs number wireType := by
  have hkey : number <<< 3 ||| wireType = number * 8 + wireType := by
    rw [Nat.shiftLeft_eq, Nat.mul_comm, ← Nat.two_pow_add_eq_or_of_lt (by omega)]
  obtain ⟨v, hv, hbs⟩ := isVarint_varint hk
  have hmax : maxField = 2 ^ 29 - 1 := rfl
  refine ⟨v, hbs, ?_, ?_, hnum.1, ?_⟩ <;> omega

/-- A varint field. -/
theorem isField_varint {number : Nat} {value : Int} {bs : Bytes}
    (hf : fieldVarint number value = .ok bs) (hnum : 1 ≤ number ∧ number ≤ maxField) :
    ∃ v : Nat, value = v ∧ IsField bs (some (number, wVarint, .int v)) := by
  obtain ⟨k, hk, h⟩ := except_bind_eq_ok.1 hf
  obtain ⟨b, hb, h⟩ := except_bind_eq_ok.1 h
  obtain ⟨v, hv, hvar⟩ := isVarint_varint hb
  obtain rfl := Except.ok.inj h
  exact ⟨v, hv, .scalar (isKey_key hk hnum (by decide)) (.varint hvar)⟩

/-- A length-delimited field. -/
theorem isField_len {number : Nat} {value bs : Bytes} (hf : fieldLen number value = .ok bs)
    (hnum : 1 ≤ number ∧ number ≤ maxField) :
    IsField bs (some (number, wLen, .bytes value)) := by
  obtain ⟨k, hk, h⟩ := except_bind_eq_ok.1 hf
  obtain ⟨b, hb, h⟩ := except_bind_eq_ok.1 h
  obtain ⟨v, hv, hvar⟩ := isVarint_varint hb
  obtain rfl : v = value.length := by omega
  obtain rfl := Except.ok.inj h
  rw [List.append_assoc]
  exact .scalar (isKey_key hk hnum (by decide)) (.len hvar)

/-- A fixed-width field. -/
theorem isField_fixed {number wireType size : Nat} {k value : Bytes}
    (hk : key number wireType = .ok k) (hnum : 1 ≤ number ∧ number ≤ maxField)
    (hw : wireType = wI64 ∧ size = 8 ∨ wireType = wI32 ∧ size = 4)
    (hsize : value.length = size) : IsField (k ++ value) (some (number, wireType, .bytes value)) := by
  rcases hw with ⟨rfl, rfl⟩ | ⟨rfl, rfl⟩
  · exact .scalar (isKey_key hk hnum (by decide)) (.i64 hsize)
  · exact .scalar (isKey_key hk hnum (by decide)) (.i32 hsize)

/-! ### Runs of fields -/

/-- A byte buffer as `bytes`. -/
def normalizeBuffer : Value → Value
  | .buffer _ data => .buffer .bytes data
  | v => v

section Reads

variable {α : Type} {step : α → Field → Sp α} {a b c : α}

/-- Wherever the bytes `bs` stand in a buffer, the field walk goes over them from state `a`
    to state `b`. -/
def Reads (step : α → Field → Sp α) (bs : Bytes) (a b : α) : Prop :=
  ∀ (data : Bytes) (pos : Nat), pos ≤ data.length → At data pos bs →
    fields step data a pos = fields step data b (pos + bs.length)

theorem Reads.nil : Reads step [] a a := fun _ _ _ _ => rfl

theorem Reads.append {as bs : Bytes} (h₁ : Reads step as a b) (h₂ : Reads step bs b c) :
    Reads step (as ++ bs) a c := by
  intro data pos hpos hat
  have hat' := at_append.1 hat
  rw [h₁ data pos hpos hat'.1, h₂ data _ (hat'.1.length_le hpos) hat'.2, List.length_append,
    Nat.add_assoc]

/-- A buffer that is one run of fields. -/
theorem Reads.fields_eq {bs : Bytes} (h : Reads step bs a b) : fields step bs a 0 = .ok b := by
  rw [h bs 0 (Nat.zero_le _) (at_self bs), fields, if_neg (by omega)]

/-- One field that the body of the loop accepts. -/
theorem Reads.field {bs : Bytes} {f : Field} (hf : IsField bs (some f))
    (hstep : step a f = .ok b) : Reads step bs a b := by
  intro data pos hpos hat
  rw [fields_cons hf hpos hat, Option.toList_some, List.foldlM_cons, hstep]
  rfl

theorem reads_varint {number : Nat} {value : Int} {bs : Bytes}
    (hf : fieldVarint number value = .ok bs) (hnum : 1 ≤ number ∧ number ≤ maxField)
    (hstep : ∀ v : Nat, value = v → step a (number, wVarint, .int v) = .ok b) :
    Reads step bs a b := by
  obtain ⟨v, hv, hfield⟩ := isField_varint hf hnum
  exact Reads.field hfield (hstep v hv)

theorem reads_len {number : Nat} {value bs : Bytes} (hf : fieldLen number value = .ok bs)
    (hnum : 1 ≤ number ∧ number ≤ maxField)
    (hstep : step a (number, wLen, .bytes value) = .ok b) : Reads step bs a b :=
  Reads.field (isField_len hf hnum) hstep

/-- An optional unsigned integer of a message: `None` leaves the field off the wire. -/
theorem reads_optUint (step : α → Field → Sp α) (set : Value → α) {number bits : Nat}
    {v : Value} {what : What} {bs : Bytes} (h : optUint number v bits what = .ok bs)
    (hnum : 1 ≤ number ∧ number ≤ maxField)
    (hstep : ∀ n : Nat, step (set .none) (number, wVarint, .int n) = .ok (set (.int n))) :
    Reads step bs (set .none) (set v) := by
  -- an absent value writes nothing and is read as absent
  unfold optUint at h
  split at h
  next hv =>
    obtain rfl := Except.ok.inj h
    rw [hv]
    exact Reads.nil
  next hv =>
    -- only an integer in the width is written, as one varint
    obtain ⟨n, hn, h⟩ := except_bind_eq_ok.1 h
    unfold uint at hn
    split at hn
    next k =>
      split at hn
      · cases hn
      · obtain rfl := Except.ok.inj hn
        refine reads_varint h hnum ?_
        intro w hw
        rw [hstep w, hw]
    next => cases hn

/-- An optional text of a message. -/
theorem reads_optText (step : α → Field → Sp α) (set : Value → α) {number : Nat} {v : Value}
    {what : What} {bs : Bytes}
    (h : optText number v what = .ok bs) (hnum : 1 ≤ number ∧ number ≤ maxField)
    (hstep : ∀ s, step (set .none) (number, wLen, .bytes (utf8Bytes s)) = .ok (set (.str s))) :
    Reads step bs (set .none) (set v) := by
  unfold optText at h
  split at h
  next hv =>
    obtain rfl := Except.ok.inj h
    rw [hv]
    exact Reads.nil
  next hv =>
    obtain ⟨raw, hraw, h⟩ := except_bind_eq_ok.1 h
    unfold text at hraw
    split at hraw
    next s =>
      obtain rfl := Except.ok.inj hraw
      exact reads_len h hnum (hstep s)
    next => cases hraw

/-- An optional byte string of a message, which comes back as `bytes`. -/
theorem reads_optBlob (step : α → Field → Sp α) (set : Value → α) {number : Nat} {v : Value}
    {what : What} {bs : Bytes}
    (h : optBlob number v what = .ok bs) (hnum : 1 ≤ number ∧ number ≤ maxField)
    (hstep : ∀ data, step (set .none) (number, wLen, .bytes data) =
      .ok (set (.buffer .bytes data))) :
    Reads step bs (set .none) (set (normalizeBuffer v)) := by
  unfold optBlob at h
  split at h
  next hv =>
    obtain rfl := Except.ok.inj h
    rw [hv]
    exact Reads.nil
  next hv =>
    obtain ⟨raw, hraw, h⟩ := except_bind_eq_ok.1 h
    unfold blob at hraw
    split at hraw
    next kind data =>
      obtain rfl := Except.ok.inj hraw
      exact reads_len h hnum (hstep data)
    next => cases hraw

end Reads

/-! ### Values -/

/-- UTF-8 decoding inverts encoding. -/
@[simp] theorem utf8_utf8Bytes (s : String) (what : What) : utf8 (utf8Bytes s) what = .ok s := by
  have hbytes : (⟨(utf8Bytes s).toArray⟩ : ByteArray) = s.toByteArray := by
    simp [utf8Bytes]
  have hdec : String.fromUTF8? s.toByteArray = some s := by
    rw [String.fromUTF8?, dif_pos s.isValidUTF8]
    simp [String.fromUTF8]
  rw [utf8, hbytes, hdec]

@[simp] theorem unpackDouble_packDouble (x : F64) : unpackDouble (packDouble x) = .ok x := by
  have hx : x.toNat % 256 ^ 8 = x.toNat := Nat.mod_eq_of_lt x.isLt
  rw [unpackDouble, packDouble, packLE_length, if_pos rfl, unpackLE_packLE, hx,
    BitVec.ofNat_toNat, BitVec.setWidth_eq]

/-- Packing a single rounds once; unpacking gives the rounded value. -/
theorem unpackFloat_packFloat {x : F64} {bytes : Bytes} (h : packFloat x = some bytes) :
    ∃ y : F32, x.toSingle = some y ∧ bytes.length = 4 ∧ unpackFloat bytes = .ok y.toDouble := by
  rw [packFloat, Option.map_eq_some_iff] at h
  obtain ⟨y, hy, rfl⟩ := h
  have hm : y.toNat % 256 ^ 4 = y.toNat := Nat.mod_eq_of_lt y.isLt
  refine ⟨y, hy, packLE_length 4 _, ?_⟩
  rw [unpackFloat, packLE_length, if_pos rfl, unpackLE_packLE, hm, BitVec.ofNat_toNat,
    BitVec.setWidth_eq]

/-- What the tables say about an integer datatype: its width is one of four, and it is
    encoded in the 32-bit field up to 32 bits and in the 64-bit field above. -/
theorem intTypes_lookup {dt : Int} {sgn : Bool} {bits : Nat}
    (h : intTypes.lookup dt = some (sgn, bits)) :
    (bits = 8 ∨ bits = 16 ∨ bits = 32 ∨ bits = 64) ∧
      valueFields.lookup dt = some (if bits ≤ 32 then [fInt, fLong] else [fLong, fInt]) := by
  have hmem : (dt, sgn, bits) ∈ intTypes := mem_of_lookup h
  simp only [intTypes, List.mem_cons, Prod.mk.injEq, List.not_mem_nil, or_false] at hmem
  rcases hmem with h | h | h | h | h | h | h | h | h <;> obtain ⟨rfl, rfl, rfl⟩ := h <;> decide

/-- The other datatypes with a value field. -/
theorem valueFields_lookup {dt : Int} {l : List Nat} (hint : intTypes.lookup dt = none)
    (h : valueFields.lookup dt = some l) :
    (dt = DataType.float ∧ l = [fFloat, fDouble]) ∨
      (dt = DataType.double ∧ l = [fDouble, fFloat]) ∨ (dt = DataType.boolean ∧ l = [fBool]) ∨
      (dt = DataType.string ∧ l = [fString]) ∨ (dt = DataType.text ∧ l = [fString]) ∨
      (dt = DataType.bytes ∧ l = [fBytes]) := by
  have hmem : (dt, l) ∈ valueFields := mem_of_lookup h
  rw [valueFields, List.mem_append, List.mem_map] at hmem
  rcases hmem with ⟨⟨d, sgn, bits⟩, hmem, heq⟩ | hmem
  · -- an integer datatype is in the table of integers
    simp only [intTypes, List.mem_cons, Prod.mk.injEq, List.not_mem_nil, or_false] at hmem heq
    obtain ⟨rfl, -⟩ := heq
    rcases hmem with h | h | h | h | h | h | h | h | h <;> rw [h.1] at hint <;>
      exact absurd hint (by decide)
  · simpa only [List.mem_cons, Prod.mk.injEq, List.not_mem_nil, or_false] using hmem

/-- The field width that an integer datatype of `bits` bits is encoded in. -/
def fieldBitsOf (bits : Nat) : Nat := if bits ≤ 32 then 32 else 64

/-- **Two's complement.**  An integer in the range of its datatype, reduced to the width of
    its field, reads back as itself, for every signed and unsigned width. -/
theorem intFromWire_encoded {m : Metric} {sgn : Bool} {bits : Nat} {n : Int}
    (h : intTypes.lookup m.datatype = some (sgn, bits))
    (hlo : loOf sgn bits ≤ n) (hhi : n ≤ hiOf sgn bits) :
    intFromWire (n % 2 ^ fieldBitsOf bits).toNat (fieldBitsOf bits) m = .ok n := by
  have hw := (intTypes_lookup h).1
  rw [intFromWire, h]
  dsimp only
  cases sgn with
  | false =>
    have hraw : n % 2 ^ fieldBitsOf bits = n := by
      rcases hw with rfl | rfl | rfl | rfl <;>
        simp only [loOf, hiOf, fieldBitsOf] at hlo hhi ⊢ <;> norm_num at hlo hhi ⊢ <;> omega
    -- no bit above the width of the datatype
    have hfit : n.toNat >>> bits = 0 := by
      rw [Nat.shiftRight_eq_div_pow]
      rcases hw with rfl | rfl | rfl | rfl <;> simp only [loOf, hiOf] at hlo hhi <;>
        norm_num at hlo hhi ⊢ <;> omega
    rw [hraw, if_pos (by decide), if_neg (by omega)]
    have : 0 ≤ n := by simpa [loOf] using hlo
    rw [Int.toNat_of_nonneg this]
  | true =>
    -- the sign is taken from the field, which the datatype extends to
    have hval : signed (n % 2 ^ fieldBitsOf bits).toNat (fieldBitsOf bits) = n := by
      rw [signed, Nat.shiftRight_eq_div_pow]
      rcases hw with rfl | rfl | rfl | rfl <;>
        simp only [loOf, hiOf, fieldBitsOf] at hlo hhi ⊢ <;> norm_num at hlo hhi ⊢ <;>
        split <;> omega
    have hrange : -2 ^ (bits - 1) ≤ n ∧ n < 2 ^ (bits - 1) := by
      simp only [loOf, hiOf, if_true] at hlo hhi
      omega
    rw [if_neg (by decide), hval, if_pos hrange]

/-! ### Normalisation -/

/-- The value that a datatype makes of the value given for it: a number for a Float or a
    Double becomes a float (a Float rounded to single precision), 0 and 1 for a Boolean
    become bools and a byte buffer becomes bytes.  The other values stay. -/
def normalizeValue (datatype : Int) (value : Value) : Value :=
  if datatype = DataType.float then
    match floatOf value with
    | some (some x) => (x.toSingle.map fun y => Value.float y.toDouble).getD value
    | _ => value
  else if datatype = DataType.double then
    match floatOf value with
    | some (some x) => .float x
    | _ => value
  else if datatype = DataType.boolean then .bool (value = .bool true ∨ value = .int 1)
  else if datatype = DataType.bytes then normalizeBuffer value
  else value

/-- Integers stay as they are. -/
theorem normalizeValue_int {dt : Int} {v : Value} {ty : Bool × Nat}
    (h : intTypes.lookup dt = some ty) : normalizeValue dt v = v := by
  have hne : dt ≠ DataType.float ∧ dt ≠ DataType.double ∧ dt ≠ DataType.boolean ∧
      dt ≠ DataType.bytes := by
    refine ⟨?_, ?_, ?_, ?_⟩ <;> rintro rfl <;> exact absurd h (by decide +revert)
  unfold normalizeValue
  rw [if_neg hne.1, if_neg hne.2.1, if_neg hne.2.2.1, if_neg hne.2.2.2]

/-- A metric with its value normalised; a null metric has none. -/
def normalizeMetric (m : Metric) : Metric :=
  { m with value := if m.isNull then .none else normalizeValue m.datatype m.value }

/-- A payload with its metrics and its body normalised. -/
def normalizePayload (p : Payload) : Payload :=
  { p with metrics := p.metrics.map normalizeMetric, body := normalizeBuffer p.body }

/-! ### A value on the wire -/

/-- What the wire holds for a value of a datatype: an integer modulo the width of its field, and
    the other values as the datatype makes them. -/
def wireValue (datatype : Int) (value : Value) : Value :=
  match intTypes.lookup datatype, value with
  | some (_, bits), .int n => .int (n % 2 ^ fieldBitsOf bits)
  | _, _ => normalizeValue datatype value

/-- The bytes `bs` write the wire value `wire`: the loop takes it up as the value seen last,
    whatever the metric, and a metric of the datatype turns it into `v`. -/
def Writes (bs : Bytes) (datatype : Int) (wire v : Value) : Prop :=
  ∃ number, (∀ m seen, Reads metricField bs (m, seen) (m, some (number, wire))) ∧
    ∀ m : Metric, m.datatype = datatype → decodeValue m number wire = .ok v

theorem wireValue_plain {dt : Int} (hint : intTypes.lookup dt = none) (v : Value) :
    wireValue dt v = normalizeValue dt v := by
  unfold wireValue
  rw [hint]

/-- An accepted integer is in the range of its datatype and is written modulo the width of
    its field. -/
theorem encodeValue_int {dt : Int} {v : Value} {lbl : Label} {bs : Bytes} {sgn : Bool}
    {bits : Nat} (hint : intTypes.lookup dt = some (sgn, bits))
    (h : encodeValue dt v lbl = .ok bs) :
    ∃ n, v = .int n ∧ loOf sgn bits ≤ n ∧ n ≤ hiOf sgn bits ∧
      fieldVarint (if bits ≤ 32 then fInt else fLong) (n % 2 ^ fieldBitsOf bits) = .ok bs := by
  have hvf := (intTypes_lookup hint).2
  rw [encodeValue, hvf, hint] at h
  split at h
  -- a type with two fields is no integer type
  next heq => cases heq
  next heq =>
    split at heq <;> cases heq
  next number _ heq =>
    dsimp only at h
    split at h
    next n =>
      split at h
      next hr =>
        refine ⟨n, rfl, hr.1, hr.2, ?_⟩
        -- the field is the 32-bit one for 32 bits and less
        by_cases hb : bits ≤ 32
        · rw [if_pos hb, Option.some.injEq, List.cons.injEq] at heq
          rw [← heq.1, if_pos rfl] at h
          rw [if_pos hb, fieldBitsOf, if_pos hb]
          exact h
        · rw [if_neg hb, Option.some.injEq, List.cons.injEq] at heq
          rw [← heq.1, if_neg (by decide)] at h
          rw [if_neg hb, fieldBitsOf, if_neg hb]
          exact h
      next => cases h
    next => cases h

/-- Decoding a wire integer in an accepted field. -/
theorem decodeValue_int {m : Metric} {accepted : List Nat} {number raw : Nat} {n : Int}
    {ty : Bool × Nat} (hvf : valueFields.lookup m.datatype = some accepted)
    (hnum : number ∈ accepted) (hint : intTypes.lookup m.datatype = some ty)
    (hwire : intFromWire raw (if number = fInt then 32 else 64) m = .ok n) :
    decodeValue m number (.int raw) = .ok (.int n) := by
  rw [decodeValue, hvf]
  dsimp only
  rw [if_neg (by simpa using hnum), hint, if_pos (by rfl), Int.toNat_natCast, hwire]
  rfl

/-- Any other wire value in an accepted field is the value. -/
theorem writes_plain {dt : Int} {accepted : List Nat} {number : Nat} {v wire : Value}
    {bs : Bytes} (hvf : valueFields.lookup dt = some accepted) (hnum : number ∈ accepted)
    (hint : intTypes.lookup dt = none) (hnorm : normalizeValue dt v = wire)
    (hreads : ∀ m seen, Reads metricField bs (m, seen) (m, some (number, wire))) :
    Writes bs dt (wireValue dt v) (normalizeValue dt v) := by
  rw [wireValue_plain hint, hnorm]
  refine ⟨number, hreads, ?_⟩
  intro m hm
  unfold decodeValue
  rw [hm, hvf]
  dsimp only
  rw [if_neg (by simpa using hnum), hint, if_neg (by simp)]

/-- An integer in an accepted field: what is read there is the two's complement pattern, and the
    number is found back from it. -/
theorem writes_twos {dt : Int} {accepted : List Nat} {number : Nat} {n : Int} {bs : Bytes}
    {sgn : Bool} {bits : Nat} (hint : intTypes.lookup dt = some (sgn, bits))
    (hlo : loOf sgn bits ≤ n) (hhi : n ≤ hiOf sgn bits)
    (hvf : valueFields.lookup dt = some accepted) (hnum : number ∈ accepted)
    (hwidth : (if number = fInt then 32 else 64) = fieldBitsOf bits)
    (hfield : fieldVarint number (n % 2 ^ fieldBitsOf bits) = .ok bs)
    (hmax : 1 ≤ number ∧ number ≤ maxField)
    (hwalk : ∀ (m : Metric) (seen : Option (Nat × Value)) (w : Nat),
      n % 2 ^ fieldBitsOf bits = w →
        metricField (m, seen) (number, wVarint, .int w) = .ok (m, some (number, .int w))) :
    Writes bs dt (wireValue dt (.int n)) (.int n) := by
  -- on the wire there is the pattern, a non-negative number
  have hwire : wireValue dt (.int n) = .int (n % 2 ^ fieldBitsOf bits).toNat := by
    have : 0 ≤ n % 2 ^ fieldBitsOf bits := Int.emod_nonneg _ (by positivity)
    unfold wireValue
    rw [hint, Int.toNat_of_nonneg this]
  rw [hwire]
  refine ⟨number, ?_, ?_⟩
  · intro m seen
    refine reads_varint hfield hmax ?_
    intro w hw
    have hmod : (n % 2 ^ fieldBitsOf bits).toNat = w := by omega
    rw [hmod, hwalk m seen w hw]
  -- of the pattern the reader makes the number again
  · intro m hm
    have hback := intFromWire_encoded (hm ▸ hint) hlo hhi
    rw [← hwidth] at hback ⊢
    exact decodeValue_int (hm ▸ hvf) hnum (hm ▸ hint) hback

/-- An integer datatype. -/
theorem writes_int {dt : Int} {v : Value} {lbl : Label} {bs : Bytes} {sgn : Bool}
    {bits : Nat} (hint : intTypes.lookup dt = some (sgn, bits))
    (h : encodeValue dt v lbl = .ok bs) : Writes bs dt (wireValue dt v) v := by
  obtain ⟨n, rfl, hlo, hhi, hfield⟩ := encodeValue_int hint h
  have hvf := (intTypes_lookup hint).2
  by_cases hb : bits ≤ 32
  · have hfb : fieldBitsOf bits = 32 := if_pos hb
    rw [if_pos hb] at hfield hvf
    refine writes_twos hint hlo hhi hvf List.mem_cons_self hfb.symm hfield (by decide) ?_
    -- the reader masks the narrow field, which holds no more than its width
    intro m seen w hw
    have hw32 : w &&& u32Max = w := by
      rw [u32Max, Nat.and_two_pow_sub_one_eq_mod]
      rw [hfb] at hw
      omega
    simp [metricField, fInt, hw32]
  · have hfb : fieldBitsOf bits = 64 := if_neg hb
    rw [if_neg hb] at hfield hvf
    refine writes_twos hint hlo hhi hvf List.mem_cons_self hfb.symm hfield (by decide) ?_
    intro m seen w hw
    simp [metricField, fLong, fInt]

/-- An accepted number for a Float or a Double converts to a float. -/
theorem encodeValue_float {dt : Int} {v : Value} {lbl : Label} {bs : Bytes} {number : Nat}
    {rest : List Nat} (hvf : valueFields.lookup dt = some (number :: rest))
    (hint : intTypes.lookup dt = none) (hnum : number = fFloat ∨ number = fDouble)
    (h : encodeValue dt v lbl = .ok bs) :
    ∃ x k, floatOf v = some (some x) ∧
      (number = fFloat → key number wI32 = .ok k ∧
        ∃ bytes, packFloat x = some bytes ∧ bs = k ++ bytes) ∧
      (number ≠ fFloat → key number wI64 = .ok k ∧ bs = k ++ packDouble x) := by
  unfold encodeValue at h
  rw [hvf, hint] at h
  dsimp only at h
  rw [if_pos hnum] at h
  rcases hx : floatOf v with _ | _ | x
  · rw [hx] at h
    cases h
  · rw [hx] at h
    cases h
  · rw [hx] at h
    dsimp only at h
    -- a single may be out of range, a double is not
    split at h
    next hn =>
      obtain ⟨k, hk, h⟩ := except_bind_eq_ok.1 h
      split at h
      next bytes hpack =>
        exact ⟨x, k, rfl, fun _ => ⟨hk, bytes, hpack, (Except.ok.inj h).symm⟩,
          fun hne => absurd hn hne⟩
      next => cases h
    next hn =>
      obtain ⟨k, hk, h⟩ := except_bind_eq_ok.1 h
      exact ⟨x, k, rfl, fun he => absurd he hn, fun _ => ⟨hk, (Except.ok.inj h).symm⟩⟩

theorem writes_float {dt : Int} {v : Value} {lbl : Label} {bs : Bytes}
    (hdt : dt = DataType.float) (h : encodeValue dt v lbl = .ok bs) :
    Writes bs dt (wireValue dt v) (normalizeValue dt v) := by
  have hvf : valueFields.lookup dt = some [fFloat, fDouble] := by rw [hdt]; rfl
  have hint : intTypes.lookup dt = none := by rw [hdt]; rfl
  obtain ⟨x, k, hx, hfloat, -⟩ := encodeValue_float hvf hint (Or.inl rfl) h
  obtain ⟨hk, bytes, hpack, rfl⟩ := hfloat rfl
  obtain ⟨y, hy, hlen, hunpack⟩ := unpackFloat_packFloat hpack
  have hnorm : normalizeValue dt v = .float y.toDouble := by
    unfold normalizeValue
    rw [if_pos hdt, hx]
    dsimp only
    rw [hy]
    rfl
  refine writes_plain hvf List.mem_cons_self hint hnorm fun m seen =>
    Reads.field (isField_fixed hk (by decide) (Or.inr ⟨rfl, rfl⟩) hlen) ?_
  simp [metricField, hunpack, wI32, wLen, fFloat]

theorem writes_double {dt : Int} {v : Value} {lbl : Label} {bs : Bytes}
    (hdt : dt = DataType.double) (h : encodeValue dt v lbl = .ok bs) :
    Writes bs dt (wireValue dt v) (normalizeValue dt v) := by
  have hvf : valueFields.lookup dt = some [fDouble, fFloat] := by rw [hdt]; rfl
  have hint : intTypes.lookup dt = none := by rw [hdt]; rfl
  obtain ⟨x, k, hx, -, hdouble⟩ := encodeValue_float hvf hint (Or.inr rfl) h
  obtain ⟨hk, rfl⟩ := hdouble (by decide)
  have hnorm : normalizeValue dt v = .float x := by
    unfold normalizeValue
    rw [hdt, if_neg (by decide), if_pos rfl, hx]
  refine writes_plain hvf List.mem_cons_self hint hnorm fun m seen =>
    Reads.field (isField_fixed hk (by decide) (Or.inl ⟨rfl, rfl⟩) (packLE_length 8 _)) ?_
  simp [metricField, wI64, wI32, wLen, fDouble, fFloat]

/-- `True`, `False`, 1 and 0 are what a Boolean takes. -/
theorem writes_boolean {dt : Int} {v : Value} {lbl : Label} {bs : Bytes}
    (hdt : dt = DataType.boolean) (h : encodeValue dt v lbl = .ok bs) :
    Writes bs dt (wireValue dt v) (normalizeValue dt v) := by
  have hvf : valueFields.lookup dt = some [fBool] := by rw [hdt]; rfl
  have hint : intTypes.lookup dt = none := by rw [hdt]; rfl
  have hnorm : normalizeValue dt v = .bool (v = .bool true ∨ v = .int 1) := by
    unfold normalizeValue
    rw [hdt, if_neg (by decide), if_neg (by decide), if_pos rfl]
  -- 1 and 0 are written as the bools are
  obtain ⟨b, hb, hfield⟩ : ∃ b : Bool, decide (v = .bool true ∨ v = .int 1) = b ∧
      fieldVarint fBool (if b then 1 else 0) = .ok bs := by
    unfold encodeValue at h
    rw [hvf, hint] at h
    dsimp only at h
    rw [if_neg (by decide), if_pos rfl] at h
    split at h
    next b => exact ⟨b, by cases b <;> simp, h⟩
    next n =>
      split at h
      next hn =>
        rcases hn with rfl | rfl
        · exact ⟨false, by simp, h⟩
        · exact ⟨true, by simp, h⟩
      next => cases h
    next => cases h
  rw [hb] at hnorm
  refine writes_plain hvf List.mem_cons_self hint hnorm fun m seen =>
    reads_varint hfield (by decide) ?_
  intro w hw
  have hw' : decide (w ≠ 0) = b := by
    cases b <;> simp at hw ⊢ <;> omega
  simp only [metricField, fBool, fInt, fLong]
  rw [hw']
  rfl

theorem writes_text {dt : Int} {v : Value} {lbl : Label} {bs : Bytes}
    (hdt : dt = DataType.string ∨ dt = DataType.text)
    (h : encodeValue dt v lbl = .ok bs) :
    Writes bs dt (wireValue dt v) (normalizeValue dt v) := by
  have hvf : valueFields.lookup dt = some [fString] := by
    rcases hdt with hdt | hdt <;> rw [hdt] <;> rfl
  have hint : intTypes.lookup dt = none := by
    rcases hdt with hdt | hdt <;> rw [hdt] <;> rfl
  have hnorm : normalizeValue dt v = v := by
    unfold normalizeValue
    rcases hdt with hdt | hdt <;> rw [hdt, if_neg (by decide), if_neg (by decide),
      if_neg (by decide), if_neg (by decide)]
  -- the value is a text, or the encoder raises
  unfold encodeValue at h
  rw [hvf, hint] at h
  dsimp only at h
  rw [if_neg (by decide), if_neg (by decide), if_pos rfl] at h
  obtain ⟨raw, hraw, h⟩ := except_bind_eq_ok.1 h
  unfold text at hraw
  split at hraw
  next s =>
    obtain rfl := Except.ok.inj hraw
    refine writes_plain hvf List.mem_cons_self hint hnorm fun m seen => reads_len h (by decide) ?_
    simp [metricField, fString]
  next => cases hraw

theorem writes_bytes {dt : Int} {v : Value} {lbl : Label} {bs : Bytes}
    (hdt : dt = DataType.bytes) (h : encodeValue dt v lbl = .ok bs) :
    Writes bs dt (wireValue dt v) (normalizeValue dt v) := by
  have hvf : valueFields.lookup dt = some [fBytes] := by rw [hdt]; rfl
  have hint : intTypes.lookup dt = none := by rw [hdt]; rfl
  unfold encodeValue at h
  rw [hvf, hint] at h
  dsimp only at h
  rw [if_neg (by decide), if_neg (by decide), if_neg (by decide)] at h
  obtain ⟨raw, hraw, h⟩ := except_bind_eq_ok.1 h
  unfold blob at hraw
  split at hraw
  next kind data =>
    obtain rfl := Except.ok.inj hraw
    have hnorm : normalizeValue dt (.buffer kind data) = .buffer .bytes data := by
      unfold normalizeValue
      rw [hdt, if_neg (by decide), if_neg (by decide), if_neg (by decide), if_pos rfl]
      rfl
    refine writes_plain hvf List.mem_cons_self hint hnorm fun m seen => reads_len h (by decide) ?_
    simp [metricField, fBytes, fString]
  next => cases hraw

/-- **Values.**  What `encodeValue` writes is the wire value, which a metric of the datatype turns
    into the normalised value, whatever the datatype. -/
theorem writes_encodeValue {dt : Int} {v : Value} {lbl : Label} {bs : Bytes}
    (h : encodeValue dt v lbl = .ok bs) : Writes bs dt (wireValue dt v) (normalizeValue dt v) := by
  rcases hint : intTypes.lookup dt with _ | ⟨sgn, bits⟩
  · rcases hvf : valueFields.lookup dt with _ | l
    · unfold encodeValue at h
      rw [hvf] at h
      cases h
    · rcases valueFields_lookup hint hvf with h' | h' | h' | h' | h' | h'
      · exact writes_float h'.1 h
      · exact writes_double h'.1 h
      · exact writes_boolean h'.1 h
      · exact writes_text (Or.inl h'.1) h
      · exact writes_text (Or.inr h'.1) h
      · exact writes_bytes h'.1 h
  · rw [normalizeValue_int hint]
    exact writes_int hint h

/-! ### Metrics and payloads -/

/-- A datatype that the tables support fits the 32 bits that the decoder keeps. -/
theorem datatype_low {dt : Int} {w : Nat} (h : (valueFields.lookup dt).isSome)
    (hw : dt = w) : ((w &&& u32Max : Nat) : Int) = dt := by
  rw [u32Max, Nat.and_two_pow_sub_one_eq_mod]
  obtain ⟨l, hl⟩ := Option.isSome_iff_exists.1 h
  have hall : ∀ p ∈ valueFields, p.1 ≤ 17 := by decide
  have hle : dt ≤ 17 := hall _ (mem_of_lookup hl)
  omega

/-- A metric as it is received: a metric sent without its datatype has none, and keeps the plain
    wire value. -/
def received (includeDatatype : Bool) (m : Metric) : Metric :=
  { m with
    datatype := if includeDatatype then m.datatype else 0
    value :=
      if m.isNull then .none
      else if includeDatatype then normalizeValue m.datatype m.value
      else wireValue m.datatype m.value }

/-- A payload as it is received. -/
def receivedPayload (includeDatatype : Bool) (p : Payload) : Payload :=
  { p with metrics := p.metrics.map (received includeDatatype), body := normalizeBuffer p.body }

/-- The fields of a metric before its value. -/
theorem reads_metricHead {m : Metric} {includeDatatype : Bool} {name al ts dt : Bytes}
    (hname : nameField m = .ok name)
    (hal : optUint 2 m.metricAlias 64 ⟨label m, "alias"⟩ = .ok al)
    (hts : optUint 3 m.timestamp 64 ⟨label m, "timestamp"⟩ = .ok ts)
    (hdt : datatypeField m includeDatatype = .ok dt) :
    Reads metricField (name ++ al ++ ts ++ dt) ({}, none)
      ({ m with
          datatype := if includeDatatype then m.datatype else 0
          value := .none
          isNull := false }, none) := by
  -- one field after the other, each read into the metric that the ones before have made
  have rname : Reads metricField name ({}, none) ({ name := m.name }, none) := by
    unfold nameField at hname
    split at hname
    next hempty =>
      obtain rfl := Except.ok.inj hname
      rw [hempty]
      exact Reads.nil
    next hne =>
      have hfield : fieldLen 1 (utf8Bytes m.name) = .ok name := hname
      exact reads_len hfield (by decide) (by simp [metricField])
  have ral : Reads metricField al ({ name := m.name }, none)
      ({ name := m.name, metricAlias := m.metricAlias }, none) :=
    reads_optUint metricField (fun v => ({ name := m.name, metricAlias := v }, none)) hal
      (by decide) (fun n => by simp [metricField])
  have rts : Reads metricField ts ({ name := m.name, metricAlias := m.metricAlias }, none)
      ({ name := m.name, metricAlias := m.metricAlias, timestamp := m.timestamp }, none) :=
    reads_optUint metricField (fun v =>
      ({ name := m.name, metricAlias := m.metricAlias, timestamp := v }, none)) hts (by decide)
      (fun n => by simp [metricField])
  have rdt : Reads metricField dt
      ({ name := m.name, metricAlias := m.metricAlias, timestamp := m.timestamp }, none)
      ({ m with
          datatype := if includeDatatype then m.datatype else 0
          value := .none
          isNull := false }, none) := by
    unfold datatypeField at hdt
    split at hdt
    next hzero =>
      obtain rfl := Except.ok.inj hdt
      rw [hzero, ite_self]
      exact Reads.nil
    next hne =>
      split at hdt
      · cases hdt
      next hsup =>
        cases includeDatatype with
        | true =>
          refine reads_varint hdt (by decide) fun w hw => ?_
          simp [metricField, datatype_low (by simpa using hsup) hw]
        | false =>
          obtain rfl := Except.ok.inj hdt
          exact Reads.nil
  exact ((rname.append ral).append rts).append rdt

/-- Without a datatype the wire value is the value. -/
theorem decodeValue_untyped {m : Metric} (h : m.datatype = 0) (number : Nat) (wire : Value) :
    decodeValue m number wire = .ok wire := by
  unfold decodeValue
  rw [h]
  rfl

/-- **Metrics.**  An encoded metric decodes to the metric as it is received. -/
theorem decodeMetric_received {m : Metric} {includeDatatype : Bool} {bs : Bytes}
    (h : encodeMetric m includeDatatype = .ok bs) :
    decodeMetric bs = .ok (received includeDatatype m) := by
  obtain ⟨name, al, ts, dt, val, hname, hal, hts, hdt, hval, rfl⟩ := encodeMetric_eq_ok.1 h
  have rhead := reads_metricHead hname hal hts hdt
  unfold valueField at hval
  unfold decodeMetric
  split at hval
  next hnull =>
    -- a null metric: the flag is all that follows
    have rnull : ∀ mm : Metric, Reads metricField val (mm, none) ({ mm with isNull := true }, none) := by
      intro mm
      refine reads_varint hval (by decide) fun w hw => ?_
      obtain rfl : w = 1 := by omega
      simp [metricField]
    rw [(rhead.append (rnull _)).fields_eq, except_ok_bind]
    simp [finishMetric, received, hnull]
  next hnull =>
    split at hval
    · cases hval
    split at hval
    · cases hval
    obtain ⟨number, hreads, hdec⟩ := writes_encodeValue hval
    rw [(rhead.append (hreads _ none)).fields_eq, except_ok_bind]
    cases includeDatatype with
    | true => simp [finishMetric, received, hnull, hdec]
    | false => simp [finishMetric, received, hnull, decodeValue_untyped]

/-- With its datatype, an encoded metric decodes to the metric with its value normalised. -/
theorem decodeMetric_encodeMetric {m : Metric} {bs : Bytes}
    (h : encodeMetric m true = .ok bs) : decodeMetric bs = .ok (normalizeMetric m) :=
  decodeMetric_received h

/-- The metrics of a payload are appended in order. -/
theorem reads_metrics {ms : List Metric} {includeDatatype : Bool} {bs : Bytes}
    (h : encodeMetrics includeDatatype ms = .ok bs) (p : Payload) :
    Reads payloadField bs p
      { p with metrics := p.metrics ++ ms.map (received includeDatatype) } := by
  induction ms generalizing bs p with
  | nil =>
    obtain rfl := Except.ok.inj h
    simpa using Reads.nil
  | cons m ms ih =>
    obtain ⟨inner, field, rest, hinner, hfield, hrest, rfl⟩ := encodeMetrics_cons_eq_ok.1 h
    have rfirst : Reads payloadField field p
        { p with metrics := p.metrics ++ [received includeDatatype m] } := by
      refine reads_len hfield (by decide) ?_
      simp [payloadField, decodeMetric_received hinner]
    have := rfirst.append (ih hrest _)
    simpa using this

/-- What an encoded payload decodes to, with the datatypes on the wire or without them. -/
theorem decodePayload_received {p : Payload} {includeDatatype : Bool} {bs : Bytes}
    (h : encodePayload p includeDatatype = .ok bs) :
    decodePayload bs = .ok (receivedPayload includeDatatype p) := by
  obtain ⟨ts, ms, seq, uuid, body, hts, hms, hseq, huuid, hbody, rfl⟩ := encodePayload_eq_ok.1 h
  have rts := reads_optUint payloadField
    (fun v => ⟨v, [], .none, .none, .none⟩) hts (by decide) (fun n => by simp [payloadField])
  have rms := reads_metrics hms ⟨p.timestamp, [], .none, .none, .none⟩
  have rseq := reads_optUint payloadField
    (fun v => ⟨p.timestamp, p.metrics.map (received includeDatatype), v, .none, .none⟩) hseq
    (by decide) (fun n => by simp [payloadField])
  have ruuid := reads_optText payloadField
    (fun v => ⟨p.timestamp, p.metrics.map (received includeDatatype), p.seq, v, .none⟩) huuid
    (by decide) (fun s => by simp [payloadField])
  have rbody := reads_optBlob payloadField
    (fun v => ⟨p.timestamp, p.metrics.map (received includeDatatype), p.seq, p.uuid, v⟩) hbody
    (by decide) (fun data => by simp [payloadField])
  exact ((((rts.append rms).append rseq).append ruuid).append rbody).fields_eq

/-- **Payloads.**  For every payload that `encodePayload` accepts, decoding the encoding
    succeeds and gives the payload back: timestamp, sequence number, order of the metrics,
    names, aliases, datatypes, integers and strings exactly, null metrics without a value,
    and the other values in the form their datatype has. -/
theorem decodePayload_encodePayload (p : Payload) (bs : Bytes) (h : encodePayload p true = .ok bs) :
    decodePayload bs = .ok (normalizePayload p) :=
  decodePayload_received h

/-- A payload with a negative integer, an int given for a Float, a null metric that was given
    a value, and a `bytearray` body. -/
def birthSample : Payload :=
  { timestamp := .int 1000
    metrics :=
      [{ name := "bdSeq", datatype := DataType.int16, value := .int (-1), metricAlias := .int 300 },
        { name := "é", datatype := DataType.float, value := .int 1 },
        { name := "on", datatype := DataType.boolean, value := .int 5, isNull := true }]
    seq := .int 255
    body := .buffer .bytearray [1, 2] }

/-- The wire form of `birthSample`. -/
def birthSampleBytes : Bytes :=
  [8, 232, 7, 18, 18, 10, 5, 98, 100, 83, 101, 113, 16, 172, 2, 32, 2, 80, 255, 255, 255, 255,
    15, 18, 11, 10, 2, 195, 169, 32, 9, 101, 0, 0, 128, 63, 18, 8, 10, 2, 111, 110, 32, 11, 56,
    1, 24, 255, 1, 42, 2, 1, 2]

/-- The round trip of `birthSample`. -/
theorem decodePayload_birthSample :
    encodePayload birthSample true = .ok birthSampleBytes ∧
      decodePayload birthSampleBytes = .ok (normalizePayload birthSample) := by
  have h : encodePayload birthSample true = .ok birthSampleBytes := by decide +kernel
  exact ⟨h, decodePayload_encodePayload birthSample birthSampleBytes h⟩

end Ser2Net.Engine.Sparkplug
