import Ser2Net.Engine.SparkplugRoundTrip
import Ser2Net.Engine.SparkplugCommand

namespace Ser2Net.Engine.SparkplugCommand

open Ser2Net.Lib Ser2Net.Config Ser2Net.Engine.Modbus
open Ser2Net.Engine.Sparkplug

/-!
# Points of a Sparkplug B edge node and their datatypes

The node announces a datatype for each of its points in the births, and a host may leave the
datatypes off its commands (`app/engine/sparkplug.py`, `app/engine/sparkplug_node.py`).

* `datatypeFor`, `announced` — the datatype of a point;
* `commandValue_received` — a command's value is read alike with the datatype and without it;
* `command_untyped` — both encodings of a command ask for the same writes.
-/

/-! ### Datatypes of points -/

/-- `_DTYPE_DATATYPES`. -/
def dtypeDatatypes : List (String × Int) :=
  [("uint16", DataType.uint16), ("int16", DataType.int16), ("uint32", DataType.uint32),
    ("int32", DataType.int32), ("float32", DataType.float), ("bool", DataType.boolean)]

/-- `datatype_for`; `none` where it raises. -/
def datatypeFor (dtype scale : Json) : Option Int :=
  match dtype with
  | .str s =>
    (dtypeDatatypes.lookup s).map fun datatype =>
      if datatype ≠ DataType.boolean ∧ scales scale then DataType.double else datatype
  | _ => none

/-- The datatype that `_metric` gives a point. -/
def announced (p : ModbusPoint) : Option Int :=
  datatypeFor p.dtype (orElse p.scale (.float (.ofIntExact 1)))

/-- Every accepted point has a datatype. -/
theorem announced_isSome {p : ModbusPoint} (hp : PointValid p) : (announced p).isSome := by
  have htypes : ∀ s ∈ modbusDtypes, (dtypeDatatypes.lookup s).isSome := by decide
  obtain ⟨s, hs, hdtype⟩ := List.any_eq_true.1 hp.dtype
  have hs' : p.dtype = .str s := beq_iff_eq.1 hdtype
  unfold announced datatypeFor
  rw [hs']
  simpa using htypes s hs

/-- An announced integer datatype is that of the point's own type; the others are no integers. -/
theorem announced_cases {p : ModbusPoint} {dt : Int} (h : announced p = some dt) :
    (dt = DataType.double ∨ dt = DataType.float ∨ dt = DataType.boolean) ∨
      (p.dtype = .str "uint16" ∧ dt = DataType.uint16) ∨
      (p.dtype = .str "int16" ∧ dt = DataType.int16) ∨
      (p.dtype = .str "uint32" ∧ dt = DataType.uint32) ∨
      (p.dtype = .str "int32" ∧ dt = DataType.int32) := by
  unfold announced datatypeFor at h
  split at h
  next s hs =>
    obtain ⟨d, hd, h⟩ := Option.map_eq_some_iff.1 h
    have hmem := mem_of_lookup hd
    simp only [dtypeDatatypes, List.mem_cons, Prod.mk.injEq, List.not_mem_nil, or_false] at hmem
    split at h
    · exact Or.inl (Or.inl h.symm)
    · subst h
      rw [hs]
      rcases hmem with ⟨rfl, rfl⟩ | ⟨rfl, rfl⟩ | ⟨rfl, rfl⟩ | ⟨rfl, rfl⟩ | ⟨rfl, rfl⟩ | ⟨rfl, rfl⟩ <;>
        simp
  next => cases h

/-! ### Values of commands -/

/-- A value of a datatype that is no integer never arrives as an integer. -/
theorem normalizeValue_ne_int {dt : Int} {v : Value} {lbl : Label} {bs : Bytes}
    (hdt : dt = DataType.double ∨ dt = DataType.float ∨ dt = DataType.boolean)
    (h : Sparkplug.encodeValue dt v lbl = .ok bs) (n : Int) : normalizeValue dt v ≠ .int n := by
  rcases hdt with rfl | rfl | rfl
  · obtain ⟨x, k, hx, -⟩ := encodeValue_float rfl rfl (Or.inr rfl) h
    simp [normalizeValue, hx, DataType.double, DataType.float]
  · obtain ⟨x, k, hx, hfloat, -⟩ := encodeValue_float rfl rfl (Or.inl rfl) h
    obtain ⟨-, bytes, hpack, -⟩ := hfloat rfl
    obtain ⟨y, hy, -⟩ := unpackFloat_packFloat hpack
    simp [normalizeValue, hx, hy]
  · simp [normalizeValue, DataType.boolean, DataType.double, DataType.float]

theorem wireValue_int {dt : Int} {sgn : Bool} {bits : Nat}
    (h : intTypes.lookup dt = some (sgn, bits)) (n : Int) :
    wireValue dt (.int n) = .int (n % 2 ^ fieldBitsOf bits) := by
  unfold wireValue
  rw [h]

/-- **Values.**  A value that was encoded for the announced datatype of a point is the same value
    for the point, whether the datatype came along or not. -/
theorem commandValue_received {pt : ModbusPoint} {m : Metric} {bs : Bytes}
    (hann : announced pt = some m.datatype) (hnull : m.isNull = false)
    (h : Sparkplug.encodeValue m.datatype m.value (label m) = .ok bs) :
    commandValue pt (received true m) = commandValue pt (received false m) := by
  rcases announced_cases hann with hdt | hint
  · -- no integer: neither value is reinterpreted
    have hne := normalizeValue_ne_int hdt h
    have hnone : intTypes.lookup m.datatype = none := by
      rcases hdt with hdt | hdt | hdt <;> rw [hdt] <;> rfl
    unfold commandValue
    simp only [received, hnull, Bool.false_eq_true, if_false, if_true, wireValue_plain hnone]
  · -- an integer in the 32-bit field
    obtain ⟨sgn, bits, hlook, hbits, hsigned⟩ : ∃ sgn bits,
        intTypes.lookup m.datatype = some (sgn, bits) ∧ (bits = 16 ∨ bits = 32) ∧
          pt.dtype.inStrs ["int16", "int32"] = sgn := by
      rcases hint with ⟨hd, hdt⟩ | ⟨hd, hdt⟩ | ⟨hd, hdt⟩ | ⟨hd, hdt⟩ <;> rw [hd, hdt]
      · exact ⟨false, 16, rfl, Or.inl rfl, by decide⟩
      · exact ⟨true, 16, rfl, Or.inl rfl, by decide⟩
      · exact ⟨false, 32, rfl, Or.inr rfl, by decide⟩
      · exact ⟨true, 32, rfl, Or.inr rfl, by decide⟩
    obtain ⟨n, hn, hlo, hhi, -⟩ := encodeValue_int hlook h
    have hzero : m.datatype ≠ 0 := by
      intro hzero
      rw [hzero] at hlook
      exact absurd hlook (by simp [intTypes, List.lookup, DataType.int8, DataType.int16,
        DataType.int32, DataType.int64, DataType.uint8, DataType.uint16, DataType.uint32,
        DataType.uint64, DataType.dateTime])
    have hfield : fieldBitsOf bits = 32 := by rcases hbits with rfl | rfl <;> rfl
    -- a typed metric is the number itself, an untyped one is reinterpreted from its pattern
    have htyped : commandValue pt (received true m) = .int n := by
      unfold commandValue
      simp only [received, hnull, Bool.false_eq_true, if_false, if_true, normalizeValue_int hlook,
        hn, hzero, false_and]
    have huntyped : commandValue pt (received false m) =
        if sgn = true ∧ 0x7FFFFFFF < n % 2 ^ 32 then .int (n % 2 ^ 32 - 2 ^ 32)
        else .int (n % 2 ^ 32) := by
      unfold commandValue
      simp only [received, hnull, Bool.false_eq_true, if_false, hn, wireValue_int hlook, hfield,
        true_and, hsigned]
    rw [htyped, huntyped]
    cases sgn with
    | true =>
      -- a signed number beyond the middle of the field is brought back below it
      have hrange : -2 ^ 31 ≤ n ∧ n < 2 ^ 31 := by
        rcases hbits with rfl | rfl <;> simp only [loOf, hiOf, if_true] at hlo hhi <;> omega
      by_cases hbig : 0x7FFFFFFF < n % 2 ^ 32
      · rw [if_pos ⟨rfl, hbig⟩]
        congr 1
        omega
      · rw [if_neg fun h => hbig h.2]
        congr 1
        omega
    | false =>
      have hrange : 0 ≤ n ∧ n < 2 ^ 32 := by
        rcases hbits with rfl | rfl <;>
          simp only [loOf, hiOf, Bool.false_eq_true, if_false] at hlo hhi <;> omega
      rw [if_neg (by simp)]
      congr 1
      omega

/-! ### Encodings of one command -/

/-- A varint of a smaller value is not refused where that of a larger one is not. -/
theorem varint_isOk {a b : Nat} {bs : Bytes} (hab : a ≤ b) (h : varint b = .ok bs) :
    ∃ as, varint a = .ok as := by
  unfold varint at h
  split at h
  next hr => exact ⟨_, if_pos (by omega)⟩
  next => cases h

/-- Leaving the datatype off, a metric that can be encoded still can, and gets no longer. -/
theorem encodeMetric_untyped {m : Metric} {bs : Bytes} (h : encodeMetric m true = .ok bs) :
    ∃ as, encodeMetric m false = .ok as ∧ as.length ≤ bs.length := by
  obtain ⟨name, al, ts, dt, val, hname, hal, hts, hdt, hval, rfl⟩ := encodeMetric_eq_ok.1 h
  have hnodt : datatypeField m false = .ok [] := by
    unfold datatypeField at hdt ⊢
    split at hdt
    next hzero => exact if_pos hzero
    next hzero =>
      split at hdt
      · cases hdt
      next hsup =>
        rw [if_neg hzero, if_neg hsup]
        rfl
  exact ⟨name ++ al ++ ts ++ [] ++ val,
    encodeMetric_eq_ok.2 ⟨name, al, ts, [], val, hname, hal, hts, hnodt, hval, rfl⟩, by simp⟩

theorem encodeMetrics_untyped {ms : List Metric} {bs : Bytes}
    (h : encodeMetrics true ms = .ok bs) : ∃ as, encodeMetrics false ms = .ok as := by
  induction ms generalizing bs with
  | nil => exact ⟨[], rfl⟩
  | cons m ms ih =>
    obtain ⟨inner, field, rest, hinner, hfield, hrest, -⟩ := encodeMetrics_cons_eq_ok.1 h
    obtain ⟨inner', hinner', hle⟩ := encodeMetric_untyped hinner
    obtain ⟨rest', hrest'⟩ := ih hrest
    obtain ⟨k, hk, hfield⟩ := except_bind_eq_ok.1 hfield
    obtain ⟨l, hl, -⟩ := except_bind_eq_ok.1 hfield
    obtain ⟨l', hl'⟩ := varint_isOk hle hl
    have hfield' : fieldLen 2 inner' = .ok (k ++ l' ++ inner') := by
      rw [fieldLen, hk, except_ok_bind, hl']
      rfl
    exact ⟨_, encodeMetrics_cons_eq_ok.2 ⟨inner', _, rest', hinner', hfield', hrest', rfl⟩⟩

/-- A payload that can be encoded with its datatypes can be encoded without them. -/
theorem encodePayload_untyped {p : Payload} {bs : Bytes} (h : encodePayload p true = .ok bs) :
    ∃ as, encodePayload p false = .ok as := by
  obtain ⟨ts, ms, seq, uuid, body, hts, hms, hseq, huuid, hbody, -⟩ := encodePayload_eq_ok.1 h
  obtain ⟨ms', hms'⟩ := encodeMetrics_untyped hms
  exact ⟨_, encodePayload_eq_ok.2 ⟨ts, ms', seq, uuid, body, hts, hms', hseq, huuid, hbody, rfl⟩⟩

/-- The metrics of an encoded payload were encoded, with values that their datatypes take. -/
theorem encodeValue_of_encodeMetrics {inc : Bool} {ms : List Metric} {bs : Bytes}
    (h : encodeMetrics inc ms = .ok bs) : ∀ m ∈ ms, m.isNull = false →
      ∃ val, Sparkplug.encodeValue m.datatype m.value (label m) = .ok val := by
  induction ms generalizing bs with
  | nil => simp
  | cons m ms ih =>
    obtain ⟨inner, field, rest, hinner, -, hrest, -⟩ := encodeMetrics_cons_eq_ok.1 h
    intro m' hm' hnull
    rcases List.mem_cons.1 hm' with rfl | hm'
    · obtain ⟨name, al, ts, dt, val, -, -, -, -, hval, -⟩ := encodeMetric_eq_ok.1 hinner
      unfold valueField at hval
      rw [hnull, if_neg Bool.false_ne_true] at hval
      split at hval
      · cases hval
      split at hval
      · cases hval
      · exact ⟨val, hval⟩
    · exact ih hrest m' hm' hnull

/-! ### Writes -/

/-- Two metrics of one name have one target where the point reads their values alike. -/
theorem target_congr {env : PyEnv} {points : List ModbusPoint} {dev : String} {m m' : Metric}
    (hnull : m.isNull = m'.isNull) (hname : m.name = m'.name)
    (hvalue : ∀ pt ∈ points, pt.name = .str m.name → deviceId env pt.unit = dev →
      m.isNull = false → commandValue pt m = commandValue pt m') :
    target env points dev m = target env points dev m' := by
  unfold target
  rw [← hnull, ← hname]
  cases hm : m.isNull with
  | true => rfl
  | false =>
    cases hfind : points.find? fun p =>
        p.name.eqStr m.name ∧ p.writable.truthy ∧ deviceId env p.unit = dev with
    | none => rfl
    | some pt =>
      have hyes := List.find?_some hfind
      rw [decide_eq_true_eq] at hyes
      have := hvalue pt (List.mem_of_find?_eq_some hfind) (beq_iff_eq.1 hyes.1) hyes.2.2 hm
      simp [this]

/-- **Commands without datatypes.**  A node with the points of an accepted mapping asks for the
    same writes, in the same order, whether a command to one of its devices comes with the
    datatypes or without them, when they are the ones announced for the device's points. -/
theorem command_untyped (env : PyEnv) (q : ModbusPoll) (hq : q.validate = .ok ()) (topic : String)
    (p : Payload) (bs : Bytes) (h : encodePayload p true = .ok bs)
    (hann : ∀ m ∈ p.metrics, ∀ pt ∈ q.points, pt.name = .str m.name →
      deviceId env pt.unit = lastLevel topic → announced pt = some m.datatype) :
    ∃ as, encodePayload p false = .ok as ∧
      asked env q.points [.dcmd topic as] = asked env q.points [.dcmd topic bs] := by
  obtain ⟨as, has⟩ := encodePayload_untyped h
  refine ⟨as, has, ?_⟩
  have hinj := name_injOn_of_validate hq
  rw [asked_eq hinj, asked_eq hinj, List.flatMap_singleton, List.flatMap_singleton]
  simp only [permitted, decodePayload_received h, decodePayload_received has, receivedPayload,
    List.filterMap_map]
  refine List.filterMap_congr fun m hm => ?_
  refine target_congr rfl rfl fun pt hpt hname hdev hnull => ?_
  -- the metric was encoded with a value that its datatype takes
  obtain ⟨ts, ms, seq, uuid, body, -, hms, -⟩ := encodePayload_eq_ok.1 h
  obtain ⟨val, hval⟩ := encodeValue_of_encodeMetrics hms m hm hnull
  exact (commandValue_received (hann m hm pt hpt hname hdev) hnull hval).symm

/-- A writable point of the type int16 at unit 1. -/
def signedPoint : ModbusPoint := { register "level" with unit := .int 1, dtype := .str "int16" }

/-- A command that sets it to -3. -/
def setMinusThree : Payload :=
  { timestamp := .int 0
    metrics := [{ name := "level", datatype := DataType.int16, value := .int (-3) }]
    seq := .none }

/-- The value is negative, so without its datatype it arrives as 2³² - 3. -/
theorem command_untyped_negative :
    ∃ as, encodePayload setMinusThree false = .ok as ∧
      asked asciiEnv.py [signedPoint] [.dcmd "spBv1.0/plant/DCMD/plc/unit1" as] =
        [(signedPoint, .int (-3))] := by
  have h : encodePayload setMinusThree true =
      .ok [8, 0, 18, 15, 10, 5, 108, 101, 118, 101, 108, 32, 2, 80, 253, 255, 255, 255, 15] := by
    decide +kernel
  obtain ⟨as, has, hasked⟩ := command_untyped asciiEnv.py ⟨.ofIntExact 5, [signedPoint]⟩
    (by decide +kernel) "spBv1.0/plant/DCMD/plc/unit1" setMinusThree _ h
    (by
      intro m hm pt hpt _ _
      rw [List.mem_singleton.1 hm, List.mem_singleton.1 hpt]
      decide +kernel)
  exact ⟨as, has, hasked.trans (by decide +kernel)⟩

end Ser2Net.Engine.SparkplugCommand
