import Ser2Net.Engine.SparkplugReport

namespace Ser2Net.Engine.SparkplugReport

open Ser2Net.Lib Ser2Net.Config Ser2Net.Engine.Modbus
open Ser2Net.Engine.Sparkplug Ser2Net.Engine.SparkplugCommand
open Ser2Net.Engine.SparkplugNode (nextSeq)
open Ser2Net.Lib.Replica (Holds)

/-!
# The host of a Sparkplug B edge node

With values that the announced datatypes carry exactly, every call of the node returns, and a host
that hears its messages holds its values.

* `Fits` — encoders that return, with a bound for what they return;
* `publishAll_ok`, `step_ok` — the calls return;
* `host_holds` — the host holds the node's values, and each change is in one DDATA.
-/

/-! ### Calls return -/

/-- The code returns at most `n` bytes. -/
def Fits (n : Nat) (x : Sp Bytes) : Prop := ∃ bs, x = .ok bs ∧ bs.length ≤ n

/-- A varint of 64 bits. -/
theorem fits_varint {v : Int} (hlo : 0 ≤ v) (hhi : v < 2 ^ 64) : Fits 10 (varint v) := by
  have hmax : u64Max = 2 ^ 64 - 1 := rfl
  refine ⟨varintLoop v.toNat, if_pos (by omega), ?_⟩
  exact length_varintLoop (by omega) (by omega)

/-- A key with a small number. -/
theorem fits_key {number wireType : Nat} (hnum : number ≤ 16) (hw : wireType ≤ 5) :
    Fits 10 (key number wireType) := by
  refine fits_varint (by omega) ?_
  have hor : number <<< 3 ||| wireType < 2 ^ 8 :=
    Nat.or_lt_two_pow (by rw [Nat.shiftLeft_eq]; omega) (by omega)
  omega

/-- A numeric field. -/
theorem fits_fieldVarint {number : Nat} {v : Int} (hnum : number ≤ 16) (hlo : 0 ≤ v)
    (hhi : v < 2 ^ 64) : Fits 20 (fieldVarint number v) := by
  obtain ⟨k, hk, hklen⟩ := fits_key hnum (Nat.zero_le 5)
  obtain ⟨b, hb, hblen⟩ := fits_varint hlo hhi
  refine ⟨k ++ b, ?_, by rw [List.length_append]; omega⟩
  rw [fieldVarint, show key number wVarint = .ok k from hk, except_ok_bind, hb]
  rfl

/-- A field with a length. -/
theorem fits_fieldLen {number : Nat} {value : Bytes} (hnum : number ≤ 16)
    (hlen : value.length < 2 ^ 64) : Fits (20 + value.length) (fieldLen number value) := by
  obtain ⟨k, hk, hklen⟩ := fits_key hnum (show wLen ≤ 5 by decide)
  obtain ⟨b, hb, hblen⟩ := fits_varint (Int.natCast_nonneg value.length) (by omega)
  refine ⟨k ++ b ++ value, ?_, by simp only [List.length_append]; omega⟩
  rw [fieldLen, hk, except_ok_bind, hb]
  rfl

/-- An integer in its range. -/
theorem fits_encodeValue_int {dt : Int} {isSigned : Bool} {bits : Nat} {n : Int} {lbl : Label}
    (hint : intTypes.lookup dt = some (isSigned, bits)) (hlo : loOf isSigned bits ≤ n)
    (hhi : n ≤ hiOf isSigned bits) : Fits 20 (Sparkplug.encodeValue dt (.int n) lbl) := by
  have hvf := (intTypes_lookup hint).2
  unfold Sparkplug.encodeValue
  by_cases hb : bits ≤ 32
  · rw [if_pos hb] at hvf
    rw [hvf, hint]
    dsimp only
    rw [if_pos ⟨hlo, hhi⟩, if_pos rfl]
    have hmax : ((u32Max + 1 : Nat) : Int) = 2 ^ 32 := rfl
    have hlt := Int.emod_lt_of_pos n (show (0 : Int) < (u32Max + 1 : Nat) by omega)
    exact fits_fieldVarint (by decide) (Int.emod_nonneg _ (by omega)) (by omega)
  · rw [if_neg hb] at hvf
    rw [hvf, hint]
    dsimp only
    rw [if_pos ⟨hlo, hhi⟩, if_neg (by decide)]
    have hmax : ((u64Max + 1 : Nat) : Int) = 2 ^ 64 := rfl
    have hlt := Int.emod_lt_of_pos n (show (0 : Int) < (u64Max + 1 : Nat) by omega)
    exact fits_fieldVarint (by decide) (Int.emod_nonneg _ (by omega)) (by omega)

/-- A float that fits into 32 bits. -/
theorem fits_encodeValue_float {x : F64} {y : F32} {lbl : Label} (h : x.toSingle = some y) :
    Fits 20 (Sparkplug.encodeValue DataType.float (.float x) lbl) := by
  obtain ⟨k, hk, hklen⟩ := fits_key (show fFloat ≤ 16 by decide) (show wI32 ≤ 5 by decide)
  have hpack : packFloat x = some (packLE 4 y.toNat) := by rw [packFloat, h, Option.map_some]
  have hvf : valueFields.lookup DataType.float = some [fFloat, fDouble] := by decide
  have hint : intTypes.lookup DataType.float = none := by decide
  refine ⟨k ++ packLE 4 y.toNat, ?_, by rw [List.length_append, packLE_length]; omega⟩
  unfold Sparkplug.encodeValue
  rw [hvf, hint]
  simp only [floatOf, true_or, if_true]
  rw [hk, except_ok_bind, hpack]
  rfl

/-- A double. -/
theorem fits_encodeValue_double {x : F64} {lbl : Label} :
    Fits 20 (Sparkplug.encodeValue DataType.double (.float x) lbl) := by
  obtain ⟨k, hk, hklen⟩ := fits_key (show fDouble ≤ 16 by decide) (show wI64 ≤ 5 by decide)
  have hvf : valueFields.lookup DataType.double = some [fDouble, fFloat] := by decide
  have hint : intTypes.lookup DataType.double = none := by decide
  refine ⟨k ++ packDouble x, ?_, by rw [List.length_append, packDouble, packLE_length]; omega⟩
  unfold Sparkplug.encodeValue
  rw [hvf, hint]
  simp only [floatOf, or_true, if_true]
  rw [if_neg (show ¬ fDouble = fFloat by decide), hk, except_ok_bind]
  rfl

/-- A boolean, or a coil as a number. -/
theorem fits_encodeValue_boolean {b : Bool} {v : Value} {lbl : Label}
    (hv : v = .bool b ∨ v = .int (if b then 1 else 0)) :
    Fits 20 (Sparkplug.encodeValue DataType.boolean v lbl) := by
  have hfield : Fits 20 (fieldVarint fBool (if b then 1 else 0)) :=
    fits_fieldVarint (by decide) (by split <;> omega) (by split <;> omega)
  rcases hv with rfl | rfl
  · exact hfield
  · cases b <;> exact hfield

/-- A metric that the node makes can be encoded, when its name has a length that a text can have. -/
theorem fits_encodeMetric {m : Metric} {ts : Value} {b : Nat}
    (hname : (utf8Bytes m.name).length < 2 ^ 63) (halias : m.metricAlias = .none)
    (hts : m.timestamp = ts) (hstamp : ts = .none ∨ ts = .int b ∧ b < 2 ^ 64)
    (hdt : 1 ≤ m.datatype ∧ m.datatype ≤ 17) (hsup : (valueFields.lookup m.datatype).isSome)
    (hvalue : m.isNull = true ∨
      m.value ≠ .none ∧ Fits 20 (Sparkplug.encodeValue m.datatype m.value (label m))) :
    Fits (2 ^ 63 + 100) (encodeMetric m true) := by
  -- each field by itself; the name is the only one whose length is not bounded by the format
  have hname' : Fits (20 + (utf8Bytes m.name).length) (nameField m) := by
    unfold nameField
    split
    · exact ⟨[], rfl, Nat.zero_le _⟩
    · show Fits _ (fieldLen 1 (utf8Bytes m.name))
      exact fits_fieldLen (by decide) (by omega)
  have hal' : optUint 2 m.metricAlias 64 ⟨label m, "alias"⟩ = .ok [] := if_pos halias
  have hts' : Fits 20 (optUint 3 m.timestamp 64 ⟨label m, "timestamp"⟩) := by
    rcases hstamp with rfl | ⟨rfl, hb⟩
    · exact ⟨[], if_pos hts, Nat.zero_le _⟩
    · rw [hts, optUint, if_neg (by simp), uint, if_neg (by omega), except_ok_bind]
      exact fits_fieldVarint (by decide) (by omega) (by omega)
  have hdt' : Fits 20 (datatypeField m true) := by
    have hnone : ¬ (valueFields.lookup m.datatype).isNone = true := by
      rw [Option.isNone_iff_eq_none]
      rintro h
      rw [h] at hsup
      cases hsup
    rw [datatypeField, if_neg (by omega), if_neg hnone, if_pos rfl]
    exact fits_fieldVarint (by decide) (by omega) (by omega)
  have hvalue' : Fits 20 (valueField m) := by
    unfold valueField
    rcases hvalue with hnull | ⟨hne, hfits⟩
    · rw [if_pos hnull]
      exact fits_fieldVarint (by decide) (by decide) (by decide)
    · by_cases hnull : m.isNull = true
      · rw [if_pos hnull]
        exact fits_fieldVarint (by decide) (by decide) (by decide)
      · rw [if_neg hnull, if_neg (show ¬ m.datatype = 0 by omega), if_neg hne]
        exact hfits
  obtain ⟨name, hn, hnlen⟩ := hname'
  obtain ⟨stamp, hs, hslen⟩ := hts'
  obtain ⟨dt, hd, hdlen⟩ := hdt'
  obtain ⟨val, hv, hvlen⟩ := hvalue'
  refine ⟨name ++ [] ++ stamp ++ dt ++ val, ?_, ?_⟩
  · rw [encodeMetric, hn, except_ok_bind, hal', except_ok_bind, hs, except_ok_bind, hd,
      except_ok_bind, hv]
    rfl
  · simp only [List.length_append, List.length_nil]
    omega

/-- A row of metrics that can be encoded, each in a field of its own. -/
theorem encodeMetrics_ok {ms : List Metric}
    (h : ∀ m ∈ ms, Fits (2 ^ 63 + 100) (encodeMetric m true)) :
    ∃ bs, encodeMetrics true ms = .ok bs := by
  induction ms with
  | nil => exact ⟨[], rfl⟩
  | cons m ms ih =>
    obtain ⟨inner, hinner, hlen⟩ := h m List.mem_cons_self
    obtain ⟨field, hfield, -⟩ :=
      fits_fieldLen (show 2 ≤ 16 by decide) (show inner.length < 2 ^ 64 by omega)
    obtain ⟨rest, hrest⟩ := ih fun m hm => h m (List.mem_cons_of_mem _ hm)
    refine ⟨field ++ rest, ?_⟩
    rw [encodeMetrics, hinner, except_ok_bind, hfield, except_ok_bind, hrest]
    rfl

/-- Metrics that fit are published. -/
theorem publish_ok {topic : Topic} {now : UInt64} {seq : Nat} {ms : List Metric} (hseq : seq < 256)
    (h : ∀ m ∈ ms, Fits (2 ^ 63 + 100) (encodeMetric m true)) :
    ∃ msg, publish topic now seq ms = .ok msg := by
  have hnow : now.toNat < 2 ^ 64 := now.toNat_lt
  obtain ⟨bytes, hbytes⟩ := encodeMetrics_ok h
  obtain ⟨ts, hts, -⟩ := fits_fieldVarint (show 1 ≤ 16 by decide)
    (Int.natCast_nonneg now.toNat) (by omega)
  obtain ⟨sq, hsq, -⟩ := fits_fieldVarint (show 3 ≤ 16 by decide)
    (Int.natCast_nonneg seq) (by omega)
  have henc : encodePayload ⟨.int now.toNat, ms, .int seq, .none, .none⟩ true =
      .ok (ts ++ bytes ++ sq ++ [] ++ []) := by
    rw [encodePayload, optUint, if_neg (by simp), uint, if_neg (by omega), except_ok_bind, hts,
      except_ok_bind, hbytes, except_ok_bind, optUint, if_neg (by simp), uint, if_neg (by omega),
      except_ok_bind, hsq, except_ok_bind]
    rfl
  unfold publish
  rw [henc]
  exact ⟨_, rfl⟩

/-- A text is no longer than a text can be (`sys.maxsize` bytes). -/
def ShortNames (points : List ModbusPoint) : Prop :=
  ∀ p ∈ points, ∀ name, p.name = .str name → (utf8Bytes name).length < 2 ^ 63

/-- The values of the points are carried exactly by the datatypes that the node announces. -/
def AllCarried (points : List ModbusPoint) (values : String → Reading) : Prop :=
  ∀ p ∈ points, ∀ name, p.name = .str name →
    ∃ dt, announced p = some dt ∧ Carries dt (values name)

/-- Announced datatypes are supported. -/
theorem announced_supported {p : ModbusPoint} {dt : Int} (h : announced p = some dt) :
    1 ≤ dt ∧ dt ≤ 17 ∧ (valueFields.lookup dt).isSome := by
  rcases announced_cases h with (rfl | rfl | rfl) | ⟨-, rfl⟩ | ⟨-, rfl⟩ | ⟨-, rfl⟩ | ⟨-, rfl⟩ <;>
    decide

/-- A value that its datatype carries makes a metric that can be encoded. -/
theorem metricOf_ok {name : String} {dt : Int} {now : UInt64} {v : Reading}
    (hname : (utf8Bytes name).length < 2 ^ 63)
    (hdt : 1 ≤ dt ∧ dt ≤ 17 ∧ (valueFields.lookup dt).isSome) (h : Carries dt v) :
    ∃ m, metricOf name dt now v = .ok m ∧ Fits (2 ^ 63 + 100) (encodeMetric m true) := by
  have hstamp : (Value.int now.toNat = .none ∨
      Value.int now.toNat = .int now.toNat ∧ now.toNat < 2 ^ 64) := Or.inr ⟨rfl, now.toNat_lt⟩
  -- null needs no value, so only metrics with a value are left to the encoder
  have hvalue : ∀ value : Value, value ≠ .none →
      (∀ lbl, Fits 20 (Sparkplug.encodeValue dt value lbl)) →
        Fits (2 ^ 63 + 100) (encodeMetric
          { name := name, datatype := dt, value := value, timestamp := .int now.toNat } true) :=
    fun value hne hfits => fits_encodeMetric hname rfl rfl hstamp ⟨hdt.1, hdt.2.1⟩ hdt.2.2
      (Or.inr ⟨hne, hfits _⟩)
  by_cases hnone : v = .none
  · subst hnone
    exact ⟨_, rfl, fits_encodeMetric hname rfl rfl hstamp ⟨hdt.1, hdt.2.1⟩ hdt.2.2 (Or.inl rfl)⟩
  have hne : v.toValue ≠ .none := by
    cases v with
    | none => exact absurd rfl hnone
    | bool _ | int _ | float _ => simp [Reading.toValue]
  have hfloat : ∀ x, v.toFloat? = some x → (dt = DataType.float ∨ dt = DataType.double) →
      metricOf name dt now v = .ok
        { name := name, datatype := dt, value := .float x, timestamp := .int now.toNat } := by
    intro x hx hd
    unfold metricOf
    split
    · exact absurd rfl hnone
    · rw [if_pos hd, hx]
  have hother : ¬ (dt = DataType.float ∨ dt = DataType.double) →
      metricOf name dt now v = .ok
        { name := name, datatype := dt, value := v.toValue, timestamp := .int now.toNat } := by
    intro hd
    unfold metricOf
    split
    · exact absurd rfl hnone
    · rw [if_neg hd]
  have h := h.resolve_left hnone
  rcases hint : intTypes.lookup dt with _ | ⟨isSigned, bits⟩
  · rw [hint] at h
    rcases h with ⟨rfl, x, hx, hsingle⟩ | ⟨rfl, x, hx⟩ | ⟨rfl, b, hb⟩
    · obtain ⟨y, hy, -⟩ := Option.map_eq_some_iff.1 hsingle
      exact ⟨_, hfloat x hx.1 (Or.inl rfl), hvalue _ (by simp) fun _ => fits_encodeValue_float hy⟩
    · exact ⟨_, hfloat x hx.1 (Or.inr rfl), hvalue _ (by simp) fun _ => fits_encodeValue_double⟩
    · refine ⟨_, hother (by decide), hvalue _ hne fun _ => fits_encodeValue_boolean (b := b) ?_⟩
      rcases hb with rfl | rfl
      · exact Or.inl rfl
      · exact Or.inr rfl
  · rw [hint] at h
    obtain ⟨n, rfl, hlo, hhi⟩ := h
    exact ⟨_, hother (not_float_of_int hint),
      hvalue _ hne fun _ => fits_encodeValue_int hint hlo hhi⟩

section
variable {env : PyEnv} {points : List ModbusPoint} (hnamed : Named points)
  (hshort : ShortNames points)
include hnamed hshort

/-- A point of the host has a metric that fits. -/
theorem metric_ok (now : Clock) {values : String → Reading} (hvalues : AllCarried points values)
    {p : ModbusPoint} (hp : p ∈ points) :
    ∃ m, metric points now values p.name = .ok m ∧ Fits (2 ^ 63 + 100) (encodeMetric m true) := by
  obtain ⟨name, hname⟩ := hnamed.text p hp
  obtain ⟨dt, hdt, hcarries⟩ := hvalues p hp name hname
  have hmetric : metric points now values p.name =
      metricOf name dt (now.metric name) (values name) := by
    unfold metric
    rw [hname]
    dsimp only
    rw [hnamed.pointNamed hp hname]
    dsimp only
    rw [hdt]
  rw [hmetric]
  exact metricOf_ok (hshort p hp name hname) (announced_supported hdt) hcarries

/-- A row of names gives a row of metrics that can be encoded. -/
theorem metrics_ok (now : Clock) {values : String → Reading} (hvalues : AllCarried points values)
    {names : List Json} (hnames : ∀ n ∈ names, ∃ p ∈ points, p.name = n) :
    ∃ ms, names.mapM (metric points now values) = .ok ms ∧
      ∀ m ∈ ms, Fits (2 ^ 63 + 100) (encodeMetric m true) := by
  induction names with
  | nil => exact ⟨[], rfl, by simp⟩
  | cons n names ih =>
    obtain ⟨p, hp, rfl⟩ := hnames n List.mem_cons_self
    obtain ⟨m, hm, hfit⟩ := metric_ok hnamed hshort now hvalues hp
    obtain ⟨ms, hms, hfits⟩ := ih fun n hn => hnames n (List.mem_cons_of_mem _ hn)
    refine ⟨m :: ms, ?_, List.forall_mem_cons.2 ⟨hfit, hfits⟩⟩
    rw [List.mapM_cons, hm, except_ok_bind, hms]
    rfl

/-- The metrics of all devices are published. -/
theorem publishAll_ok (topic : String → Topic) (now : Clock) {values : String → Reading}
    (hvalues : AllCarried points values) {jobs : List (String × List Json)}
    (hjobs : ∀ job ∈ jobs, ∀ n ∈ job.2, ∃ p ∈ points, p.name = n) {seq : Nat} (hseq : seq < 256) :
    ∃ last msgs, publishAll points topic now values seq jobs = .ok (last, msgs) ∧ last < 256 := by
  induction jobs generalizing seq with
  | nil => exact ⟨seq, [], rfl, hseq⟩
  | cons job rest ih =>
    obtain ⟨dev, names⟩ := job
    obtain ⟨ms, hms, hfits⟩ :=
      metrics_ok hnamed hshort now hvalues (hjobs (dev, names) List.mem_cons_self)
    have hnext : nextSeq seq < 256 := Nat.mod_lt _ (by decide)
    obtain ⟨msg, hmsg⟩ := publish_ok hnext hfits
    obtain ⟨last, more, hmore, hlast⟩ :=
      ih (fun job hjob => hjobs job (List.mem_cons_of_mem _ hjob)) hnext
    refine ⟨last, msg :: more, ?_, hlast⟩
    rw [publishAll, hms, except_ok_bind, hmsg, except_ok_bind, hmore]
    rfl

end

/-! ### Runs -/

/-- The values of an update are carried exactly by the datatypes of their points. -/
def CallCarried (points : List ModbusPoint) : Call → Prop
  | .update values _ =>
    ∀ p ∈ points, ∀ name v, p.name = .str name → values name = some v →
      ∃ dt, announced p = some dt ∧ Carries dt v
  | _ => True

section
variable {env : PyEnv} {points : List ModbusPoint}

/-- The new values of an update are carried when the old ones were. -/
theorem newValues_carried {values : String → Option Reading} {now : Clock} {st : State}
    (hc : CallCarried points (.update values now)) (hst : AllCarried points st.values) :
    AllCarried points (newValues points st values) := by
  intro p hp name hname
  unfold newValues changed
  cases hv : values name with
  | none => simpa using hst p hp name hname
  | some w =>
    dsimp only
    split
    · exact hc p hp name w hname hv
    · exact hst p hp name hname

/-- The values after a call are carried when those before it were. -/
theorem step_carried {c : Call} {st st' : State} {msgs : List Msg}
    (h : step env points st c = .ok (st', msgs)) (hc : CallCarried points c)
    (hst : AllCarried points st.values) : AllCarried points st'.values := by
  cases c with
  | birth now =>
    rw [(birth_spec h).1]
    exact hst
  | update values now =>
    rw [(update_spec h).1]
    exact newValues_carried hc hst
  | will =>
    rw [(will_spec h).1]
    exact hst

/-- What a run leaves are values that are carried. -/
theorem run_carried {calls : List Call} {st st' : State} {msgs : List Msg}
    (h : run env points st calls = .ok (st', msgs)) (hcalls : ∀ c ∈ calls, CallCarried points c)
    (hst : AllCarried points st.values) : AllCarried points st'.values := by
  induction calls generalizing st msgs with
  | nil =>
    rw [(run_nil h).1]
    exact hst
  | cons c rest ih =>
    obtain ⟨st₁, ms, more, hstep, hrun, -⟩ := run_cons h
    exact ih hrun (fun c hc => hcalls c (List.mem_cons_of_mem _ hc))
      (step_carried hstep (hcalls c List.mem_cons_self) hst)

/-- What a point changes to is carried. -/
theorem changes_carried {p : ModbusPoint} (hp : p ∈ points) {name : String}
    (hname : p.name = .str name) {dt : Int} (hdt : announced p = some dt) {calls : List Call}
    (hcalls : ∀ c ∈ calls, CallCarried points c) (v : Reading) :
    ∀ w ∈ changes name v calls, Carries dt w := by
  induction calls generalizing v with
  | nil => simp [changes]
  | cons c rest ih =>
    have ih := ih fun c hc => hcalls c (List.mem_cons_of_mem _ hc)
    have hc := hcalls c List.mem_cons_self
    cases c with
    | birth now => exact ih v
    | will => exact ih v
    -- only an update that names the point can change its value
    | update values now =>
      unfold changes
      cases hv : values name with
      | none => exact ih v
      | some w =>
        obtain ⟨dt', hdt', hw⟩ := hc p hp name w hname hv
        obtain rfl := Option.some.inj (hdt'.symm.trans hdt)
        dsimp only
        split
        · exact List.forall_mem_cons.2 ⟨hw, ih w⟩
        · exact ih v

end

/-- The numbers of a node are in their ranges, and its values are carried. -/
structure Sound (points : List ModbusPoint) (st : State) : Prop where
  seq : st.seq < 256
  bdseq : st.bdseq < 256
  carried : AllCarried points st.values

/-- The NBIRTH. -/
theorem nbirth_ok (now : UInt64) {bdseq : Nat} (hbdseq : bdseq < 256) :
    ∃ msg, publish .nbirth now 0
      [{ name := bdSeqName, datatype := DataType.uint64, value := .int bdseq },
        { name := rebirthName, datatype := DataType.boolean, value := .bool false }] = .ok msg := by
  have hint : intTypes.lookup DataType.uint64 = some (false, 64) := by decide
  have hname : (utf8Bytes bdSeqName).length < 2 ^ 63 := by decide +kernel
  have hname' : (utf8Bytes rebirthName).length < 2 ^ 63 := by decide +kernel
  have hdt : 1 ≤ DataType.uint64 ∧ DataType.uint64 ≤ 17 := by decide
  have hdt' : 1 ≤ DataType.boolean ∧ DataType.boolean ≤ 17 := by decide
  have hsup : (valueFields.lookup DataType.uint64).isSome := by decide
  have hsup' : (valueFields.lookup DataType.boolean).isSome := by decide
  refine publish_ok (by decide)
    (List.forall_mem_cons.2 ⟨?_, List.forall_mem_cons.2 ⟨?_, by simp⟩⟩)
  · refine fits_encodeMetric (b := 0) hname rfl rfl (Or.inl rfl) hdt hsup
      (Or.inr ⟨by simp, fits_encodeValue_int hint ?_ ?_⟩)
    · simp [loOf]
    · simp only [hiOf, Bool.false_eq_true, if_false]
      omega
  · exact fits_encodeMetric (b := 0) hname' rfl rfl (Or.inl rfl) hdt' hsup'
      (Or.inr ⟨by simp, fits_encodeValue_boolean (b := false) (Or.inl rfl)⟩)

section
variable {env : PyEnv} {points : List ModbusPoint} (hnamed : Named points)
  (hshort : ShortNames points)
include hnamed hshort

/-- **Calls return**, and leave the node sound. -/
theorem step_ok {c : Call} {st : State} (hc : CallCarried points c) (hst : Sound points st) :
    ∃ st' msgs, step env points st c = .ok (st', msgs) ∧ Sound points st' := by
  have hjobs : ∀ job ∈ devices env points, ∀ n ∈ job.2, ∃ p ∈ points, p.name = n := by
    rintro ⟨dev, names⟩ hjob n hn
    obtain ⟨p, hp, hname, -⟩ := exists_point hjob hn
    exact ⟨p, hp, hname⟩
  -- the values are carried by `step_carried`; what is left are the two numbers
  suffices hstep : ∃ st' msgs, step env points st c = .ok (st', msgs) ∧ st'.seq < 256 ∧
      st'.bdseq < 256 by
    obtain ⟨st', msgs, hstep, hseq, hbdseq⟩ := hstep
    exact ⟨st', msgs, hstep, hseq, hbdseq, step_carried hstep hc hst.carried⟩
  cases c with
  | birth now =>
    obtain ⟨nbirth, hnbirth⟩ := nbirth_ok (now.payload none) hst.bdseq
    obtain ⟨last, births, hbirths, hlast⟩ := publishAll_ok hnamed hshort .dbirth now hst.carried
      hjobs (show 0 < 256 by decide)
    refine ⟨{ st with seq := last }, nbirth :: births, ?_, hlast, hst.bdseq⟩
    show birth env points now st = _
    rw [birth, hnbirth, except_ok_bind, hbirths]
    rfl
  | update values now =>
    have hafter := newValues_carried hc hst.carried
    have hjobs' : ∀ job ∈ changedDevices env points st values, ∀ n ∈ job.2,
        ∃ p ∈ points, p.name = n := by
      intro job hjob n hn
      obtain ⟨d, hd, rfl⟩ := List.mem_map.1 (List.mem_filter.1 hjob).1
      exact hjobs d hd n (List.mem_filter.1 hn).1
    obtain ⟨last, msgs, hmsgs, hlast⟩ :=
      publishAll_ok hnamed hshort .ddata now hafter hjobs' hst.seq
    refine ⟨{ st with values := newValues points st values, seq := last }, msgs, ?_, hlast,
      hst.bdseq⟩
    show update env points values now st = _
    rw [update, hmsgs]
    rfl
  | will =>
    refine ⟨_, [], rfl, hst.seq, ?_⟩
    dsimp only
    split
    · exact Nat.mod_lt _ (by decide)
    · exact hst.bdseq

/-- A run of carried calls publishes everything. -/
theorem run_ok {calls : List Call} {st : State} (hcalls : ∀ c ∈ calls, CallCarried points c)
    (hst : Sound points st) : ∃ st' msgs, run env points st calls = .ok (st', msgs) := by
  induction calls generalizing st with
  | nil => exact ⟨st, [], rfl⟩
  | cons c rest ih =>
    obtain ⟨st₁, ms, hstep, hst₁⟩ :=
      step_ok hnamed hshort (hcalls c List.mem_cons_self) hst
    obtain ⟨st₂, more, hrun⟩ := ih (fun c hc => hcalls c (List.mem_cons_of_mem _ hc)) hst₁
    refine ⟨st₂, ms ++ more, ?_⟩
    rw [run, hstep, except_ok_bind]
    dsimp only
    rw [hrun]
    rfl

end

/-- Before the first update no point has a value. -/
theorem allCarried_init {q : ModbusPoll} (hq : q.validate = .ok ()) :
    AllCarried q.points State.init.values := by
  intro p hp name _
  obtain ⟨dt, hdt⟩ :=
    Option.isSome_iff_exists.1 (announced_isSome (pointValid_of_validated ⟨q, hq, hp⟩))
  exact ⟨dt, hdt, Or.inl rfl⟩

/-- What a host makes of a carried value is the value. -/
theorem carriedBy_agrees {points : List ModbusPoint} (hnamed : Named points) {p : ModbusPoint}
    (hp : p ∈ points) {name : String} (hname : p.name = .str name) {dt : Int}
    (hdt : announced p = some dt) {v : Reading} (hv : Carries dt v) :
    Agrees (carriedBy points name v) v := by
  unfold carriedBy
  rw [hnamed.pointNamed hp hname, Option.bind_some, hdt]
  exact carried_agrees hv

/-- **Report by exception.**  A node with the points of an accepted mapping is updated with values
    that the announced datatypes carry exactly, and gives births, in any order.  Every call returns
    (a name is no longer than a text can be).  From the first birth on, a host that hears the
    messages since the last birth holds for every point the node's value, under the point's own
    device, and nothing else; and the DDATA messages that name a point are one for each change of
    its value, with the point once. -/
theorem host_holds (env : PyEnv) (q : ModbusPoll) (hq : q.validate = .ok ()) (calls : List Call)
    (hcalls : ∀ c ∈ calls, CallCarried q.points c) :
    (ShortNames q.points → ∃ st msgs, run env q.points .init calls = .ok (st, msgs)) ∧
      ∀ st msgs, run env q.points .init calls = .ok (st, msgs) →
        ((∃ c ∈ calls, c.isBirth = true) →
          (∀ p ∈ q.points, ∀ name, p.name = .str name →
            ∃ held, host msgs (deviceId env p.unit, name) = some held ∧
              Agrees held (st.values name)) ∧
          ∀ k, (host msgs k).isSome → IsPoint env q.points k) ∧
        ∀ p ∈ q.points, ∀ name, p.name = .str name →
          List.Forall₂ (fun report v => ∃ held, report = [(deviceId env p.unit, held)] ∧
            Agrees held v) (reports name msgs) (changes name .none calls) := by
  have hnamed := named_of_validate hq
  have hinit := allCarried_init hq
  refine ⟨fun hshort => ?_, fun st msgs hrun => ⟨fun hbirth => ?_, fun p hp name hname => ?_⟩⟩
  · exact run_ok hnamed hshort hcalls ⟨by decide, by decide, hinit⟩
  · have hholds : Holds (IsPoint env q.points) (tableOf q.points st.values) (host msgs) :=
      run_holds hnamed hrun (Or.inl hbirth)
    refine ⟨fun p hp name hname => ?_, fun k hk => ?_⟩
    · -- the host holds what it makes of the value, and the value is carried
      obtain ⟨dt, hdt, hcarries⟩ := run_carried hrun hcalls hinit p hp name hname
      refine ⟨_, (hholds (deviceId env p.unit, name)).trans (if_pos ⟨p, hp, hname, rfl⟩), ?_⟩
      exact carriedBy_agrees hnamed hp hname hdt hcarries
    · by_contra hnot
      rw [hholds k, if_neg hnot] at hk
      cases hk
  -- each report is one entry, of the value that the change has left
  · obtain ⟨dt, hdt, -⟩ := hinit p hp name hname
    have hnone : State.init.values name = .none := rfl
    rw [run_reports hnamed hrun hp hname, hnone, List.forall₂_map_left_iff, List.forall₂_same]
    intro v hv
    exact ⟨_, rfl, carriedBy_agrees hnamed hp hname hdt
      (changes_carried hp hname hdt hcalls .none v hv)⟩

/-- A report of the register `speed`. -/
def speedIs (n : Int) (name : String) : Option Reading :=
  if name = "speed" then some (.int n) else none

/-- A speed of 16 bits. -/
theorem speedIs_carried {n : Int} (hlo : 0 ≤ n) (hhi : n ≤ 65535) (now : Clock) :
    CallCarried twoUnits.points (.update (speedIs n) now) := by
  intro p hp name v _ hv
  have hann : ∀ p ∈ twoUnits.points, announced p = some DataType.uint16 := by decide +kernel
  have hv : v = .int n := by
    unfold speedIs at hv
    split at hv
    · exact (Option.some.inj hv).symm
    · cases hv
  exact ⟨_, hann p hp, Or.inr ⟨n, hv, hlo, hhi⟩⟩

/-- The clock of a host that has none. -/
def noClock : Clock := ⟨fun _ => 0, fun _ => 0⟩

/-- A birth, a reading of `speed`, the same reading again, and another one. -/
def twoReadings : List Call :=
  [.birth noClock, .update (speedIs 7) noClock, .update (speedIs 7) noClock,
    .update (speedIs 9) noClock]

/-- The host holds the last reading, and null for the register that was never read; two DDATA
    messages name the register that was. -/
theorem host_holds_twoReadings :
    ∃ st msgs, run asciiEnv.py twoUnits.points .init twoReadings = .ok (st, msgs) ∧
      (∃ held, host msgs ("unit2", "speed") = some held ∧ Agrees held (st.values "speed")) ∧
      (∃ held, host msgs ("unit1", "level") = some held ∧ Agrees held (st.values "level")) ∧
      List.Forall₂ (fun report v => ∃ held, report = [("unit2", held)] ∧ Agrees held v)
        (reports "speed" msgs) [.int 7, .int 9] := by
  have hspeed : { register "speed" with unit := .int 2 } ∈ twoUnits.points := by decide +kernel
  have hlevel : { register "level" with unit := .int 1 } ∈ twoUnits.points := by decide +kernel
  obtain ⟨hruns, hall⟩ := host_holds asciiEnv.py twoUnits (by decide +kernel) twoReadings (by
    simp only [twoReadings, List.forall_mem_cons]
    exact ⟨trivial, speedIs_carried (by decide) (by decide) _,
      speedIs_carried (by decide) (by decide) _, speedIs_carried (by decide) (by decide) _,
      by simp⟩)
  -- the names are short, so every call succeeds
  have hshort : ∀ p ∈ twoUnits.points, (utf8Bytes (nameText p.name)).length < 2 ^ 63 := by
    decide +kernel
  obtain ⟨st, msgs, hrun⟩ := hruns fun p hp name hname => by
    simpa [hname, nameText] using hshort p hp
  obtain ⟨hholds, hreports⟩ := hall st msgs hrun
  obtain ⟨hheld, -⟩ := hholds ⟨_, List.mem_cons_self, rfl⟩
  have hunit1 : deviceId asciiEnv.py (.int 1) = "unit1" := by decide +kernel
  have hunit2 : deviceId asciiEnv.py (.int 2) = "unit2" := by decide +kernel
  have hchanges : changes "speed" .none twoReadings = [.int 7, .int 9] := by decide +kernel
  -- the devices and the changes that the statement writes out
  rw [← hunit1, ← hunit2, ← hchanges]
  exact ⟨st, msgs, hrun, hheld _ hspeed _ rfl, hheld _ hlevel _ rfl, hreports _ hspeed _ rfl⟩

end Ser2Net.Engine.SparkplugReport
