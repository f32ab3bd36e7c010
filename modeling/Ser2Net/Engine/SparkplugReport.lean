import Ser2Net.Lib.Loop
import Ser2Net.Lib.Replica
import Ser2Net.Engine.SparkplugNode
import Ser2Net.Engine.SparkplugPoint

namespace Ser2Net.Engine.SparkplugReport

open Ser2Net.Lib Ser2Net.Config Ser2Net.Engine.Modbus
open Ser2Net.Engine.Sparkplug Ser2Net.Engine.SparkplugCommand
open Ser2Net.Engine.SparkplugNode (nextSeq)
open Ser2Net.Lib.Replica (overlay Holds)

/-!
# Report by exception (`app/engine/sparkplug_node.py`)

The node publishes its points' values in the births and then only what changed.  Here its messages
are the bytes that `encodePayload` makes, and a host decodes them.

* `birth`, `update`, `run` — the node's calls, with the messages that they publish;
* `host` — what a host holds after the messages since the last birth;
* `Carries` — the values that a datatype carries exactly;
* `run_holds`, `run_reports` — over any run, what a host holds and what the DDATA messages say.
-/

/-! ### Readings -/

/-- What a point is read as (`_read_point`), and `None`. -/
inductive Reading
  | none
  | bool (b : Bool)
  | int (n : Int)
  | float (x : F64)
  deriving DecidableEq, Repr

namespace Reading

/-- The object itself. -/
def toValue : Reading → Value
  | none => .none
  | bool b => .bool b
  | int n => .int n
  | float x => .float x

/-- The number that a reading is; a bool is an int. -/
def number? : Reading → Option PyFloat
  | none => .none
  | bool b => some (.ofIntExact (if b then 1 else 0))
  | int n => some (.ofIntExact n)
  | float x => some (PyFloat.ofDouble x.toNat)

/-- `a != b`. -/
def differs (a b : Reading) : Bool :=
  match a.number?, b.number? with
  | .none, .none => false
  | some x, some y => !Json.numEq x y
  | _, _ => true

/-- `float(value)`; `none` where it raises. -/
def toFloat? : Reading → Option F64
  | none => .none
  | bool b => F64.ofInt? (if b then 1 else 0)
  | int n => F64.ofInt? n
  | float x => some x

end Reading

/-! ### The node -/

/-- What a call may raise. -/
inductive Raise
  /-- `encode_payload` -/
  | codec (e : SpError)
  /-- `self.points[name]` -/
  | keyError (name : Json)
  /-- `_text` refuses a metric name that is no text. -/
  | nameNotText (name : Json)
  /-- `unknown dtype {dtype!r}` -/
  | unknownDtype (dtype : Json)
  /-- `float(value)` -/
  | noFloat (v : Reading)

abbrev NodeM := Except Raise

/-- The topic of a message, by its type and device. -/
inductive Topic
  | nbirth
  | dbirth (device : String)
  | ddata (device : String)
  deriving DecidableEq, Repr

/-- A message that is published. -/
structure Msg where
  topic : Topic
  payload : Bytes
  deriving DecidableEq, Repr

/-- What `_now_ms` returns in one call: for the metric of a point, and for the payload of a
    device (`none`: of the node). -/
structure Clock where
  metric : String → UInt64
  payload : Option String → UInt64

/-- The state of a `SparkplugNode`; `values` is `self.values.get`. -/
structure State where
  values : String → Reading
  bdseq : Nat
  seq : Nat
  sessions : Nat

/-- A node as the constructor makes it. -/
def State.init : State := ⟨fun _ => .none, 0, 0, 0⟩

/-- `BDSEQ`. -/
def bdSeqName : String := "bdSeq"

/-- `_metric`, with the point and its datatype looked up. -/
def metricOf (name : String) (datatype : Int) (now : UInt64) (v : Reading) : NodeM Metric :=
  match v with
  | .none =>
    .ok { name := name, datatype := datatype, isNull := true, timestamp := .int now.toNat }
  | v =>
    if datatype = DataType.float ∨ datatype = DataType.double then
      match v.toFloat? with
      | some x =>
        .ok { name := name, datatype := datatype, value := .float x, timestamp := .int now.toNat }
      | none => .error (.noFloat v)
    else .ok { name := name, datatype := datatype, value := v.toValue, timestamp := .int now.toNat }

/-- `_metric`. -/
def metric (points : List ModbusPoint) (now : Clock) (values : String → Reading) (name : Json) :
    NodeM Metric :=
  match name with
  | .str s =>
    match pointNamed points s with
    | none => .error (.keyError name)
    | some p =>
      match announced p with
      | none => .error (.unknownDtype p.dtype)
      | some dt => metricOf s dt (now.metric s) (values s)
  | name => .error (.nameNotText name)

/-- `_publish`, with a publisher. -/
def publish (topic : Topic) (now : UInt64) (seq : Nat) (metrics : List Metric) : NodeM Msg :=
  match encodePayload ⟨.int now.toNat, metrics, .int seq, .none, .none⟩ true with
  | .ok payload => .ok ⟨topic, payload⟩
  | .error e => .error (.codec e)

/-- The loops of `birth` and `update` over devices and names: a message for each, with the next
    sequence number. -/
def publishAll (points : List ModbusPoint) (topic : String → Topic) (now : Clock)
    (values : String → Reading) : Nat → List (String × List Json) → NodeM (Nat × List Msg)
  | seq, [] => .ok (seq, [])
  | seq, (dev, names) :: rest => do
    let metrics ← names.mapM (metric points now values)
    let msg ← publish (topic dev) (now.payload (some dev)) (nextSeq seq) metrics
    let (last, msgs) ← publishAll points topic now values (nextSeq seq) rest
    return (last, msg :: msgs)

/-- `birth`. -/
def birth (env : PyEnv) (points : List ModbusPoint) (now : Clock) (st : State) :
    NodeM (State × List Msg) := do
  let nbirth ← publish .nbirth (now.payload none) 0
    [{ name := bdSeqName, datatype := DataType.uint64, value := .int st.bdseq },
      { name := rebirthName, datatype := DataType.boolean, value := .bool false }]
  let (seq, births) ← publishAll points .dbirth now st.values 0 (devices env points)
  return ({ st with seq := seq }, nbirth :: births)

/-- `n in changed`: the point is in the report, with another value. -/
def changed (points : List ModbusPoint) (st : State) (values : String → Option Reading)
    (name : String) : Bool :=
  match values name with
  | none => false
  | some v => (pointNamed points name).isSome && (st.values name).differs v

/-- `n in changed`, for a name in the device table. -/
def changedName (points : List ModbusPoint) (st : State) (values : String → Option Reading)
    (name : Json) : Bool :=
  match name with
  | .str s => changed points st values s
  | _ => false

/-- `self.values` after the changed values are taken over. -/
def newValues (points : List ModbusPoint) (st : State) (values : String → Option Reading)
    (name : String) : Reading :=
  if changed points st values name then (values name).getD .none else st.values name

/-- The devices with a changed point, and the names of their changed points. -/
def changedDevices (env : PyEnv) (points : List ModbusPoint) (st : State)
    (values : String → Option Reading) : List (String × List Json) :=
  ((devices env points).map fun d => (d.1, d.2.filter (changedName points st values))).filter
    (!·.2.isEmpty)

/-- `update`. -/
def update (env : PyEnv) (points : List ModbusPoint) (values : String → Option Reading)
    (now : Clock) (st : State) : NodeM (State × List Msg) := do
  let after := newValues points st values
  let (seq, msgs) ←
    publishAll points .ddata now after st.seq (changedDevices env points st values)
  return ({ st with values := after, seq := seq }, msgs)

/-- A call of the node: a birth, an update, or the renewal of the Will between two sessions. -/
inductive Call
  | birth (now : Clock)
  | update (values : String → Option Reading) (now : Clock)
  | will

/-- The call is a birth. -/
def Call.isBirth : Call → Bool
  | .birth _ => true
  | _ => false

/-- One call. -/
def step (env : PyEnv) (points : List ModbusPoint) (st : State) : Call → NodeM (State × List Msg)
  | .birth now => birth env points now st
  | .update values now => update env points values now st
  | .will =>
    let bdseq := if st.sessions ≠ 0 then (st.bdseq + 1) % 256 else st.bdseq
    .ok ({ st with bdseq := bdseq, sessions := st.sessions + 1 }, [])

/-- A sequence of calls, with all that they publish. -/
def run (env : PyEnv) (points : List ModbusPoint) : State → List Call → NodeM (State × List Msg)
  | st, [] => .ok (st, [])
  | st, c :: rest => do
    let (st, msgs) ← step env points st c
    let (st, more) ← run env points st rest
    return (st, msgs ++ more)

theorem run_nil {env : PyEnv} {points : List ModbusPoint} {st st' : State} {msgs : List Msg}
    (h : run env points st [] = .ok (st', msgs)) : st' = st ∧ msgs = [] := by
  simp only [run, Except.ok.injEq, Prod.mk.injEq] at h
  exact ⟨h.1.symm, h.2.symm⟩

/-- A run is its first call and the run after it. -/
theorem run_cons {env : PyEnv} {points : List ModbusPoint} {st st' : State} {c : Call}
    {rest : List Call} {msgs : List Msg} (h : run env points st (c :: rest) = .ok (st', msgs)) :
    ∃ st₁ ms more, step env points st c = .ok (st₁, ms) ∧
      run env points st₁ rest = .ok (st', more) ∧ msgs = ms ++ more := by
  obtain ⟨⟨st₁, ms⟩, hstep, h⟩ := except_bind_eq_ok.1 h
  obtain ⟨⟨st₂, more⟩, hrun, h⟩ := except_bind_eq_ok.1 h
  simp only [except_pure, Except.ok.injEq, Prod.mk.injEq] at h
  obtain ⟨rfl, rfl⟩ := h
  exact ⟨st₁, ms, more, hstep, hrun, rfl⟩

theorem will_spec {env : PyEnv} {points : List ModbusPoint} {st st' : State} {msgs : List Msg}
    (h : step env points st .will = .ok (st', msgs)) : st'.values = st.values ∧ msgs = [] := by
  simp only [step, Except.ok.injEq, Prod.mk.injEq] at h
  obtain ⟨rfl, rfl⟩ := h
  exact ⟨rfl, rfl⟩

/-! ### The host -/

/-- The device of a message. -/
def Topic.device : Topic → Option String
  | .nbirth => none
  | .dbirth dev | .ddata dev => some dev

/-- The metrics of a message of a device, by device and name, with their values. -/
def entries (m : Msg) : List ((String × String) × Value) :=
  match m.topic.device, decodePayload m.payload with
  | some dev, .ok p => p.metrics.map fun x => ((dev, x.name), x.value)
  | _, _ => []

/-- A host takes a message: an NBIRTH starts over, and the metrics of a device overwrite what it
    holds.  `Value.none` is null. -/
def hear (view : String × String → Option Value) (m : Msg) : String × String → Option Value :=
  if m.topic = .nbirth then fun _ => none else overlay view (entries m)

/-- What a host holds after some messages, by device and name. -/
def host (msgs : List Msg) : String × String → Option Value := msgs.foldl hear fun _ => none

/-- The metrics of one name in a DDATA, with the device and the value. -/
def mentions (name : String) (m : Msg) : List (String × Value) :=
  match m.topic with
  | .ddata _ => ((entries m).filter (·.1.2 = name)).map fun e => (e.1.1, e.2)
  | _ => []

/-- The DDATA messages with a metric of that name: its metrics in each of them. -/
def reports (name : String) (msgs : List Msg) : List (List (String × Value)) :=
  (msgs.map (mentions name)).filter (!·.isEmpty)

/-- The values that a point of that name takes in a sequence of calls, each other than the one
    before; `v` is the first one. -/
def changes (name : String) : Reading → List Call → List Reading
  | _, [] => []
  | v, .update values _ :: rest =>
    match values name with
    | none => changes name v rest
    | some w => if v.differs w then w :: changes name w rest else changes name v rest
  | v, .birth _ :: rest | v, .will :: rest => changes name v rest

/-! ### Values that a datatype carries -/

/-- `float(value)` is the same number. -/
def ExactFloat (v : Reading) (x : F64) : Prop :=
  v.toFloat? = some x ∧ (v = .float x ∨ v.number? = some (PyFloat.ofDouble x.toNat))

/-- The datatype carries the value exactly: an integer in its range, a number that a single or a
    double holds, True and False or 1 and 0.  `None` goes out as null. -/
def Carries (datatype : Int) (v : Reading) : Prop :=
  v = .none ∨
    match intTypes.lookup datatype with
    | some (isSigned, bits) => ∃ n, v = .int n ∧ loOf isSigned bits ≤ n ∧ n ≤ hiOf isSigned bits
    | none =>
      (datatype = DataType.float ∧ ∃ x, ExactFloat v x ∧ x.toSingle.map F32.toDouble = some x) ∨
        (datatype = DataType.double ∧ ∃ x, ExactFloat v x) ∨
        (datatype = DataType.boolean ∧ ∃ b, v = .bool b ∨ v = .int (if b then 1 else 0))

/-- The value that a host holds is the node's: the same object, or the same number. -/
def Agrees (held : Value) (v : Reading) : Prop :=
  held = v.toValue ∨ ∃ w : Reading, held = w.toValue ∧ ∃ x, w.number? = some x ∧ v.number? = some x

/-- What a host makes of a value that is sent with a datatype. -/
def carried (datatype : Int) (v : Reading) : Value :=
  match v with
  | .none => .none
  | v =>
    if datatype = DataType.float ∨ datatype = DataType.double then
      normalizeValue datatype ((v.toFloat?.map Value.float).getD v.toValue)
    else normalizeValue datatype v.toValue

theorem carried_of_float {dt : Int} {v : Reading} {x : F64} (hx : v.toFloat? = some x)
    (hdt : dt = DataType.float ∨ dt = DataType.double) :
    carried dt v = normalizeValue dt (.float x) := by
  unfold carried
  split
  · cases hx
  · rw [if_pos hdt, hx]
    rfl

theorem carried_of_other {dt : Int} {v : Reading} (hv : v ≠ .none)
    (hdt : ¬ (dt = DataType.float ∨ dt = DataType.double)) :
    carried dt v = normalizeValue dt v.toValue := by
  unfold carried
  split
  · exact absurd rfl hv
  · rw [if_neg hdt]

theorem not_float_of_int {dt : Int} {ty : Bool × Nat} (h : intTypes.lookup dt = some ty) :
    ¬ (dt = DataType.float ∨ dt = DataType.double) := by
  rintro (rfl | rfl) <;> exact absurd h (by decide +revert)

/-- A float that stands for a reading is the reading's number. -/
theorem ExactFloat.agrees {v : Reading} {x : F64} (h : ExactFloat v x) : Agrees (.float x) v := by
  rcases h.2 with rfl | hnum
  · exact Or.inl rfl
  · exact Or.inr ⟨.float x, rfl, _, rfl, hnum⟩

/-- **Values.**  What a datatype carries exactly arrives as the value. -/
theorem carried_agrees {dt : Int} {v : Reading} (h : Carries dt v) : Agrees (carried dt v) v := by
  rcases h with rfl | h
  · exact Or.inl rfl
  -- a single keeps what it holds, a double keeps everything, and a Boolean makes bools of 1 and 0
  rcases hint : intTypes.lookup dt with _ | ⟨isSigned, bits⟩
  · rw [hint] at h
    rcases h with ⟨rfl, x, hx, hsingle⟩ | ⟨rfl, x, hx⟩ | ⟨rfl, b, hb⟩
    · obtain ⟨y, hy, hback⟩ := Option.map_eq_some_iff.1 hsingle
      have hnorm : normalizeValue DataType.float (.float x) = .float x := by
        simp [normalizeValue, floatOf, hy, hback]
      rw [carried_of_float hx.1 (Or.inl rfl), hnorm]
      exact hx.agrees
    · have hnorm : normalizeValue DataType.double (.float x) = .float x := by
        simp [normalizeValue, floatOf, DataType.double, DataType.float]
      rw [carried_of_float hx.1 (Or.inr rfl), hnorm]
      exact hx.agrees
    · rw [carried_of_other (by rcases hb with rfl | rfl <;> simp) (by decide)]
      rcases hb with rfl | rfl
      · refine Or.inl ?_
        cases b <;> rfl
      · refine Or.inr ⟨.bool b, ?_, .ofIntExact (if b then 1 else 0), rfl, rfl⟩
        cases b <;> rfl
  · rw [hint] at h
    obtain ⟨n, rfl, -, -⟩ := h
    rw [carried_of_other (by simp) (not_float_of_int hint), normalizeValue_int hint]
    exact Or.inl rfl

/-! ### What the messages say -/

/-- A metric name as a text. -/
def nameText : Json → String
  | .str s => s
  | _ => ""

/-- What a host makes of the value of a point. -/
def carriedBy (points : List ModbusPoint) (name : String) (v : Reading) : Value :=
  match (pointNamed points name).bind announced with
  | some dt => carried dt v
  | none => .none

theorem metricOf_received {name : String} {dt : Int} {now : UInt64} {v : Reading} {m : Metric}
    (h : metricOf name dt now v = .ok m) :
    m.name = name ∧ (normalizeMetric m).value = carried dt v := by
  unfold metricOf at h
  split at h
  · obtain rfl := Except.ok.inj h
    exact ⟨rfl, rfl⟩
  next hv =>
    split at h
    next hdt =>
      split at h
      next x hx =>
        obtain rfl := Except.ok.inj h
        exact ⟨rfl, (carried_of_float hx hdt).symm⟩
      next => cases h
    next hdt =>
      obtain rfl := Except.ok.inj h
      exact ⟨rfl, (carried_of_other (fun h => hv h) hdt).symm⟩

/-- One metric as a host receives it. -/
theorem metric_received {points : List ModbusPoint} {now : Clock} {values : String → Reading}
    {name : Json} {m : Metric} (h : metric points now values name = .ok m) :
    m.name = nameText name ∧
      (normalizeMetric m).value = carriedBy points (nameText name) (values (nameText name)) := by
  unfold metric at h
  split at h
  next s =>
    split at h
    · cases h
    next p hp =>
      split at h
      · cases h
      next dt hdt =>
        have hcarried : carriedBy points s (values s) = carried dt (values s) := by
          unfold carriedBy
          rw [hp, Option.bind_some, hdt]
        obtain ⟨hname, hvalue⟩ := metricOf_received h
        exact ⟨hname, hvalue.trans hcarried.symm⟩
  next => cases h

section
variable {points : List ModbusPoint} {topic : String → Topic} {now : Clock}
  {values : String → Reading}

/-- The entry of a name in a message of a device. -/
def entryOf (points : List ModbusPoint) (values : String → Reading) (dev : String) (name : Json) :
    (String × String) × Value :=
  ((dev, nameText name), carriedBy points (nameText name) (values (nameText name)))

theorem publish_topic {topic : Topic} {ts : UInt64} {seq : Nat} {ms : List Metric} {msg : Msg}
    (h : publish topic ts seq ms = .ok msg) : msg.topic = topic := by
  unfold publish at h
  split at h
  · obtain rfl := Except.ok.inj h
    rfl
  · cases h

/-- The metrics of some names are the entries of these names. -/
theorem metrics_entries {names : List Json} {ms : List Metric}
    (h : List.Forall₂ (fun n m => metric points now values n = .ok m) names ms) (dev : String) :
    ms.map (fun m => ((dev, (normalizeMetric m).name), (normalizeMetric m).value)) =
      names.map (entryOf points values dev) := by
  induction h with
  | nil => rfl
  | cons hm _ ih =>
    obtain ⟨hname, hvalue⟩ := metric_received hm
    rw [List.map_cons, List.map_cons, ih, hvalue, entryOf, ← hname]
    rfl

theorem entries_publish (htopic : ∀ d, (topic d).device = some d) {dev : String}
    {names : List Json} {ms : List Metric} {ts : UInt64} {seq : Nat} {msg : Msg}
    (hms : names.mapM (metric points now values) = .ok ms)
    (h : publish (topic dev) ts seq ms = .ok msg) :
    msg.topic = topic dev ∧ entries msg = names.map (entryOf points values dev) := by
  unfold publish at h
  split at h
  next payload henc =>
    obtain rfl := Except.ok.inj h
    have hdec : decodePayload payload = .ok (normalizePayload _) := decodePayload_received henc
    refine ⟨rfl, ?_⟩
    unfold entries
    simp only [htopic, hdec, normalizePayload, List.map_map]
    exact metrics_entries (mapM_eq_ok_iff.1 hms) dev
  next => cases h

/-- **Messages.**  The loops publish a message for each device, with an entry for each name. -/
theorem publishAll_entries (htopic : ∀ d, (topic d).device = some d) {seq last : Nat}
    {jobs : List (String × List Json)} {msgs : List Msg}
    (h : publishAll points topic now values seq jobs = .ok (last, msgs)) :
    (∀ m ∈ msgs, ∃ d, m.topic = topic d) ∧
      msgs.map entries = jobs.map fun job => job.2.map (entryOf points values job.1) := by
  induction jobs generalizing seq msgs with
  | nil =>
    simp only [publishAll, Except.ok.injEq, Prod.mk.injEq] at h
    rw [← h.2]
    simp
  | cons job rest ih =>
    obtain ⟨dev, names⟩ := job
    obtain ⟨ms, hms, h⟩ := except_bind_eq_ok.1 h
    obtain ⟨msg, hmsg, h⟩ := except_bind_eq_ok.1 h
    obtain ⟨⟨last', more⟩, hmore, h⟩ := except_bind_eq_ok.1 h
    simp only [except_pure, Except.ok.injEq, Prod.mk.injEq] at h
    obtain ⟨rfl, rfl⟩ := h
    obtain ⟨hdev, hentries⟩ := entries_publish htopic hms hmsg
    obtain ⟨htopics, hrest⟩ := ih hmore
    refine ⟨List.forall_mem_cons.2 ⟨⟨dev, hdev⟩, htopics⟩, ?_⟩
    rw [List.map_cons, List.map_cons, hentries, hrest]

end

/-! ### The device table -/

/-- The key is the device and the name of a point. -/
def IsPoint (env : PyEnv) (points : List ModbusPoint) (k : String × String) : Prop :=
  ∃ p ∈ points, p.name = .str k.2 ∧ deviceId env p.unit = k.1

instance (env : PyEnv) (points : List ModbusPoint) : DecidablePred (IsPoint env points) :=
  fun k => inferInstanceAs (Decidable (∃ p ∈ points, p.name = .str k.2 ∧ deviceId env p.unit = k.1))

theorem devices_keys_nodup (env : PyEnv) (points : List ModbusPoint) :
    ((devices env points).map Prod.fst).Nodup := by
  have hfold : ∀ table : List (String × List Json), (table.map Prod.fst).Nodup →
      ((points.foldl (addDevice env) table).map Prod.fst).Nodup := by
    induction points with
    | nil => exact fun table h => h
    | cons p rest ih => exact fun table h => ih _ (dictSet_nodup h _ _)
  exact hfold [] List.nodup_nil

section
variable {env : PyEnv} {points : List ModbusPoint}

/-- The names of a device are those of the points of its unit. -/
theorem mem_devices {dev : String} {names : List Json} (h : (dev, names) ∈ devices env points) :
    names = (points.filter fun p => deviceId env p.unit = dev).map ModbusPoint.name := by
  have hlook := lookup_of_mem (devices_keys_nodup env points) h
  rw [lookup_devices] at hlook
  dsimp only at hlook
  split at hlook
  · cases hlook
  · exact (Option.some.inj hlook).symm

theorem exists_mem_devices (env : PyEnv) {p : ModbusPoint} (hp : p ∈ points) :
    ∃ names, (deviceId env p.unit, names) ∈ devices env points ∧ p.name ∈ names := by
  have hown : p ∈ points.filter fun q => deviceId env q.unit = deviceId env p.unit :=
    List.mem_filter.2 ⟨hp, decide_eq_true rfl⟩
  have hlook := lookup_devices env points (deviceId env p.unit)
  dsimp only at hlook
  rw [if_neg (List.ne_nil_of_mem hown)] at hlook
  exact ⟨_, mem_of_lookup hlook, List.mem_map_of_mem hown⟩

/-- A name of a device, by the point that has it. -/
theorem exists_point {dev : String} {names : List Json} {name : Json}
    (h : (dev, names) ∈ devices env points) (hname : name ∈ names) :
    ∃ p ∈ points, p.name = name ∧ deviceId env p.unit = dev := by
  rw [mem_devices h] at hname
  obtain ⟨p, hp, rfl⟩ := List.mem_map.1 hname
  rw [List.mem_filter, decide_eq_true_eq] at hp
  exact ⟨p, hp.1, rfl, hp.2⟩

/-- Points of different names: no name is in the device table twice. -/
theorem devices_nodup (env : PyEnv) (hnd : (points.map ModbusPoint.name).Nodup) :
    ((devices env points).flatMap Prod.snd).Nodup := by
  rw [List.nodup_flatMap]
  refine ⟨?_, ?_⟩
  · rintro ⟨dev, names⟩ h
    rw [mem_devices h]
    exact hnd.sublist (List.filter_sublist.map _)
  · have hkeys := List.pairwise_map.1 (devices_keys_nodup env points)
    refine hkeys.imp_of_mem ?_
    rintro ⟨dev, names⟩ ⟨dev', names'⟩ h h' hne n hn hn'
    obtain ⟨p, hp, rfl, hdev⟩ := exists_point h hn
    obtain ⟨p', hp', hname, hdev'⟩ := exists_point h' hn'
    obtain rfl := List.inj_on_of_nodup_map hnd hp' hp hname
    exact hne (hdev.symm.trans hdev')

end

/-! ### The host -/

/-- What validation says of the names of the points. -/
structure Named (points : List ModbusPoint) : Prop where
  nodup : (points.map ModbusPoint.name).Nodup
  text : ∀ p ∈ points, ∃ s, p.name = .str s

theorem named_of_validate {q : ModbusPoll} (hq : q.validate = .ok ()) : Named q.points := by
  have h := names_of_validate (validatePoints_of_validate hq)
  exact ⟨List.pairwise_map.2 (h.1.imp fun h => h.symm), h.2.1⟩

theorem Named.pointNamed {points : List ModbusPoint} (h : Named points) {p : ModbusPoint}
    (hp : p ∈ points) {s : String} (hs : p.name = .str s) : pointNamed points s = some p :=
  pointNamed_of_name (fun _ hp _ hp' => List.inj_on_of_nodup_map h.nodup hp hp') hp hs

/-- The values of a node as a host is to hold them, by device and name. -/
def tableOf (points : List ModbusPoint) (values : String → Reading) (k : String × String) : Value :=
  carriedBy points k.2 (values k.2)

/-- A host that hears messages of devices only overwrites. -/
theorem foldl_hear {msgs : List Msg} (h : ∀ m ∈ msgs, m.topic ≠ .nbirth)
    (view : String × String → Option Value) :
    msgs.foldl hear view = overlay view (msgs.flatMap entries) := by
  induction msgs generalizing view with
  | nil => rfl
  | cons m rest ih =>
    have hm : hear view m = overlay view (entries m) := if_neg (h m List.mem_cons_self)
    rw [List.foldl_cons, hm, ih fun m' hm' => h m' (List.mem_cons_of_mem _ hm'), List.flatMap_cons,
      Replica.overlay_append]

section
variable {env : PyEnv} {points : List ModbusPoint}

theorem entryOf_table {values : String → Reading} {jobs : List (String × List Json)} :
    ∀ e ∈ jobs.flatMap fun job => job.2.map (entryOf points values job.1),
      e.2 = tableOf points values e.1 := by
  intro e he
  obtain ⟨job, -, he⟩ := List.mem_flatMap.1 he
  obtain ⟨n, -, rfl⟩ := List.mem_map.1 he
  rfl

/-- The keys of a row of entries. -/
theorem mem_entryOf_keys {values : String → Reading} {jobs : List (String × List Json)}
    {k : String × String} :
    k ∈ (jobs.flatMap fun job => job.2.map (entryOf points values job.1)).map Prod.fst ↔
      ∃ job ∈ jobs, ∃ n ∈ job.2, job.1 = k.1 ∧ nameText n = k.2 := by
  simp only [List.mem_map, List.mem_flatMap, entryOf]
  constructor
  · rintro ⟨e, ⟨job, hjob, n, hn, rfl⟩, rfl⟩
    exact ⟨job, hjob, n, hn, rfl, rfl⟩
  · rintro ⟨job, hjob, n, hn, hdev, hname⟩
    exact ⟨_, ⟨job, hjob, n, hn, rfl⟩, Prod.ext hdev hname⟩

/-- The messages of a birth: the NBIRTH, and a DBIRTH of every device. -/
theorem birth_spec {now : Clock} {st st' : State} {msgs : List Msg}
    (h : birth env points now st = .ok (st', msgs)) :
    st'.values = st.values ∧ ∃ nbirth births, msgs = nbirth :: births ∧ nbirth.topic = .nbirth ∧
      (∀ m ∈ births, ∃ d, m.topic = .dbirth d) ∧
      births.map entries =
        (devices env points).map fun job => job.2.map (entryOf points st.values job.1) := by
  obtain ⟨nbirth, hnb, h⟩ := except_bind_eq_ok.1 h
  obtain ⟨⟨seq, births⟩, hbirths, h⟩ := except_bind_eq_ok.1 h
  simp only [except_pure, Except.ok.injEq, Prod.mk.injEq] at h
  obtain ⟨rfl, rfl⟩ := h
  exact ⟨rfl, nbirth, births, rfl, publish_topic hnb, publishAll_entries (fun _ => rfl) hbirths⟩

/-- The messages of an update, and the values after it. -/
theorem update_spec {values : String → Option Reading} {now : Clock} {st st' : State}
    {msgs : List Msg} (h : update env points values now st = .ok (st', msgs)) :
    st'.values = newValues points st values ∧ (∀ m ∈ msgs, ∃ d, m.topic = .ddata d) ∧
      msgs.map entries = (changedDevices env points st values).map fun job =>
        job.2.map (entryOf points (newValues points st values) job.1) := by
  obtain ⟨⟨seq, msgs'⟩, hmsgs, h⟩ := except_bind_eq_ok.1 h
  simp only [except_pure, Except.ok.injEq, Prod.mk.injEq] at h
  obtain ⟨rfl, rfl⟩ := h
  exact ⟨rfl, publishAll_entries (fun _ => rfl) hmsgs⟩

variable (hnamed : Named points)
include hnamed

/-- The entries for all names of the device table are one for each point. -/
theorem devices_keys (k : String × String) :
    (∃ job ∈ devices env points, ∃ n ∈ job.2, job.1 = k.1 ∧ nameText n = k.2) ↔
      IsPoint env points k := by
  constructor
  · rintro ⟨⟨dev, names⟩, hjob, n, hn, rfl, hname⟩
    obtain ⟨p, hp, rfl, hdev⟩ := exists_point hjob hn
    obtain ⟨s, hs⟩ := hnamed.text p hp
    rw [hs] at hname
    exact ⟨p, hp, by rw [hs, ← hname]; rfl, hdev⟩
  · rintro ⟨p, hp, hname, hdev⟩
    obtain ⟨names, hjob, hn⟩ := exists_mem_devices env hp
    exact ⟨_, hjob, p.name, hn, hdev, by rw [hname]; rfl⟩

/-- **Births.**  After a birth the host holds the values of the node, whatever it held before. -/
theorem birth_holds {now : Clock} {st st' : State} {msgs : List Msg}
    (h : birth env points now st = .ok (st', msgs)) (view : String × String → Option Value) :
    Holds (IsPoint env points) (tableOf points st'.values) (msgs.foldl hear view) := by
  obtain ⟨hvalues, nbirth, births, rfl, hnbirth, htopics, hentries⟩ := birth_spec h
  have hdevice : ∀ m ∈ births, m.topic ≠ .nbirth := by
    intro m hm
    obtain ⟨d, hd⟩ := htopics m hm
    rw [hd]
    simp
  have hfirst : hear view nbirth = fun _ => none := if_pos hnbirth
  rw [hvalues, List.foldl_cons, hfirst, foldl_hear hdevice, List.flatMap_def, hentries,
    ← List.flatMap_def]
  refine Replica.holds_snapshot entryOf_table fun k => ?_
  rw [mem_entryOf_keys]
  exact devices_keys hnamed k

/-- **Updates.**  A host that holds the values of the node holds the new ones after an update. -/
theorem update_holds {values : String → Option Reading} {now : Clock} {st st' : State}
    {msgs : List Msg} {view : String × String → Option Value}
    (h : update env points values now st = .ok (st', msgs))
    (hview : Holds (IsPoint env points) (tableOf points st.values) view) :
    Holds (IsPoint env points) (tableOf points st'.values) (msgs.foldl hear view) := by
  obtain ⟨hvalues, htopics, hentries⟩ := update_spec h
  -- an update publishes for devices only
  have hdevice : ∀ m ∈ msgs, m.topic ≠ .nbirth := by
    intro m hm
    obtain ⟨d, hd⟩ := htopics m hm
    rw [hd]
    simp
  rw [hvalues, foldl_hear hdevice, List.flatMap_def, hentries, ← List.flatMap_def]
  refine hview.delta entryOf_table ?_ ?_
  · -- what is reported are names of the device table
    intro k hk
    obtain ⟨job, hjob, n, hn, hdev, hname⟩ := mem_entryOf_keys.1 hk
    obtain ⟨d, hd, rfl⟩ := List.mem_map.1 (List.mem_filter.1 hjob).1
    exact (devices_keys hnamed k).1 ⟨d, hd, n, (List.mem_filter.1 hn).1, hdev, hname⟩
  · -- a point that is not reported has the value it had
    intro k hk hnot
    have hsame : changed points st values k.2 = false := by
      rw [Bool.eq_false_iff]
      intro hch
      obtain ⟨p, hp, hname, hdev⟩ := hk
      obtain ⟨names, hjob, hn⟩ := exists_mem_devices env hp
      have hkeep : p.name ∈ names.filter (changedName points st values) := by
        refine List.mem_filter.2 ⟨hn, ?_⟩
        rw [hname]
        exact hch
      refine hnot (mem_entryOf_keys.2 ⟨(deviceId env p.unit, names.filter _), ?_, p.name, hkeep,
        hdev, by rw [hname]; rfl⟩)
      refine List.mem_filter.2 ⟨List.mem_map.2 ⟨_, hjob, rfl⟩, ?_⟩
      simpa using List.ne_nil_of_mem hkeep
    have hvalue : newValues points st values k.2 = st.values k.2 := by
      unfold newValues
      rw [hsame, if_neg Bool.false_ne_true]
    exact congrArg (carriedBy points k.2) hvalue

/-- One call: a birth makes the host hold the node's values, and the others keep it so. -/
theorem step_holds {c : Call} {st st' : State} {msgs : List Msg}
    {view : String × String → Option Value} (h : step env points st c = .ok (st', msgs))
    (hview : c.isBirth = true ∨ Holds (IsPoint env points) (tableOf points st.values) view) :
    Holds (IsPoint env points) (tableOf points st'.values) (msgs.foldl hear view) := by
  cases c with
  | birth now => exact birth_holds hnamed h view
  | update values now => exact update_holds hnamed h (hview.resolve_left Bool.false_ne_true)
  | will =>
    obtain ⟨hvalues, rfl⟩ := will_spec h
    rw [hvalues]
    exact hview.resolve_left Bool.false_ne_true

/-- **Runs.**  From the first birth on the host holds the node's values. -/
theorem run_holds {calls : List Call} {st st' : State} {msgs : List Msg}
    {view : String × String → Option Value} (h : run env points st calls = .ok (st', msgs))
    (hview : (∃ c ∈ calls, c.isBirth = true) ∨
      Holds (IsPoint env points) (tableOf points st.values) view) :
    Holds (IsPoint env points) (tableOf points st'.values) (msgs.foldl hear view) := by
  induction calls generalizing st msgs view with
  | nil =>
    obtain ⟨rfl, rfl⟩ := run_nil h
    exact hview.resolve_left (by simp)
  | cons c rest ih =>
    obtain ⟨st₁, ms, more, hstep, hrun, rfl⟩ := run_cons h
    rw [List.foldl_append]
    refine ih hrun ?_
    -- the first birth may be this call, a later one, or before the run
    by_cases hlater : ∃ c ∈ rest, c.isBirth = true
    · exact Or.inl hlater
    · refine Or.inr (step_holds hnamed hstep ?_)
      rcases hview with ⟨b, hb, hbirth⟩ | hview
      · rcases List.mem_cons.1 hb with rfl | hb
        · exact Or.inl hbirth
        · exact absurd ⟨b, hb, hbirth⟩ hlater
      · exact Or.inr hview

/-! ### Reports -/

omit hnamed in
theorem reports_append (name : String) (as bs : List Msg) :
    reports name (as ++ bs) = reports name as ++ reports name bs := by
  unfold reports
  rw [List.map_append, List.filter_append]

omit hnamed in
/-- Messages that are no DDATA report nothing. -/
theorem reports_nil {name : String} {msgs : List Msg} (h : ∀ m ∈ msgs, ∀ d, m.topic ≠ .ddata d) :
    reports name msgs = [] := by
  unfold reports
  rw [List.filter_eq_nil_iff]
  intro l hl
  obtain ⟨m, hm, rfl⟩ := List.mem_map.1 hl
  unfold mentions
  split
  next d hd => exact absurd hd (h m hm d)
  next => simp

omit hnamed in
/-- What the DDATA messages of the devices say of one name. -/
theorem mentions_eq {values : String → Reading} {jobs : List (String × List Json)}
    {msgs : List Msg} (name : String) (htopics : ∀ m ∈ msgs, ∃ d, m.topic = .ddata d)
    (hentries : msgs.map entries = jobs.map fun job => job.2.map (entryOf points values job.1)) :
    msgs.map (mentions name) = jobs.map fun row =>
      (row.2.filter fun n => nameText n = name).map fun n =>
        (row.1, (entryOf points values row.1 n).2) := by
  have hmentions : msgs.map (mentions name) =
      (msgs.map entries).map fun es => (es.filter (·.1.2 = name)).map fun e => (e.1.1, e.2) := by
    rw [List.map_map]
    refine List.map_congr_left fun m hm => ?_
    obtain ⟨d, hd⟩ := htopics m hm
    unfold mentions
    rw [hd]
    rfl
  rw [hmentions, hentries, List.map_map]
  refine List.map_congr_left fun job _ => ?_
  simp only [Function.comp_apply, List.filter_map, List.map_map]
  rfl

/-- **One update.**  The DDATA messages of an update name a point in one message, once, when its
    value changed, and else nowhere. -/
theorem update_reports {values : String → Option Reading} {now : Clock} {st st' : State}
    {msgs : List Msg} (h : update env points values now st = .ok (st', msgs)) {p : ModbusPoint}
    (hp : p ∈ points) {name : String} (hname : p.name = .str name) :
    reports name msgs =
      if changed points st values name then
        [[(deviceId env p.unit, carriedBy points name (newValues points st values name))]]
      else [] := by
  obtain ⟨-, htopics, hentries⟩ := update_spec h
  -- the names of the changed points, each once
  have hnd : ((changedDevices env points st values).flatMap Prod.snd).Nodup := by
    obtain ⟨hone, htwo⟩ := List.nodup_flatMap.1 (devices_nodup env hnamed.nodup)
    refine List.nodup_flatMap.2 ⟨?_, (List.pairwise_map.2 (htwo.imp ?_)).filter _⟩
    · intro row hrow
      obtain ⟨d, hd, rfl⟩ := List.mem_map.1 (List.mem_filter.1 hrow).1
      exact (hone d hd).filter _
    · intro d d' hdisj n hn hn'
      exact hdisj (List.mem_filter.1 hn).1 (List.mem_filter.1 hn').1
  have hchanged : ∀ row ∈ changedDevices env points st values, ∀ n ∈ row.2,
      ∃ s, n = .str s ∧ changed points st values s = true := by
    intro row hrow n hn
    obtain ⟨d, -, rfl⟩ := List.mem_map.1 (List.mem_filter.1 hrow).1
    have hn := (List.mem_filter.1 hn).2
    cases n with
    | str s => exact ⟨s, rfl, hn⟩
    | _ => cases hn
  unfold reports
  rw [mentions_eq name htopics hentries]
  by_cases hch : changed points st values name = true
  · rw [if_pos hch]
    obtain ⟨names, hjob, hn⟩ := exists_mem_devices env hp
    have hkeep : p.name ∈ names.filter (changedName points st values) := by
      refine List.mem_filter.2 ⟨hn, ?_⟩
      rw [hname]
      exact hch
    have hrow : (deviceId env p.unit, names.filter (changedName points st values)) ∈
        changedDevices env points st values := by
      refine List.mem_filter.2 ⟨List.mem_map.2 ⟨_, hjob, rfl⟩, ?_⟩
      simpa using List.ne_nil_of_mem hkeep
    have hone := Replica.filter_mentions (p := fun n => nameText n = name)
      (fun dev n => (dev, (entryOf points (newValues points st values) dev n).2)) hnd hrow hkeep (by
        intro n hn
        obtain ⟨row, hrow, hn⟩ := List.mem_flatMap.1 hn
        obtain ⟨s, rfl, -⟩ := hchanged row hrow n hn
        rw [hname]
        constructor
        · intro h
          exact congrArg Json.str (of_decide_eq_true h : s = name)
        · intro h
          exact decide_eq_true (Json.str.inj h : s = name))
    rw [hone, hname]
    rfl
  · rw [if_neg hch]
    refine Replica.filter_mentions_nil
      (fun dev n => (dev, (entryOf points (newValues points st values) dev n).2)) ?_
    intro row hrow n hn
    obtain ⟨s, rfl, hs⟩ := hchanged row hrow n hn
    refine decide_eq_false ?_
    rintro rfl
    exact hch hs

/-- What a call reports of a point, and the value after it, by the changes in the call. -/
theorem step_reports {c : Call} {st st' : State} {msgs : List Msg}
    (h : step env points st c = .ok (st', msgs)) {p : ModbusPoint} (hp : p ∈ points)
    {name : String} (hname : p.name = .str name) (rest : List Call) :
    (changes name (st.values name) (c :: rest)).map
        (fun v => [(deviceId env p.unit, carriedBy points name v)]) =
      reports name msgs ++ (changes name (st'.values name) rest).map
        fun v => [(deviceId env p.unit, carriedBy points name v)] := by
  cases c with
  | birth now =>
    obtain ⟨hvalues, nbirth, births, rfl, hnbirth, htopics, -⟩ := birth_spec h
    have hnone : reports name (nbirth :: births) = [] := by
      refine reports_nil fun m hm d => ?_
      rcases List.mem_cons.1 hm with rfl | hm
      · rw [hnbirth]
        simp
      · obtain ⟨d', hd'⟩ := htopics m hm
        rw [hd']
        simp
    rw [hnone, List.nil_append, hvalues]
    rfl
  | update values now =>
    have hreports := update_reports hnamed h hp hname
    rw [hreports, (update_spec h).1]
    -- the value after the update is the reported one where it changed
    have hpoint := hnamed.pointNamed hp hname
    have hchanges : changes name (st.values name) (.update values now :: rest) =
        match values name with
        | none => changes name (st.values name) rest
        | some w =>
          if (st.values name).differs w then w :: changes name w rest
          else changes name (st.values name) rest := rfl
    rw [hchanges]
    unfold newValues changed
    rw [hpoint]
    cases hv : values name with
    | none => simp
    | some w =>
      by_cases hd : (st.values name).differs w = true
      · simp [hd]
      · simp [hd]
  | will =>
    obtain ⟨hvalues, rfl⟩ := will_spec h
    rw [hvalues]
    rfl

/-- **Changes.**  Over a run, the DDATA messages that name a point are one for each change of its
    value, in order, each with the point once and the value that it changed to. -/
theorem run_reports {calls : List Call} {st st' : State} {msgs : List Msg}
    (h : run env points st calls = .ok (st', msgs)) {p : ModbusPoint} (hp : p ∈ points)
    {name : String} (hname : p.name = .str name) :
    reports name msgs = (changes name (st.values name) calls).map
      fun v => [(deviceId env p.unit, carriedBy points name v)] := by
  induction calls generalizing st msgs with
  | nil =>
    obtain ⟨-, rfl⟩ := run_nil h
    rfl
  | cons c rest ih =>
    obtain ⟨st₁, ms, more, hstep, hrun, rfl⟩ := run_cons h
    rw [reports_append, step_reports hnamed hstep hp hname, ih hrun]

end

end Ser2Net.Engine.SparkplugReport
