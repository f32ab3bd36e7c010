import Ser2Net.Engine.SparkplugNode
import Ser2Net.Lib.Dict

namespace Ser2Net.Engine.ModbusGateway

open Ser2Net.Lib
open Ser2Net.Engine.SparkplugNode (Point Node Msg Body devices)

/-!
# Engine — polling and writing of the Modbus gateway (`app/engine/modbus_gateway.py`)

The edge mode of the gateway: the poll loop reads the configured points one transaction
after the other and publishes the values of a round when it is complete; a `write_point`
task writes a point, reads it back and publishes that value at once.  Every transaction
holds the bus lock, and the tasks take turns in any order, until the gateway is stopped.

Each value is stamped with the number of the transaction that read it.

* `publishValues` — plain MQTT topics, or the Sparkplug node's `update`;
* `NotHeld` — no read-back of a point ends while the round of the poll loop holds an
  unpublished value of that point;
* `published_in_read_order` — in the runs that meet it, the values of every point are
  published in the order of the reads, and the last one published is the last one read;
* `stale_value_published` — a round of three points that publishes a value read before the
  write over the value read back after it.
-/

variable {ν α : Type}

/-- A value and the number of the bus transaction that read it. -/
abbrev Stamped (α : Type) := α × Nat

/-- `payload_format` of the mapping. -/
inductive Format
  | plain
  | sparkplugB
  deriving DecidableEq, Repr

/-- A gateway with polling: its points, the payload format, whether the publisher is
    connected (it is not without `paho-mqtt`), and the language's `!=` on values. -/
structure Gateway (ν α : Type) where
  points : List (Point ν)
  format : Format
  connected : Bool
  differ : α → α → Bool

/-- The poll loop: between two rounds, or in a round with the points still to read and the
    values read so far. -/
inductive Poll (ν α : Type)
  | sleeping
  | round (todo : List (Point ν)) (values : List (ν × Stamped α))
  deriving DecidableEq, Repr

/-- The values that the poll loop has read and not published. -/
def Poll.held : Poll ν α → List (ν × Stamped α)
  | .round _ values => values
  | _ => []

/-- The points that the round has still to read. -/
def Poll.todo : Poll ν α → List (Point ν)
  | .round todo _ => todo
  | _ => []

/-- A `write_point` task: the write, or the read-back after a good reply. -/
inductive Write (ν : Type)
  | writing (point : Point ν)
  | readingBack (point : Point ν)
  deriving DecidableEq, Repr

/-- The point of a write task. -/
def Write.point : Write ν → Point ν
  | .writing p => p
  | .readingBack p => p

/-- Who holds `_bus_lock`. -/
inductive Holder
  | poll
  | write (task : Nat)
  deriving DecidableEq, Repr

/-- The gateway at run time: the bus lock, the number of transactions done, the poll loop,
    the write tasks, the Sparkplug node, what was published so far, and (for the
    specification) the last value read per point. -/
structure State (ν α : Type) where
  bus : Option Holder
  clock : Nat
  poll : Poll ν α
  writes : Nat → Option (Write ν)
  node : Node ν (Stamped α)
  published : List (ν × Stamped α)
  lastRead : ν → Option (Stamped α)

/-- A gateway that has just started its poll task. -/
def State.init : State ν α := ⟨none, 0, .sleeping, fun _ => none, Node.init, [], fun _ => none⟩

/-- The values that a message of the node reports. -/
def metricsOf : Body ν (Stamped α) → List (ν × Stamped α)
  | .nbirth _ => []
  | .dbirth _ metrics | .ddata _ metrics => metrics.filterMap fun e => e.2.map fun v => (e.1, v)

/-- The values that the messages of a callback report, in order. -/
def reported (msgs : List (Msg ν (Stamped α))) : List (ν × Stamped α) :=
  msgs.flatMap fun m => metricsOf m.body

section Step

variable [DecidableEq ν]

/-- `_publish_values`: what it sends, and the node afterwards. -/
def publishValues (gw : Gateway ν α) (s : State ν α) (values : List (ν × Stamped α)) :
    State ν α :=
  match gw.format with
  | .sparkplugB =>
    let (node, msgs) := s.node.update (fun v w => gw.differ v.1 w.1) gw.points values
    { s with
      node := node
      published := if gw.connected then s.published ++ reported msgs else s.published }
  | .plain =>
    { s with published := if gw.connected then s.published ++ values else s.published }

/-- `SparkplugNode.birth`, after a connect or on a rebirth command. -/
def publishBirth (gw : Gateway ν α) (s : State ν α) : State ν α :=
  let (node, msgs) := s.node.birth gw.points
  { s with
    node := node
    published := if gw.connected then s.published ++ reported msgs else s.published }

/-- The end of a transaction: the lock is released and the transaction counted. -/
def release (s : State ν α) : State ν α := { s with bus := none, clock := s.clock + 1 }

/-- A transaction that read `v` from point `name`. -/
def recordRead (s : State ν α) (name : ν) (v : α) : State ν α :=
  { s with lastRead := fun n => if n = name then some (v, s.clock) else s.lastRead n }

/-- The poll loop after a read that gave `r`: the value is kept, and after the last point
    the values of the round, if there are any, are published. -/
def afterRead (gw : Gateway ν α) (s : State ν α) (p : Point ν) (rest : List (Point ν))
    (values : List (ν × Stamped α)) (r : Option α) : State ν α :=
  let (s, values) := match r with
    | some v => (recordRead s p.name v, dictSet values p.name (v, s.clock))
    | none => (s, values)
  if rest.isEmpty then
    let s := if values.isEmpty then s else publishValues gw s values
    { s with poll := .sleeping }
  else { s with poll := .round rest values }

/-- What can happen next.  Reads and writes end with a result: `none` and `false` are an
    exception (no answer, an exception reply, a reply that does not decode). -/
inductive Event (ν α : Type)
  /-- the poll loop starts a round -/
  | wake
  /-- the poll loop takes the bus lock for the next point -/
  | pollAcquire
  /-- the read of the poll loop ends -/
  | pollRead (r : Option α)
  /-- an MQTT command starts a `write_point` task -/
  | spawn (task : Nat) (p : Point ν)
  /-- a write task takes the bus lock, for the write or for the read-back -/
  | writeAcquire (task : Nat)
  /-- the write ends -/
  | writeDone (task : Nat) (ok : Bool)
  /-- the read-back ends and the value is published -/
  | readBack (task : Nat) (r : Option α)
  /-- the Sparkplug node publishes its births -/
  | birth
  deriving Repr

/-- `writes` with the state of one task replaced. -/
def setWrite (s : State ν α) (task : Nat) (w : Option (Write ν)) : State ν α :=
  { s with writes := fun k => if k = task then w else s.writes k }

/-- One event. -/
def step (gw : Gateway ν α) (s : State ν α) : Event ν α → Option (State ν α)
  | .wake =>
    match s.poll with
    | .sleeping => some { s with poll := if gw.points.isEmpty then .sleeping else .round gw.points [] }
    | _ => none
  | .pollAcquire =>
    match s.poll with
    | .round (_ :: _) _ => if s.bus = none then some { s with bus := some .poll } else none
    | _ => none
  | .pollRead r =>
    match s.poll with
    | .round (p :: rest) values =>
      if s.bus = some .poll then some (afterRead gw (release s) p rest values r) else none
    | _ => none
  | .spawn task p =>
    if s.writes task = none ∧ p ∈ gw.points then some (setWrite s task (some (.writing p)))
    else none
  | .writeAcquire task =>
    if s.bus = none ∧ (s.writes task).isSome then some { s with bus := some (.write task) }
    else none
  | .writeDone task ok =>
    match s.writes task with
    | some (.writing p) =>
      if s.bus = some (.write task) then
        some (setWrite (release s) task (if ok then some (.readingBack p) else none))
      else none
    | _ => none
  | .readBack task r =>
    match s.writes task with
    | some (.readingBack p) =>
      if s.bus = some (.write task) then
        let s := setWrite (release s) task none
        match r with
        | some v => some (publishValues gw (recordRead s p.name v) [(p.name, (v, s.clock))])
        | none => some s
      else none
    | _ => none
  | .birth => if gw.format = .sparkplugB then some (publishBirth gw s) else none

/-- The condition on a step: a read-back that succeeds is of a point of which the poll loop
    holds no unpublished value. -/
def NotHeld (s : State ν α) : Event ν α → Prop
  | .readBack task (some _) =>
    ∀ p, s.writes task = some (.readingBack p) → p.name ∉ s.poll.held.map Prod.fst
  | _ => True

/-! ### What a point's subscribers see -/

/-- The values published for one point, in order. -/
def pubsOf (published : List (ν × Stamped α)) (name : ν) : List (Stamped α) :=
  published.filterMap fun e => if e.1 = name then some e.2 else none

/-- `w` is what a subscriber holds when `r` was read: the same value, or one that the report
    by exception did not find different. -/
def Shows (gw : Gateway ν α) (w r : Stamped α) : Prop := w = r ∨ gw.differ w.1 r.1 = false

theorem pubsOf_append (as bs : List (ν × Stamped α)) (name : ν) :
    pubsOf (as ++ bs) name = pubsOf as name ++ pubsOf bs name :=
  List.filterMap_append

theorem mem_pubsOf {published : List (ν × Stamped α)} {name : ν} {w : Stamped α} :
    w ∈ pubsOf published name ↔ (name, w) ∈ published := by
  unfold pubsOf
  rw [List.mem_filterMap]
  constructor
  · rintro ⟨⟨n, v⟩, hmem, hsome⟩
    dsimp only at hsome
    split at hsome
    next hn =>
      obtain rfl := Option.some.inj hsome
      exact hn ▸ hmem
    next => cases hsome
  · intro hmem
    exact ⟨(name, w), hmem, if_pos rfl⟩

/-! ### Devices -/

omit [DecidableEq ν] in
/-- Every point is a metric of the device of its unit. -/
theorem mem_devices {points : List (Point ν)} {p : Point ν} (hp : p ∈ points) :
    ∃ d ∈ devices points, p.name ∈ d.2 := by
  -- `keep`: a name that is in some device stays in one
  have keep : ∀ (ps : List (Point ν)) (ds : List (Nat × List ν)) (name : ν),
      (∃ d ∈ ds, name ∈ d.2) → ∃ d ∈ ps.foldl SparkplugNode.addPoint ds, name ∈ d.2 := by
    intro ps
    induction ps with
    | nil => exact fun _ _ h => h
    | cons q qs ih =>
      rintro ds name ⟨d, hd, hmem⟩
      refine ih _ name ?_
      unfold SparkplugNode.addPoint
      split
      · refine ⟨_, List.mem_map_of_mem hd, ?_⟩
        split
        · exact List.mem_append_left _ hmem
        · exact hmem
      · exact ⟨d, List.mem_append_left _ hd, hmem⟩
  obtain ⟨before, after, rfl⟩ := List.append_of_mem hp
  unfold devices
  rw [List.foldl_append, List.foldl_cons]
  refine keep after _ p.name ?_
  unfold SparkplugNode.addPoint
  split
  next hany =>
    obtain ⟨d, hd, hu⟩ := List.any_eq_true.1 hany
    have hu : d.1 = p.unit := by simpa using hu
    refine ⟨_, List.mem_map_of_mem hd, ?_⟩
    rw [if_pos hu]
    exact List.mem_append_right _ (List.mem_singleton.2 rfl)
  next => exact ⟨_, List.mem_append_right _ (List.mem_singleton.2 rfl), List.mem_singleton.2 rfl⟩

omit [DecidableEq ν] in
theorem reported_numbered (seq : Nat) (bodies : List (Body ν (Stamped α))) :
    reported (SparkplugNode.numbered seq bodies) = bodies.flatMap metricsOf := by
  induction bodies generalizing seq with
  | nil => rfl
  | cons b bs ih =>
    show metricsOf b ++ reported (SparkplugNode.numbered (SparkplugNode.nextSeq seq) bs) = _
    rw [ih]
    rfl

omit [DecidableEq ν] in
/-- A list of metrics with their values reports the values that are there. -/
theorem mem_metrics {names : List ν} {values : ν → Option (Stamped α)} {n : ν} {w : Stamped α} :
    (n, w) ∈ (names.map fun name => (name, values name)).filterMap
        (fun e => e.2.map fun v => (e.1, v)) ↔ n ∈ names ∧ values n = some w := by
  rw [List.mem_filterMap]
  constructor
  · rintro ⟨e, he, hw⟩
    obtain ⟨name, hname, rfl⟩ := List.mem_map.1 he
    simp only [Option.map_eq_some_iff, Prod.mk.injEq] at hw
    obtain ⟨v, hv, rfl, rfl⟩ := hw
    exact ⟨hname, hv⟩
  · rintro ⟨hn, hw⟩
    exact ⟨(n, values n), List.mem_map_of_mem hn, by simp [hw]⟩

/-- What `update` reports: the changed points, with their new values. -/
theorem mem_reported_update {differ : Stamped α → Stamped α → Bool} {points : List (Point ν)}
    {node : Node ν (Stamped α)} {values : List (ν × Stamped α)} {n : ν} {w : Stamped α} :
    (n, w) ∈ reported (node.update differ points values).2 ↔
      node.changed differ points values n = true ∧ values.lookup n = some w := by
  show (n, w) ∈ reported (SparkplugNode.numbered _ _) ↔ _
  rw [reported_numbered, List.mem_flatMap]
  constructor
  · rintro ⟨b, hb, hw⟩
    obtain ⟨d, -, hd⟩ := List.mem_filterMap.1 hb
    unfold SparkplugNode.changedBody at hd
    dsimp only at hd
    split at hd
    · cases hd
    · obtain rfl := Option.some.inj hd
      obtain ⟨hmem, hval⟩ := mem_metrics.1 hw
      have hch := (List.mem_filter.1 hmem).2
      rw [if_pos hch] at hval
      exact ⟨hch, hval⟩
  -- a changed point sits in one device, whose body is then not empty
  · rintro ⟨hch, hval⟩
    have hname : n ∈ points.map Point.name := by
      unfold Node.changed at hch
      rw [hval] at hch
      simp only [Bool.and_eq_true, decide_eq_true_eq] at hch
      exact hch.1
    obtain ⟨p, hp, rfl⟩ := List.mem_map.1 hname
    obtain ⟨d, hd, hmem⟩ := mem_devices hp
    have hfilter : p.name ∈ d.2.filter (node.changed differ points values) :=
      List.mem_filter.2 ⟨hmem, hch⟩
    refine ⟨_, List.mem_filterMap.2 ⟨d, hd, if_neg ?_⟩,
      mem_metrics.2 ⟨hfilter, by rw [if_pos hch, hval]⟩⟩
    intro hempty
    rw [List.isEmpty_iff.1 hempty] at hfilter
    cases hfilter

/-! ### The invariant -/

/-- What holds of one point's subscribers: the values are in the order of the reads and none
    is newer than the last read; the value of the Sparkplug node is between the two, and is
    the last one published. -/
structure Ordered (gw : Gateway ν α) (s : State ν α) (n : ν) : Prop where
  sorted : ((pubsOf s.published n).map Prod.snd).Pairwise (· ≤ ·)
  seen : ∀ w ∈ pubsOf s.published n, ∃ r, s.lastRead n = some r ∧ w.2 ≤ r.2
  node : ∀ v, s.node.values n = some v →
    (∀ w ∈ pubsOf s.published n, w.2 ≤ v.2) ∧ ∃ r, s.lastRead n = some r ∧ v.2 ≤ r.2
  clock : ∀ r, s.lastRead n = some r → r.2 ≤ s.clock
  mirror : gw.connected = true → gw.format = .sparkplugB →
    (pubsOf s.published n).getLast? = s.node.values n
  idle : gw.format = .plain → s.node.values n = none

/-- Subscribers of the point see its last read. -/
def UpToDate (gw : Gateway ν α) (s : State ν α) (n : ν) : Prop :=
  gw.connected = true → ∀ r, s.lastRead n = some r →
    ∃ w, (pubsOf s.published n).getLast? = some w ∧ Shows gw w r

variable {gw : Gateway ν α} {s s' : State ν α} {n : ν} {v : Stamped α}

/-- Steps that leave the point's publications, its value in the node and its last read. -/
theorem Ordered.frame (h : Ordered gw s n)
    (hpub : pubsOf s'.published n = pubsOf s.published n)
    (hnode : s'.node.values n = s.node.values n) (hread : s'.lastRead n = s.lastRead n)
    (hclock : s.clock ≤ s'.clock) : Ordered gw s' n where
  sorted := hpub ▸ h.sorted
  seen := by rw [hpub, hread]; exact h.seen
  node := by rw [hpub, hread, hnode]; exact h.node
  clock := by
    rw [hread]
    intro r hr
    exact Nat.le_trans (h.clock r hr) hclock
  mirror := by rw [hpub, hnode]; exact h.mirror
  idle := by rw [hnode]; exact h.idle

theorem UpToDate.frame (h : UpToDate gw s n)
    (hpub : pubsOf s'.published n = pubsOf s.published n)
    (hread : s'.lastRead n = s.lastRead n) : UpToDate gw s' n := by
  unfold UpToDate at h ⊢
  rw [hpub, hread]
  exact h

/-- A read of the point itself: it is newer than everything before. -/
theorem Ordered.read (h : Ordered gw s n)
    (hpub : pubsOf s'.published n = pubsOf s.published n)
    (hnode : s'.node.values n = s.node.values n)
    (hread : s'.lastRead n = some (v.1, s'.clock)) (hclock : s.clock ≤ s'.clock) :
    Ordered gw s' n where
  sorted := hpub ▸ h.sorted
  seen := by
    rw [hpub]
    intro w hw
    obtain ⟨r, hr, hle⟩ := h.seen w hw
    -- what was shown before is no newer than the old reading, and the clock only grows
    exact ⟨_, hread, Nat.le_trans (Nat.le_trans hle (h.clock r hr)) hclock⟩
  node := by
    rw [hpub, hnode]
    intro u hu
    obtain ⟨hall, r, hr, hle⟩ := h.node u hu
    exact ⟨hall, _, hread, Nat.le_trans (Nat.le_trans hle (h.clock r hr)) hclock⟩
  clock := by
    rw [hread]
    rintro r ⟨⟩
    exact Nat.le_refl _
  mirror := by rw [hpub, hnode]; exact h.mirror
  idle := by rw [hnode]; exact h.idle

/-- The last read value of the point is published, as often as it may be. -/
theorem Ordered.sent {l : List (Stamped α)} (h : Ordered gw s n)
    (hlast : s.lastRead n = some v) (hl : ∀ w ∈ l, w = v)
    (hpub : pubsOf s'.published n = pubsOf s.published n ++ l)
    (hnode : s'.node.values n = if gw.format = .sparkplugB then some v else s.node.values n)
    (hread : s'.lastRead n = s.lastRead n) (hclock : s'.clock = s.clock)
    (hconn : gw.connected = true → l ≠ []) : Ordered gw s' n ∧ UpToDate gw s' n := by
  -- the new publications all carry the last read, which nothing published is newer than
  have hle : ∀ w ∈ pubsOf s'.published n, w.2 ≤ v.2 := by
    rw [hpub]
    intro w hw
    rcases List.mem_append.1 hw with hw | hw
    · obtain ⟨r, hr, hle⟩ := h.seen w hw
      rw [hlast, Option.some.injEq] at hr
      exact hr ▸ hle
    · exact hl w hw ▸ Nat.le_refl _
  have hend : gw.connected = true → (pubsOf s'.published n).getLast? = some v := by
    intro hc
    rw [hpub, List.getLast?_append_of_ne_nil _ (hconn hc), List.getLast?_eq_some_getLast (hconn hc),
      hl _ (List.getLast_mem (hconn hc))]
  refine ⟨⟨?_, ?_, ?_, ?_, ?_, ?_⟩, ?_⟩
  · rw [hpub, List.map_append, List.pairwise_append]
    refine ⟨h.sorted, ?_, ?_⟩
    · refine List.pairwise_iff_forall_sublist.2 fun {a b} hab => ?_
      have ha := hab.subset (List.mem_cons_self)
      have hb := hab.subset (List.mem_cons_of_mem _ List.mem_cons_self)
      obtain ⟨x, hx, rfl⟩ := List.mem_map.1 ha
      obtain ⟨y, hy, rfl⟩ := List.mem_map.1 hb
      exact Nat.le_of_eq (by rw [hl x hx, hl y hy])
    · intro a ha b hb
      obtain ⟨x, hx, rfl⟩ := List.mem_map.1 ha
      obtain ⟨y, hy, rfl⟩ := List.mem_map.1 hb
      rw [hl y hy]
      exact hle x (by rw [hpub]; exact List.mem_append_left _ hx)
  · intro w hw
    exact ⟨v, by rw [hread, hlast], hle w hw⟩
  -- the node stores the value only where there is a node, so its store is no newer
  · intro u hu
    rw [hnode] at hu
    split at hu
    · obtain rfl := Option.some.inj hu
      exact ⟨hle, v, by rw [hread, hlast], Nat.le_refl _⟩
    next hf =>
      have hplain : gw.format = .plain := by
        cases hfmt : gw.format with
        | plain => rfl
        | sparkplugB => exact absurd hfmt hf
      rw [h.idle hplain] at hu
      cases hu
  · rw [hread, hclock]
    exact h.clock
  · intro hc hf
    rw [hend hc, hnode, if_pos hf]
  · intro hf
    rw [hnode, if_neg (by rw [hf]; decide)]
    exact h.idle hf
  · intro hc r hr
    rw [hread, hlast, Option.some.injEq] at hr
    exact ⟨v, hend hc, Or.inl hr⟩

variable (gw s) in
theorem publishValues_frame (values : List (ν × Stamped α)) :
    (publishValues gw s values).lastRead = s.lastRead ∧
      (publishValues gw s values).clock = s.clock ∧
      (publishValues gw s values).poll = s.poll ∧
      (publishValues gw s values).writes = s.writes ∧
      (publishValues gw s values).bus = s.bus := by
  unfold publishValues
  split <;> exact ⟨rfl, rfl, rfl, rfl, rfl⟩

/-- What is published for a point on plain topics. -/
theorem pubsOf_plain (hf : gw.format = .plain) (values : List (ν × Stamped α)) (n : ν) :
    pubsOf (publishValues gw s values).published n =
      pubsOf s.published n ++ if gw.connected then pubsOf values n else [] := by
  unfold publishValues
  rw [hf]
  cases gw.connected <;> simp [pubsOf_append]

/-- What the Sparkplug node reports of the values. -/
def nodeReport (gw : Gateway ν α) (s : State ν α) (values : List (ν × Stamped α)) :
    List (ν × Stamped α) :=
  reported (s.node.update (fun v w => gw.differ v.1 w.1) gw.points values).2

/-- A value that the node would report. -/
def News (gw : Gateway ν α) (s : State ν α) (values : List (ν × Stamped α)) (n : ν) : Prop :=
  s.node.changed (fun v w => gw.differ v.1 w.1) gw.points values n = true

theorem mem_nodeReport {values : List (ν × Stamped α)} {w : Stamped α} :
    w ∈ pubsOf (nodeReport gw s values) n ↔ News gw s values n ∧ values.lookup n = some w :=
  mem_pubsOf.trans mem_reported_update

/-- What is published for a point by the Sparkplug node. -/
theorem pubsOf_sparkplug (hf : gw.format = .sparkplugB) (values : List (ν × Stamped α)) (n : ν) :
    pubsOf (publishValues gw s values).published n =
      pubsOf s.published n ++ if gw.connected then pubsOf (nodeReport gw s values) n else [] := by
  unfold publishValues nodeReport
  rw [hf]
  cases gw.connected <;> simp [pubsOf_append]

/-- The node's value of a point after a report. -/
theorem values_sparkplug (hf : gw.format = .sparkplugB) (values : List (ν × Stamped α)) (n : ν) :
    (News gw s values n → (publishValues gw s values).node.values n = values.lookup n) ∧
      (¬ News gw s values n → (publishValues gw s values).node.values n = s.node.values n) := by
  unfold publishValues News
  rw [hf]
  exact ⟨fun h => if_pos h, fun h => if_neg h⟩

/-- A value that is no news: the node's value does not differ from it. -/
theorem not_news {values : List (ν × Stamped α)} (hpt : n ∈ gw.points.map Point.name)
    (hv : values.lookup n = some v) (h : ¬ News gw s values n) :
    ∃ w, s.node.values n = some w ∧ gw.differ w.1 v.1 = false := by
  unfold News Node.changed at h
  rw [hv] at h
  simp only [hpt, decide_true, Bool.true_and] at h
  cases hval : s.node.values n with
  | none => simp [hval] at h
  | some w => exact ⟨w, rfl, by simpa [hval] using h⟩

/-- A list that holds no entry of the point publishes nothing for it. -/
theorem pubsOf_eq_nil {values : List (ν × Stamped α)} (h : n ∉ values.map Prod.fst) :
    pubsOf values n = [] := by
  rw [List.eq_nil_iff_forall_not_mem]
  exact fun w hw => h (List.mem_map_of_mem (f := Prod.fst) (mem_pubsOf.1 hw))

/-- **Publishing** the last read values of some points keeps every point in order, and brings
    those points up to date: plain topics. -/
theorem ordered_plain {values : List (ν × Stamped α)} (hf : gw.format = .plain)
    (hnd : (values.map Prod.fst).Nodup) (hlast : ∀ e ∈ values, s.lastRead e.1 = some e.2)
    (h : Ordered gw s n) :
    Ordered gw (publishValues gw s values) n ∧
      (n ∈ values.map Prod.fst ∨ UpToDate gw s n → UpToDate gw (publishValues gw s values) n) := by
  obtain ⟨hread, hclock, -⟩ := publishValues_frame gw s values
  have hread : (publishValues gw s values).lastRead n = s.lastRead n := congrFun hread n
  have hpub := pubsOf_plain (s := s) hf values n
  have hnode : (publishValues gw s values).node.values n = s.node.values n := by
    unfold publishValues
    rw [hf]
  -- a point of the round is sent once, with its own value
  by_cases hmem : n ∈ values.map Prod.fst
  · obtain ⟨v, he⟩ := mem_keys.1 hmem
    have hv := lookup_of_mem hnd he
    have hall : ∀ w ∈ (if gw.connected then pubsOf values n else []), w = v := by
      intro w hw
      split at hw
      · have := lookup_of_mem hnd (mem_pubsOf.1 hw)
        rw [hv, Option.some.injEq] at this
        exact this.symm
      · cases hw
    have hsome : gw.connected = true → (if gw.connected then pubsOf values n else []) ≠ [] := by
      intro hc
      rw [if_pos hc]
      exact List.ne_nil_of_mem (mem_pubsOf.2 he)
    have hsent := h.sent (hlast _ he) hall hpub
      (hnode.trans (if_neg (by rw [hf]; decide)).symm) hread hclock hsome
    exact ⟨hsent.1, fun _ => hsent.2⟩
  · rw [pubsOf_eq_nil hmem, ite_self, List.append_nil] at hpub
    refine ⟨h.frame hpub hnode hread (Nat.le_of_eq hclock.symm), ?_⟩
    rintro (hin | hup)
    · exact absurd hin hmem
    · exact hup.frame hpub hread

/-- **Publishing** by the Sparkplug node. -/
theorem ordered_sparkplug {values : List (ν × Stamped α)} (hf : gw.format = .sparkplugB)
    (hnd : (values.map Prod.fst).Nodup)
    (hpts : ∀ e ∈ values, e.1 ∈ gw.points.map Point.name)
    (hlast : ∀ e ∈ values, s.lastRead e.1 = some e.2) (h : Ordered gw s n) :
    Ordered gw (publishValues gw s values) n ∧
      (n ∈ values.map Prod.fst ∨ UpToDate gw s n → UpToDate gw (publishValues gw s values) n) := by
  obtain ⟨hread, hclock, -⟩ := publishValues_frame gw s values
  have hread : (publishValues gw s values).lastRead n = s.lastRead n := congrFun hread n
  have hpub := pubsOf_sparkplug (s := s) hf values n
  obtain ⟨hnews, hold⟩ := values_sparkplug (s := s) hf values n
  -- news is reported by its device; without news the reported value stays
  by_cases hch : News gw s values n
  · obtain ⟨v, hv⟩ : ∃ v, values.lookup n = some v := by
      cases hv : values.lookup n with
      | none => simp [News, Node.changed, hv] at hch
      | some v => exact ⟨v, rfl⟩
    have hnode := hnews hch
    rw [hv] at hnode
    have hread' : s.lastRead n = some v := hlast (n, v) (mem_of_lookup hv)
    have hall : ∀ w ∈ (if gw.connected then pubsOf (nodeReport gw s values) n else []), w = v := by
      -- whatever is sent of this point is the value of the round
      intro w hw
      split at hw
      · have := (mem_nodeReport.1 hw).2
        rw [hv, Option.some.injEq] at this
        exact this.symm
      · cases hw
    have hsome : gw.connected = true →
        (if gw.connected then pubsOf (nodeReport gw s values) n else []) ≠ [] := by
      intro hc
      rw [if_pos hc]
      exact List.ne_nil_of_mem (mem_nodeReport.2 ⟨hch, hv⟩)
    have hsent := h.sent hread' hall hpub (hnode.trans (if_pos hf).symm) hread hclock hsome
    exact ⟨hsent.1, fun _ => hsent.2⟩
  · have hnode := hold hch
    have hnone : pubsOf (nodeReport gw s values) n = [] := by
      rw [List.eq_nil_iff_forall_not_mem]
      exact fun w hw => hch (mem_nodeReport.1 hw).1
    rw [hnone, ite_self, List.append_nil] at hpub
    refine ⟨h.frame hpub hnode hread (Nat.le_of_eq hclock.symm), ?_⟩
    rintro (hin | hup)
    -- no news although it was read: it differs too little from what was reported
    · obtain ⟨v, he⟩ := mem_keys.1 hin
      obtain ⟨w, hw, hdiff⟩ := not_news (hpts _ he) (lookup_of_mem hnd he) hch
      intro hc r hr
      rw [hread, hlast _ he, Option.some.injEq] at hr
      rw [hpub, h.mirror hc hf]
      exact ⟨w, hw, Or.inr (hr ▸ hdiff)⟩
    · exact hup.frame hpub hread

theorem ordered_publishValues {values : List (ν × Stamped α)}
    (hnd : (values.map Prod.fst).Nodup)
    (hpts : ∀ e ∈ values, e.1 ∈ gw.points.map Point.name)
    (hlast : ∀ e ∈ values, s.lastRead e.1 = some e.2) (h : Ordered gw s n) :
    Ordered gw (publishValues gw s values) n ∧
      (n ∈ values.map Prod.fst ∨ UpToDate gw s n → UpToDate gw (publishValues gw s values) n) := by
  cases hf : gw.format with
  | plain => exact ordered_plain hf hnd hlast h
  | sparkplugB => exact ordered_sparkplug hf hnd hpts hlast h

/-- A birth repeats the node's values. -/
theorem mem_reported_birth {points : List (Point ν)} {node : Node ν (Stamped α)}
    {w : Stamped α} (h : w ∈ pubsOf (reported (node.birth points).2) n) :
    node.values n = some w := by
  have hmem := mem_pubsOf.1 h
  have hrep : reported (node.birth points).2 = ((devices points).map fun d =>
      Body.dbirth d.1 (d.2.map fun name => (name, node.values name))).flatMap metricsOf := by
    rw [← reported_numbered 0]
    rfl
  rw [hrep, List.mem_flatMap] at hmem
  obtain ⟨b, hb, hw⟩ := hmem
  obtain ⟨d, -, rfl⟩ := List.mem_map.1 hb
  exact (mem_metrics.1 hw).2

/-- **Births** keep every point in order, and leave the last value published as it is. -/
theorem ordered_publishBirth (hf : gw.format = .sparkplugB) (h : Ordered gw s n) :
    Ordered gw (publishBirth gw s) n ∧ (UpToDate gw s n → UpToDate gw (publishBirth gw s) n) := by
  have hpub : ∃ l, pubsOf (publishBirth gw s).published n = pubsOf s.published n ++ l ∧
      ∀ w ∈ l, s.node.values n = some w := by
    unfold publishBirth
    dsimp only
    split
    · exact ⟨_, pubsOf_append _ _ _, fun w hw => mem_reported_birth hw⟩
    · exact ⟨[], (List.append_nil _).symm, fun w hw => by cases hw⟩
  obtain ⟨l, hpub, hl⟩ := hpub
  -- a birth repeats what the node holds, so the last report is the node's value again
  have hmirror : gw.connected = true →
      (pubsOf (publishBirth gw s).published n).getLast? = s.node.values n := by
    intro hc
    rw [hpub]
    rcases List.eq_nil_or_concat l with rfl | ⟨l', w, rfl⟩
    · rw [List.append_nil]
      exact h.mirror hc hf
    · rw [List.concat_eq_append, ← List.append_assoc, List.getLast?_concat]
      exact (hl w (by simp)).symm
  have hle : ∀ v, s.node.values n = some v →
      ∀ w ∈ pubsOf (publishBirth gw s).published n, w.2 ≤ v.2 := by
    intro v hv w hw
    rw [hpub] at hw
    rcases List.mem_append.1 hw with hw | hw
    · exact (h.node v hv).1 w hw
    · have := hl w hw
      rw [hv, Option.some.injEq] at this
      exact Nat.le_of_eq (by rw [this])
  refine ⟨⟨?_, ?_, ?_, h.clock, fun hc _ => hmirror hc, h.idle⟩, ?_⟩
  · rw [hpub, List.map_append, List.pairwise_append]
    refine ⟨h.sorted, ?_, ?_⟩
    · refine List.pairwise_iff_forall_sublist.2 fun {a b} hab => ?_
      have ha := hab.subset List.mem_cons_self
      -- two values of one birth are the same value
      have hb := hab.subset (List.mem_cons_of_mem _ List.mem_cons_self)
      obtain ⟨x, hx, rfl⟩ := List.mem_map.1 ha
      obtain ⟨y, hy, rfl⟩ := List.mem_map.1 hb
      exact hle y (hl y hy) x (by rw [hpub]; exact List.mem_append_right _ hx)
    · intro a ha b hb
      obtain ⟨x, hx, rfl⟩ := List.mem_map.1 ha
      obtain ⟨y, hy, rfl⟩ := List.mem_map.1 hb
      exact hle y (hl y hy) x (by rw [hpub]; exact List.mem_append_left _ hx)
  · intro w hw
    rw [hpub] at hw
    rcases List.mem_append.1 hw with hw | hw
    · exact h.seen w hw
    · exact (h.node w (hl w hw)).2
  · intro v hv
    exact ⟨hle v hv, (h.node v hv).2⟩
  · intro hup hc r hr
    rw [hmirror hc, ← h.mirror hc hf]
    exact hup hc r hr

/-- The invariant, for a round that holds the values `held` and has the points `todo` still
    to read. -/
structure InvAt (gw : Gateway ν α) (s : State ν α) (held : List (ν × Stamped α))
    (todo : List (Point ν)) : Prop where
  ordered : ∀ n, Ordered gw s n
  fresh : ∀ n, n ∉ held.map Prod.fst → UpToDate gw s n
  heldLast : ∀ e ∈ held, s.lastRead e.1 = some e.2
  nodup : (held.map Prod.fst).Nodup
  heldPoints : ∀ e ∈ held, e.1 ∈ gw.points.map Point.name
  todoPoints : ∀ p ∈ todo, p ∈ gw.points
  writes : ∀ k w, s.writes k = some w → w.point ∈ gw.points

/-- The invariant of a state. -/
def Inv (gw : Gateway ν α) (s : State ν α) : Prop := InvAt gw s s.poll.held s.poll.todo

variable {held : List (ν × Stamped α)} {todo : List (Point ν)}

/-- Steps that publish and read nothing. -/
theorem InvAt.frame (h : InvAt gw s held todo) (hpub : s'.published = s.published)
    (hnode : s'.node = s.node) (hread : s'.lastRead = s.lastRead) (hclock : s.clock ≤ s'.clock)
    (hwrites : ∀ k w, s'.writes k = some w → w.point ∈ gw.points) : InvAt gw s' held todo where
  ordered n := (h.ordered n).frame (by rw [hpub]) (by rw [hnode]) (by rw [hread]) hclock
  fresh n hn := (h.fresh n hn).frame (by rw [hpub]) (by rw [hread])
  heldLast := by rw [hread]; exact h.heldLast
  nodup := h.nodup
  heldPoints := h.heldPoints
  todoPoints := h.todoPoints
  writes := hwrites

/-- A round that is dropped, or one that goes on with fewer points to read. -/
theorem InvAt.weaken_todo {todo' : List (Point ν)} (h : InvAt gw s held todo)
    (hsub : ∀ p ∈ todo', p ∈ gw.points) : InvAt gw s held todo' :=
  { h with todoPoints := hsub }

/-- A read by the poll loop. -/
theorem InvAt.read {p : Point ν} (h : InvAt gw s held todo) (hp : p ∈ gw.points) (v : α) :
    InvAt gw (recordRead s p.name v) (dictSet held p.name (v, s.clock)) todo where
  ordered n := by
    -- the reading is newer than every shown one, for the other points nothing changes
    by_cases hn : n = p.name
    · exact (h.ordered n).read (v := (v, 0)) rfl rfl (if_pos hn) (Nat.le_refl _)
    · exact (h.ordered n).frame rfl rfl (if_neg hn) (Nat.le_refl _)
  fresh n hn := by
    rw [dictSet_keys] at hn
    have hne : n ≠ p.name := by
      rintro rfl
      split at hn
      next hin => exact hn hin
      next => exact hn (by simp)
    refine (h.fresh n ?_).frame rfl (if_neg hne)
    split at hn
    · exact hn
    · exact fun hin => hn (List.mem_append_left _ hin)
  heldLast := by
    rintro ⟨n, w⟩ he
    rcases mem_dictSet he with ⟨rfl, rfl⟩ | ⟨hne, he⟩
    · exact if_pos rfl
    · exact (if_neg hne).trans (h.heldLast _ he)
  nodup := dictSet_nodup h.nodup _ _
  heldPoints := by
    rintro ⟨n, w⟩ he
    rcases mem_dictSet he with ⟨rfl, rfl⟩ | ⟨-, he⟩
    · exact List.mem_map_of_mem hp
    · exact h.heldPoints _ he
  todoPoints := h.todoPoints
  writes := h.writes

/-- The end of a round. -/
theorem InvAt.publish (h : InvAt gw s held todo) :
    InvAt gw (publishValues gw s held) [] [] where
  ordered n := (ordered_publishValues h.nodup h.heldPoints h.heldLast (h.ordered n)).1
  fresh n _ := by
    refine (ordered_publishValues h.nodup h.heldPoints h.heldLast (h.ordered n)).2 ?_
    by_cases hn : n ∈ held.map Prod.fst
    · exact Or.inl hn
    · exact Or.inr (h.fresh n hn)
  heldLast := by simp
  nodup := by simp
  heldPoints := by simp
  todoPoints := by simp
  writes := by
    rw [(publishValues_frame gw s held).2.2.2.1]
    exact h.writes

/-- A read-back of a point that the round holds no value of. -/
theorem InvAt.readBack {p : Point ν} (h : InvAt gw s held todo) (hp : p ∈ gw.points)
    (hnot : p.name ∉ held.map Prod.fst) (v : α) :
    InvAt gw (publishValues gw (recordRead s p.name v) [(p.name, (v, s.clock))]) held todo := by
  have hne : ∀ e ∈ held, e.1 ≠ p.name := by
    rintro e he heq
    exact hnot (heq ▸ List.mem_map_of_mem he)
  have hord : ∀ n, Ordered gw (recordRead s p.name v) n := by
    -- the read-back is a reading of this point alone
    intro n
    by_cases hn : n = p.name
    · exact (h.ordered n).read (v := (v, 0)) rfl rfl (if_pos hn) (Nat.le_refl _)
    · exact (h.ordered n).frame rfl rfl (if_neg hn) (Nat.le_refl _)
  have hlast : ∀ e ∈ [(p.name, (v, s.clock))],
      (recordRead s p.name v).lastRead e.1 = some e.2 := by
    intro e he
    obtain rfl := List.mem_singleton.1 he
    exact if_pos rfl
  have hpts : ∀ e ∈ [(p.name, (v, s.clock))], e.1 ∈ gw.points.map Point.name := by
    intro e he
    obtain rfl := List.mem_singleton.1 he
    exact List.mem_map_of_mem hp
  obtain ⟨hread, -, -, hwrites, -⟩ := publishValues_frame gw
    (recordRead s p.name v) [(p.name, (v, s.clock))]
  refine ⟨?_, ?_, ?_, h.nodup, h.heldPoints, h.todoPoints, ?_⟩
  · intro n
    exact (ordered_publishValues (by simp) hpts hlast (hord n)).1
  -- a point that was up to date stays so, and the point read back becomes so
  · intro n hn
    refine (ordered_publishValues (by simp) hpts hlast (hord n)).2 ?_
    by_cases heq : n = p.name
    · exact Or.inl (by simp [heq])
    · exact Or.inr ((h.fresh n hn).frame rfl (if_neg heq))
  · intro e he
    rw [hread]
    exact (if_neg (hne e he)).trans (h.heldLast e he)
  · rw [hwrites]
    exact h.writes

theorem InvAt.birth (hf : gw.format = .sparkplugB) (h : InvAt gw s held todo) :
    InvAt gw (publishBirth gw s) held todo where
  ordered n := (ordered_publishBirth hf (h.ordered n)).1
  fresh n hn := (ordered_publishBirth hf (h.ordered n)).2 (h.fresh n hn)
  heldLast := h.heldLast
  nodup := h.nodup
  heldPoints := h.heldPoints
  todoPoints := h.todoPoints
  writes := h.writes

/-- The state of the write tasks after one of them went on or ended. -/
theorem InvAt.writes_setWrite (h : InvAt gw s held todo) {task : Nat} {w' : Option (Write ν)}
    (hw' : ∀ w, w' = some w → w.point ∈ gw.points) :
    ∀ k w, (setWrite s task w').writes k = some w → w.point ∈ gw.points := by
  intro k w hk
  simp only [setWrite] at hk
  split at hk
  · exact hw' w hk
  · exact h.writes k w hk

/-- The read of the poll loop ends. -/
theorem inv_afterRead {p : Point ν} {rest : List (Point ν)} {values : List (ν × Stamped α)}
    (h : InvAt gw s values (p :: rest)) (r : Option α) :
    Inv gw (afterRead gw s p rest values r) := by
  have hp := h.todoPoints p List.mem_cons_self
  have hrest : ∀ q ∈ rest, q ∈ gw.points := fun q hq =>
    h.todoPoints q (List.mem_cons_of_mem _ hq)
  -- after the read, whatever it gave, the round is in a state of the same kind
  obtain ⟨t, held, hinv, heq⟩ : ∃ (t : State ν α) (held : List (ν × Stamped α)),
      InvAt gw t held (p :: rest) ∧ afterRead gw s p rest values r =
        if rest.isEmpty then
          { (if held.isEmpty then t else publishValues gw t held) with poll := .sleeping }
        else { t with poll := .round rest held } := by
    cases r with
    | none => exact ⟨s, values, h, rfl⟩
    | some v => exact ⟨_, _, h.read hp v, rfl⟩
  rw [heq]
  split
  · by_cases hempty : held.isEmpty
    · rw [if_pos hempty]
      rw [List.isEmpty_iff] at hempty
      subst hempty
      exact (hinv.weaken_todo (by simp [Poll.todo])).frame rfl rfl rfl (Nat.le_refl _) hinv.writes
    · rw [if_neg hempty]
      exact hinv.publish.frame rfl rfl rfl (Nat.le_refl _) hinv.publish.writes
  · exact (hinv.weaken_todo hrest).frame rfl rfl rfl (Nat.le_refl _) hinv.writes

/-- Every step that meets the condition preserves the invariant. -/
theorem inv_step (gw : Gateway ν α) (s : State ν α) (e : Event ν α) (s' : State ν α)
    (h : Inv gw s) (hcond : NotHeld s e) (hstep : step gw s e = some s') : Inv gw s' := by
  cases e with
  | wake =>
    simp only [step] at hstep
    split at hstep
    next hpoll =>
      obtain rfl := Option.some.inj hstep
      have h0 : InvAt gw s [] [] := by simpa [Inv, hpoll, Poll.held, Poll.todo] using h
      -- a poll over no points ends where it begins
      by_cases hempty : gw.points.isEmpty
      · rw [if_pos hempty]
        exact h0.frame rfl rfl rfl (Nat.le_refl _) h.writes
      · rw [if_neg hempty]
        exact (h0.weaken_todo fun p hp => hp).frame rfl rfl rfl (Nat.le_refl _) h.writes
    next => cases hstep
  | pollAcquire =>
    simp only [step] at hstep
    split at hstep
    next =>
      split at hstep
      · obtain rfl := Option.some.inj hstep
        exact h.frame rfl rfl rfl (Nat.le_refl _) h.writes
      · cases hstep
    next => cases hstep
  | pollRead r =>
    simp only [step] at hstep
    split at hstep
    next p rest values hpoll =>
      split at hstep
      · obtain rfl := Option.some.inj hstep
        have h0 : InvAt gw s values (p :: rest) := by
          simpa [Inv, hpoll, Poll.held, Poll.todo] using h
        exact inv_afterRead (s := release s)
          (h0.frame rfl rfl rfl (Nat.le_succ _) h.writes) r
      · cases hstep
    next => cases hstep
  | spawn task p =>
    simp only [step, Option.ite_none_right_eq_some, Option.some.injEq] at hstep
    obtain ⟨⟨-, hp⟩, rfl⟩ := hstep
    refine h.frame rfl rfl rfl (Nat.le_refl _) (h.writes_setWrite ?_)
    rintro w ⟨⟩
    exact hp
  | writeAcquire task =>
    simp only [step, Option.ite_none_right_eq_some, Option.some.injEq] at hstep
    obtain ⟨-, rfl⟩ := hstep
    exact h.frame rfl rfl rfl (Nat.le_refl _) h.writes
  | writeDone task ok =>
    simp only [step] at hstep
    split at hstep
    next p hw =>
      split at hstep
      · obtain rfl := Option.some.inj hstep
        refine h.frame rfl rfl rfl (Nat.le_succ _) (h.writes_setWrite ?_)
        intro w hw'
        split at hw'
        · obtain rfl := Option.some.inj hw'
          exact h.writes task (.writing p) hw
        · cases hw'
      · cases hstep
    next => cases hstep
  | readBack task r =>
    simp only [step] at hstep
    split at hstep
    next p hw =>
      split at hstep
      -- the lock is free again; a round that holds an older value of the point is excluded
      · have hdone : InvAt gw (setWrite (release s) task none) s.poll.held s.poll.todo := by
          refine h.frame rfl rfl rfl (Nat.le_succ _) (h.writes_setWrite ?_)
          rintro w ⟨⟩
        cases r with
        | none =>
          obtain rfl := Option.some.inj hstep
          exact hdone
        | some v =>
          obtain rfl := Option.some.inj hstep
          have hpoll := (publishValues_frame gw
            (recordRead (setWrite (release s) task none) p.name v)
            [(p.name, (v, (setWrite (release s) task none).clock))]).2.2.1
          have := hdone.readBack (h.writes task _ hw) (hcond p hw) v
          unfold Inv
          rw [hpoll]
          exact this
      · cases hstep
    next => cases hstep
  | birth =>
    simp only [step, Option.ite_none_right_eq_some, Option.some.injEq] at hstep
    obtain ⟨hf, rfl⟩ := hstep
    exact InvAt.birth hf h

theorem inv_init (gw : Gateway ν α) : Inv gw State.init := by
  have hpub : ∀ n, pubsOf (State.init : State ν α).published n = [] := fun n => rfl
  refine ⟨fun n => ⟨?_, ?_, ?_, ?_, ?_, ?_⟩, ?_, ?_, ?_, ?_, ?_, ?_⟩
  · simp [hpub]
  · simp [hpub]
  · rintro v ⟨⟩
  · rintro r ⟨⟩
  · intro _ _
    rfl
  · intro _
    rfl
  · rintro n - - r ⟨⟩
  · simp [State.init, Poll.held]
  · simp [State.init, Poll.held]
  · simp [State.init, Poll.held]
  · simp [State.init, Poll.todo]
  · rintro k w ⟨⟩

/-- **Publication order.**  In every run whose steps meet the condition, in every state
    reached, the values published for a point are in the order of the transactions that read
    them, and unless the poll loop holds a newer one, the last value published is the last
    one read. -/
theorem published_in_read_order (gw : Gateway ν α) (es : List (Event ν α)) (s : State ν α)
    (hcond : Along (step gw) NotHeld State.init es)
    (hrun : run (step gw) State.init es = some s) (n : ν) :
    ((pubsOf s.published n).map Prod.snd).Pairwise (· ≤ ·) ∧
      (gw.connected = true → n ∉ s.poll.held.map Prod.fst → ∀ r, s.lastRead n = some r →
        ∃ w, (pubsOf s.published n).getLast? = some w ∧ Shows gw w r) := by
  have h : Inv gw s := run_invariant (Inv gw) (inv_step gw) (inv_init gw) hcond hrun
  exact ⟨(h.ordered n).sorted, fun hc hn => h.fresh n hn hc⟩

end Step

/-- Three polled points on plain topics. -/
def threePoints : Gateway String Int :=
  ⟨[⟨"setpoint", 1⟩, ⟨"flow", 1⟩, ⟨"level", 1⟩], .plain, true, fun v w => v != w⟩

/-- A write that is over before the round reads its point. -/
def earlyWrite : List (Event String Int) :=
  [.spawn 0 ⟨"setpoint", 1⟩, .writeAcquire 0, .writeDone 0 true, .writeAcquire 0,
    .readBack 0 (some 20), .wake, .pollAcquire, .pollRead (some 20), .pollAcquire,
    .pollRead (some 7), .pollAcquire, .pollRead (some 3)]

/-- A test for `NotHeld`. -/
def notHeldCheck [DecidableEq ν] (s : State ν α) : Event ν α → Bool
  | .readBack task (some _) =>
    match s.writes task with
    | some (.readingBack p) => decide (p.name ∉ s.poll.held.map Prod.fst)
    | _ => true
  | _ => true

theorem notHeld_of_check [DecidableEq ν] (s : State ν α) (e : Event ν α)
    (h : notHeldCheck s e = true) : NotHeld s e := by
  unfold notHeldCheck at h
  split at h
  next task v =>
    intro p hp
    rw [hp] at h
    exact of_decide_eq_true h
  next hother =>
    unfold NotHeld
    split
    next task v => exact absurd rfl (hother task v)
    next => trivial

/-- The order of the publications of `earlyWrite`. -/
theorem published_in_read_order_earlyWrite :
    ∃ s, run (step threePoints) State.init earlyWrite = some s ∧
      pubsOf s.published "setpoint" = [(20, 2), (20, 3)] ∧
      ((pubsOf s.published "setpoint").map Prod.snd).Pairwise (· ≤ ·) := by
  refine ⟨_, rfl, by decide, (published_in_read_order threePoints earlyWrite _
    (along_of_check notHeld_of_check (by decide)) rfl "setpoint").1⟩

/-- A round that has read `setpoint` when the write and its read-back get the bus: the value
    that the round publishes at its end is older than the one published before it. -/
theorem stale_value_published :
    ∃ (es : List (Event String Int)) (s : State String Int),
      run (step threePoints) State.init es = some s ∧
        pubsOf s.published "setpoint" = [(20, 4), (10, 1)] ∧
        ¬ ((pubsOf s.published "setpoint").map Prod.snd).Pairwise (· ≤ ·) := by
  refine ⟨[.wake, .pollAcquire, .spawn 0 ⟨"setpoint", 1⟩, .pollRead (some 10), .writeAcquire 0,
    .writeDone 0 true, .pollAcquire, .pollRead (some 7), .writeAcquire 0,
    .readBack 0 (some 20), .pollAcquire, .pollRead (some 3)], _, rfl, by decide, by decide⟩

end Ser2Net.Engine.ModbusGateway
