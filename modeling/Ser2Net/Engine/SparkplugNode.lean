import Ser2Net.Lib.Trace

namespace Ser2Net.Engine.SparkplugNode

open Ser2Net.Lib

/-!
# Engine — the Sparkplug B edge node (`app/engine/sparkplug_node.py`)

A Modbus mapping as an edge node: its Modbus units are the node's devices and their poll
points the metrics.  The node part is `birth` and `update`, which number the messages they
publish.  The session part puts the node between the two threads that drive it:

* the MQTT client's thread connects, loses the connection, and renews the Will in the
  disconnect hook (`_will`, which moves `bdseq`), at any time;
* the event loop runs one callback at a time: the deferred `handle_connect`, an `update` of
  the poll loop or of a write read-back, a rebirth command.  The messages of a callback are
  published one after the other (`send`), so the client's thread may act between two.

A message published while the link is down is dropped, else it joins the log of the broker
session.  `session_starts_with_birth` says that every session is well formed when no update
is published before the session's NBIRTH and no link comes up in the middle of a callback;
`update_before_birth` is a run in which an update gets ahead of the deferred birth.
-/

variable {ν V : Type}

/-! ### The node -/

/-- What the node reads of a `ModbusPoint`. -/
structure Point (ν : Type) where
  name : ν
  unit : Nat
  deriving DecidableEq, Repr

/-- `self.devices.setdefault(device_id(p.unit), []).append(p.name)`; a device is named by
    its Modbus unit. -/
def addPoint (devices : List (Nat × List ν)) (p : Point ν) : List (Nat × List ν) :=
  if devices.any (fun d => d.1 == p.unit) then
    devices.map fun d => if d.1 = p.unit then (d.1, d.2 ++ [p.name]) else d
  else devices ++ [(p.unit, [p.name])]

/-- The devices of a node with the names of their points, in order. -/
def devices (points : List (Point ν)) : List (Nat × List ν) := points.foldl addPoint []

/-- The payload of a message: an NBIRTH carries `bdSeq` (and the constant rebirth metric),
    a DBIRTH every point of the device with its last value or null, a DDATA the points
    that changed. -/
inductive Body (ν V : Type)
  | nbirth (bdseq : Nat)
  | dbirth (unit : Nat) (metrics : List (ν × Option V))
  | ddata (unit : Nat) (metrics : List (ν × Option V))
  deriving DecidableEq, Repr

/-- The message is an NBIRTH. -/
def Body.isNBirth : Body ν V → Bool
  | .nbirth _ => true
  | _ => false

/-- A message of the node. -/
structure Msg (ν V : Type) where
  seq : Nat
  body : Body ν V
  deriving DecidableEq, Repr

/-- The state of a `SparkplugNode`. -/
structure Node (ν V : Type) where
  /-- The last value sent per metric. -/
  values : ν → Option V
  bdseq : Nat
  seq : Nat
  sessions : Nat

/-- A node as the constructor makes it. -/
def Node.init : Node ν V := ⟨fun _ => none, 0, 0, 0⟩

/-- `next_seq`. -/
def nextSeq (seq : Nat) : Nat := (seq + 1) % 256

/-- `_will`: a new session gets the next `bdSeq`, and the Will carries it. -/
def Node.renewWill (n : Node ν V) : Node ν V × Nat :=
  let bdseq := if n.sessions ≠ 0 then (n.bdseq + 1) % 256 else n.bdseq
  ({ n with bdseq := bdseq, sessions := n.sessions + 1 }, bdseq)

/-- Messages published one after the other, each with the next sequence number. -/
def numbered : Nat → List (Body ν V) → List (Msg ν V)
  | _, [] => []
  | seq, b :: bs => ⟨nextSeq seq, b⟩ :: numbered (nextSeq seq) bs

/-- The sequence number after a run of messages. -/
def lastSeq : Nat → List (Msg ν V) → Nat
  | seq, [] => seq
  | _, m :: ms => lastSeq m.seq ms

/-- `birth`: NBIRTH with sequence number 0, then a DBIRTH per device. -/
def Node.birth (points : List (Point ν)) (n : Node ν V) : Node ν V × List (Msg ν V) :=
  let births := numbered 0 ((devices points).map fun d =>
    .dbirth d.1 (d.2.map fun name => (name, n.values name)))
  ({ n with seq := lastSeq 0 births }, ⟨0, .nbirth n.bdseq⟩ :: births)

/-- `n in self.points and self.values.get(n) != v` for a reported value; `differ` is the
    language's `!=` on values. -/
def Node.changed [DecidableEq ν] (differ : V → V → Bool) (points : List (Point ν))
    (n : Node ν V) (values : List (ν × V)) (name : ν) : Bool :=
  match values.lookup name with
  | none => false
  | some v =>
    decide (name ∈ points.map Point.name) &&
      match n.values name with
      | none => true
      | some w => differ w v

/-- The metrics of one device that changed, as the body of a DDATA; none without any. -/
def changedBody (changed : ν → Bool) (values : ν → Option V) (d : Nat × List ν) :
    Option (Body ν V) :=
  let names := d.2.filter changed
  if names.isEmpty then none else some (.ddata d.1 (names.map fun name => (name, values name)))

/-- `update`: a DDATA per device with the metrics whose value changed. -/
def Node.update [DecidableEq ν] (differ : V → V → Bool) (points : List (Point ν))
    (n : Node ν V) (values : List (ν × V)) : Node ν V × List (Msg ν V) :=
  let changed := n.changed differ points values
  let values' := fun name => if changed name then values.lookup name else n.values name
  let msgs := numbered n.seq ((devices points).filterMap (changedBody changed values'))
  ({ n with values := values', seq := lastSeq n.seq msgs }, msgs)

/-! ### Numbering -/

/-- The sequence numbers go on from `prev`: an NBIRTH starts over at 0, every other message
    has the next number. -/
def Continues : Nat → List (Msg ν V) → Prop
  | _, [] => True
  | prev, m :: ms =>
    (m.seq = if m.body.isNBirth then 0 else nextSeq prev) ∧ Continues m.seq ms

theorem lastSeq_append (prev : Nat) (as bs : List (Msg ν V)) :
    lastSeq prev (as ++ bs) = lastSeq (lastSeq prev as) bs := by
  induction as generalizing prev with
  | nil => rfl
  | cons m ms ih => exact ih m.seq

theorem continues_append (prev : Nat) (as bs : List (Msg ν V)) :
    Continues prev (as ++ bs) ↔ Continues prev as ∧ Continues (lastSeq prev as) bs := by
  induction as generalizing prev with
  | nil => simp [Continues, lastSeq]
  | cons m ms ih => simp [Continues, lastSeq, ih, and_assoc]

/-- What the loops of `birth` and `update` publish goes on from where they started. -/
theorem continues_numbered (prev : Nat) (bodies : List (Body ν V))
    (h : ∀ b ∈ bodies, b.isNBirth = false) : Continues prev (numbered prev bodies) := by
  induction bodies generalizing prev with
  | nil => trivial
  | cons b bs ih =>
    have hb : b.isNBirth = false := h b List.mem_cons_self
    refine ⟨by simp [hb], ih _ fun c hc => h c (List.mem_cons_of_mem _ hc)⟩

/-- The messages of `birth`: an NBIRTH numbered 0 with the node's `bdSeq`, whose successors
    go on to the node's new number. -/
theorem Node.birth_spec (points : List (Point ν)) (n : Node ν V) :
    ∃ rest, (n.birth points).2 = ⟨0, .nbirth n.bdseq⟩ :: rest ∧ Continues 0 rest ∧
      lastSeq 0 rest = (n.birth points).1.seq := by
  refine ⟨_, rfl, continues_numbered 0 _ ?_, rfl⟩
  intro b hb
  obtain ⟨d, -, rfl⟩ := List.mem_map.1 hb
  rfl

theorem changedBody_isNBirth {changed : ν → Bool} {values : ν → Option V} {d : Nat × List ν}
    {b : Body ν V} (h : changedBody changed values d = some b) : b.isNBirth = false := by
  unfold changedBody at h
  dsimp only at h
  split at h
  · cases h
  · obtain rfl := Option.some.inj h
    rfl

/-- The messages of `update` go on from the node's number to its new one. -/
theorem Node.update_spec [DecidableEq ν] (differ : V → V → Bool) (points : List (Point ν))
    (n : Node ν V) (values : List (ν × V)) :
    Continues n.seq (n.update differ points values).2 ∧
      lastSeq n.seq (n.update differ points values).2 = (n.update differ points values).1.seq := by
  refine ⟨continues_numbered _ _ ?_, rfl⟩
  intro b hb
  obtain ⟨d, -, hd⟩ := List.mem_filterMap.1 hb
  exact changedBody_isNBirth hd

/-- An update in which no value changed publishes nothing. -/
theorem Node.update_unchanged [DecidableEq ν] {differ : V → V → Bool}
    {points : List (Point ν)} {n : Node ν V} {values : List (ν × V)}
    (h : ∀ name, n.changed differ points values name = false) :
    (n.update differ points values).2 = [] := by
  have hbodies : ∀ (vals : ν → Option V),
      (devices points).filterMap (changedBody (n.changed differ points values) vals) = [] := by
    intro vals
    rw [List.filterMap_eq_nil_iff]
    intro d _
    have hnone : d.2.filter (n.changed differ points values) = [] := by
      rw [List.filter_eq_nil_iff]
      intro name _
      simp [h name]
    simp [changedBody, hnone]
  rw [Node.update]
  dsimp only
  rw [hbodies]
  rfl

/-! ### Broker sessions -/

/-- The MQTT client's link: in a session, lost with the disconnect hook still to run, or
    ready to (re)connect. -/
inductive Link
  | up
  | lost
  | ready
  deriving DecidableEq, Repr

/-- A session as the broker sees it: the `bdSeq` of its Will and the messages accepted. -/
structure Session (ν V : Type) where
  will : Nat
  log : List (Msg ν V)
  deriving DecidableEq, Repr

/-- The node, the link, the `bdSeq` of the Will set on the client, the sessions so far
    (newest first), the `handle_connect` callbacks that wait for the event loop, and the
    messages that the running callback has still to publish. -/
structure State (ν V : Type) where
  node : Node ν V
  link : Link
  will : Nat
  sessions : List (Session ν V)
  pending : Nat
  out : List (Msg ν V)

/-- After `MqttPublisher.connect`: the first Will is set, the client has not connected. -/
def State.init : State ν V :=
  let (node, will) := (Node.init : Node ν V).renewWill
  ⟨node, .ready, will, [], 0, []⟩

/-- What can happen next. -/
inductive Event (ν V : Type)
  /-- the broker accepts a connection; `_paho_on_connect` schedules `handle_connect` -/
  | connect
  /-- the broker refuses the connection, which ends it -/
  | refuse
  /-- the connection is lost -/
  | drop
  /-- `_paho_on_disconnect`, in the client's thread -/
  | onDisconnect
  /-- `handle_connect` on the event loop -/
  | handleConnect
  /-- `update` on the event loop, from the poll loop or a write read-back -/
  | update (values : List (ν × V))
  /-- an NCMD with "Node Control/Rebirth" = true, on the event loop -/
  | rebirth
  /-- the running callback publishes its next message -/
  | send
  deriving Repr

/-- A QoS 0 message: accepted by the broker in a session, else dropped. -/
def accept (link : Link) (m : Msg ν V) : List (Session ν V) → List (Session ν V)
  | [] => []
  | σ :: rest => if link = .up then { σ with log := σ.log ++ [m] } :: rest else σ :: rest

/-- One event; a callback of the event loop starts only when the one before has ended. -/
def step [DecidableEq ν] (differ : V → V → Bool) (points : List (Point ν)) (s : State ν V) :
    Event ν V → Option (State ν V)
  | .connect =>
    if s.link = .ready then
      some { s with link := .up, sessions := ⟨s.will, []⟩ :: s.sessions, pending := s.pending + 1 }
    else none
  | .refuse => if s.link = .ready then some { s with link := .lost } else none
  | .drop => if s.link = .up then some { s with link := .lost } else none
  | .onDisconnect =>
    if s.link = .lost then
      some { s with link := .ready, node := s.node.renewWill.1, will := s.node.renewWill.2 }
    else none
  | .handleConnect =>
    if s.out.isEmpty ∧ 0 < s.pending then
      some { s with
        pending := s.pending - 1
        node := (s.node.birth points).1
        out := (s.node.birth points).2 }
    else none
  | .update values =>
    if s.out.isEmpty then
      some { s with
        node := (s.node.update differ points values).1
        out := (s.node.update differ points values).2 }
    else none
  | .rebirth =>
    if s.out.isEmpty then
      some { s with node := (s.node.birth points).1, out := (s.node.birth points).2 }
    else none
  | .send =>
    match s.out with
    | [] => none
    | m :: rest => some { s with out := rest, sessions := accept s.link m s.sessions }

/-- What a host expects of a session: its first message is an NBIRTH numbered 0 with the
    `bdSeq` of the session's Will, and the numbers go on from there. -/
def Session.Ok (σ : Session ν V) : Prop :=
  match σ.log with
  | [] => True
  | m :: rest => m = ⟨0, .nbirth σ.will⟩ ∧ Continues 0 rest

/-! ### The condition and the invariant -/

/-- The session that the broker has just opened has had its first message. -/
def Born (s : State ν V) : Prop := ∃ σ ∈ s.sessions.head?, σ.log ≠ []

/-- The condition on a step: an update that has a changed value to publish while the link is
    up comes after the first message of the session, and a link comes up only between two
    callbacks of the event loop. -/
def InTurn [DecidableEq ν] (differ : V → V → Bool) (points : List (Point ν)) (s : State ν V) :
    Event ν V → Prop
  | .connect => s.out = []
  | .update values =>
    s.link = .up → (∃ name, s.node.changed differ points values name = true) → Born s
  | _ => True

/-- The invariant.  The session that is open stays well formed when the messages that the
    running callback has still to publish are added to its log, and the node's number is
    that of the last of them all. -/
structure Inv (s : State ν V) : Prop where
  will : s.will = s.node.bdseq
  past : ∀ σ ∈ s.sessions, σ.Ok
  open_ : s.link = .up → ∃ σ rest, s.sessions = σ :: rest ∧ σ.will = s.will ∧
    (⟨σ.will, σ.log ++ s.out⟩ : Session ν V).Ok ∧
    (σ.log ++ s.out ≠ [] → lastSeq 0 (σ.log ++ s.out) = s.node.seq)

/-- A session with more messages at its end. -/
theorem Session.ok_append {w : Nat} {as bs : List (Msg ν V)} :
    (⟨w, as ++ bs⟩ : Session ν V).Ok ↔
      (⟨w, as⟩ : Session ν V).Ok ∧
        if as = [] then (⟨w, bs⟩ : Session ν V).Ok else Continues (lastSeq 0 as) bs := by
  cases as with
  | nil => simp [Session.Ok]
  | cons m ms =>
    simp only [Session.Ok, List.cons_append, continues_append, reduceCtorEq, if_false, lastSeq]
    constructor
    · rintro ⟨rfl, h, h'⟩
      exact ⟨⟨rfl, h⟩, h'⟩
    · rintro ⟨⟨rfl, h⟩, h'⟩
      exact ⟨rfl, h, h'⟩

/-- A link that is not up leaves nothing to show but the sessions that ended. -/
theorem inv_of_not_up {s : State ν V} (hwill : s.will = s.node.bdseq)
    (hpast : ∀ σ ∈ s.sessions, σ.Ok) (hlink : s.link ≠ .up) : Inv s :=
  ⟨hwill, hpast, fun h => absurd h hlink⟩

/-- The sessions of a state in which a link is up, without the unsent messages. -/
theorem Inv.open_log {s : State ν V} (h : Inv s) (hup : s.link = .up) (hout : s.out = []) :
    ∃ σ rest, s.sessions = σ :: rest ∧ σ.will = s.will ∧ σ.Ok ∧
      (σ.log ≠ [] → lastSeq 0 σ.log = s.node.seq) := by
  obtain ⟨σ, rest, hs, hw, hok, hseq⟩ := h.open_ hup
  rw [hout, List.append_nil] at hok hseq
  exact ⟨σ, rest, hs, hw, hok, hseq⟩

/-- A callback that starts a birth. -/
theorem inv_birth (points : List (Point ν)) {s : State ν V} (h : Inv s) (hout : s.out = [])
    (pending : Nat) :
    Inv { s with
      pending := pending, node := (s.node.birth points).1, out := (s.node.birth points).2 } := by
  obtain ⟨rest, hmsgs, hcont, hlast⟩ := s.node.birth_spec points
  refine ⟨h.will, h.past, fun hup => ?_⟩
  obtain ⟨σ, older, hs, hw, hok, -⟩ := h.open_log hup hout
  refine ⟨σ, older, hs, hw, ?_, fun _ => ?_⟩
  · rw [hmsgs, Session.ok_append]
    refine ⟨hok, ?_⟩
    split
    · exact ⟨by rw [hw, h.will], hcont⟩
    · exact ⟨rfl, hcont⟩
  · show lastSeq 0 (σ.log ++ (s.node.birth points).2) = _
    rw [hmsgs, lastSeq_append]
    exact hlast

/-- A callback that starts an update. -/
theorem inv_update [DecidableEq ν] (differ : V → V → Bool) (points : List (Point ν))
    {s : State ν V} (values : List (ν × V)) (h : Inv s) (hout : s.out = [])
    (hturn : InTurn differ points s (.update values)) :
    Inv { s with
      node := (s.node.update differ points values).1
      out := (s.node.update differ points values).2 } := by
  obtain ⟨hcont, hlast⟩ := s.node.update_spec differ points values
  refine ⟨h.will, h.past, fun hup => ?_⟩
  obtain ⟨σ, older, hs, hw, hok, hseq⟩ := h.open_log hup hout
  refine ⟨σ, older, hs, hw, ?_⟩
  show (⟨σ.will, σ.log ++ (s.node.update differ points values).2⟩ : Session ν V).Ok ∧
    (σ.log ++ (s.node.update differ points values).2 ≠ [] →
      lastSeq 0 (σ.log ++ (s.node.update differ points values).2) =
        (s.node.update differ points values).1.seq)
  by_cases hch : ∃ name, s.node.changed differ points values name = true
  · -- the session has had its NBIRTH, so its last number is the node's
    obtain ⟨τ, hτ, hborn⟩ := hturn hup hch
    obtain rfl : σ = τ := by simpa [hs] using hτ
    rw [Session.ok_append, if_neg hborn, lastSeq_append, hseq hborn]
    exact ⟨⟨hok, hcont⟩, fun _ => hlast⟩
  -- nothing has changed, so no message is queued
  · have hnone : (s.node.update differ points values).2 = [] :=
      Node.update_unchanged fun name => by simpa using not_exists.1 hch name
    rw [hnone, List.append_nil]
    refine ⟨hok, fun hne => ?_⟩
    rw [hseq hne, ← hlast, hnone]
    rfl

/-- One message goes out: it moves from the unsent ones to the log, or is dropped. -/
theorem inv_send {s : State ν V} {m : Msg ν V} {rest : List (Msg ν V)} (h : Inv s)
    (hout : s.out = m :: rest) :
    Inv { s with out := rest, sessions := accept s.link m s.sessions } := by
  -- up: the message moves from the queue to the end of the session's log
  by_cases hup : s.link = .up
  · obtain ⟨σ, older, hs, hw, hok, hseq⟩ := h.open_ hup
    have hmove : (σ.log ++ [m]) ++ rest = σ.log ++ s.out := by rw [hout, List.append_assoc]; rfl
    have hsess : accept s.link m s.sessions = { σ with log := σ.log ++ [m] } :: older := by
      rw [hs, accept, if_pos hup]
    rw [← hmove] at hok hseq
    refine ⟨h.will, ?_, fun _ => ⟨_, older, hsess, hw, hok, hseq⟩⟩
    intro τ hτ
    rw [hsess, List.mem_cons] at hτ
    rcases hτ with rfl | hτ
    · exact (Session.ok_append.1 hok).1
    · exact h.past τ (by rw [hs]; exact List.mem_cons_of_mem _ hτ)
  -- not up: the broker gets nothing
  · have hsame : accept s.link m s.sessions = s.sessions := by
      cases hs : s.sessions with
      | nil => rfl
      | cons σ older => rw [accept, if_neg hup]
    refine inv_of_not_up h.will ?_ hup
    rw [hsame]
    exact h.past

/-- Every step that meets the condition preserves the invariant. -/
theorem inv_step [DecidableEq ν] (differ : V → V → Bool) (points : List (Point ν))
    (s : State ν V) (e : Event ν V) (s' : State ν V) (h : Inv s)
    (hturn : InTurn differ points s e) (hstep : step differ points s e = some s') : Inv s' := by
  cases e with
  | connect =>
    simp only [step, Option.ite_none_right_eq_some, Option.some.injEq] at hstep
    obtain ⟨-, rfl⟩ := hstep
    -- the guard: the queue is empty when a session begins
    have hout : s.out = [] := hturn
    refine ⟨h.will, ?_, fun _ => ⟨⟨s.will, []⟩, s.sessions, rfl, rfl, ?_, ?_⟩⟩
    · intro σ hσ
      rcases List.mem_cons.1 hσ with rfl | hσ
      · trivial
      · exact h.past σ hσ
    · show (⟨s.will, [] ++ s.out⟩ : Session ν V).Ok
      rw [hout]
      trivial
    · intro hne
      exact absurd hout hne
  | refuse | drop =>
    simp only [step, Option.ite_none_right_eq_some, Option.some.injEq] at hstep
    obtain ⟨-, rfl⟩ := hstep
    exact inv_of_not_up h.will h.past (by simp)
  | onDisconnect =>
    simp only [step, Option.ite_none_right_eq_some, Option.some.injEq] at hstep
    obtain ⟨-, rfl⟩ := hstep
    exact inv_of_not_up rfl h.past (by simp)
  | handleConnect =>
    simp only [step, Option.ite_none_right_eq_some, Option.some.injEq] at hstep
    obtain ⟨⟨hout, -⟩, rfl⟩ := hstep
    exact inv_birth points h (List.isEmpty_iff.1 hout) _
  | update values =>
    simp only [step, Option.ite_none_right_eq_some, Option.some.injEq] at hstep
    obtain ⟨hout, rfl⟩ := hstep
    exact inv_update differ points values h (List.isEmpty_iff.1 hout) hturn
  | rebirth =>
    simp only [step, Option.ite_none_right_eq_some, Option.some.injEq] at hstep
    obtain ⟨hout, rfl⟩ := hstep
    exact inv_birth points h (List.isEmpty_iff.1 hout) s.pending
  | send =>
    simp only [step] at hstep
    split at hstep
    · cases hstep
    next m rest hout =>
      obtain rfl := Option.some.inj hstep
      exact inv_send h hout

theorem inv_init : Inv (State.init : State ν V) :=
  inv_of_not_up rfl (by simp [State.init]) (by simp [State.init])

/-- **Sessions.**  In every run whose steps meet the condition, in every state reached, every
    broker session starts with an NBIRTH numbered 0 that carries the `bdSeq` of the
    session's Will, and its later messages count on modulo 256 up to the next NBIRTH. -/
theorem session_starts_with_birth [DecidableEq ν] (differ : V → V → Bool)
    (points : List (Point ν)) (es : List (Event ν V)) (s : State ν V)
    (hturn : Along (step differ points) (InTurn differ points) State.init es)
    (hrun : run (step differ points) State.init es = some s) :
    ∀ σ ∈ s.sessions, σ.Ok :=
  (run_invariant Inv (fun s e s' => inv_step differ points s e s') inv_init hturn hrun).past

/-- A session with one device: birth, one report, and the session lost. -/
def reportedSession : List (Event String Nat) :=
  [.connect, .handleConnect, .send, .send, .update [("temp", 21)], .send, .drop]

/-- A test for `InTurn`. -/
def inTurnCheck (s : State ν V) : Event ν V → Bool
  | .connect => s.out.isEmpty
  | .update _ => s.sessions.head?.any fun σ => !σ.log.isEmpty
  | _ => true

theorem inTurn_of_check [DecidableEq ν] (differ : V → V → Bool) (points : List (Point ν))
    (s : State ν V) (e : Event ν V) (h : inTurnCheck s e = true) : InTurn differ points s e := by
  cases e with
  | connect => exact List.isEmpty_iff.1 h
  | update values =>
    intro _ _
    cases hh : s.sessions.head? with
    | none => simp [inTurnCheck, hh] at h
    | some σ => exact ⟨σ, hh, by simpa [inTurnCheck, hh] using h⟩
  | refuse | drop | onDisconnect | handleConnect | rebirth | send => trivial

/-- The session of `reportedSession` is well formed. -/
theorem session_starts_with_birth_report :
    ∃ s, run (step (fun v w => v != w) [⟨"temp", 1⟩]) State.init reportedSession = some s ∧
      s.sessions = [⟨0, [⟨0, .nbirth 0⟩, ⟨1, .dbirth 1 [("temp", none)]⟩,
        ⟨2, .ddata 1 [("temp", some 21)]⟩]⟩] ∧ ∀ σ ∈ s.sessions, σ.Ok := by
  refine ⟨_, rfl, by decide, session_starts_with_birth (fun v w => v != w) [⟨"temp", 1⟩]
    reportedSession _ (along_of_check (inTurn_of_check _ _) (by decide)) rfl⟩

/-- The poll loop reports a value between the connect and the deferred birth. -/
theorem update_before_birth :
    ∃ (es : List (Event String Nat)) (s : State String Nat),
      run (step (fun v w => v != w) [⟨"temp", 1⟩]) State.init es = some s ∧
        ¬ ∀ σ ∈ s.sessions, σ.Ok := by
  refine ⟨[.connect, .update [("temp", 21)], .send], _, rfl, ?_⟩
  intro h
  have := h _ (List.mem_singleton.2 rfl)
  exact absurd this.1 (by decide)

end Ser2Net.Engine.SparkplugNode
