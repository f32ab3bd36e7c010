import Ser2Net.Lib.Trace
import Ser2Net.Lib.Binary

namespace Ser2Net.Engine.SerialTransport

open Ser2Net.Lib

/-!
# Engine — the transport of the device (`SerialTransport` of `serial_asyncio_fast`, as patched by
`_patch_serial_asyncio_fast` of `app/engine/serial_io.py`)

What is written to the device goes out at once as far as the driver takes it; the rest waits in a
buffer, and the event loop calls the transport back when the device can take more.  Upstream never
takes the callback away again; `serial_io.py` replaces `_write_ready` by one that does.  Modelled is
the transport of POSIX, where the event loop watches the descriptor.

* `write`, `writeReady`, `close`, `abort`, … — the methods, `step` — what can happen;
* `Sound` — the invariant: no byte lost, doubled or out of order, the callback armed just while
  bytes wait, the protocol paused just while they are many;
* `transport_sound` — every run of the patched transport keeps it;
* `upstream_asserts_iff` — when the callback of the unpatched one fails;
* `upstream_simulated` — but for these callbacks the two do the same.
-/

/-- The high-water mark. -/
def highWater : Nat := 64 * 1024

/-- The low-water mark. -/
def lowWater : Nat := highWater / 4

/-- What `serial.write` does with the bytes it is given. -/
inductive Outcome
  /-- it takes the first `n` -/
  | taken (n : Nat)
  /-- `BlockingIOError`, `InterruptedError` -/
  | again
  /-- another exception -/
  | failed
  deriving DecidableEq, Repr

/-- `serial.write` takes at most what it is given, and blocks on nothing only if there is
    something. -/
def Outcome.Fits (data : Bytes) : Outcome → Prop
  | .taken n => n ≤ data.length
  | .again => data ≠ []
  | .failed => True

instance (data : Bytes) : DecidablePred (Outcome.Fits data) := fun o => by
  cases o <;> unfold Outcome.Fits <;> infer_instance

/-- A `SerialTransport` with its protocol and its device. -/
structure Transport where
  /-- `_write_buffer` -/
  writeBuffer : List Bytes
  /-- `_has_reader` -/
  hasReader : Bool
  /-- `_has_writer` -/
  hasWriter : Bool
  /-- `_closing` -/
  closing : Bool
  /-- `_protocol_paused` -/
  protocolPaused : Bool
  /-- The `_call_connection_lost` that wait to run, with their `flush`. -/
  tasks : List Bool
  /-- `_serial`, `_loop` and `_protocol` are `None`. -/
  detached : Bool
  /-- `_paused` of the protocol. -/
  paused : Bool
  /-- The calls of the protocol's `connection_lost`. -/
  lost : Nat
  /-- The assertions that failed, in the transport and in the protocol. -/
  asserted : Nat
  /-- What `write` was given before the transport was closing. -/
  accepted : Bytes
  /-- What the driver has taken. -/
  device : Bytes
  /-- The driver once took less than it was given. -/
  short : Bool
  /-- `_abort` was called. -/
  aborted : Bool
  deriving DecidableEq, Repr

/-- A transport that has just been made. -/
def Transport.init : Transport :=
  ⟨[], false, false, false, false, [], false, false, 0, 0, [], [], false, false⟩

namespace Transport

/-- `get_write_buffer_size` -/
def writeBufferSize (s : Transport) : Nat := (s.writeBuffer.map List.length).sum

/-- `_flushed` -/
def flushed (s : Transport) : Bool := s.writeBufferSize = 0

/-- `pause_writing` of the protocol, which asserts that it is not paused. -/
def pauseWriting (s : Transport) : Transport :=
  if s.paused then { s with asserted := s.asserted + 1 } else { s with paused := true }

/-- `resume_writing` of the protocol, which asserts that it is paused. -/
def resumeWriting (s : Transport) : Transport :=
  if s.paused then { s with paused := false } else { s with asserted := s.asserted + 1 }

/-- `_maybe_pause_protocol` -/
def maybePauseProtocol (s : Transport) : Transport :=
  if s.writeBufferSize ≤ highWater then s
  else if s.protocolPaused then s
  else { s with protocolPaused := true }.pauseWriting

/-- `_maybe_resume_protocol` -/
def maybeResumeProtocol (s : Transport) : Transport :=
  if s.protocolPaused ∧ s.writeBufferSize ≤ lowWater then
    { s with protocolPaused := false }.resumeWriting
  else s

/-- `_ensure_writer` -/
def ensureWriter (s : Transport) : Transport :=
  if !s.hasWriter && !s.closing then { s with hasWriter := true } else s

/-- `_remove_writer` -/
def removeWriter (s : Transport) : Transport := { s with hasWriter := false }

/-- `_close` -/
def close' (s : Transport) : Transport :=
  let s := { s with closing := true, hasReader := false }
  if s.flushed then { s.removeWriter with tasks := s.tasks ++ [true] } else s

/-- `_abort` -/
def abort' (s : Transport) : Transport :=
  { s with
    closing := true, hasReader := false, hasWriter := false, tasks := s.tasks ++ [false]
    aborted := true }

/-- The end of `_write_data` for what the driver did not take. -/
def keepBack (s : Transport) (data : Bytes) : Transport :=
  { s with
    writeBuffer := s.writeBuffer ++ [data]
    short := true }.maybePauseProtocol.ensureWriter

/-- `_write_data` -/
def writeData (s : Transport) (data : Bytes) : Outcome → Transport
  | .failed => s.abort'
  | .again => s.keepBack data
  | .taken n =>
    let s := { s with device := s.device ++ data.take n }
    if n = data.length then if s.closing then s.close' else s
    else s.keepBack (data.drop n)

/-- `write` -/
def write (s : Transport) (data : Bytes) (o : Outcome) : Transport :=
  if s.closing then s
  else
    let s := { s with accepted := s.accepted ++ data }
    if s.writeBuffer = [] then s.writeData data o
    else { s with writeBuffer := s.writeBuffer ++ [data] }.maybePauseProtocol

/-- `_write_ready` of the patch.  One chunk is taken as it is, several are joined. -/
def writeReady (s : Transport) (o : Outcome) : Transport :=
  if s.writeBuffer = [] then s.removeWriter
  else
    let s' := ({ s with writeBuffer := [] }.writeData s.writeBuffer.flatten o).maybeResumeProtocol
    if s'.writeBuffer = [] ∧ !s'.closing then s'.removeWriter else s'

/-- `_write_ready` upstream.  The event loop logs the failed assertion. -/
def upstreamWriteReady (s : Transport) (o : Outcome) : Transport :=
  if s.writeBuffer.length ≠ 1 ∧ s.writeBuffer.flatten = [] then
    { s with asserted := s.asserted + 1 }
  else ({ s with writeBuffer := [] }.writeData s.writeBuffer.flatten o).maybeResumeProtocol

/-- `close` -/
def close (s : Transport) : Transport := if s.closing then s else s.close'

/-- `_call_connection_lost`.  A second one finds no protocol to tell. -/
def callConnectionLost (s : Transport) (tasks : List Bool) : Transport :=
  let s :=
    { s with
      tasks
      asserted := if s.closing ∧ !s.hasWriter ∧ !s.hasReader then s.asserted else s.asserted + 1
      writeBuffer := [] }
  if s.detached then s else { s with detached := true, lost := s.lost + 1 }

end Transport

/-- What happens next. -/
inductive Event
  | write (data : Bytes) (o : Outcome)
  /-- the device can take bytes, and the event loop calls `_write_ready` -/
  | ready (o : Outcome)
  /-- `_read_ready` raises -/
  | readFailed
  | pauseReading
  /-- `resume_reading`, also the first call of `_ensure_reader` -/
  | resumeReading
  | close
  | abort
  /-- the oldest `_call_connection_lost` runs -/
  | connectionLost
  deriving DecidableEq, Repr

open Transport in
/-- One event, with this `_write_ready`. -/
def step (onReady : Transport → Outcome → Transport) (s : Transport) : Event → Option Transport
  | .write data o => if o.Fits data then some (s.write data o) else none
  | .ready o =>
    if s.hasWriter ∧ o.Fits s.writeBuffer.flatten then some (onReady s o) else none
  | .readFailed => if s.hasReader then some s.close' else none
  | .pauseReading => some { s with hasReader := false }
  | .resumeReading => some { s with hasReader := s.hasReader || !s.closing }
  | .close => some s.close
  | .abort => some s.abort'
  | .connectionLost =>
    match s.tasks with
    | [] => none
    | _ :: tasks => some (s.callConnectionLost tasks)

/-- What holds of a transport at any time. -/
structure Sound (s : Transport) : Prop where
  asserted : s.asserted = 0
  told : s.paused = s.protocolPaused
  /-- What the driver has taken is the front of what was accepted. -/
  front : s.device <+: s.accepted
  /-- What was accepted is with the driver or waits in the buffer. -/
  whole : s.aborted = false → s.device ++ s.writeBuffer.flatten = s.accepted
  /-- The callback is armed just while bytes wait. -/
  armed : s.aborted = false → (s.hasWriter = true ↔ s.writeBuffer ≠ [])
  full : s.writeBuffer ≠ [] → s.writeBuffer.flatten ≠ []
  /-- The protocol is paused only above the low-water mark, -/
  low : s.aborted = false → s.paused = true → lowWater < s.writeBufferSize
  /-- and always above the high-water mark. -/
  high : s.aborted = false → highWater < s.writeBufferSize → s.paused = true
  closing : s.closing = true → s.hasReader = false
  /-- The protocol is told of the end only when there is nothing more to do. -/
  ended : s.tasks ≠ [] ∨ s.detached = true →
    s.closing = true ∧ s.hasWriter = false ∧ (s.aborted = false → s.writeBuffer = [])
  /-- It is told, or will be, once an end is asked for and the buffer is empty, -/
  ends : s.closing = true → s.aborted = true ∨ s.writeBuffer = [] →
    s.tasks ≠ [] ∨ s.detached = true
  aborted : s.aborted = true → s.closing = true ∧ s.hasWriter = false
  /-- and told once. -/
  once : s.lost = if s.detached then 1 else 0

namespace Transport

variable {s : Transport} {data : Bytes} {o : Outcome}

/-! ### The methods in one equation each -/

/-- The transport and its protocol agree, so pausing raises nothing. -/
theorem maybePauseProtocol_eq (h : s.paused = s.protocolPaused) :
    s.maybePauseProtocol =
      { s with
        protocolPaused := s.paused || decide (highWater < s.writeBufferSize)
        paused := s.paused || decide (highWater < s.writeBufferSize) } := by
  obtain ⟨buffer, hasReader, hasWriter, closing, protocolPaused, tasks, detached, paused⟩ := s
  obtain rfl : paused = protocolPaused := h
  unfold maybePauseProtocol pauseWriting
  by_cases hsize : (buffer.map List.length).sum ≤ highWater
  · simp [writeBufferSize, hsize, Nat.not_lt.2 hsize]
  · cases paused <;> simp [writeBufferSize, hsize, Nat.lt_of_not_le hsize]

/-- The transport and its protocol agree, so resuming raises nothing. -/
theorem maybeResumeProtocol_eq (h : s.paused = s.protocolPaused) :
    s.maybeResumeProtocol =
      { s with
        protocolPaused := s.paused && decide (lowWater < s.writeBufferSize)
        paused := s.paused && decide (lowWater < s.writeBufferSize) } := by
  obtain ⟨buffer, hasReader, hasWriter, closing, protocolPaused, tasks, detached, paused⟩ := s
  obtain rfl : paused = protocolPaused := h
  unfold maybeResumeProtocol resumeWriting
  by_cases hsize : (buffer.map List.length).sum ≤ lowWater
  · cases paused <;> simp [writeBufferSize, hsize, Nat.not_lt.2 hsize]
  · cases paused <;> simp [writeBufferSize, hsize, Nat.lt_of_not_le hsize]

/-- A writer that is there already is kept. -/
theorem ensureWriter_eq : s.ensureWriter = { s with hasWriter := s.hasWriter || !s.closing } := by
  obtain ⟨buffer, hasReader, hasWriter, closing⟩ := s
  cases hasWriter <;> cases closing <;> rfl

/-- The buffer counts its bytes. -/
theorem writeBufferSize_eq (s : Transport) :
    s.writeBufferSize = s.writeBuffer.flatten.length := by
  rw [writeBufferSize, List.length_flatten]

/-- What the driver did not take waits in the buffer. -/
theorem keepBack_eq (h : s.paused = s.protocolPaused) (data : Bytes) :
    s.keepBack data =
      { s with
        writeBuffer := s.writeBuffer ++ [data]
        short := true
        protocolPaused := s.paused || decide (highWater < s.writeBufferSize + data.length)
        paused := s.paused || decide (highWater < s.writeBufferSize + data.length)
        hasWriter := s.hasWriter || !s.closing } := by
  rw [keepBack, maybePauseProtocol_eq, ensureWriter_eq]
  · simp only [writeBufferSize, List.map_append, List.sum_append, List.map_cons, List.map_nil,
      List.sum_cons, List.sum_nil, Nat.add_zero]
    rfl
  · exact h

/-- What becomes of the bytes that are given to the driver: the transport is aborted, or a rest
    stays, or all are taken, which ends a transport that is closing. -/
theorem writeData_cases (hb : s.writeBuffer = []) (ht : s.paused = s.protocolPaused)
    (ho : o.Fits data) :
    s.writeData data o = s.abort' ∨
      (∃ front rest, data = front ++ rest ∧ rest ≠ [] ∧ s.writeData data o =
        { s with
          device := s.device ++ front
          writeBuffer := [rest]
          short := true
          protocolPaused := s.paused || decide (highWater < rest.length)
          paused := s.paused || decide (highWater < rest.length)
          hasWriter := s.hasWriter || !s.closing }) ∨
      s.writeData data o =
        { s with
          device := s.device ++ data
          hasReader := s.hasReader && !s.closing
          hasWriter := s.hasWriter && !s.closing
          tasks := if s.closing then s.tasks ++ [true] else s.tasks } := by
  -- nothing is held back, so the write goes to the device at once
  have hsize : s.writeBufferSize = 0 := by rw [writeBufferSize_eq, hb]; rfl
  cases o with
  -- the write fails and the port is aborted
  | failed => exact Or.inl rfl
  | again =>
    refine Or.inr (Or.inl ⟨[], data, rfl, ho, ?_⟩)
    rw [writeData, keepBack_eq ht]
    simp [hb, hsize]
  | taken n =>
    refine Or.inr ?_
    -- the whole of it is taken, or a rest is kept and the writer armed
    by_cases hn : n = data.length
    · refine Or.inr ?_
      cases hc : s.closing <;>
        simp [writeData, hn, hc, close', flushed, writeBufferSize, hb, removeWriter]
    · have hlt : n < data.length := Nat.lt_of_le_of_ne ho hn
      refine Or.inl ⟨data.take n, data.drop n, (List.take_append_drop n data).symm, ?_, ?_⟩
      · simpa using hlt
      · rw [writeData, if_neg hn, keepBack_eq]
        · simp [hb, writeBufferSize]
        · exact ht

/-- A write leaves the transport and its protocol agreeing. -/
theorem writeData_told (ht : s.paused = s.protocolPaused) :
    (s.writeData data o).paused = (s.writeData data o).protocolPaused := by
  cases o with
  | failed => exact ht
  | again => rw [writeData, keepBack_eq ht]
  | taken n =>
    simp only [writeData, close']
    split_ifs
    · exact ht
    · exact ht
    · exact ht
    · rw [keepBack_eq (by exact ht)]

end Transport

open Transport

variable {s : Transport} {data : Bytes} {o : Outcome}

/-- The high water mark is above the low one. -/
theorem low_of_high {n : Nat} (h : highWater < n) : lowWater < n :=
  Nat.lt_of_le_of_lt (by decide) h

/-- Before the close nothing was aborted. -/
theorem Sound.notAborted (h : Sound s) (hc : s.closing = false) : s.aborted = false := by
  by_contra hne
  simpa [hc] using h.aborted (by simpa using hne)

/-- Before the close the protocol has its transport. -/
theorem Sound.running (h : Sound s) (hc : s.closing = false) :
    s.tasks = [] ∧ s.detached = false := by
  by_contra hne
  have hend := h.ended (by grind)
  simp [hc] at hend

/-- `write` keeps the invariant. -/
theorem Sound.write (h : Sound s) (ho : o.Fits data) : Sound (s.write data o) := by
  unfold Transport.write
  by_cases hc : s.closing = true
  · rw [if_pos hc]
    exact h
  · rw [if_neg hc]
    have hopen : s.closing = false := by simpa using hc
    have ha := h.notAborted hopen
    obtain ⟨htasks, hdet⟩ := h.running hopen
    have hwhole := h.whole ha
    have harmed := h.armed ha
    have hlow := h.low ha
    have hhigh := h.high ha
    have honce := h.once
    have hzero := h.asserted
    have htold := h.told
    by_cases hb : s.writeBuffer = []
    -- an empty buffer is below the mark, so the protocol is not paused
    · have hp : s.paused = false := by
        by_contra hne
        simpa [writeBufferSize, hb] using hlow (by simpa using hne)
      rcases writeData_cases (s := { s with accepted := s.accepted ++ data }) hb htold ho with
        heq | ⟨front, rest, rfl, hrest, heq⟩ | heq
      -- the three outcomes of `writeData_cases`, clause by clause
      all_goals rw [if_pos hb, heq]
      · constructor <;> simp_all [abort', writeBufferSize]
      · constructor <;> simp_all [writeBufferSize]
        exact low_of_high
      · constructor <;> simp_all [writeBufferSize]
    -- something is held back already: the new data waits behind it
    · have hfull := h.full hb
      have hfront := h.front.trans (List.prefix_append s.accepted data)
      rw [if_neg hb, maybePauseProtocol_eq (by exact htold)]
      constructor <;> simp_all [writeBufferSize]
      case whole => rw [← List.append_assoc, hwhole]
      case low =>
        rintro (hp | hp)
        · exact Nat.lt_add_right _ (hlow hp)
        · exact low_of_high hp

/-- The patched `_write_ready` keeps the invariant. -/
theorem Sound.writeReady (h : Sound s) (hw : s.hasWriter = true)
    (ho : o.Fits s.writeBuffer.flatten) : Sound (s.writeReady o) := by
  -- the port was neither aborted nor detached: an armed writer rules both out
  have ha : s.aborted = false := by
    by_contra hne
    simpa [hw] using h.aborted (by simpa using hne)
  have hrun : s.tasks = [] ∧ s.detached = false := by
    by_contra hne
    have hend := h.ended (by grind)
    simp [hw] at hend
  obtain ⟨htasks, hdet⟩ := hrun
  have hb : s.writeBuffer ≠ [] := (h.armed ha).1 hw
  have hwhole := h.whole ha
  have hfront := h.front
  have hclosing := h.closing
  have honce := h.once
  have hzero := h.asserted
  have htold := h.told
  simp only [Transport.writeReady, if_neg hb]
  rcases writeData_cases (s := { s with writeBuffer := [] }) rfl htold ho with
    heq | ⟨front, rest, hsplit, hrest, heq⟩ | heq
  -- the buffer is emptied first, then `write_data` has the three outcomes above
  all_goals simp only [heq, abort']; rw [maybeResumeProtocol_eq]
  · constructor <;> simp_all [writeBufferSize]
  · simp_all
  · have htaken : s.device ++ front <+: s.accepted := by
      rw [← hwhole, hsplit, ← List.append_assoc]
      exact List.prefix_append _ _
    constructor <;> simp_all [writeBufferSize]
    case high => exact low_of_high
  · simp_all
  · cases hc : s.closing <;> constructor <;> simp_all [writeBufferSize, removeWriter]
  · simp_all

/-- `_close` keeps the invariant. -/
theorem Sound.close' (h : Sound s) (hc : s.closing = false) : Sound s.close' := by
  have ha := h.notAborted hc
  obtain ⟨htasks, hdet⟩ := h.running hc
  obtain ⟨hzero, htold, hfront, hwhole, harmed, hfull, hlow, hhigh, -, -, -, -, honce⟩ := h
  unfold Transport.close'
  by_cases hb : s.writeBuffer = []
  · constructor <;> simp_all [flushed, writeBufferSize, removeWriter]
  · have hsize : s.writeBufferSize ≠ 0 := by
      rw [writeBufferSize_eq]
      exact fun hzero => hfull hb (List.length_eq_zero_iff.1 hzero)
    constructor <;> simp_all [flushed, writeBufferSize]

/-- `_abort` keeps the invariant. -/
theorem Sound.abort' (h : Sound s) : Sound s.abort' := by
  obtain ⟨hzero, htold, hfront, hwhole, harmed, hfull, hlow, hhigh, -, -, -, -, honce⟩ := h
  constructor <;> simp_all [Transport.abort']

/-- The end of the connection keeps the invariant. -/
theorem Sound.callConnectionLost (h : Sound s) {flush : Bool} {tasks : List Bool}
    (ht : s.tasks = flush :: tasks) : Sound (s.callConnectionLost tasks) := by
  obtain ⟨hc, hw, hempty⟩ := h.ended (Or.inl (by simp [ht]))
  have hr := h.closing hc
  obtain ⟨hzero, htold, hfront, hwhole, harmed, hfull, hlow, hhigh, -, -, -, -, honce⟩ := h
  unfold Transport.callConnectionLost
  cases hd : s.detached <;> constructor <;> simp_all [writeBufferSize]

/-- **Step.**  Every event keeps a transport sound. -/
theorem sound_step {s' : Transport} {e : Event} (h : Sound s) (hstep : step writeReady s e = some s') :
    Sound s' := by
  -- one clause for each call of the loop or of the protocol
  cases e with
  | write data o =>
    simp only [step] at hstep
    split_ifs at hstep with ho
    obtain rfl := Option.some.inj hstep
    exact h.write ho
  | ready o =>
    simp only [step] at hstep
    split_ifs at hstep with ho
    obtain rfl := Option.some.inj hstep
    exact h.writeReady ho.1 ho.2
  | readFailed =>
    simp only [step] at hstep
    split_ifs at hstep with hr
    obtain rfl := Option.some.inj hstep
    refine h.close' ?_
    by_contra hc
    simpa [hr] using h.closing (by simpa using hc)
  | pauseReading =>
    obtain rfl := Option.some.inj hstep
    obtain ⟨hzero, htold, hfront, hwhole, harmed, hfull, hlow, hhigh, -, hended, hends, hab, honce⟩ := h
    exact ⟨hzero, htold, hfront, hwhole, harmed, hfull, hlow, hhigh, fun _ => rfl, hended, hends, hab,
      honce⟩
  | resumeReading =>
    obtain rfl := Option.some.inj hstep
    obtain ⟨hzero, htold, hfront, hwhole, harmed, hfull, hlow, hhigh, hcl, hended, hends, hab, honce⟩ := h
    exact ⟨hzero, htold, hfront, hwhole, harmed, hfull, hlow, hhigh,
      fun hc => by simp [show s.closing = true from hc, hcl hc], hended, hends, hab, honce⟩
  | close =>
    obtain rfl := Option.some.inj hstep
    unfold Transport.close
    -- a second close returns at once
    by_cases hc : s.closing = true
    · rw [if_pos hc]
      exact h
    · rw [if_neg hc]
      exact h.close' (by simpa using hc)
  | abort =>
    obtain rfl := Option.some.inj hstep
    exact h.abort'
  | connectionLost =>
    simp only [step] at hstep
    cases ht : s.tasks with
    | nil => simp [ht] at hstep
    | cons flush tasks =>
      rw [ht] at hstep
      obtain rfl := Option.some.inj hstep
      exact h.callConnectionLost ht

/-- A transport that was just made. -/
theorem sound_init : Sound init := by
  constructor <;> simp [init, writeBufferSize]

/-- Every state of a run meets the invariant. -/
theorem sound_run {es : List Event} (hrun : run (step writeReady) init es = some s) : Sound s :=
  run_invariant_of_step Sound (fun _ _ _ h hs => sound_step h hs) sound_init hrun

/-- What the driver takes is gone from the buffer. -/
theorem writeBufferSize_writeReady (h : Sound s) (hb : s.writeBuffer ≠ []) {n : Nat}
    (hn : n ≤ s.writeBufferSize) :
    (s.writeReady (.taken n)).writeBufferSize = s.writeBufferSize - n := by
  have htold := h.told
  rw [writeBufferSize_eq] at hn ⊢
  rw [writeBufferSize_eq s]
  simp only [Transport.writeReady, if_neg hb, writeData]
  by_cases hall : n = s.writeBuffer.flatten.length
  · -- an end of the transport leaves the buffer empty
    simp only [hall, Nat.sub_self, Transport.close', flushed, writeBufferSize]
    split_ifs <;> rw [maybeResumeProtocol_eq (by exact htold)] <;> simp_all [removeWriter]
  · rw [if_neg hall, keepBack_eq (by exact htold), maybeResumeProtocol_eq (by rfl)]
    simp [List.length_drop]

/-- **The device gets the bytes in order, each once.**  At any time of a run, what the driver has
    taken is the front of what was accepted, and unless the transport was aborted the rest is in
    the buffer.  While there is a rest, and only then, the callback is armed, and each time the
    driver takes `n` bytes it is `n` bytes shorter; the protocol is paused at most while there is
    a rest.  The protocol is told of the end once at most, and unless the transport was aborted
    everything is with the driver by then.  No assertion fails. -/
theorem transport_sound {es : List Event} (hrun : run (step writeReady) init es = some s) :
    s.device <+: s.accepted ∧
      (s.aborted = false →
        s.device ++ s.writeBuffer.flatten = s.accepted ∧
        (s.hasWriter = true ↔ s.writeBuffer ≠ []) ∧
        (s.paused = true → s.hasWriter = true) ∧
        (s.lost ≠ 0 → s.device = s.accepted)) ∧
      (s.hasWriter = true → ∀ n ≤ s.writeBufferSize, ∃ s', step writeReady s (.ready (.taken n)) =
        some s' ∧ s'.writeBufferSize + n = s.writeBufferSize) ∧
      s.lost ≤ 1 ∧ s.asserted = 0 := by
  -- everything is read off the invariant
  have h := sound_run hrun
  refine ⟨h.front, fun ha => ⟨h.whole ha, h.armed ha, fun hp => ?_, fun hlost => ?_⟩,
    fun hw n hn => ?_, ?_, h.asserted⟩
  · rw [h.armed ha]
    intro hb
    simpa [writeBufferSize, hb] using h.low ha hp
  -- detached and not aborted, so the buffer went out first
  · have hdet : s.detached = true := by
      by_contra hne
      exact hlost (by simpa [hne] using h.once)
    have hb := (h.ended (Or.inr hdet)).2.2 ha
    simpa [hb] using h.whole ha
  · have ha : s.aborted = false := by
      by_contra hne
      simpa [hw] using h.aborted (by simpa using hne)
    have hfits : (Outcome.taken n).Fits s.writeBuffer.flatten := by
      rw [writeBufferSize_eq] at hn
      exact hn
    refine ⟨s.writeReady (.taken n), by rw [step, if_pos ⟨hw, hfits⟩], ?_⟩
    rw [writeBufferSize_writeReady h ((h.armed ha).1 hw) hn]
    exact Nat.sub_add_cancel hn
  · rw [h.once]
    split_ifs <;> decide

/-- The driver takes the first of three bytes, the others when it is ready again; then the end. -/
def partialWrite : List Event :=
  [.write [1, 2, 3] (.taken 1), .ready (.taken 2), .close, .connectionLost]

/-- The driver takes a part, and then the rest. -/
theorem transport_sound_partialWrite :
    ∃ s, run (step writeReady) init partialWrite = some s ∧ s.device = [1, 2, 3] := by
  have hrun : run (step writeReady) init partialWrite = some _ := rfl
  obtain ⟨-, hopen, -⟩ := transport_sound hrun
  exact ⟨_, hrun, (hopen rfl).2.2.2 (by decide)⟩

/-! ### The callback upstream -/

/-- `s` is what the unpatched transport has come to where the patched one has come to `t`: its
    callback may be armed with nothing to write, and `n` assertions have failed. -/
structure Shadow (n : Nat) (t s : Transport) : Prop where
  same : s = { t with hasWriter := s.hasWriter, asserted := n }
  more : t.hasWriter = true → s.hasWriter = true
  ended : t.tasks ≠ [] ∨ t.detached = true ∨ t.aborted = true →
    t.closing = true ∧ s.hasWriter = false
  /-- Once armed, the callback stays so until an end is asked for. -/
  stays : t.closing = false → s.hasWriter = t.short

/-- `_close` of both. -/
theorem Shadow.close' {n : Nat} {t s : Transport} (h : Shadow n t s) :
    Shadow n t.close' s.close' := by
  obtain ⟨hsame, hmore, hended, hstays⟩ := h
  generalize s.hasWriter = w at *
  subst hsame
  by_cases hb : t.writeBufferSize = 0
  · constructor <;> simp_all [Transport.close', flushed, writeBufferSize, removeWriter]
  · constructor <;> simp_all [Transport.close', flushed, writeBufferSize]

/-- `_abort` of both. -/
theorem Shadow.abort' {n : Nat} {t s : Transport} (h : Shadow n t s) :
    Shadow n t.abort' s.abort' := by
  obtain ⟨hsame, -, -, -⟩ := h
  generalize s.hasWriter = w at *
  subst hsame
  constructor <;> simp [Transport.abort']

/-- The bytes that are kept back, of both. -/
theorem Shadow.keepBack {n : Nat} {t s : Transport} (h : Shadow n t s)
    (ht : t.paused = t.protocolPaused) (data : Bytes) :
    Shadow n (t.keepBack data) (s.keepBack data) := by
  obtain ⟨hsame, hmore, hended, hstays⟩ := h
  generalize s.hasWriter = w at *
  subst hsame
  rw [keepBack_eq ht, keepBack_eq (by exact ht)]
  refine ⟨rfl, ?_, ?_, ?_⟩ <;> simp_all
  exact Or.imp_left hmore

/-- A write to the driver, of both. -/
theorem Shadow.writeData {n : Nat} {t s : Transport} (h : Shadow n t s)
    (ht : t.paused = t.protocolPaused) (data : Bytes) (o : Outcome) :
    Shadow n (t.writeData data o) (s.writeData data o) := by
  cases o with
  | failed => exact h.abort'
  | again => exact h.keepBack ht data
  | taken k =>
    obtain ⟨hsame, hmore, hended, hstays⟩ := h
    generalize s.hasWriter = w at *
    subst hsame
    have hdev : Shadow n { t with device := t.device ++ data.take k }
        { t with hasWriter := w, asserted := n, device := t.device ++ data.take k } :=
      ⟨rfl, hmore, hended, hstays⟩
    simp only [Transport.writeData]
    split_ifs
    · exact hdev.close'
    · exact hdev
    · exact hdev.keepBack ht _

/-- Resuming the protocol of both: the unpatched one may do it later. -/
theorem Shadow.maybeResumeProtocol {n : Nat} {t s : Transport} (h : Shadow n t s)
    (ht : t.paused = t.protocolPaused) :
    Shadow n t.maybeResumeProtocol s.maybeResumeProtocol := by
  obtain ⟨hsame, hmore, hended, hstays⟩ := h
  generalize s.hasWriter = w at *
  subst hsame
  rw [maybeResumeProtocol_eq ht, maybeResumeProtocol_eq (by exact ht)]
  exact ⟨rfl, hmore, hended, hstays⟩

/-- Pausing the protocol of both. -/
theorem Shadow.maybePauseProtocol {n : Nat} {t s : Transport} (h : Shadow n t s)
    (ht : t.paused = t.protocolPaused) :
    Shadow n t.maybePauseProtocol s.maybePauseProtocol := by
  obtain ⟨hsame, hmore, hended, hstays⟩ := h
  generalize s.hasWriter = w at *
  subst hsame
  rw [maybePauseProtocol_eq ht, maybePauseProtocol_eq (by exact ht)]
  exact ⟨rfl, hmore, hended, hstays⟩

/-- `write` of both. -/
theorem Shadow.write {n : Nat} {t s : Transport} (h : Shadow n t s) (ht : Sound t) (data : Bytes)
    (o : Outcome) : Shadow n (t.write data o) (s.write data o) := by
  obtain ⟨hsame, hmore, hended, hstays⟩ := h
  generalize s.hasWriter = w at *
  subst hsame
  have hshadow : ∀ buffer, Shadow n
      { t with accepted := t.accepted ++ data, writeBuffer := buffer }
      { t with
        hasWriter := w, asserted := n, accepted := t.accepted ++ data, writeBuffer := buffer } :=
    fun buffer => ⟨rfl, hmore, hended, hstays⟩
  simp only [Transport.write]
  split_ifs
  · exact ⟨rfl, hmore, hended, hstays⟩
  · exact (hshadow t.writeBuffer).writeData ht.told data o
  · exact (hshadow _).maybePauseProtocol ht.told

/-- The writer of both is removed. -/
theorem Shadow.removeWriter {n : Nat} {t s : Transport} (h : Shadow n t s) :
    Shadow n t.removeWriter s :=
  ⟨h.same, Bool.noConfusion, h.ended, h.stays⟩

/-- Upstream's callback does what the patched one does, but for taking itself away. -/
theorem Shadow.writeReady {n : Nat} {t s : Transport} (h : Shadow n t s) (ht : Sound t)
    (hb : t.writeBuffer ≠ []) (o : Outcome) : Shadow n (t.writeReady o) (s.upstreamWriteReady o) := by
  obtain ⟨hsame, hmore, hended, hstays⟩ := h
  generalize s.hasWriter = w at *
  subst hsame
  have hshadow : Shadow n { t with writeBuffer := [] }
      { t with hasWriter := w, asserted := n, writeBuffer := [] } := ⟨rfl, hmore, hended, hstays⟩
  have hdone := (hshadow.writeData ht.told t.writeBuffer.flatten o).maybeResumeProtocol
    (writeData_told ht.told)
  have hbytes : ¬ (t.writeBuffer.length ≠ 1 ∧ t.writeBuffer.flatten = []) :=
    fun hn => ht.full hb hn.2
  simp only [Transport.writeReady, if_neg hb, upstreamWriteReady, if_neg hbytes]
  split_ifs
  · exact hdone.removeWriter
  · exact hdone

/-- The end of the connection of both. -/
theorem Shadow.callConnectionLost {n : Nat} {t s : Transport} (h : Shadow n t s) (ht : Sound t)
    {flush : Bool} {tasks : List Bool} (htasks : t.tasks = flush :: tasks) :
    Shadow n (t.callConnectionLost tasks) (s.callConnectionLost tasks) := by
  obtain ⟨hc, hw, -⟩ := ht.ended (Or.inl (by simp [htasks]))
  have hr := ht.closing hc
  obtain ⟨hsame, hmore, hended, hstays⟩ := h
  generalize s.hasWriter = w at *
  subst hsame
  obtain ⟨-, hw'⟩ := hended (Or.inl (by simp [htasks]))
  unfold Transport.callConnectionLost
  cases hd : t.detached <;> constructor <;> simp_all

/-- The callback fails its assertion, upstream. -/
def assertionFails (s : Transport) : Event → Bool
  | .ready o => s.asserted < (s.upstreamWriteReady o).asserted
  | _ => false

/-- It does just when it finds nothing to write. -/
theorem Shadow.assertionFails_iff {n : Nat} {t s : Transport} (h : Shadow n t s) (ht : Sound t)
    (o : Outcome) : assertionFails s (.ready o) = true ↔ t.writeBuffer = [] := by
  have hn : s.asserted = n := by rw [h.same]
  have hbuf : s.writeBuffer = t.writeBuffer := by rw [h.same]
  rw [assertionFails, decide_eq_true_iff]
  constructor
  · intro hlt
    by_contra hb
    rw [(h.writeReady ht hb o).same, hn] at hlt
    exact lt_irrefl n hlt
  · intro hb
    rw [upstreamWriteReady, if_pos (by simp [hbuf, hb])]
    exact Nat.lt_succ_self _

/-- Such a callback changes nothing but the count. -/
theorem shadow_skip {n : Nat} {t s s' : Transport} {e : Event} (h : Sound t ∧ Shadow n t s)
    (hstep : step upstreamWriteReady s e = some s') (hfails : assertionFails s e = true) :
    Sound t ∧ Shadow (n + 1) t s' := by
  obtain ⟨ht, hsh⟩ := h
  cases e with
  | ready o =>
    have hb := (hsh.assertionFails_iff ht o).1 hfails
    simp only [step] at hstep
    split_ifs at hstep
    obtain rfl := Option.some.inj hstep
    obtain ⟨hsame, hmore, hended, hstays⟩ := hsh
    generalize s.hasWriter = w at *
    subst hsame
    rw [upstreamWriteReady, if_pos (by simp [hb])]
    exact ⟨ht, rfl, hmore, hended, hstays⟩
  | _ => cases hfails

/-- Every other event does to both the same. -/
theorem shadow_step {n : Nat} {t s s' : Transport} {e : Event} (h : Sound t ∧ Shadow n t s)
    (hstep : step upstreamWriteReady s e = some s') (hfails : assertionFails s e = false) :
    ∃ t', step writeReady t e = some t' ∧ Sound t' ∧ Shadow n t' s' := by
  obtain ⟨ht, hsh⟩ := h
  -- the two transports differ in what they do with an empty buffer only
  cases e with
  | ready o =>
    simp only [step] at hstep
    split_ifs at hstep with ho
    obtain rfl := Option.some.inj hstep
    have hbuf : s.writeBuffer = t.writeBuffer := by rw [hsh.same]
    -- the assertion holds, so there is something to write
    have hb : t.writeBuffer ≠ [] := fun hb => by
      rw [(hsh.assertionFails_iff ht o).2 hb] at hfails
      cases hfails
    -- an armed writer of the patched one means that nothing has ended it
    have ha : t.aborted = false := by
      by_contra hne
      simpa [ho.1] using hsh.ended (Or.inr (Or.inr (by simpa using hne)))
    have hw : t.hasWriter = true := (ht.armed ha).2 hb
    rw [hbuf] at ho
    refine ⟨t.writeReady o, by rw [step, if_pos ⟨hw, ho.2⟩], ?_, ?_⟩
    · exact ht.writeReady hw ho.2
    · exact hsh.writeReady ht hb o
  | write data o =>
    simp only [step] at hstep
    split_ifs at hstep with ho
    obtain rfl := Option.some.inj hstep
    exact ⟨t.write data o, by rw [step, if_pos ho], ht.write ho, hsh.write ht data o⟩
  | readFailed =>
    simp only [step] at hstep
    split_ifs at hstep with hr
    obtain rfl := Option.some.inj hstep
    have hr' : t.hasReader = true := by rw [hsh.same] at hr; exact hr
    have hs : step writeReady t .readFailed = some t.close' := if_pos hr'
    exact ⟨t.close', hs, sound_step ht hs, hsh.close'⟩
  | pauseReading =>
    obtain rfl := Option.some.inj hstep
    refine ⟨_, rfl, sound_step (e := .pauseReading) ht rfl, ?_⟩
    obtain ⟨hsame, hmore, hended, hstays⟩ := hsh
    exact ⟨by rw [hsame], hmore, hended, hstays⟩
  | resumeReading =>
    obtain rfl := Option.some.inj hstep
    refine ⟨_, rfl, sound_step (e := .resumeReading) ht rfl, ?_⟩
    obtain ⟨hsame, hmore, hended, hstays⟩ := hsh
    exact ⟨by rw [hsame], hmore, hended, hstays⟩
  | close =>
    obtain rfl := Option.some.inj hstep
    refine ⟨_, rfl, sound_step (e := .close) ht rfl, ?_⟩
    have hc : s.closing = t.closing := by rw [hsh.same]
    rw [Transport.close, Transport.close, hc]
    split_ifs
    · exact hsh
    · exact hsh.close'
  | abort =>
    obtain rfl := Option.some.inj hstep
    exact ⟨_, rfl, sound_step (e := .abort) ht rfl, hsh.abort'⟩
  | connectionLost =>
    have htasks : s.tasks = t.tasks := by rw [hsh.same]
    simp only [step, htasks] at hstep
    cases hts : t.tasks with
    | nil => simp [hts] at hstep
    | cons flush tasks =>
      rw [hts] at hstep
      obtain rfl := Option.some.inj hstep
      have hs : step writeReady t .connectionLost = some (t.callConnectionLost tasks) := by
        rw [step, hts]
      exact ⟨_, hs, sound_step ht hs, hsh.callConnectionLost ht hts⟩

/-- The events of a run of the unpatched transport without the callbacks whose assertion fails. -/
def unfailed (es : List Event) : List Event :=
  spared (step upstreamWriteReady) assertionFails init es

/-- The patched transport runs along these events, and stays close behind. -/
theorem upstream_run {es : List Event} (hrun : run (step upstreamWriteReady) init es = some s) :
    ∃ t n, run (step writeReady) init (unfailed es) = some t ∧ (Sound t ∧ Shadow n t s) ∧
      (unfailed es).length + n = es.length := by
  have hinit : Sound init ∧ Shadow 0 init init :=
    ⟨sound_init, rfl, id, by simp [init], fun _ => rfl⟩
  exact @run_simulated _ _ (step upstreamWriteReady) _ (step writeReady) assertionFails
    (fun n t s => Sound t ∧ Shadow n t s) (fun _ _ _ _ _ h hs hf => shadow_skip h hs hf)
    (fun _ _ _ _ _ h hs hf => shadow_step h hs hf) _ _ _ _ _ hinit hrun

/-- **What the patch leaves as it is.**  A run of the unpatched transport comes to what the patched
    one comes to when just the callbacks whose assertion fails are left out of the run: the same
    bytes are with the driver and in the buffer, and the protocol has been told the same.  No other
    assertion has failed. -/
theorem upstream_simulated {es : List Event}
    (hrun : run (step upstreamWriteReady) init es = some s) :
    ∃ t, run (step writeReady) init (unfailed es) = some t ∧
      s = { t with hasWriter := s.hasWriter, asserted := s.asserted } ∧
      (unfailed es).length + s.asserted = es.length := by
  obtain ⟨t, n, hrun', ⟨-, hsh⟩, hlen⟩ := upstream_run hrun
  have hn : s.asserted = n := by rw [hsh.same]
  exact ⟨t, hrun', hn ▸ hsh.same, hn ▸ hlen⟩

/-- **What the patch is for.**  Until an end is asked for, the unpatched transport is called back
    with nothing to write just when the driver once took less than it was given and everything is
    written by now, and then the assertion fails. -/
theorem upstream_asserts_iff {es : List Event}
    (hrun : run (step upstreamWriteReady) init es = some s) (hc : s.closing = false) :
    (∃ o s', step upstreamWriteReady s (.ready o) = some s' ∧ s.asserted < s'.asserted) ↔
      s.short = true ∧ s.writeBuffer = [] := by
  obtain ⟨t, n, -, ⟨ht, hsh⟩, -⟩ := upstream_run hrun
  -- as long as the port is open the writer is armed exactly after a short write
  have hstays : s.hasWriter = s.short := by
    rw [hsh.same] at hc
    rw [hsh.stays hc, hsh.same]
  have hn : s.asserted = n := by rw [hsh.same]
  have hbuf : s.writeBuffer = t.writeBuffer := by rw [hsh.same]
  constructor
  · rintro ⟨o, s', hstep, hlt⟩
    simp only [step] at hstep
    split_ifs at hstep with ho
    obtain rfl := Option.some.inj hstep
    refine ⟨hstays ▸ ho.1, ?_⟩
    -- with something to write the callback asserts nothing
    by_contra hb
    have hsame := (hsh.writeReady ht (hbuf ▸ hb) o).same
    rw [hsame, hn] at hlt
    exact lt_irrefl n hlt
  · rintro ⟨hshort, hb⟩
    -- with nothing to write any outcome will do: the assertion comes first
    refine ⟨.failed, _, if_pos ⟨hstays.trans hshort, trivial⟩, ?_⟩
    rw [upstreamWriteReady, if_pos (by simp [hb])]
    exact Nat.lt_succ_self _

/-- The bytes are written, in two parts. -/
def twoParts : List Event := [.write [1, 2, 3] (.taken 1), .ready (.taken 2)]

/-- The callback comes once more than there is something to write; without it the patched transport
    has written the same. -/
theorem upstream_simulated_calledAgain :
    unfailed (twoParts ++ [.ready .failed]) = twoParts ∧
      ∃ s t, run (step upstreamWriteReady) init (twoParts ++ [.ready .failed]) = some s ∧
        run (step writeReady) init (unfailed (twoParts ++ [.ready .failed])) = some t ∧
        s.device = t.device ∧ s.asserted = 1 := by
  have hleft : unfailed (twoParts ++ [.ready .failed]) = twoParts := by decide
  have hrun : run (step upstreamWriteReady) init (twoParts ++ [.ready .failed]) = some _ := rfl
  obtain ⟨t, hrun', hsame, -⟩ := upstream_simulated hrun
  exact ⟨hleft, _, t, hrun, hrun', by rw [hsame], rfl⟩

/-- A buffer of two parts, of which the driver takes the first. -/
theorem upstream_asserts_iff_twoParts :
    ∃ s, run (step upstreamWriteReady) init twoParts = some s ∧
      ∃ o s', step upstreamWriteReady s (.ready o) = some s' ∧ s.asserted < s'.asserted := by
  have hrun : run (step upstreamWriteReady) init twoParts = some _ := rfl
  exact ⟨_, hrun, (upstream_asserts_iff hrun rfl).2 ⟨rfl, rfl⟩⟩

end Ser2Net.Engine.SerialTransport
