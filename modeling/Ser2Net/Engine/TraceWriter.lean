import Ser2Net.Lib.Trace
import Ser2Net.Lib.Latin1
import Ser2Net.Lib.PyStr
import Ser2Net.Engine.TraceFiles

namespace Ser2Net.Engine.TraceWriter

open Ser2Net.Lib Ser2Net.Engine.TraceFiles

/-!
# Engine — what a trace records (`Tracer` of `bridge.py`)

The event loop offers chunks; a writer thread takes them out of a queue in batches, formats them
and appends them to the trace file.  Two counters are shared under a lock: the bytes that wait
for the writer, and the bytes dropped since the last line.  What the two threads do between two
accesses to the counters or to the queue is one event here, so an interleaving is a list of
events.

* `Inv` — the invariant: what is written, what is announced as missing, what is dropped and not
  announced yet and what waits are together what was offered;
* `inv_step` — one event keeps it;
* `inv_finishes` — once the trace is being closed the writer gets through;
* `Shows` — what the bytes of a line have to be, by what can be read from them;
* `accounted` — the accounts of a whole run, over the bytes in the files.
-/

/-- A queued chunk: when it came, its direction, its bytes.  `T` is what the clock returns. -/
structure Chunk (T : Type) where
  ts : T
  direction : Text
  data : Bytes

/-- A line of the trace: a chunk, or how many bytes were dropped before the next one. -/
inductive Line (T : Type)
  | chunk (c : Chunk T)
  | notTraced (ts : T) (dropped : Nat)

/-- What a tracer reads of its mapping, the clock's text of a time, and the two bounds. -/
structure Tracer (T : Type) extends TraceFile where
  /-- `_hex` -/
  hex : Bool
  /-- `_ts` -/
  ts : Bool
  /-- `time.strftime("%Y-%m-%d %H:%M:%S ", time.localtime(ts))` -/
  strftime : T → Text
  /-- `QUEUE_MAX_BYTES` -/
  queueMaxBytes : Nat := 8 * 1024 * 1024
  /-- `BATCH` -/
  batch : Nat := 256

variable {T : Type} (t : Tracer T)

/-! ### The lines -/

/-- `data.hex(' ')`. -/
def hexText (data : Bytes) : Text :=
  List.intercalate [' '] (data.map fun b =>
    [Nat.digitChar (b.toNat / 16), Nat.digitChar (b.toNat % 16)])

/-- `_format`. -/
def format (ts : T) (direction : Text) (data : Bytes) : Bytes :=
  let pre := if t.ts then t.strftime ts else []
  if t.hex then
    Latin1.encode (pre ++ direction ++ " [".toList ++ Nat.toDigits 10 data.length ++
      "] ".toList ++ hexText data ++ ['\n'])
  else Latin1.encode pre ++ Latin1.encode direction ++ [0x20] ++ data ++ [0x0a]

/-- The bytes of a line. -/
def lineBytes : Line T → Bytes
  | .chunk c => format t c.ts c.direction c.data
  | .notTraced ts dropped =>
    format t ts "!!".toList (Latin1.encode (Nat.toDigits 10 dropped ++
      " bytes not traced (the trace file could not keep up)".toList))

/-! ### What can be read from a line -/

/-- `bytes.fromhex`: two digits a byte, blanks between the bytes. -/
def fromHex : Text → Option Bytes
  | [] => some []
  | [_] => none
  | a :: b :: cs =>
    if a = ' ' then fromHex (b :: cs)
    else if PyText.isHexDigit a ∧ PyText.isHexDigit b then
      (fromHex cs).map (UInt8.ofNat (16 * PyText.hexDigit a + PyText.hexDigit b) :: ·)
    else none

/-- The sixteen digits read back as what they stand for. -/
theorem digitChar_reads {n : Nat} (h : n < 16) : Nat.digitChar n ≠ ' ' ∧
    PyText.isHexDigit (Nat.digitChar n) = true ∧ PyText.hexDigit (Nat.digitChar n) = n := by
  revert n
  decide

/-- A byte is its high half times sixteen plus its low half. -/
theorem byte_halves (b : UInt8) : UInt8.ofNat (16 * (b.toNat / 16) + b.toNat % 16) = b := by
  rw [Nat.div_add_mod, UInt8.ofNat_toNat]

/-- The two digits of a byte in front of anything. -/
theorem fromHex_byte (b : UInt8) (cs : Text) :
    fromHex (Nat.digitChar (b.toNat / 16) :: Nat.digitChar (b.toNat % 16) :: cs) =
      (fromHex cs).map (b :: ·) := by
  have hb := b.toNat_lt
  obtain ⟨hblank, hhigh, hhigh'⟩ := digitChar_reads (n := b.toNat / 16) (by omega)
  obtain ⟨-, hlow, hlow'⟩ := digitChar_reads (n := b.toNat % 16) (by omega)
  rw [fromHex, if_neg hblank, if_pos ⟨hhigh, hlow⟩, hhigh', hlow', byte_halves]

/-- A blank is passed over. -/
theorem fromHex_blank {cs : Text} (h : cs ≠ []) : fromHex (' ' :: cs) = fromHex cs := by
  cases cs with
  | nil => exact absurd rfl h
  | cons c cs => rw [fromHex, if_pos rfl]

/-- The dump of `hexText` reads back as the bytes it is the dump of. -/
theorem fromHex_hexText (data : Bytes) : fromHex (hexText data) = some data := by
  induction data with
  | nil => rfl
  | cons b data ih =>
    cases data with
    | nil => exact fromHex_byte b []
    | cons b' data =>
      have hmore : hexText (b' :: data) ≠ [] := fun hnil => by rw [hnil] at ih; cases ih
      have hcons : hexText (b :: b' :: data) =
          Nat.digitChar (b.toNat / 16) :: Nat.digitChar (b.toNat % 16) ::
            ' ' :: hexText (b' :: data) := by
        simp [hexText]
      rw [hcons, fromHex_byte, fromHex_blank hmore, ih, Option.map_some]

/-- The bytes of a line that shows data: the time, the direction, and the data as they are, or
    their number and a dump that reads back as them. -/
def ShowsData (ts : T) (direction : Text) (data line : Bytes) : Prop :=
  let head := (if t.ts then t.strftime ts else []) ++ direction
  if t.hex then
    ∃ dump, fromHex dump = some data ∧ line = Latin1.encode
      (head ++ ' ' :: '[' :: Nat.toDigits 10 data.length ++ ']' :: ' ' :: dump) ++ [0x0a]
  else line = Latin1.encode head ++ 0x20 :: data ++ [0x0a]

/-- The bytes of a line: those of its chunk, or the text that says how many bytes are missing. -/
def Shows : Line T → Bytes → Prop
  | .chunk c, line => ShowsData t c.ts c.direction c.data line
  | .notTraced ts dropped, line =>
    ∃ note, note = Nat.toDigits 10 dropped ++
        " bytes not traced (the trace file could not keep up)".toList ∧
      ShowsData t ts ['!', '!'] (Latin1.encode note) line

theorem showsData_format (ts : T) (direction : Text) (data : Bytes) :
    ShowsData t ts direction data (format t ts direction data) := by
  unfold ShowsData format
  dsimp only
  split
  · refine ⟨hexText data, fromHex_hexText data, ?_⟩
    simp [Latin1.encode]
    rfl
  · simp [Latin1.encode]

/-- What the writer makes of a line shows it. -/
theorem shows_lineBytes (line : Line T) : Shows t line (lineBytes t line) := by
  cases line with
  | chunk c => exact showsData_format t c.ts c.direction c.data
  | notTraced ts dropped => exact ⟨_, rfl, showsData_format t ts _ _⟩

/-! ### The two threads -/

/-- Where the writer thread is.  The sentinel of `aclose` is `none`. -/
inductive Writer (T : Type)
  /-- at the queue: blocked in `get` while the batch is empty, then at `get_nowait` -/
  | filling (batch : List (Option (Chunk T)))
  /-- in the loop over the batch -/
  | formatting (todo : List (Option (Chunk T))) (out : List (Line T)) (stop : Bool)
  /-- the file is closed and `_fh` is `None` -/
  | ended

structure State (T : Type) where
  /-- `_q` -/
  q : List (Option (Chunk T))
  /-- `_queued` -/
  queued : Int
  /-- `_dropped` -/
  dropped : Nat
  /-- A `write` between its lock and its `put`. -/
  putting : Option (Text × Bytes)
  /-- `aclose` was called. -/
  closed : Bool
  writer : Writer T
  disk : Disk
  /-- What was given to `_append`, batch by batch. -/
  batches : List (List (Line T))
  /-- The chunks that `write` accepted. -/
  accepted : List (Text × Bytes)
  /-- The bytes that `write` was called with. -/
  offered : Nat

/-- `__init__`. -/
def init (base : Disk) : State T :=
  ⟨[], 0, 0, none, false, .filling [], start t.toTraceFile base, [], [], 0⟩

inductive Event (T : Type)
  /-- `write`, up to the end of its lock -/
  | offer (direction : Text) (data : Bytes)
  /-- the `put` of a `write` -/
  | put (ts : T)
  | aclose
  /-- the writer's `get` or `get_nowait` returns an item -/
  | take
  /-- the batch is full, or `get_nowait` raises `Empty` -/
  | go
  /-- one turn of the loop over the batch -/
  | turn
  /-- `_append`, and around the outer loop or out of it -/
  | finish

/-- The writer's own events. -/
def Event.isWriter : Event T → Bool
  | .take | .go | .turn | .finish => true
  | _ => false

/-- The bytes of a `write`. -/
def Event.size : Event T → Nat
  | .offer _ data => data.length
  | _ => 0

/-- `write`, up to the end of its lock. -/
def offer (s : State T) (direction : Text) (data : Bytes) : State T :=
  let s := { s with offered := s.offered + data.length }
  match s.writer with
  | .ended => s
  | _ =>
    if data = [] then s
    else if s.queued + data.length > t.queueMaxBytes then
      { s with dropped := s.dropped + data.length }
    else
      { s with
        queued := s.queued + data.length
        putting := some (direction, data)
        accepted := s.accepted ++ [(direction, data)] }

/-- The lines of a chunk, with the bytes dropped before it. -/
def chunkLines (c : Chunk T) (dropped : Nat) : List (Line T) :=
  (if dropped ≠ 0 then [.notTraced c.ts dropped] else []) ++ [.chunk c]

/-- One event; `none` when it is not possible. -/
def step (s : State T) : Event T → Option (State T)
  | .offer direction data =>
    if s.putting = none ∧ s.closed = false then some (offer t s direction data) else none
  | .put ts =>
    match s.putting with
    | none => none
    | some (direction, data) =>
      some { s with q := s.q ++ [some ⟨ts, direction, data⟩], putting := none }
  | .aclose =>
    if s.putting = none ∧ s.closed = false then
      match s.writer with
      | .ended => none
      | _ => some { s with q := s.q ++ [none], closed := true }
    else none
  | .take =>
    match s.writer, s.q with
    | .filling batch, x :: q =>
      if batch = [] ∨ batch.length < t.batch then
        some { s with q := q, writer := .filling (batch ++ [x]) }
      else none
    | _, _ => none
  | .go =>
    match s.writer with
    | .filling batch =>
      if batch ≠ [] ∧ (s.q = [] ∨ t.batch ≤ batch.length) then
        some { s with writer := .formatting batch [] false }
      else none
    | _ => none
  | .turn =>
    match s.writer with
    | .formatting (none :: todo) out _ => some { s with writer := .formatting todo out true }
    | .formatting (some c :: todo) out stop =>
      some { s with
        queued := s.queued - c.data.length
        dropped := 0
        writer := .formatting todo (out ++ chunkLines c s.dropped) stop }
    | _ => none
  | .finish =>
    match s.writer with
    | .formatting [] out stop =>
      let s := { s with writer := if stop then .ended else .filling [] }
      some (if out = [] then s
        else
          { s with
            disk := append t.toTraceFile s.disk (out.map (lineBytes t))
            batches := s.batches ++ [out] })
    | _ => none

/-- What an event can do. -/
inductive Step (t : Tracer T) (s : State T) : Event T → State T → Prop
  | offer {direction : Text} {data : Bytes} (hputting : s.putting = none)
      (hclosed : s.closed = false) : Step t s (.offer direction data) (offer t s direction data)
  | put {ts : T} {direction : Text} {data : Bytes} (hputting : s.putting = some (direction, data)) :
      Step t s (.put ts) { s with q := s.q ++ [some ⟨ts, direction, data⟩], putting := none }
  | aclose (hputting : s.putting = none) (hclosed : s.closed = false) :
      Step t s .aclose { s with q := s.q ++ [none], closed := true }
  | take {batch : List (Option (Chunk T))} {x : Option (Chunk T)} {q : List (Option (Chunk T))}
      (hwriter : s.writer = .filling batch) (hq : s.q = x :: q) :
      Step t s .take { s with q := q, writer := .filling (batch ++ [x]) }
  | go {batch : List (Option (Chunk T))} (hwriter : s.writer = .filling batch) (hbatch : batch ≠ []) :
      Step t s .go { s with writer := .formatting batch [] false }
  | stop {todo : List (Option (Chunk T))} {out : List (Line T)} {stop : Bool}
      (hwriter : s.writer = .formatting (none :: todo) out stop) :
      Step t s .turn { s with writer := .formatting todo out true }
  | chunk {c : Chunk T} {todo : List (Option (Chunk T))} {out : List (Line T)} {stop : Bool}
      (hwriter : s.writer = .formatting (some c :: todo) out stop) :
      Step t s .turn { s with
        queued := s.queued - c.data.length
        dropped := 0
        writer := .formatting todo (out ++ chunkLines c s.dropped) stop }
  | finish {out : List (Line T)} {stop : Bool} (hwriter : s.writer = .formatting [] out stop) :
      Step t s .finish (if out = [] then { s with writer := if stop then .ended else .filling [] }
        else { s with
          writer := if stop then .ended else .filling []
          disk := append t.toTraceFile s.disk (out.map (lineBytes t))
          batches := s.batches ++ [out] })

theorem step_cases {t : Tracer T} {s s' : State T} {e : Event T} (h : step t s e = some s') :
    Step t s e s' := by
  -- every branch of `step` that does something is one constructor of `Step`
  cases e with
  | offer direction data =>
    rw [step, Option.ite_none_right_eq_some] at h
    obtain ⟨⟨hputting, hclosed⟩, hs⟩ := h
    cases hs
    exact .offer hputting hclosed
  | put ts =>
    rw [step] at h
    split at h
    · cases h
    · next hputting =>
      cases h
      exact .put hputting
  | aclose =>
    rw [step] at h
    split at h
    · next hidle =>
      split at h
      · cases h
      · cases h
        exact .aclose hidle.1 hidle.2
    · cases h
  | take =>
    rw [step] at h
    split at h
    · next hwriter hq =>
      rw [Option.ite_none_right_eq_some] at h
      obtain ⟨-, hs⟩ := h
      cases hs
      exact .take hwriter hq
    · cases h
  | go =>
    rw [step] at h
    split at h
    · next hwriter =>
      rw [Option.ite_none_right_eq_some] at h
      obtain ⟨⟨hbatch, -⟩, hs⟩ := h
      cases hs
      exact .go hwriter hbatch
    · cases h
  | turn =>
    rw [step] at h
    split at h
    · next hwriter =>
      cases h
      exact .stop hwriter
    · next hwriter =>
      cases h
      exact .chunk hwriter
    · cases h
  | finish =>
    rw [step] at h
    split at h
    · next hwriter =>
      cases h
      exact .finish hwriter
    · cases h

/-! ### The accounts -/

/-- What the writer still goes through: its batch, then the queue. -/
def ahead (s : State T) : List (Option (Chunk T)) :=
  (match s.writer with
    | .filling batch => batch
    | .formatting todo _ _ => todo
    | .ended => []) ++ s.q

/-- The lines so far. -/
def lines (s : State T) : List (Line T) :=
  s.batches.flatten ++
    match s.writer with
    | .formatting _ out _ => out
    | _ => []

/-- The sentinel has been seen. -/
def stopped (s : State T) : Bool :=
  match s.writer with
  | .formatting _ _ stop => stop
  | .filling _ => false
  | .ended => true

/-- The direction and the bytes of a chunk. -/
def Chunk.content (c : Chunk T) : Text × Bytes := (c.direction, c.data)

/-- The chunks that were accepted and have no line yet. -/
def waiting (s : State T) : List (Text × Bytes) :=
  (ahead s).reduceOption.map Chunk.content ++ s.putting.toList

/-- The bytes of chunks. -/
def bytes (l : List (Text × Bytes)) : Nat := (l.map fun c => c.2.length).sum

/-- The chunk of a line. -/
def Line.content? : Line T → Option (Text × Bytes)
  | .chunk c => some c.content
  | .notTraced _ _ => none

/-- The bytes that a line announces as missing. -/
def Line.missing : Line T → Nat
  | .chunk _ => 0
  | .notTraced _ dropped => dropped

/-- The chunks among lines. -/
def contents (l : List (Line T)) : List (Text × Bytes) := l.filterMap Line.content?

/-- The bytes that lines announce as missing. -/
def announced (l : List (Line T)) : Nat := (l.map Line.missing).sum

/-- The invariant of the two threads. -/
structure Inv (t : Tracer T) (base : Disk) (s : State T) : Prop where
  queued : s.queued = bytes (waiting s)
  queued_le : s.queued ≤ t.queueMaxBytes
  /-- Only a chunk that waits makes the next one too much. -/
  dropped : s.dropped ≠ 0 → waiting s ≠ []
  order : contents (lines s) ++ waiting s = s.accepted
  account : bytes (contents (lines s)) + announced (lines s) + s.dropped + bytes (waiting s) =
    s.offered
  /-- The sentinel comes last, and once. -/
  sentinel : ahead s =
    (ahead s).reduceOption.map some ++ if s.closed ∧ ¬ stopped s then [none] else []
  put_done : s.closed = true → s.putting = none
  stopped_closed : stopped s = true → s.closed = true ∧ ahead s = []
  disk : s.disk = appendAll t.toTraceFile (start t.toTraceFile base)
    (s.batches.map (List.map (lineBytes t)))

variable {t} {base : Disk} {s s' : State T}

theorem waiting_congr (hahead : ahead s' = ahead s) (hputting : s'.putting = s.putting) :
    waiting s' = waiting s := by
  rw [waiting, hahead, hputting, waiting]

/-- The accounts are kept where nothing is offered, dropped or written. -/
theorem Inv.of_waiting (h : Inv t base s) (hqueued : s'.queued = s.queued)
    (hdropped : s'.dropped = s.dropped) (hoffered : s'.offered = s.offered)
    (haccepted : s'.accepted = s.accepted) (hwaiting : waiting s' = waiting s)
    (hlines : lines s' = lines s)
    (hsentinel : ahead s' =
      (ahead s').reduceOption.map some ++ if s'.closed ∧ ¬ stopped s' then [none] else [])
    (hput_done : s'.closed = true → s'.putting = none)
    (hstopped_closed : stopped s' = true → s'.closed = true ∧ ahead s' = [])
    (hdisk : s'.disk = appendAll t.toTraceFile (start t.toTraceFile base)
      (s'.batches.map (List.map (lineBytes t)))) : Inv t base s' where
  queued := by rw [hqueued, hwaiting, h.queued]
  queued_le := hqueued ▸ h.queued_le
  dropped := by
    rw [hdropped, hwaiting]
    exact h.dropped
  order := by rw [hlines, hwaiting, haccepted, h.order]
  account := by rw [hlines, hwaiting, hdropped, hoffered, h.account]
  sentinel := hsentinel
  put_done := hput_done
  stopped_closed := hstopped_closed
  disk := hdisk

/-- A move of the writer that changes neither what is ahead nor the lines. -/
theorem Inv.move (h : Inv t base s) {q : List (Option (Chunk T))} {w : Writer T} {d : Disk}
    {b : List (List (Line T))}
    (hahead : ahead { s with q := q, writer := w, disk := d, batches := b } = ahead s)
    (hlines : lines { s with q := q, writer := w, disk := d, batches := b } = lines s)
    (hstopped : stopped { s with q := q, writer := w, disk := d, batches := b } = stopped s)
    (hdisk : d = appendAll t.toTraceFile (start t.toTraceFile base)
      (b.map (List.map (lineBytes t)))) :
    Inv t base { s with q := q, writer := w, disk := d, batches := b } := by
  refine h.of_waiting rfl rfl rfl rfl (waiting_congr hahead rfl) hlines ?_ h.put_done ?_ hdisk
  · rw [hahead, hstopped]
    exact h.sentinel
  · rw [hahead, hstopped]
    exact h.stopped_closed

/-- While the trace is open nothing has been said to the writer that is not a chunk. -/
theorem Inv.open_sentinel (h : Inv t base s) (hclosed : s.closed = false) :
    ahead s = (ahead s).reduceOption.map some := by
  have hsentinel := h.sentinel
  rw [hclosed, if_neg (by simp), List.append_nil] at hsentinel
  exact hsentinel

@[simp] theorem bytes_append (l l' : List (Text × Bytes)) : bytes (l ++ l') = bytes l + bytes l' := by
  simp [bytes]

@[simp] theorem contents_append (l l' : List (Line T)) :
    contents (l ++ l') = contents l ++ contents l' := by
  simp [contents]

@[simp] theorem announced_append (l l' : List (Line T)) :
    announced (l ++ l') = announced l + announced l' := by
  simp [announced]

/-- The lines of a chunk: the chunk, and the bytes dropped before it. -/
theorem contents_chunkLines (c : Chunk T) (dropped : Nat) :
    contents (chunkLines c dropped) = [c.content] := by
  unfold chunkLines
  split <;> rfl

theorem announced_chunkLines (c : Chunk T) (dropped : Nat) :
    announced (chunkLines c dropped) = dropped := by
  unfold chunkLines
  split
  · rfl
  · next h => rw [not_not.1 h]; rfl

theorem Inv.offer (h : Inv t base s) (direction : Text) {data : Bytes}
    (hsize : data.length ≤ t.queueMaxBytes) (hputting : s.putting = none)
    (hclosed : s.closed = false) : Inv t base (offer t s direction data) := by
  have hopen : ∀ {w}, s.writer = w → w ≠ .ended := by
    rintro w hw rfl
    have := (h.stopped_closed (by rw [stopped, hw])).1
    simp [hclosed] at this
  unfold TraceWriter.offer
  dsimp only
  split
  · next hw => exact absurd rfl (hopen hw)
  · split
    · -- nothing to trace
      next hdata =>
      subst hdata
      exact ⟨h.queued, h.queued_le, h.dropped, h.order, h.account, h.sentinel, h.put_done,
        h.stopped_closed, h.disk⟩
    · split
      · -- dropped: something waits that will announce it
        next hfull =>
        refine ⟨h.queued, h.queued_le, fun _ hnil => ?_, h.order, ?_, h.sentinel, h.put_done,
          h.stopped_closed, h.disk⟩
        · have hqueued := h.queued
          have hnil : waiting s = [] := hnil
          rw [hnil] at hqueued
          have hzero : s.queued = 0 := hqueued
          omega
        · have haccount := h.account
          show bytes (contents (lines s)) + announced (lines s) + (s.dropped + data.length) +
            bytes (waiting s) = s.offered + data.length
          omega
      · -- accepted
        next hroom =>
        have hwaiting : (ahead s).reduceOption.map Chunk.content ++ [(direction, data)] =
            waiting s ++ [(direction, data)] := by
          rw [waiting, hputting, Option.toList_none, List.append_nil]
        have hbytes : bytes (waiting s ++ [(direction, data)]) =
            bytes (waiting s) + data.length := by
          rw [bytes_append]
          rfl
        have hqueued := h.queued
        have haccount := h.account
        refine ⟨?_, ?_, fun _ => ?_, ?_, ?_, h.sentinel, fun hc => ?_, h.stopped_closed, h.disk⟩
        · show s.queued + data.length =
            bytes ((ahead s).reduceOption.map Chunk.content ++ [(direction, data)])
          rw [hwaiting, hbytes]
          omega
        · show s.queued + data.length ≤ t.queueMaxBytes
          omega
        · show (ahead s).reduceOption.map Chunk.content ++ [(direction, data)] ≠ []
          simp
        · show contents (lines s) ++
              ((ahead s).reduceOption.map Chunk.content ++ [(direction, data)]) =
            s.accepted ++ [(direction, data)]
          rw [hwaiting, ← List.append_assoc, h.order]
        · show bytes (contents (lines s)) + announced (lines s) + s.dropped +
              bytes ((ahead s).reduceOption.map Chunk.content ++ [(direction, data)]) =
            s.offered + data.length
          rw [hwaiting, hbytes]
          omega
        · exact absurd hc (by simp [hclosed])

theorem Inv.put (h : Inv t base s) (ts : T) {direction : Text} {data : Bytes}
    (hputting : s.putting = some (direction, data)) :
    Inv t base { s with q := s.q ++ [some ⟨ts, direction, data⟩], putting := none } := by
  have hclosed : s.closed = false := by
    by_contra hc
    have := h.put_done (by simpa using hc)
    simp [hputting] at this
  have hahead : ∀ w, ahead { s with q := s.q ++ [some ⟨ts, direction, data⟩], putting := w } =
      ahead s ++ [some ⟨ts, direction, data⟩] := fun w => (List.append_assoc ..).symm
  have hwaiting : waiting { s with q := s.q ++ [some ⟨ts, direction, data⟩], putting := none } =
      waiting s := by
    rw [waiting, waiting, hahead, hputting, List.reduceOption_append, List.map_append]
    simp [List.reduceOption_singleton, Chunk.content]
  -- the chunk moves from the caller's hands into the queue
  refine h.of_waiting rfl rfl rfl rfl hwaiting rfl ?_ (fun _ => rfl) (fun hs => ?_) h.disk
  · rw [hahead, List.reduceOption_append, List.map_append, ← h.open_sentinel hclosed,
      if_neg (by simp [hclosed]), List.append_nil, List.reduceOption_singleton]
    rfl
  · have := (h.stopped_closed hs).1
    simp [hclosed] at this

theorem Inv.aclose (h : Inv t base s) (hputting : s.putting = none) (hclosed : s.closed = false) :
    Inv t base { s with q := s.q ++ [none], closed := true } := by
  have hopen : stopped s = false := by
    by_contra hs
    have := (h.stopped_closed (by simpa using hs)).1
    simp [hclosed] at this
  have hahead : ahead { s with q := s.q ++ [none], closed := true } = ahead s ++ [none] :=
    (List.append_assoc ..).symm
  have hreduce : (ahead { s with q := s.q ++ [none], closed := true }).reduceOption =
      (ahead s).reduceOption := by
    rw [hahead, List.reduceOption_append]
    exact List.append_nil _
  have hwaiting : waiting { s with q := s.q ++ [none], closed := true } = waiting s := by
    rw [waiting, hreduce, waiting]
  refine h.of_waiting rfl rfl rfl rfl hwaiting rfl ?_ (fun _ => hputting) (fun hs => ?_) h.disk
  · rw [hreduce, hahead, ← h.open_sentinel hclosed, if_pos ⟨rfl, (Bool.not_eq_true _).mpr hopen⟩]
  · have hs : stopped s = true := hs
    simp [hopen] at hs

/-- The sentinel ends what is ahead. -/
theorem Inv.sentinel_last (h : Inv t base s) {rest : List (Option (Chunk T))}
    (hahead : ahead s = none :: rest) : s.closed = true ∧ rest = [] := by
  have hsentinel := h.sentinel
  rw [hahead, List.reduceOption_cons_of_none] at hsentinel
  cases hchunks : rest.reduceOption with
  | nil =>
    rw [hchunks] at hsentinel
    split at hsentinel
    · next hc => exact ⟨hc.1, (List.cons.inj hsentinel).2⟩
    · exact absurd hsentinel (List.cons_ne_nil _ _)
  | cons c chunks =>
    rw [hchunks] at hsentinel
    exact absurd (List.cons.inj hsentinel).1 (by simp)

theorem Inv.turn_stop (h : Inv t base s) {todo : List (Option (Chunk T))} {out : List (Line T)}
    {stop : Bool} (hwriter : s.writer = .formatting (none :: todo) out stop) :
    Inv t base { s with writer := .formatting todo out true } := by
  have hahead : ahead s = none :: (todo ++ s.q) := by
    rw [ahead, hwriter]
    rfl
  obtain ⟨hclosed, hrest⟩ := h.sentinel_last hahead
  have hahead' : ahead { s with writer := .formatting todo out true } = [] := hrest
  have hwaiting : waiting { s with writer := .formatting todo out true } = waiting s := by
    rw [waiting, waiting, hahead', hahead, hrest]
    rfl
  have hlines : lines { s with writer := .formatting todo out true } = lines s := by
    rw [lines, lines, hwriter]
  refine h.of_waiting rfl rfl rfl rfl hwaiting hlines ?_ h.put_done (fun _ => ⟨hclosed, hahead'⟩)
    h.disk
  rw [hahead', if_neg (by simp [stopped])]
  rfl

/-- A chunk gets its line, and what was dropped before it is announced. -/
theorem Inv.turn_chunk (h : Inv t base s) {c : Chunk T} {todo : List (Option (Chunk T))}
    {out : List (Line T)} {stop : Bool} (hwriter : s.writer = .formatting (some c :: todo) out stop) :
    Inv t base { s with
      queued := s.queued - c.data.length
      dropped := 0
      writer := .formatting todo (out ++ chunkLines c s.dropped) stop } := by
  have hahead : ahead s = some c :: (todo ++ s.q) := by
    rw [ahead, hwriter]
    rfl
  -- behind the sentinel nothing is ahead, and here a chunk is
  have hopen : stopped s = false := by
    by_contra hs
    have := (h.stopped_closed (by simpa using hs)).2
    rw [hahead] at this
    exact absurd this (List.cons_ne_nil _ _)
  have hstop : stop = false := by
    rw [stopped, hwriter] at hopen
    exact hopen
  subst hstop
  have hsentinel := h.sentinel
  rw [hahead, List.reduceOption_cons_of_some, List.map_cons, List.cons_append, hopen] at hsentinel
  have hqueued := h.queued
  have hle := h.queued_le
  have haccount := h.account
  have horder := h.order
  have hwaiting : waiting s =
      c.content :: ((todo ++ s.q).reduceOption.map Chunk.content ++ s.putting.toList) := by
    rw [waiting, hahead, List.reduceOption_cons_of_some]
    rfl
  rw [hwaiting] at hqueued haccount horder
  have hbytes : ∀ l, bytes (c.content :: l) = c.data.length + bytes l := fun l => rfl
  rw [hbytes] at hqueued haccount
  have hlines : s.batches.flatten ++ (out ++ chunkLines c s.dropped) =
      lines s ++ chunkLines c s.dropped := by
    rw [lines, hwriter, List.append_assoc]
  refine ⟨?_, ?_, fun h0 => absurd rfl h0, ?_, ?_, (List.cons.inj hsentinel).2, h.put_done,
    fun hs => absurd hs (by simp [stopped]), h.disk⟩
  · show s.queued - c.data.length =
      bytes ((todo ++ s.q).reduceOption.map Chunk.content ++ s.putting.toList)
    omega
  · show s.queued - c.data.length ≤ t.queueMaxBytes
    omega
  · show contents (s.batches.flatten ++ (out ++ chunkLines c s.dropped)) ++
        ((todo ++ s.q).reduceOption.map Chunk.content ++ s.putting.toList) = s.accepted
    rw [hlines, contents_append, contents_chunkLines, List.append_assoc]
    exact horder
  · show bytes (contents (s.batches.flatten ++ (out ++ chunkLines c s.dropped))) +
        announced (s.batches.flatten ++ (out ++ chunkLines c s.dropped)) + 0 +
        bytes ((todo ++ s.q).reduceOption.map Chunk.content ++ s.putting.toList) = s.offered
    rw [hlines, contents_append, contents_chunkLines, announced_append, announced_chunkLines,
      bytes_append, hbytes]
    have hnil : bytes [] = 0 := rfl
    omega

/-- The batch is through: its lines are in the files. -/
theorem Inv.finish (h : Inv t base s) {out : List (Line T)} {stop : Bool}
    (hwriter : s.writer = .formatting [] out stop) :
    Inv t base (if out = [] then { s with writer := if stop then .ended else .filling [] }
      else { s with
        writer := if stop then .ended else .filling []
        disk := append t.toTraceFile s.disk (out.map (lineBytes t))
        batches := s.batches ++ [out] }) := by
  -- the batch is empty, so nothing is ahead of what waits
  have hahead : ahead { s with writer := if stop then .ended else .filling [] } = ahead s := by
    rw [ahead, ahead, hwriter]
    cases stop <;> rfl
  have hstopped : stopped { s with writer := if stop then .ended else .filling [] } = stopped s := by
    rw [stopped, stopped, hwriter]
    cases stop <;> rfl
  split
  -- a batch with no line is not written
  · next hout =>
    refine h.move hahead ?_ hstopped h.disk
    rw [lines, lines, hwriter, hout]
    cases stop <;> rfl
  · refine h.move hahead ?_ hstopped ?_
    · rw [lines, lines, hwriter, List.flatten_append, List.flatten_singleton]
      cases stop <;> exact List.append_nil _
    · rw [List.map_append, List.map_singleton, appendAll_concat, ← h.disk]

theorem inv_init (t : Tracer T) (base : Disk) : Inv t base (init t base) :=
  ⟨rfl, Int.natCast_nonneg _, fun h => absurd rfl h, rfl, rfl, rfl, fun _ => rfl,
    fun h => absurd h (by simp [stopped, init]), rfl⟩

/-- One event keeps the invariant. -/
theorem inv_step (h : Inv t base s) {e : Event T} (hsize : e.size ≤ t.queueMaxBytes)
    (hstep : step t s e = some s') : Inv t base s' := by
  cases step_cases hstep with
  | offer hputting hclosed => exact h.offer _ hsize hputting hclosed
  | put hputting => exact h.put _ hputting
  | aclose hputting hclosed => exact h.aclose hputting hclosed
  | take hwriter hq =>
    refine h.move ?_ ?_ ?_ h.disk
    · rw [ahead, ahead, hwriter, hq]
      exact List.append_assoc ..
    · rw [lines, lines, hwriter]
    · rw [stopped, stopped, hwriter]
  | go hwriter hbatch =>
    refine h.move ?_ ?_ ?_ h.disk
    · rw [ahead, ahead, hwriter]
    · rw [lines, lines, hwriter]
    · rw [stopped, stopped, hwriter]
  | stop hwriter => exact h.turn_stop hwriter
  | chunk hwriter => exact h.turn_chunk hwriter
  | finish hwriter => exact h.finish hwriter

/-! ### The writer gets through -/

/-- How many events the writer needs at most. -/
def work (s : State T) : Nat :=
  4 * s.q.length +
    match s.writer with
    | .filling batch => 3 * batch.length
    | .formatting todo _ _ => todo.length + 1
    | .ended => 0

/-- Every event of the writer is work done, and leaves the trace closed. -/
theorem work_lt {e : Event T} (he : e.isWriter = true) (hstep : step t s e = some s') :
    work s' < work s ∧ s'.closed = s.closed := by
  cases step_cases hstep with
  | offer hputting hclosed => cases he
  | put hputting => cases he
  | aclose hputting hclosed => cases he
  | take hwriter hq =>
    refine ⟨?_, rfl⟩
    simp only [work, hwriter, hq, List.length_cons, List.length_append, List.length_nil]
    omega
  | go hwriter hbatch =>
    refine ⟨?_, rfl⟩
    have hpos := List.length_pos_of_ne_nil hbatch
    simp only [work, hwriter]
    omega
  | stop hwriter =>
    refine ⟨?_, rfl⟩
    simp only [work, hwriter, List.length_cons]
    omega
  | chunk hwriter =>
    refine ⟨?_, rfl⟩
    simp only [work, hwriter, List.length_cons]
    omega
  | @finish out stop hwriter =>
    -- the last line of a batch: the writer goes on filling, or ends
    have hwork : ∀ d b, work { s with
        writer := if stop then .ended else .filling [], disk := d, batches := b } < work s := by
      intro d b
      cases stop <;> simp [work, hwriter]
    split
    · exact ⟨hwork s.disk s.batches, rfl⟩
    · exact ⟨hwork _ _, rfl⟩

/-- While the trace is being closed, a writer that has not ended can go on. -/
theorem Inv.goes_on (h : Inv t base s) (hclosed : s.closed = true) (hwriter : s.writer ≠ .ended) :
    ∃ e : Event T, e.isWriter = true ∧ (step t s e).isSome = true := by
  cases hw : s.writer with
  | ended => exact absurd hw hwriter
  | filling batch =>
    cases hq : s.q with
    | nil =>
      -- the sentinel is in the batch
      have hbatch : batch ≠ [] := by
        rintro rfl
        have hsentinel := h.sentinel
        simp [ahead, stopped, hw, hq, hclosed] at hsentinel
      exact ⟨.go, rfl, by simp [step, hw, hq, hbatch]⟩
    | cons x q =>
      by_cases hroom : batch = [] ∨ batch.length < t.batch
      · exact ⟨.take, rfl, by simp [step, hw, hq, hroom]⟩
      · rw [not_or, not_lt] at hroom
        exact ⟨.go, rfl, by simp [step, hw, hroom]⟩
  | formatting todo out stop =>
    cases todo with
    | nil => exact ⟨.finish, rfl, by simp [step, hw]⟩
    | cons x todo =>
      refine ⟨.turn, rfl, ?_⟩
      cases x <;> simp [step, hw]

/-- Once the trace is being closed, the writer's own events end it. -/
theorem inv_finishes (h : Inv t base s) (hclosed : s.closed = true) :
    ∃ es s', (∀ e ∈ es, e.isWriter = true) ∧ run (step t) s es = some s' ∧ s'.writer = .ended := by
  induction hn : work s using Nat.strong_induction_on generalizing s with
  | h n ih =>
    by_cases hwriter : s.writer = .ended
    · exact ⟨[], s, fun e he => absurd he List.not_mem_nil, rfl, hwriter⟩
    · obtain ⟨e, he, hsome⟩ := h.goes_on hclosed hwriter
      obtain ⟨s₁, hstep⟩ := Option.isSome_iff_exists.1 hsome
      have hsize : e.size ≤ t.queueMaxBytes := by
        cases e with
        | offer direction data => cases he
        | _ => exact Nat.zero_le _
      obtain ⟨hwork, hclosed₁⟩ := work_lt he hstep
      obtain ⟨es, s', hes, hrun, hended⟩ :=
        ih (work s₁) (hn ▸ hwork) (inv_step h hsize hstep) (hclosed₁.trans hclosed) rfl
      refine ⟨e :: es, s', fun e' he' => ?_, ?_, hended⟩
      · rcases List.mem_cons.1 he' with rfl | he'
        · exact he
        · exact hes e' he'
      · rw [run_cons, hstep]
        exact hrun

/-! ### A whole run -/

theorem step_offered {e : Event T} (hstep : step t s e = some s') :
    s'.offered = s.offered + e.size := by
  cases step_cases hstep with
  | offer hputting hclosed =>
    unfold offer
    dsimp only
    split
    · rfl
    · split
      · rfl
      · split <;> rfl
  | finish hwriter => split <;> rfl
  | _ => rfl

/-- The bytes offered are those of the events. -/
theorem run_offered {es : List (Event T)} (hrun : run (step t) s es = some s') :
    s'.offered = s.offered + (es.map Event.size).sum := by
  induction es generalizing s with
  | nil =>
    rw [run_nil, Option.some.injEq] at hrun
    rw [← hrun]
    rfl
  | cons e es ih =>
    rw [run_cons, Option.bind_eq_some_iff] at hrun
    obtain ⟨s₁, hstep, hrest⟩ := hrun
    rw [ih hrest, step_offered hstep, List.map_cons, List.sum_cons, Nat.add_assoc]

/-- The chunk of a `write`. -/
def Event.chunk? : Event T → Option (Text × Bytes)
  | .offer direction data => some (direction, data)
  | _ => none

/-- An event accepts nothing but the chunk it offers. -/
theorem step_accepted {e : Event T} (hstep : step t s e = some s') :
    s'.accepted = s.accepted ∨ ∃ c, e.chunk? = some c ∧ s'.accepted = s.accepted ++ [c] := by
  cases step_cases hstep with
  | @offer direction data hputting hclosed =>
    unfold offer
    dsimp only
    split
    · exact .inl rfl
    · split
      · exact .inl rfl
      · split
        · exact .inl rfl
        · exact .inr ⟨_, rfl, rfl⟩
  | finish hwriter =>
    left
    split <;> rfl
  | _ => exact .inl rfl

/-- The chunks accepted are some of those offered, in their order. -/
theorem run_accepted {es : List (Event T)} (hrun : run (step t) s es = some s') :
    ∃ l, l.Sublist (es.filterMap Event.chunk?) ∧ s'.accepted = s.accepted ++ l := by
  induction es generalizing s with
  | nil =>
    rw [run_nil, Option.some.injEq] at hrun
    exact ⟨[], List.Sublist.refl _, by rw [← hrun, List.append_nil]⟩
  | cons e es ih =>
    rw [run_cons, Option.bind_eq_some_iff] at hrun
    obtain ⟨s₁, hstep, hrest⟩ := hrun
    obtain ⟨l, hl, haccepted⟩ := ih hrest
    have hskip : (es.filterMap Event.chunk?).Sublist ((e :: es).filterMap Event.chunk?) :=
      (List.sublist_cons_self e es).filterMap _
    rcases step_accepted hstep with hsame | ⟨c, hc, hmore⟩
    · exact ⟨l, hl.trans hskip, by rw [haccepted, hsame]⟩
    · refine ⟨c :: l, ?_, by rw [haccepted, hmore, List.append_assoc, List.singleton_append]⟩
      rw [List.filterMap_cons_some hc]
      exact hl.cons_cons c

/-- **The accounts of a trace.**  In every state that a run reaches the bytes that wait are
    within their bound, and once the trace is being closed the writer gets through by itself.
    When it is through, the bytes in the files are those of lines: the accepted chunks, each
    once and in order, some of those offered, and notices of missing bytes; and the bytes of
    these chunks and the bytes announced as missing are together the bytes offered. -/
theorem accounted (t : Tracer T) (base : Disk) {es : List (Event T)} {s : State T}
    (hsize : ∀ e ∈ es, e.size ≤ t.queueMaxBytes) (hrun : run (step t) (init t base) es = some s) :
    (0 ≤ s.queued ∧ s.queued ≤ t.queueMaxBytes) ∧
      (s.closed = true → ∃ ws s', (∀ e ∈ ws, e.isWriter = true) ∧
        run (step t) s ws = some s' ∧ s'.writer = .ended) ∧
      (s.writer = .ended → ∃ lines texts,
        InFiles t.toTraceFile base texts s.disk ∧ List.Forall₂ (Shows t) lines texts ∧
          contents lines = s.accepted ∧ s.accepted.Sublist (es.filterMap Event.chunk?) ∧
          bytes (contents lines) + announced lines = (es.map Event.size).sum) := by
  have h : Inv t base s := run_invariant (Inv t base) (fun _ _ _ h hsize => inv_step h hsize)
    (inv_init t base) (along_of_forall (fun e he _ => hsize e he) _) hrun
  refine ⟨⟨?_, h.queued_le⟩, inv_finishes h, fun hended => ?_⟩
  · rw [h.queued]
    exact Int.natCast_nonneg _
  · -- a writer that has ended has left nothing behind: no chunk waits, no line is unwritten
    have hstopped : stopped s = true := by rw [stopped, hended]
    obtain ⟨hclosed, hahead⟩ := h.stopped_closed hstopped
    have hwaiting : waiting s = [] := by
      rw [waiting, hahead, h.put_done hclosed]
      rfl
    have hlines : lines s = s.batches.flatten := by
      rw [lines, hended]
      exact List.append_nil _
    -- bytes dropped since would be announced by a chunk that waits
    have hdropped : s.dropped = 0 := by
      by_contra hne
      exact h.dropped hne hwaiting
    have horder := h.order
    have haccount := h.account
    rw [hlines, hwaiting] at horder haccount
    -- the batches, line by line, are what is in the files
    have hfiles := inFiles_appendAll t.toTraceFile base (s.batches.map (List.map (lineBytes t)))
    rw [← h.disk, ← List.map_flatten] at hfiles
    refine ⟨s.batches.flatten, _, hfiles, ?_, (List.append_nil _).symm.trans horder, ?_, ?_⟩
    · rw [List.forall₂_map_right_iff, List.forall₂_same]
      exact fun line _ => shows_lineBytes t line
    · obtain ⟨l, hl, haccepted⟩ := run_accepted hrun
      rw [haccepted]
      exact hl
    · have hoffered : s.offered = 0 + (es.map Event.size).sum := run_offered hrun
      have hnil : bytes [] = 0 := rfl
      omega

/-- A tracer whose queue holds three bytes. -/
def smallTracer : Tracer Nat :=
  { path := ['t'], maxBytes := 100, keep := 1, hex := false, ts := false, strftime := fun _ => []
    queueMaxBytes := 3, batch := 2 }

/-- A run with a second chunk for which there is no room. -/
def smallRun : List (Event Nat) :=
  [.offer ['o'] [1, 2], .put 7, .offer ['o'] [3, 4], .aclose, .take, .take, .go, .turn, .turn, .finish]

/-- Over a file with a byte in it two bytes are written, and two are announced as missing. -/
theorem accounted_small :
    ∃ s, run (step smallTracer) (init smallTracer fun _ => some [9]) smallRun = some s ∧
      ∃ lines texts,
        InFiles smallTracer.toTraceFile (fun _ => some [9]) texts s.disk ∧
          List.Forall₂ (Shows smallTracer) lines texts ∧
          contents lines = [(['o'], [1, 2])] ∧ announced lines = 2 := by
  have hended : (run (step smallTracer) (init smallTracer fun _ => some [9]) smallRun).map
    State.writer = some .ended := rfl
  have haccepted : (run (step smallTracer) (init smallTracer fun _ => some [9]) smallRun).map
    State.accepted = some [(['o'], [1, 2])] := rfl
  obtain ⟨s, hrun⟩ : ∃ s, run (step smallTracer) (init smallTracer fun _ => some [9]) smallRun =
    some s := ⟨_, rfl⟩
  rw [hrun, Option.map_some, Option.some.injEq] at hended haccepted
  obtain ⟨lines, texts, hfiles, hshows, hcontents, -, hsum⟩ :=
    (accounted smallTracer (fun _ => some [9]) (by decide) hrun).2.2 hended
  rw [haccepted] at hcontents
  rw [hcontents] at hsum
  have htwo : 2 + announced lines = 4 := hsum
  exact ⟨s, hrun, lines, texts, hfiles, hshows, hcontents, by omega⟩

end Ser2Net.Engine.TraceWriter
