import Ser2Net.Engine.Modbus
import Ser2Net.Lib.Trace

namespace Ser2Net.Engine.ModbusBus

open Ser2Net.Lib Ser2Net.Engine.Modbus

/-!
# Engine — transactions on the RTU bus (`ModbusGatewayRunner._transaction`)

The bus has one master at a time: a request of a TCP master, of the poll loop or of an MQTT
write takes the bus lock, discards what is left on the line, writes its RTU frame, and reads
until the line is silent.  The slaves answer when they like, and the bytes of an answer
arrive in any pieces: in time, or after the gateway has given the request up.

* `State`, `step` — the lock holder's phase, the reader's buffer, and the answers on their way;
* `conclude` — what `_transaction` makes of the bytes it has read;
* `InTurn` — the flush empties the buffer; while a request waits for its answer, only that
  answer's bytes arrive, and the read does not end inside it with bytes that are a frame by
  themselves;
* `transaction_returns_own_answer` — in the runs that meet it, every PDU that is returned is
  the slave's answer to that very request, or the gateway exception;
* `late_answer_returned` — a late answer that is returned for the next request.

RTU frames carry no transaction number, and the flush before a request cannot discard what
arrives after it.  Both the flush and the read end at a timer: it may run out when there are
bytes in the reader's buffer that no read has returned yet.
-/

/-- `READ_CHUNK`. -/
def readChunk : Nat := 512

/-- The arguments of a `_transaction`. -/
structure Request where
  unit : Nat
  pdu : Bytes
  deriving DecidableEq, Repr

/-- The exception PDU for a request that got no answer. -/
def Request.failed (q : Request) : Bytes := exceptionPdu (q.pdu.headD 0) gatewayTargetFailed

/-- The end of `_transaction`: `none` is a read that failed, `some` the bytes up to the
    silence. -/
def conclude (q : Request) (rtuResp : Option Bytes) : Bytes :=
  match rtuResp.bind rtuUnwrap with
  | none => q.failed
  | some (runit, rpdu) => if runit ≠ q.unit then q.failed else rpdu

/-- Where the holder of the bus lock is. -/
inductive Phase
  /-- Waiting for the serial device. -/
  | opening
  /-- Discarding stale bytes. -/
  | flushing
  /-- The request is written, no byte has been read. -/
  | awaiting
  /-- Bytes have been read, the line is not silent yet. -/
  | reading (buf : Bytes)
  deriving DecidableEq, Repr

/-- A slave's answer: its PDU, and the bytes of its frame that have not arrived. -/
structure Reply where
  pdu : Bytes
  left : Bytes
  deriving DecidableEq, Repr

/-- The bus: the transactions that got it, in order, with the requests that were written and
    the answers to them; the holder of the lock; the reader's buffer; what was returned. -/
structure State where
  requests : List Request
  sent : List Nat
  replies : Nat → Option Reply
  current : Option (Nat × Phase)
  rx : Bytes
  results : List (Nat × Bytes)

/-- The gateway has started. -/
def State.init : State := ⟨[], [], fun _ => none, none, [], []⟩

/-- What can happen next. -/
inductive Event
  /-- A task gets the bus lock. -/
  | acquire (q : Request)
  /-- The serial device is there. -/
  | opened
  /-- Stale bytes are read and discarded. -/
  | discard
  /-- The flush times out, and the request is written. -/
  | flushed
  /-- Bytes are read. -/
  | read
  /-- The read behind the first bytes times out. -/
  | gap
  /-- No device, no answer in time, or an I/O error. -/
  | fail
  /-- The task is cancelled. -/
  | cancel
  /-- The slave addressed by a written request answers it. -/
  | reply (i : Nat) (pdu : Bytes)
  /-- The next bytes of an answer arrive. -/
  | arrive (i n : Nat)

/-- The transaction ends: the lock is released. -/
def State.finish (s : State) (i : Nat) (pdu : Bytes) : State :=
  { s with current := none, results := s.results ++ [(i, pdu)] }

/-- The line's record of the answer to a request. -/
def State.setReply (s : State) (i : Nat) (r : Reply) : State :=
  { s with replies := Function.update s.replies i (some r) }

/-- The holder of the lock moves on. -/
def State.enter (s : State) (i : Nat) (p : Phase) : State := { s with current := some (i, p) }

/-- One step of the gateway, of a slave or of the line. -/
def step (s : State) : Event → Option State
  | .acquire q =>
    if s.current = none then
      some { s with requests := s.requests ++ [q], current := some (s.requests.length, .opening) }
    else none
  | .opened =>
    match s.current with
    | some (i, .opening) => some (s.enter i .flushing)
    | _ => none
  | .discard =>
    match s.current with
    | some (_, .flushing) => some { s with rx := s.rx.drop readChunk }
    | _ => none
  | .flushed =>
    match s.current with
    | some (i, .flushing) => some { s.enter i .awaiting with sent := i :: s.sent }
    | _ => none
  | .read =>
    match s.current with
    | some (i, .awaiting) =>
      if s.rx = [] then none
      else some { s.enter i (.reading (s.rx.take readChunk)) with rx := s.rx.drop readChunk }
    | some (i, .reading buf) =>
      if s.rx = [] then none
      else some { s.enter i (.reading (buf ++ s.rx.take readChunk)) with rx := s.rx.drop readChunk }
    | _ => none
  | .gap =>
    match s.current with
    | some (i, .reading buf) =>
      (s.requests[i]?).map fun q => s.finish i (conclude q (some buf))
    | _ => none
  | .fail =>
    match s.current with
    | some (i, _) => (s.requests[i]?).map fun q => s.finish i (conclude q none)
    | none => none
  | .cancel =>
    match s.current with
    | some _ => some { s with current := none }
    | none => none
  | .reply i pdu =>
    if i ∈ s.sent ∧ s.replies i = none ∧ pdu ≠ [] then
      (s.requests[i]?).map fun q => s.setReply i ⟨pdu, rtuWrap q.unit pdu⟩
    else none
  | .arrive i n =>
    (s.replies i).map fun r =>
      { s.setReply i { r with left := r.left.drop n } with rx := s.rx ++ r.left.take n }

/-- The request waits for its answer: it has been written and the read has not ended. -/
def Phase.waits : Phase → Bool
  | .awaiting | .reading _ => true
  | _ => false

/-- The condition on a step: a flush ends with an empty buffer, bytes that arrive while a request
    waits for its answer are of that answer, and a read ends with an empty buffer behind the
    whole answer, or with bytes that are no frame. -/
def InTurn (s : State) : Event → Prop
  | .flushed => s.rx = []
  | .arrive i _ => ∀ j p, s.current = some (j, p) → p.waits = true → i = j
  | .gap => ∀ j buf, s.current = some (j, .reading buf) →
      (s.rx = [] ∧ ∀ r, s.replies j = some r → r.left = []) ∨ rtuUnwrap buf = none
  | _ => True

/-! ### The invariant -/

/-- The bytes `bs` are what has arrived of the answer `r` to the request `q`. -/
def Delivered (q : Option Request) (r : Option Reply) (bs : Bytes) : Prop :=
  match r with
  | none => bs = []
  | some r => ∃ q', q = some q' ∧ r.pdu ≠ [] ∧ rtuWrap q'.unit r.pdu = bs ++ r.left

/-- What is known of the holder of the lock: before its request is written nobody answers it,
    and after that the reader holds what has arrived of its answer. -/
def HolderOk (s : State) (j : Nat) : Phase → Prop
  | .opening | .flushing => j ∉ s.sent
  | .awaiting => Delivered s.requests[j]? (s.replies j) s.rx
  | .reading buf => Delivered s.requests[j]? (s.replies j) (buf ++ s.rx)

/-- Every PDU returned is the answer to that very request, or the gateway exception. -/
def ResultsOk (s : State) : Prop :=
  ∀ i pdu, (i, pdu) ∈ s.results → ∃ q, s.requests[i]? = some q ∧
    (pdu = q.failed ∨ ∃ r, s.replies i = some r ∧ r.pdu = pdu)

/-- The invariant. -/
structure Inv (s : State) : Prop where
  sent : ∀ i ∈ s.sent, i < s.requests.length
  replies : ∀ i r, s.replies i = some r → i ∈ s.sent
  current : ∀ j p, s.current = some (j, p) → j < s.requests.length
  holder : ∀ j p, s.current = some (j, p) → HolderOk s j p
  results : ResultsOk s

/-- Before the first request. -/
theorem inv_init : Inv State.init where
  sent := fun _ hi => absurd hi List.not_mem_nil
  replies := fun _ _ h => nomatch h
  current := fun _ _ h => nomatch h
  holder := fun _ _ h => nomatch h
  results := fun _ _ h => absurd h List.not_mem_nil

/-- The record of one answer changes: the others are as before. -/
theorem setReply_replies (s : State) (i : Nat) (r : Reply) (k : Nat) :
    (s.setReply i r).replies k = if k = i then some r else s.replies k :=
  Function.update_apply s.replies i (some r) k

/-- Later transactions do not change what was returned. -/
theorem resultsOk_mono {s s' : State} (hres : s'.results = s.results)
    (hreq : ∀ (i : Nat) q, s.requests[i]? = some q → s'.requests[i]? = some q)
    (hrep : ∀ i r, s.replies i = some r → ∃ r', s'.replies i = some r' ∧ r'.pdu = r.pdu)
    (h : ResultsOk s) : ResultsOk s' := by
  intro i pdu hmem
  rw [hres] at hmem
  obtain ⟨q, hq, hpdu⟩ := h i pdu hmem
  refine ⟨q, hreq i q hq, ?_⟩
  rcases hpdu with hfail | ⟨r, hr, rfl⟩
  · exact Or.inl hfail
  · exact Or.inr (hrep i r hr)

/-- The whole answer unwraps to the slave's PDU; the bytes of no frame give the exception. -/
theorem conclude_delivered {q : Request} {r : Option Reply} {buf : Bytes}
    {rx : Bytes} (hdel : Delivered (some q) r (buf ++ rx))
    (hwhole : (rx = [] ∧ ∀ r', r = some r' → r'.left = []) ∨ rtuUnwrap buf = none) :
    conclude q (some buf) = q.failed ∨ ∃ r', r = some r' ∧ r'.pdu = conclude q (some buf) := by
  by_cases hbad : rtuUnwrap buf = none
  · left
    simp only [conclude, Option.bind_some, hbad]
  · obtain ⟨rfl, hleft⟩ := hwhole.resolve_right hbad
    rw [List.append_nil] at hdel
    cases r with
    | none =>
      -- nothing has arrived, and nothing is no frame
      have hnil : buf = [] := hdel
      exact absurd (by rw [hnil]; rfl) hbad
    | some r =>
      obtain ⟨q', hq', hne, hframe⟩ := hdel
      obtain rfl := Option.some.inj hq'
      rw [hleft r rfl, List.append_nil] at hframe
      have hunwrap : rtuUnwrap buf = some (q.unit % 256, r.pdu) := by
        rw [← hframe, rtuUnwrap_rtuWrap q.unit hne]
      by_cases hunit : q.unit % 256 ≠ q.unit
      · left
        simp only [conclude, Option.bind_some, hunwrap]
        rw [if_pos hunit]
      · refine Or.inr ⟨r, rfl, ?_⟩
        simp only [conclude, Option.bind_some, hunwrap]
        rw [if_neg hunit]

/-! ### Steps -/

/-- A transaction that ends keeps the invariant if what it returns is right. -/
theorem inv_finish {s : State} {i : Nat} {q : Request} {pdu : Bytes} (h : Inv s)
    (hq : s.requests[i]? = some q)
    (hpdu : pdu = q.failed ∨ ∃ r, s.replies i = some r ∧ r.pdu = pdu) : Inv (s.finish i pdu) where
  sent := h.sent
  replies := h.replies
  current := fun _ _ hcur => nomatch hcur
  holder := fun _ _ hcur => nomatch hcur
  results := by
    intro k out hmem
    rcases List.mem_append.1 hmem with hmem | hmem
    · exact h.results k out hmem
    · obtain ⟨rfl, rfl⟩ := Prod.mk.inj (List.mem_singleton.1 hmem)
      exact ⟨q, hq, hpdu⟩

/-- The holder of the lock reads, or moves to another phase. -/
theorem inv_enter {s : State} {i : Nat} {p p' : Phase} {rx : Bytes} (h : Inv s)
    (hcur : s.current = some (i, p))
    (hok : HolderOk { s.enter i p' with rx := rx } i p') :
    Inv { s.enter i p' with rx := rx } where
  sent := h.sent
  replies := h.replies
  current := by
    intro j q hj
    obtain ⟨rfl, rfl⟩ := Prod.mk.inj (Option.some.inj hj)
    exact h.current i p hcur
  holder := by
    intro j q hj
    obtain ⟨rfl, rfl⟩ := Prod.mk.inj (Option.some.inj hj)
    exact hok
  results := h.results

/-- A request gets the bus. -/
theorem inv_acquire {s s' : State} {q : Request} (h : Inv s)
    (hstep : step s (.acquire q) = some s') : Inv s' := by
  simp only [step] at hstep
  split at hstep
  · cases hstep
    have hlen : (s.requests ++ [q]).length = s.requests.length + 1 := List.length_append
    refine ⟨?_, h.replies, ?_, ?_, ?_⟩
    · intro i hi
      have hlt := h.sent i hi
      show i < (s.requests ++ [q]).length
      omega
    · intro j p hcur
      obtain ⟨rfl, rfl⟩ := Prod.mk.inj (Option.some.inj hcur)
      show s.requests.length < (s.requests ++ [q]).length
      omega
    · intro j p hcur
      obtain ⟨rfl, rfl⟩ := Prod.mk.inj (Option.some.inj hcur)
      -- a request that did not exist has not been written
      show s.requests.length ∉ s.sent
      exact fun hi => absurd (h.sent _ hi) (lt_irrefl _)
    · refine resultsOk_mono (s := s) rfl (fun i q' hq => ?_) (fun i r hr => ⟨r, hr, rfl⟩) h.results
      show (s.requests ++ [q])[i]? = some q'
      rw [List.getElem?_append_left (List.getElem?_eq_some_iff.1 hq).1]
      exact hq
  · cases hstep

/-- The flush has left nothing, and a request that has just been written has no answer yet: its
    holder starts with nothing delivered. -/
theorem inv_flushed {s s' : State} (h : Inv s) (hturn : InTurn s .flushed)
    (hstep : step s .flushed = some s') : Inv s' := by
  have hrx : s.rx = [] := hturn
  simp only [step] at hstep
  split at hstep
  · next i hcur =>
    cases hstep
    -- the request at the wheel has not been sent, so no answer to it can be under way
    have hnot : i ∉ s.sent := h.holder i .flushing hcur
    have hnone : s.replies i = none :=
      Option.eq_none_iff_forall_ne_some.2 fun r hr => hnot (h.replies i r hr)
    refine ⟨?_, ?_, ?_, ?_, h.results⟩
    · intro k hk
      rcases List.mem_cons.1 hk with rfl | hk
      · exact h.current k .flushing hcur
      · exact h.sent k hk
    · intro k r hr
      exact List.mem_cons_of_mem i (h.replies k r hr)
    · intro j p hcur'
      obtain ⟨rfl, rfl⟩ := Prod.mk.inj (Option.some.inj hcur')
      exact h.current i .flushing hcur
    · intro j p hcur'
      obtain ⟨rfl, rfl⟩ := Prod.mk.inj (Option.some.inj hcur')
      show Delivered s.requests[i]? (s.replies i) s.rx
      rw [hnone]
      exact hrx
  · cases hstep

/-- A read takes what has arrived. -/
theorem inv_read {s s' : State} (h : Inv s) (hstep : step s .read = some s') : Inv s' := by
  simp only [step] at hstep
  split at hstep
  · next i hcur =>
    split at hstep
    · cases hstep
    · cases hstep
      refine inv_enter h hcur ?_
      show Delivered s.requests[i]? (s.replies i) (s.rx.take readChunk ++ s.rx.drop readChunk)
      rw [List.take_append_drop]
      exact h.holder i .awaiting hcur
  · next i buf hcur =>
    split at hstep
    · cases hstep
    · cases hstep
      refine inv_enter h hcur ?_
      show Delivered s.requests[i]? (s.replies i)
        (buf ++ s.rx.take readChunk ++ s.rx.drop readChunk)
      rw [List.append_assoc, List.take_append_drop]
      exact h.holder i (.reading buf) hcur
  · cases hstep

/-- The read returns what has been delivered, or the exception. -/
theorem inv_gap {s s' : State} (h : Inv s) (hturn : InTurn s .gap)
    (hstep : step s .gap = some s') : Inv s' := by
  simp only [step] at hstep
  split at hstep
  · next i buf hcur =>
    obtain ⟨q, hq, rfl⟩ := Option.map_eq_some_iff.1 hstep
    have hdel : Delivered s.requests[i]? (s.replies i) (buf ++ s.rx) :=
      h.holder i (.reading buf) hcur
    rw [hq] at hdel
    exact inv_finish h hq (conclude_delivered hdel (hturn i buf hcur))
  · cases hstep

/-- The slave answers. -/
theorem inv_reply {s s' : State} {i : Nat} {pdu : Bytes} (h : Inv s)
    (hstep : step s (.reply i pdu) = some s') : Inv s' := by
  simp only [step] at hstep
  split at hstep
  · next hcond =>
    obtain ⟨hsent, hnone, hne⟩ := hcond
    obtain ⟨q, hq, rfl⟩ := Option.map_eq_some_iff.1 hstep
    refine ⟨h.sent, ?_, h.current, ?_, ?_⟩
    · intro k r hr
      rw [setReply_replies] at hr
      split at hr
      · next hk => exact hk ▸ hsent
      · exact h.replies k r hr
    · intro j p hcur
      have hok := h.holder j p hcur
      -- none of the new answer has arrived
      have hdel : ∀ bs, Delivered s.requests[j]? (s.replies j) bs →
          Delivered s.requests[j]? ((s.setReply i ⟨pdu, rtuWrap q.unit pdu⟩).replies j) bs := by
        intro bs hbs
        rw [setReply_replies]
        split
        · next hj =>
          subst hj
          rw [hnone] at hbs
          have hnil : bs = [] := hbs
          exact ⟨q, hq, hne, by rw [hnil, List.nil_append]⟩
        · exact hbs
      cases p with
      | opening => exact hok
      | flushing => exact hok
      | awaiting => exact hdel s.rx hok
      | reading buf => exact hdel (buf ++ s.rx) hok
    · refine resultsOk_mono (s := s) rfl (fun k q' hq' => hq') (fun k r hr => ?_) h.results
      rw [setReply_replies]
      split
      · next hk =>
        rw [hk, hnone] at hr
        cases hr
      · exact ⟨r, hr, rfl⟩
  · cases hstep

/-- Bytes of the answer arrive in their turn. -/
theorem inv_arrive {s s' : State} {i n : Nat} (h : Inv s) (hturn : InTurn s (.arrive i n))
    (hstep : step s (.arrive i n) = some s') : Inv s' := by
  simp only [step] at hstep
  obtain ⟨r, hr, rfl⟩ := Option.map_eq_some_iff.1 hstep
  refine ⟨h.sent, ?_, h.current, ?_, ?_⟩
  · intro k r' hr'
    have hr' : (s.setReply i { r with left := r.left.drop n }).replies k = some r' := hr'
    rw [setReply_replies] at hr'
    split at hr'
    · next hk => exact hk ▸ h.replies i r hr
    · exact h.replies k r' hr'
  · intro j p hcur
    have hok := h.holder j p hcur
    -- the bytes go from the rest of the answer to the end of the reader's buffer
    have hdel : ∀ bs, i = j → Delivered s.requests[j]? (s.replies j) (bs ++ s.rx) →
        Delivered s.requests[j]? ((s.setReply i { r with left := r.left.drop n }).replies j)
          (bs ++ (s.rx ++ r.left.take n)) := by
      rintro bs rfl hbs
      rw [hr] at hbs
      obtain ⟨q, hq, hne, hframe⟩ := hbs
      rw [setReply_replies, if_pos rfl]
      refine ⟨q, hq, hne, ?_⟩
      rw [hframe, List.append_assoc, List.append_assoc, List.append_assoc, List.take_append_drop]
    cases p with
    | opening => exact hok
    | flushing => exact hok
    | awaiting => exact hdel [] (hturn j .awaiting hcur rfl) hok
    | reading buf => exact hdel buf (hturn j (.reading buf) hcur rfl) hok
  · refine resultsOk_mono (s := s) rfl (fun k q' hq' => hq') (fun k r' hr' => ?_) h.results
    show ∃ r'', (s.setReply i { r with left := r.left.drop n }).replies k = some r'' ∧ _
    rw [setReply_replies]
    split
    · next hk =>
      subst hk
      obtain rfl : r = r' := Option.some.inj (hr.symm.trans hr')
      exact ⟨_, rfl, rfl⟩
    · exact ⟨r', hr', rfl⟩

/-- **Step lemma.**  Every step that meets `InTurn` keeps the invariant. -/
theorem inv_step (s : State) (e : Event) (s' : State) (h : Inv s) (hturn : InTurn s e)
    (hstep : step s e = some s') : Inv s' := by
  cases e with
  | acquire q => exact inv_acquire h hstep
  | opened =>
    simp only [step] at hstep
    split at hstep
    · next i hcur =>
      cases hstep
      exact inv_enter h hcur (h.holder i .opening hcur)
    · cases hstep
  -- dropping what came late changes nothing that the invariant speaks of
  | discard =>
    simp only [step] at hstep
    split at hstep
    · next i hcur =>
      cases hstep
      have hinv : Inv { s.enter i .flushing with rx := s.rx.drop readChunk } :=
        inv_enter h hcur (h.holder i .flushing hcur)
      rw [State.enter, ← hcur] at hinv
      exact hinv
    · cases hstep
  | flushed => exact inv_flushed h hturn hstep
  | read => exact inv_read h hstep
  | gap => exact inv_gap h hturn hstep
  | fail =>
    simp only [step] at hstep
    split at hstep
    · obtain ⟨q, hq, rfl⟩ := Option.map_eq_some_iff.1 hstep
      exact inv_finish h hq (Or.inl rfl)
    · cases hstep
  -- a cancelled request frees the port and leaves the others alone
  | cancel =>
    simp only [step] at hstep
    split at hstep
    · cases hstep
      exact ⟨h.sent, h.replies, (fun _ _ hcur => nomatch hcur), (fun _ _ hcur => nomatch hcur),
        h.results⟩
    · cases hstep
  | reply i pdu => exact inv_reply h hstep
  | arrive i n => exact inv_arrive h hturn hstep

/-! ### Whole runs -/

/-- **Every transaction returns its own answer.**  In every run in which a flush ends with an
    empty buffer, the bytes that arrive while a request waits are of its answer, and no read
    ends inside an answer with bytes that are a frame by themselves, every PDU that a
    transaction returns is the addressed slave's answer to that request, or the gateway
    exception. -/
theorem transaction_returns_own_answer (es : List Event) (s : State)
    (hturn : Along step InTurn State.init es) (hrun : run step State.init es = some s)
    (i : Nat) (pdu : Bytes) (hres : (i, pdu) ∈ s.results) :
    ∃ q, s.requests[i]? = some q ∧
      (pdu = exceptionPdu (q.pdu.headD 0) 0x0B ∨ ∃ r, s.replies i = some r ∧ r.pdu = pdu) :=
  (run_invariant Inv inv_step inv_init hturn hrun).results i pdu hres

/-- Two reads of registers of one slave. -/
def twoReads : Request × Request := (⟨1, [3, 0, 0, 0, 1]⟩, ⟨1, [3, 0, 9, 0, 1]⟩)

/-- The steps that write a request and wait for its answer. -/
def ask (q : Request) : List Event := [.acquire q, .opened, .flushed]

/-- The first request times out, its answer arrives before the second one is written and is
    discarded, and the answer to the second one arrives in two pieces. -/
def lateButFlushed : List Event :=
  ask twoReads.1 ++ [.fail, .acquire twoReads.2, .opened, .reply 0 [3, 2, 0, 5], .arrive 0 7,
    .discard, .flushed, .reply 1 [3, 2, 0, 6], .arrive 1 3, .read, .arrive 1 4, .read, .gap]

/-- `InTurn` as a test. -/
def inTurnCheck (s : State) : Event → Bool
  | .flushed => s.rx == []
  | .arrive i _ =>
    match s.current with
    | some (j, p) => !p.waits || i == j
    | none => true
  | .gap =>
    match s.current with
    | some (j, .reading buf) =>
      (s.rx == [] && match s.replies j with
        | some r => r.left == []
        | none => true) || rtuUnwrap buf == none
    | _ => true
  | _ => true

/-- The test finds only steps that meet the condition. -/
theorem inTurn_of_check (s : State) (e : Event) (h : inTurnCheck s e = true) : InTurn s e := by
  cases e with
  | flushed => exact beq_iff_eq.1 h
  | arrive i n =>
    intro j p hcur hwaits
    simp only [inTurnCheck, hcur, hwaits, Bool.not_true, Bool.false_or, beq_iff_eq] at h
    exact h
  | gap =>
    intro j buf hcur
    simp only [inTurnCheck, hcur, Bool.or_eq_true, Bool.and_eq_true, beq_iff_eq] at h
    rcases h with ⟨hrx, h⟩ | h
    · refine Or.inl ⟨hrx, fun r hr => ?_⟩
      rw [hr] at h
      exact beq_iff_eq.1 h
    · exact Or.inr h
  | _ => trivial

/-- A late answer arrives in time to be flushed. -/
theorem transaction_returns_own_answer_flushed :
    ∃ s, run step State.init lateButFlushed = some s ∧
      s.results = [(0, [0x83, 0x0B]), (1, [3, 2, 0, 6])] ∧
      ∃ q, s.requests[1]? = some q ∧ ([3, 2, 0, 6] = exceptionPdu (q.pdu.headD 0) 0x0B ∨
        ∃ r, s.replies 1 = some r ∧ r.pdu = [3, 2, 0, 6]) := by
  have hturn : Along step InTurn State.init lateButFlushed :=
    along_of_check inTurn_of_check (by decide +kernel)
  refine ⟨_, rfl, by decide +kernel, ?_⟩
  exact transaction_returns_own_answer lateButFlushed _ hturn rfl 1 _ (by decide +kernel)

/-- The first request times out; its answer arrives just after the second request to the same
    slave has been written, and is returned as the answer to that one. -/
theorem late_answer_returned :
    ∃ s, run step State.init (ask twoReads.1 ++ [.fail] ++ ask twoReads.2 ++
        [.reply 0 [3, 2, 0, 5], .arrive 0 7, .read, .gap]) = some s ∧
      (1, [3, 2, 0, 5]) ∈ s.results ∧ s.requests[1]? = some twoReads.2 ∧
      [3, 2, 0, 5] ≠ exceptionPdu (twoReads.2.pdu.headD 0) 0x0B ∧ s.replies 1 = none ∧
      (s.replies 0).map Reply.pdu = some [3, 2, 0, 5] :=
  ⟨_, rfl, by decide +kernel, by decide +kernel, by decide +kernel, by decide +kernel,
    by decide +kernel⟩

end Ser2Net.Engine.ModbusBus
