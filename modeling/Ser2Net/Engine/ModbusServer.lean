import Ser2Net.Engine.ModbusBus

namespace Ser2Net.Engine.ModbusServer

open Ser2Net.Lib Ser2Net.Engine.Modbus Ser2Net.Engine.ModbusBus

/-!
# Engine — a Modbus/TCP master's session (`ModbusGatewayRunner._on_client`)

The request loop of one connected master: read a chunk, pop the complete requests, run each
as a transaction on the bus, and write its answer back as a Modbus/TCP frame.  What the bus
gives for the transactions of the session is arbitrary: nothing, or bytes of any length.

* `Session`, `serve` — the request loop;
* `session_out` — the bytes written are the answers to the requests received, in order;
* `answered_iff_short` — a master decodes one frame per request, at any time, if and only if
  no answer from the bus is longer than an RTU frame can be;
* `long_answer_breaks_stream` — a valid answer whose frame has 257 bytes.
-/

/-- What a read of the request loop gives: a chunk (empty at the end of the stream), the idle
    or connection timer, or the gateway's stop. -/
inductive Read
  | data (chunk : Bytes)
  | timer
  | stop
  deriving DecidableEq, Repr

/-- A master's session: the bytes not yet taken, the requests served, the bytes written, and
    whether the loop has ended. -/
structure Session where
  buf : Bytes
  served : Nat
  out : Bytes
  closed : Bool
  deriving DecidableEq, Repr

/-- A master has connected. -/
def Session.init : Session := ⟨[], 0, [], false⟩

section
variable (bus : Nat → Option Bytes)

/-- The PDU that answers the `i`-th request of the session; `bus i` is what was read of the
    bus for it. -/
def answerPdu (i : Nat) (f : Adu) : Bytes := conclude ⟨f.unit, f.pdu⟩ (bus i)

/-- The inner loop: pop a request, run it, write the answer, at most `n` times. -/
def serve : Nat → Session → Session
  | 0, s => s
  | n + 1, s =>
    match takeTcpAdu s.buf with
    | .need => s
    | .bad _ => { s with closed := true }
    | .frame f rest =>
      serve n { s with
        buf := rest
        served := s.served + 1
        out := s.out ++ buildTcpAdu f.txn f.unit (answerPdu bus s.served f) }

/-- One round of the request loop. -/
def Session.read (s : Session) (r : Read) : Session :=
  if s.closed then s
  else match r with
    | .data chunk =>
      if chunk = [] then { s with closed := true }
      else serve bus ((s.buf ++ chunk).length + 1) { s with buf := s.buf ++ chunk }
    | .timer => { s with closed := true }
    | .stop => { s with closed := true }

/-- A session after its reads. -/
def session (reads : List Read) : Session := reads.foldl (Session.read bus) Session.init

/-! ### What is written -/

/-- The answers to requests, from the `i`-th of the session on, as frames. -/
def answers (i : Nat) : List Adu → List Adu
  | [] => []
  | f :: fs => ⟨f.txn, f.unit, answerPdu bus i f⟩ :: answers (i + 1) fs

/-- The session stands where the decoder of its stream stands, and has answered the frames
    decoded so far. -/
def Stands (s : Session) (st : List Adu × Buffer UInt8 String) : Prop :=
  s.served = st.1.length ∧ s.out = (answers bus 0 st.1).flatMap Adu.build ∧
    match st.2 with
    | .waiting rest => s.buf = rest ∧ s.closed = false
    | .failed _ => s.closed = true

variable {bus}

theorem answers_append (i : Nat) (fs gs : List Adu) :
    answers bus i (fs ++ gs) = answers bus i fs ++ answers bus (i + fs.length) gs := by
  induction fs generalizing i with
  | nil => rfl
  | cons f fs ih =>
    rw [List.cons_append, answers, ih, answers, List.length_cons, List.cons_append,
      Nat.add_assoc, Nat.add_comm 1]

theorem answers_length (i : Nat) (fs : List Adu) : (answers bus i fs).length = fs.length := by
  induction fs generalizing i with
  | nil => rfl
  | cons f fs ih => rw [answers, List.length_cons, List.length_cons, ih]

/-- The inner loop serves the frames that draining the buffer gives. -/
theorem serve_stands {n : Nat} {s : Session} {fs : List Adu} (hn : s.buf.length < n)
    (hopen : s.closed = false) (hserved : s.served = fs.length)
    (hout : s.out = (answers bus 0 fs).flatMap Adu.build) :
    Stands bus (serve bus n s)
      (fs ++ (tcpDecoder.drain s.buf).1, (tcpDecoder.drain s.buf).2) := by
  induction n generalizing s fs with
  | zero => omega
  | succ n ih =>
    rw [serve]
    cases htake : takeTcpAdu s.buf with
    | need =>
      rw [Decoder.drain_of_need (D := tcpDecoder) htake, List.append_nil]
      exact ⟨hserved, hout, rfl, hopen⟩
    | bad e =>
      rw [Decoder.drain_of_bad (D := tcpDecoder) htake, List.append_nil]
      exact ⟨hserved, hout, rfl⟩
    | frame f rest =>
      have hrest := takeTcpAdu_frame htake
      rw [Decoder.drain_of_frame (D := tcpDecoder) htake]
      -- one request more has been answered, and the rest of the buffer is drained
      have hstep := @ih ⟨rest, s.served + 1,
        s.out ++ buildTcpAdu f.txn f.unit (answerPdu bus s.served f), s.closed⟩ (fs ++ [f])
        (show rest.length < n by omega) hopen (by simp [hserved])
        (by
          show s.out ++ _ = (answers bus 0 (fs ++ [f])).flatMap Adu.build
          rw [answers_append, List.flatMap_append, ← hout, Nat.zero_add, ← hserved]
          simp [answers, Adu.build])
      rw [List.append_assoc, List.singleton_append] at hstep
      exact hstep

/-- A chunk moves the session as it moves the decoder. -/
theorem read_stands {s : Session} {st : List Adu × Buffer UInt8 String} {chunk : Bytes}
    (h : Stands bus s st) (hne : chunk ≠ []) :
    Stands bus (s.read bus (.data chunk)) (tcpDecoder.feed st chunk) := by
  obtain ⟨fs, buffer⟩ := st
  obtain ⟨hserved, hout, hbuf⟩ := h
  cases buffer with
  | failed e =>
    have hclosed : s.closed = true := hbuf
    rw [Session.read, if_pos hclosed]
    exact ⟨hserved, hout, hclosed⟩
  | waiting rest =>
    obtain ⟨rfl, hopen⟩ := hbuf
    rw [Session.read, if_neg (by rw [hopen]; exact Bool.false_ne_true)]
    show Stands bus (if chunk = [] then _ else _) _
    rw [if_neg hne]
    exact serve_stands (s := ⟨s.buf ++ chunk, s.served, s.out, s.closed⟩)
      (Nat.lt_succ_self _) hopen hserved hout

/-- **What a session writes.**  After the chunks of a stream, the answers to the requests that
    the stream decodes to. -/
theorem session_out {chunks : List Bytes} (hne : ∀ c ∈ chunks, c ≠ []) :
    (session bus (chunks.map .data)).out =
      (answers bus 0 (tcpDecoder.drain chunks.flatten).1).flatMap Adu.build := by
  have key : ∀ (chunks : List Bytes) (s : Session) (st : List Adu × Buffer UInt8 String),
      (∀ c ∈ chunks, c ≠ []) → Stands bus s st →
      Stands bus ((chunks.map .data).foldl (Session.read bus) s)
        (chunks.foldl tcpDecoder.feed st) := by
    intro chunks
    induction chunks with
    | nil => exact fun s st _ h => h
    | cons c cs ih =>
      intro s st hne h
      rw [List.map_cons, List.foldl_cons, List.foldl_cons]
      exact ih _ _ (fun d hd => hne d (List.mem_cons_of_mem c hd))
        (read_stands h (hne c List.mem_cons_self))
  have hinit : Stands bus Session.init ([], .waiting []) := ⟨rfl, rfl, rfl, rfl⟩
  have hend := (key chunks _ _ hne hinit).2.1
  rw [← Decoder.receive_eq_drain]
  exact hend

/-! ### What the master decodes -/

/-- The bytes decode to exactly one frame per request, in order, each with the request's
    transaction id and unit, with no error and nothing left over. -/
def Answered (requests : List Adu) (out : Bytes) : Prop :=
  ∃ frames, tcpDecoder.drain out = (frames, .waiting []) ∧
    frames.map (fun f => (f.txn, f.unit)) = requests.map fun f => (f.txn, f.unit)

variable (bus) in
/-- What the bus gives for a request is at most 256 bytes long, if it is a valid frame of the
    unit the request addresses. -/
def Short (requests : List Adu) : Prop :=
  ∀ i f bytes, requests[i]? = some f → bus i = some bytes →
    (rtuUnwrap bytes).map Prod.fst = some f.unit → bytes.length ≤ maxPdu + 3

/-- An answer fits a frame exactly when what the bus gave is not too long. -/
theorem answerPdu_length_le_iff (i : Nat) (f : Adu) :
    (answerPdu bus i f).length ≤ maxPdu ↔ ∀ bytes, bus i = some bytes →
      (rtuUnwrap bytes).map Prod.fst = some f.unit → bytes.length ≤ maxPdu + 3 := by
  have hfailed : (Request.failed ⟨f.unit, f.pdu⟩).length ≤ maxPdu := by
    show 2 ≤ 253
    decide
  unfold answerPdu conclude
  -- no answer and a broken frame give the two bytes of the failure
  cases hbus : bus i with
  | none => exact ⟨(fun _ bytes hb => nomatch hb), fun _ => hfailed⟩
  | some bytes =>
    rw [Option.bind_some]
    cases hunwrap : rtuUnwrap bytes with
    | none =>
      refine ⟨fun _ bytes' hb hu => ?_, fun _ => hfailed⟩
      obtain rfl := Option.some.inj hb
      rw [hunwrap] at hu
      cases hu
    | some p =>
      obtain ⟨unit, pdu⟩ := p
      have hlen := (rtuUnwrap_pdu_ne_nil hunwrap).1
      by_cases hunit : unit = f.unit
      · -- a frame of the addressed unit is passed on as it is
        simp only [ne_eq, hunit, not_true_eq_false, if_false]
        constructor
        · intro h bytes' hb _
          obtain rfl := Option.some.inj hb
          omega
        · intro h
          have := h bytes rfl (by rw [hunwrap, hunit]; rfl)
          omega
      -- the answer of another unit counts as a failure
      · simp only [ne_eq, hunit, not_false_eq_true, if_true]
        refine ⟨fun _ bytes' hb hu => ?_, fun _ => hfailed⟩
        obtain rfl := Option.some.inj hb
        rw [hunwrap] at hu
        exact absurd (Option.some.inj hu) hunit

/-- Answers that fit, to requests that fit, are frames that fit. -/
theorem answers_fits {start : Nat} {fs : List Adu} (hfits : ∀ f ∈ fs, f.Fits)
    (hshort : ∀ i f, fs[i]? = some f → (answerPdu bus (start + i) f).length ≤ maxPdu) :
    ∀ a ∈ answers bus start fs, a.Fits := by
  induction fs generalizing start with
  | nil => exact fun a ha => absurd ha List.not_mem_nil
  | cons f fs ih =>
    intro a ha
    rcases List.mem_cons.1 ha with rfl | ha
    · have hf := hfits f List.mem_cons_self
      exact ⟨hf.txn, hf.unit, hshort 0 f rfl⟩
    · refine ih (fun g hg => hfits g (List.mem_cons_of_mem f hg)) (fun i g hg => ?_) a ha
      have := hshort (i + 1) g hg
      rwa [Nat.add_comm i 1, ← Nat.add_assoc] at this

theorem answers_key (start : Nat) (fs : List Adu) :
    (answers bus start fs).map (fun f => (f.txn, f.unit)) = fs.map fun f => (f.txn, f.unit) := by
  induction fs generalizing start with
  | nil => rfl
  | cons f fs ih => rw [answers, List.map_cons, List.map_cons, ih]

/-- Frames that fit are decoded again, and what follows them is drained. -/
theorem drain_answers {as : List Adu} (hfits : ∀ a ∈ as, a.Fits) (t : Bytes) :
    tcpDecoder.drain (as.flatMap Adu.build ++ t) =
      (as ++ (tcpDecoder.drain t).1, (tcpDecoder.drain t).2) := by
  have htake : ∀ a ∈ as, ∀ t, tcpDecoder.take (a.build ++ t) = .frame a t :=
    fun a ha t => takeTcpAdu_buildTcpAdu (hfits a ha) t
  exact Decoder.drain_flatMap htake t

/-- Frames that fit are decoded again with nothing left over. -/
theorem drain_answers_all {as : List Adu} (hfits : ∀ a ∈ as, a.Fits) :
    tcpDecoder.drain (as.flatMap Adu.build) = (as, .waiting []) := by
  have hdrain := drain_answers hfits []
  rwa [List.append_nil, Decoder.drain_of_need tcpDecoder.take_nil, List.append_nil] at hdrain

/-- A frame with a longer PDU is never decoded to one frame with nothing left over: its length
    is refused, or it wraps around and leaves bytes behind. -/
theorem drain_build_long {txn unit : Nat} {pdu : Bytes} (hlong : maxPdu < pdu.length) (g : Adu) :
    tcpDecoder.drain (buildTcpAdu txn unit pdu) ≠ ([g], .waiting []) := by
  intro h
  have htake : tcpDecoder.take (buildTcpAdu txn unit pdu ++ []) = _ :=
    takeTcpAdu_build txn unit pdu []
  rw [List.append_nil, List.append_nil] at htake
  split at htake
  · next hfit =>
    -- the length wrapped around: the rest of the PDU stays in the buffer
    rw [Decoder.drain_of_frame htake] at h
    obtain ⟨hframes, hrest⟩ := Prod.mk.inj h
    have hnone : (tcpDecoder.drain (pdu.drop ((pdu.length + 1) % 65536 - 1))).1 = [] :=
      (List.cons.inj hframes).2
    have hleft : pdu.drop ((pdu.length + 1) % 65536 - 1) ≠ [] := by
      rw [ne_eq, List.drop_eq_nil_iff]
      simp only [maxPdu] at hfit hlong
      omega
    cases hnext : tcpDecoder.take (pdu.drop ((pdu.length + 1) % 65536 - 1)) with
    | need =>
      rw [Decoder.drain_of_need hnext] at hrest
      exact hleft (Buffer.waiting.inj hrest)
    | bad e =>
      rw [Decoder.drain_of_bad hnext] at hrest
      cases hrest
    | frame f r =>
      rw [Decoder.drain_of_frame hnext] at hnone
      cases hnone
  · rw [Decoder.drain_of_bad htake] at h
    cases h

/-- If the master has decoded one frame for each of the first requests, and all answers but
    the last one fit, the last one fits too. -/
theorem last_short {requests : List Adu} {f : Adu} (hfits : ∀ a ∈ answers bus 0 requests, a.Fits)
    (h : Answered (requests ++ [f]) ((answers bus 0 (requests ++ [f])).flatMap Adu.build)) :
    (answerPdu bus requests.length f).length ≤ maxPdu := by
  by_contra hlong
  obtain ⟨frames, hdrain, hkeys⟩ := h
  rw [answers_append, List.flatMap_append, drain_answers hfits] at hdrain
  obtain ⟨rfl, hrest⟩ := Prod.mk.inj hdrain
  -- one frame is left for the last request
  have hcount := congrArg List.length hkeys
  simp only [List.length_map, List.length_append, answers_length, List.length_singleton] at hcount
  obtain ⟨g, hg⟩ := List.length_eq_one_iff.1 (Nat.add_left_cancel hcount)
  rw [Nat.zero_add] at hg hrest
  have hbuild : (answers bus requests.length [f]).flatMap Adu.build =
      buildTcpAdu f.txn f.unit (answerPdu bus requests.length f) := by
    simp [answers, Adu.build]
  rw [hbuild] at hg hrest
  exact drain_build_long (by omega) g (Prod.ext hg hrest)

end

/-- **One frame per request.**  For every sequence of well-formed requests and whatever the bus
    gives for them: in whatever chunks the first requests arrive, the master decodes exactly
    one frame for each, in order, with its transaction id and unit and with nothing left over,
    if and only if no valid answer of an addressed unit is longer than an RTU frame. -/
theorem answered_iff_short (bus : Nat → Option Bytes) (requests : List Adu)
    (hreq : ∀ f ∈ requests, f.Fits ∧ f.pdu ≠ []) :
    (∀ (k : Nat) (chunks : List Bytes), (∀ c ∈ chunks, c ≠ []) →
      chunks.flatten = (requests.take k).flatMap Adu.build →
      Answered (requests.take k) (session bus (chunks.map .data)).out) ↔ Short bus requests := by
  have hfits : ∀ k, ∀ f ∈ requests.take k, f.Fits :=
    fun k f hf => (hreq f (List.mem_of_mem_take hf)).1
  -- a stream of requests is decoded to these requests
  have hdecode : ∀ k, (tcpDecoder.drain ((requests.take k).flatMap Adu.build)).1 =
      requests.take k := fun k => by rw [drain_answers_all (hfits k)]
  constructor
  · intro h
    have hshort : ∀ i f, requests[i]? = some f → (answerPdu bus i f).length ≤ maxPdu := by
      intro i
      induction i using Nat.strongRecOn with
      | _ i ih =>
        intro f hf
        obtain ⟨hi, rfl⟩ := List.getElem?_eq_some_iff.1 hf
        have htake : requests.take (i + 1) = requests.take i ++ [requests[i]] :=
          List.take_succ_eq_append_getElem hi
        have hlen : (requests.take i).length = i := List.length_take_of_le (le_of_lt hi)
        -- the first requests in one chunk
        have hchunk : ∀ c ∈ [(requests.take (i + 1)).flatMap Adu.build], c ≠ [] := by
          intro c hc
          rw [List.mem_singleton] at hc
          subst hc
          rw [htake, List.flatMap_append]
          simp [Adu.build, buildTcpAdu]
        have hall := h (i + 1) _ hchunk (List.flatten_singleton)
        rw [session_out hchunk, List.flatten_singleton, hdecode, htake] at hall
        have hbefore : ∀ j f, (requests.take i)[j]? = some f →
            (answerPdu bus (0 + j) f).length ≤ maxPdu := by
          intro j g hg
          have hj : j < i := by
            have := (List.getElem?_eq_some_iff.1 hg).1
            rwa [hlen] at this
          rw [List.getElem?_take_of_lt hj] at hg
          rw [Nat.zero_add]
          exact ih j hj g hg
        have hlast := last_short (answers_fits (hfits i) hbefore) hall
        rwa [hlen] at hlast
    intro i f bytes hf
    exact (answerPdu_length_le_iff i f).1 (hshort i f hf) bytes
  · intro hshort k chunks hne hflat
    rw [session_out hne, hflat, hdecode]
    have hpdu : ∀ i f, (requests.take k)[i]? = some f →
        (answerPdu bus (0 + i) f).length ≤ maxPdu := by
      intro i f hf
      have hf : requests[i]? = some f := by
        rw [List.getElem?_take] at hf
        split at hf
        · exact hf
        · cases hf
      rw [Nat.zero_add]
      exact (answerPdu_length_le_iff i f).2 fun bytes => hshort i f bytes hf
    exact ⟨_, drain_answers_all (answers_fits (hfits k) hpdu), answers_key 0 _⟩

/-- One read of a holding register. -/
def readRegister : Adu := ⟨7, 1, [3, 0, 0, 0, 1]⟩

/-- One read of the next register. -/
def readNext : Adu := ⟨8, 1, [3, 0, 1, 0, 1]⟩

/-- Two requests on the wire. -/
def twoRequests : Bytes := readRegister.build ++ readNext.build

/-- The slave answers both requests; the stream is cut inside the second one. -/
theorem answered_iff_short_register :
    Answered [readRegister, readNext]
      (session (fun _ => some (rtuWrap 1 [3, 2, 0, 5]))
        [.data (twoRequests.take 17), .data (twoRequests.drop 17)]).out := by
  have hreq : ∀ f ∈ [readRegister, readNext], f.Fits ∧ f.pdu ≠ [] := by
    intro f hf
    rcases List.mem_pair.1 hf with rfl | rfl
    · exact ⟨⟨by decide, by decide, by decide⟩, by decide⟩
    · exact ⟨⟨by decide, by decide, by decide⟩, by decide⟩
  have hshort : Short (fun _ => some (rtuWrap 1 [3, 2, 0, 5])) [readRegister, readNext] := by
    intro i f bytes _ hbytes _
    rw [← Option.some.inj hbytes]
    decide
  exact (answered_iff_short _ [readRegister, readNext] hreq).2 hshort 2
    [twoRequests.take 17, twoRequests.drop 17] (by decide) (by decide)

/-- A bus that gives a valid frame whose PDU has 254 bytes. -/
def longAnswer : Nat → Option Bytes := fun _ => some (rtuWrap 1 (List.replicate 254 3))

/-- The master refuses the length of such an answer. -/
theorem long_answer_breaks_stream :
    ¬ Answered [readRegister] (session longAnswer [.data readRegister.build]).out ∧
    (∀ f ∈ [readRegister], f.Fits ∧ f.pdu ≠ []) := by
  have hreq : ∀ f ∈ [readRegister], f.Fits ∧ f.pdu ≠ [] := by
    intro f hf
    rw [List.mem_singleton] at hf
    subst hf
    exact ⟨⟨by decide, by decide, by decide⟩, by decide⟩
  refine ⟨fun h => ?_, hreq⟩
  -- the request is decoded, so the answer is the only frame of the stream
  have hchunk : ∀ c ∈ [readRegister.build], c ≠ [] := by decide
  have hdecode : tcpDecoder.drain [readRegister.build].flatten = ([readRegister], .waiting []) :=
    drain_answers_all fun a ha => (hreq a ha).1
  have hout : (session longAnswer [.data readRegister.build]).out = _ := session_out hchunk
  rw [hdecode] at hout
  rw [hout] at h
  have hnone : ∀ a ∈ answers longAnswer 0 [], a.Fits := by simp [answers]
  have hshort := last_short hnone h
  have hunit : (rtuUnwrap (rtuWrap 1 (List.replicate 254 3))).map Prod.fst = some 1 := by
    have hpdu : List.replicate 254 (3 : UInt8) ≠ [] :=
      List.ne_nil_of_length_pos (by rw [List.length_replicate]; decide)
    rw [rtuUnwrap_rtuWrap 1 hpdu, Option.map_some]
  have hlen := (answerPdu_length_le_iff 0 readRegister).1 hshort _ rfl hunit
  simp only [rtuWrap, maxPdu, List.length_append, List.length_cons, List.length_nil,
    List.length_replicate] at hlen
  omega

end Ser2Net.Engine.ModbusServer
