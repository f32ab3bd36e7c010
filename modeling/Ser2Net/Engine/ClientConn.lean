import Ser2Net.Lib.Trace
import Ser2Net.Engine.Telnet

namespace Ser2Net.Engine.ClientConn

open Ser2Net.Lib Ser2Net.Engine.Telnet

/-!
# Engine — the output of a TCP client (`_ClientConn` of `bridge.py`)

What a raw or telnet client is sent goes through one bounded queue.  The serial read loop puts
the device's data there, the client's own read pump the negotiation replies, and a graceful
close a sentinel; the write pump takes the items out and writes them.  Between two awaits a task
runs alone, so an interleaving is a list of these atomic pieces (`Event`).

* `Spells` — what bytes stand for on the wire of a protocol: the data in them;
* `Inv` — the invariant: what is written, what is queued and what was lost when the client was
  dropped are together the device's data;
* `inv_step`, `inv_run` — one event keeps it, and so does every run;
* `client_stream` — the bytes a client gets.
-/

/-! ### Sessions -/

/-- The protocols of this module. -/
inductive Protocol
  | raw | telnet
  deriving DecidableEq, Repr

/-- A protocol session: `RawSession` or `TelnetSession`. -/
inductive Session
  | raw
  | telnet (t : TelnetSession)

namespace Session

/-- `make_session`. -/
def make : Protocol → Session
  | .raw => raw
  | .telnet => telnet TelnetSession.init

def fromSerial : Session → Bytes → Bytes
  | raw, data => data
  | telnet _, data => TelnetSession.fromSerial data

def fromNetwork : Session → Bytes → Session × Bytes
  | raw, data => (raw, data)
  | telnet t, data => (telnet (t.fromNetwork data).1, (t.fromNetwork data).2)

def takeNetOut : Session → Session × Bytes
  | raw => (raw, [])
  | telnet t => (telnet t.takeNetOut.1, t.takeNetOut.2)

/-- `initial_net_bytes`. -/
def initialNetBytes : Session → Session × Bytes
  | raw => (raw, [])
  | telnet t => (telnet t.takeNetOut.1, t.takeNetOut.2)

end Session

/-! ### The connection -/

/-- What a connection reads of its mapping; `banner` is the rendered banner. -/
structure Client where
  protocol : Protocol
  banner : Bytes
  queueMax : Nat
  readOnly : Bool
  closeon : Bytes

/-- Where the write pump is: `run` waits for the greeting to drain, the pump waits for an item,
    for one to drain, or for what the sentinel flushed to drain. -/
inductive OutPump
  | starting | getting | draining | flushing | ended
  deriving DecidableEq, Repr

/-- Where the read pump is: not started, reading, in `serial_write`. -/
inductive InPump
  | starting | reading | writing | ended
  deriving DecidableEq, Repr

structure Conn where
  session : Session
  /-- `_out`; `none` is the graceful-close sentinel. -/
  out : List (Option Bytes)
  closing : Bool
  outPump : OutPump
  inPump : InPump
  /-- `_closeon_tail` of the runner. -/
  closeonTail : Bytes
  /-- What the transport has not sent yet. -/
  buffer : Bytes
  aborted : Bool
  /-- What was given to `writer.write`. -/
  written : Bytes
  /-- What the client was sent. -/
  wire : Bytes
  /-- What the device said since the client joined. -/
  device : Bytes

namespace Conn

/-- `writer.write`; a transport that is gone drops the bytes. -/
def write (s : Conn) (data : Bytes) : Conn :=
  { s with
    written := s.written ++ data
    buffer := if s.aborted then s.buffer else s.buffer ++ data }

/-- `writer.transport.abort()`. -/
def abort (s : Conn) : Conn := { s with aborted := true, buffer := [] }

end Conn

variable (c : Client)

/-- `_out.full()`. -/
def full (s : Conn) : Bool := 0 < c.queueMax ∧ c.queueMax ≤ s.out.length

/-- The bytes before everything else: the initial negotiation, then the banner. -/
def greeting : Bytes := (Session.make c.protocol).initialNetBytes.2 ++ c.banner

/-- `run`, up to its first await; `tail` is what the runner keeps for `closeon`. -/
def start (tail : Bytes) : Conn :=
  ⟨(Session.make c.protocol).initialNetBytes.1, [], false, .starting, .starting, tail,
    greeting c, false, greeting c, [], []⟩

/-- `feed_from_serial`. -/
def feedFromSerial (s : Conn) (data : Bytes) : Conn :=
  if s.closing then s
  else
    let net := s.session.fromSerial data
    if net = [] then s
    -- a slow client: this chunk is lost and the client is dropped
    else if full c s then { s with closing := true }.abort
    else { s with out := s.out ++ [some net] }

/-- `put_nowait` with `QueueFull` suppressed. -/
def putCtrl (s : Conn) (ctrl : Bytes) : Conn :=
  if ctrl = [] ∨ full c s then s else { s with out := s.out ++ [some ctrl] }

/-- `request_graceful_close`. -/
def requestGracefulClose (s : Conn) : Conn :=
  if s.closing then s
  else if full c s then { s with closing := true }.abort
  else { s with closing := true, out := s.out ++ [none] }

/-- `kick`. -/
def kick (s : Conn) : Conn := { s with closing := true }.abort

/-- `_check_closeon`, as far as this client. -/
def checkCloseon (s : Conn) (data : Bytes) : Conn :=
  let window := s.closeonTail ++ data
  if c.closeon <:+: window then { requestGracefulClose c s with closeonTail := [] }
  else if 1 < c.closeon.length then
    { s with closeonTail := window.drop (window.length - (c.closeon.length - 1)) }
  else s

/-- `while not self._closing` of the read pump. -/
def readAgain (s : Conn) : Conn := { s with inPump := if s.closing then .ended else .reading }

/-- The items after the sentinel, written out (`get_nowait` until the queue is empty). -/
def flush (s : Conn) : Conn :=
  { s.write (s.out.filterMap id).flatten with out := [], outPump := .flushing }

/-- The atomic pieces of a session. -/
inductive Event
  /-- `_serial_read_loop` reads data -/
  | serialRead (data : Bytes)
  /-- the greeting has drained and the pumps start -/
  | started
  /-- the read pump gets data from the client -/
  | netRead (data : Bytes)
  /-- the read pump's `serial_write` is through -/
  | serialWritten
  /-- the write pump gets an item -/
  | get
  /-- the write pump's `drain` is through -/
  | drained
  | kick
  /-- the write pump ends: `drain` raised, or the task group cancels it -/
  | endOut
  /-- the read pump ends: end of file, an error, or the task group cancels it -/
  | endIn
  /-- both pumps are through and `run` closes the writer -/
  | close
  /-- the transport sends some of its bytes -/
  | transmit (n : Nat)
  /-- the transport loses the connection -/
  | lost

/-- One event. -/
def step (s : Conn) : Event → Option Conn
  | .serialRead data =>
    if data = [] then none
    else
      let s := feedFromSerial c { s with device := s.device ++ data } data
      some (if c.closeon = [] then s else checkCloseon c s data)
  | .started =>
    if s.outPump = .starting then some (readAgain { s with outPump := .getting }) else none
  | .netRead data =>
    if s.inPump = .reading ∧ data ≠ [] then
      let (session, serialBound) := s.session.fromNetwork data
      let (session, ctrl) := session.takeNetOut
      let s := putCtrl c { s with session } ctrl
      if serialBound ≠ [] ∧ !c.readOnly then some { s with inPump := .writing }
      else some (readAgain s)
    else none
  | .serialWritten => if s.inPump = .writing then some (readAgain s) else none
  | .get =>
    if s.outPump = .getting then
      match s.out with
      | [] => none
      | some data :: rest => some { s.write data with out := rest, outPump := .draining }
      | none :: rest => some (flush { s with out := rest })
    else none
  | .drained =>
    if s.outPump = .draining then some { s with outPump := .getting }
    else if s.outPump = .flushing then some { s with outPump := .ended }
    else none
  | .kick => some (kick s)
  | .endOut => some { s with outPump := .ended }
  | .endIn => some { s with inPump := .ended }
  | .close =>
    if s.outPump = .ended ∧ s.inPump = .ended then some { s with closing := true } else none
  | .transmit n => some { s with wire := s.wire ++ s.buffer.take n, buffer := s.buffer.drop n }
  | .lost => some s.abort

/-! ### What bytes stand for -/

/-- A token that the session sends: data or a negotiation triple. -/
def Sent (t : Token) : Prop := (∃ b, t = .data b) ∨ t.triple?.isSome = true

/-- The bytes are, on the wire of the protocol, the data `data` and whole commands. -/
def Spells : Protocol → Bytes → Bytes → Prop
  | .raw, bs, data => bs = data
  | .telnet, bs, data => ∃ tokens : List Token, (∀ t ∈ tokens, Sent t) ∧
      bs = tokens.flatMap Token.encode ∧ data = tokens.flatMap Token.payload

/-- Nothing spells nothing. -/
theorem spells_nil (p : Protocol) : Spells p [] [] := by
  cases p with
  | raw => rfl
  | telnet => exact ⟨[], by simp, rfl, rfl⟩

/-- What is spelled one after another. -/
theorem Spells.append {p : Protocol} {bs cs x y : Bytes} (h : Spells p bs x) (h' : Spells p cs y) :
    Spells p (bs ++ cs) (x ++ y) := by
  cases p with
  | raw => exact congrArg₂ (· ++ ·) h h'
  | telnet =>
    obtain ⟨ts, hts, rfl, rfl⟩ := h
    obtain ⟨us, hus, rfl, rfl⟩ := h'
    refine ⟨ts ++ us, ?_, by simp, by simp⟩
    intro t ht
    exact (List.mem_append.1 ht).elim (hts t) (hus t)

/-- Replies carry no data. -/
theorem spells_replies {bs : Bytes} (h : Replies bs) : Spells .telnet bs [] := by
  obtain ⟨tokens, hall, rfl⟩ := h
  refine ⟨tokens, fun t ht => Or.inr (hall t ht), rfl, ?_⟩
  symm
  refine List.flatMap_eq_nil_iff.2 fun t ht => ?_
  have htriple := hall t ht
  cases t with
  | option cmd opt h => rfl
  | data b => simp [Token.triple?] at htriple
  | command ch h1 h2 h3 => simp [Token.triple?] at htriple
  | subnegotiation content => simp [Token.triple?] at htriple

/-- The session belongs to the protocol, and no reply waits in it. -/
def Session.AtRest : Protocol → Session → Prop
  | .raw, .raw => True
  | .telnet, .telnet t => t.netOut = []
  | _, _ => False

/-- What a session at rest sends to the client spells the data. -/
theorem spells_fromSerial {p : Protocol} {s : Session} (hs : s.AtRest p) (data : Bytes) :
    Spells p (s.fromSerial data) data := by
  match p, s, hs with
  | .raw, .raw, _ => rfl
  | .telnet, .telnet t, _ =>
    refine ⟨data.map Token.data, ?_, fromSerial_eq data, ?_⟩
    · intro t ht
      obtain ⟨b, -, rfl⟩ := List.mem_map.1 ht
      exact Or.inl ⟨b, rfl⟩
    · rw [List.flatMap_map]
      exact (List.flatMap_singleton' data).symm

/-- A session that has read something offers whole replies, and is at rest again. -/
theorem spells_ctrl {p : Protocol} {s : Session} (hs : s.AtRest p) (data : Bytes) :
    Spells p (s.fromNetwork data).1.takeNetOut.2 [] ∧
      (s.fromNetwork data).1.takeNetOut.1.AtRest p := by
  match p, s, hs with
  | .raw, .raw, _ => exact ⟨rfl, trivial⟩
  | .telnet, .telnet t, h =>
    have hrest : t.netOut = [] := h
    have hreplies : Replies t.netOut := hrest ▸ replies_nil
    exact ⟨spells_replies (fromNetwork_replies hreplies data), rfl⟩

/-- A session is at rest when it has sent its first bytes. -/
theorem atRest_start (p : Protocol) : (Session.make p).initialNetBytes.1.AtRest p := by
  cases p with
  | raw => trivial
  | telnet => rfl

/-! ### The invariant -/

/-- The queued bytes, item by item. -/
def queued (s : Conn) : List Bytes := s.out.filterMap id

/-- Everything the device said is written, queued, or lost with the client: in this order, and
    nothing is lost before the client is dropped. -/
structure Inv (s : Conn) : Prop where
  atRest : s.session.AtRest c.protocol
  account : ∃ body data items lost, s.written = greeting c ++ body ∧
    Spells c.protocol body data ∧ List.Forall₂ (Spells c.protocol) (queued s) items ∧
    data ++ items.flatten ++ lost = s.device ∧ (s.closing = false → lost = [])
  sent : s.wire ++ s.buffer <+: s.written
  buffered : s.aborted = false → s.wire ++ s.buffer = s.written

variable {c}

/-- A connection that has just started. -/
theorem inv_start (tail : Bytes) : Inv c (start c tail) := by
  refine ⟨atRest_start c.protocol, ⟨[], [], [], [], ?_, spells_nil _, .nil, rfl, fun _ => rfl⟩,
    List.prefix_refl _, fun _ => rfl⟩
  exact (List.append_nil _).symm

/-! ### What the pieces keep -/

variable {s : Conn}

/-- A piece that touches neither the queue, the device nor the transport. -/
theorem Inv.frame (h : Inv c s) {s' : Conn} (hsession : s'.session.AtRest c.protocol)
    (hout : s'.out = s.out) (hwritten : s'.written = s.written) (hdevice : s'.device = s.device)
    (hclosing : s'.closing = false → s.closing = false) (hwire : s'.wire = s.wire)
    (hbuffer : s'.buffer = s.buffer) (haborted : s'.aborted = s.aborted) : Inv c s' := by
  obtain ⟨-, ⟨body, data, items, lost, hbody, hdata, hitems, hsum, hlost⟩, hsent, hbuffered⟩ := h
  refine ⟨hsession, ⟨body, data, items, lost, hwritten ▸ hbody, hdata, ?_, hdevice ▸ hsum,
    fun hc => hlost (hclosing hc)⟩, ?_, ?_⟩
  · rw [queued, hout]
    exact hitems
  · rw [hwire, hbuffer, hwritten]
    exact hsent
  · rw [haborted, hwire, hbuffer, hwritten]
    exact hbuffered

/-- Aborting the transport. -/
theorem Inv.abort (h : Inv c s) : Inv c s.abort := by
  refine ⟨h.atRest, h.account, ?_, fun ha => by simp [Conn.abort] at ha⟩
  show s.wire ++ [] <+: s.written
  rw [List.append_nil]
  exact (List.prefix_append _ _).trans h.sent

/-- A connection that is to be closed. -/
theorem Inv.setClosing (h : Inv c s) : Inv c { s with closing := true } :=
  h.frame h.atRest rfl rfl rfl (fun hc => by simp at hc) rfl rfl rfl

/-- An item that carries no data joins the queue. -/
theorem Inv.put (h : Inv c s) (item : Option Bytes) {closing : Bool}
    (hitem : ∀ bs ∈ item, Spells c.protocol bs []) (hclosing : closing = false → s.closing = false) :
    Inv c { s with out := s.out ++ [item], closing := closing } := by
  obtain ⟨hrest, ⟨body, data, items, lost, hbody, hdata, hitems, hsum, hlost⟩, hsent, hbuf⟩ := h
  refine ⟨hrest, ⟨body, data, items ++ item.toList.map fun _ => [], lost, hbody, hdata, ?_, ?_,
    fun hc => hlost (hclosing hc)⟩, hsent, hbuf⟩
  · have hq : queued { s with out := s.out ++ [item], closing := closing } =
        queued s ++ item.toList := by
      simp only [queued, List.filterMap_append]
      cases item <;> rfl
    rw [hq]
    refine List.rel_append hitems ?_
    cases item with
    | none => exact .nil
    | some bs => exact .cons (hitem bs rfl) .nil
  · cases item <;> simpa using hsum

/-- A control item in the queue, if there is room. -/
theorem Inv.putCtrl (h : Inv c s) {ctrl : Bytes} (hctrl : Spells c.protocol ctrl []) :
    Inv c (putCtrl c s ctrl) := by
  unfold ClientConn.putCtrl
  split
  · exact h
  · refine h.put (some ctrl) ?_ id
    intro bs hbs
    obtain rfl : ctrl = bs := Option.some.inj hbs
    exact hctrl

/-- A graceful close keeps the invariant. -/
theorem Inv.requestGracefulClose (h : Inv c s) : Inv c (requestGracefulClose c s) := by
  unfold ClientConn.requestGracefulClose
  split
  · exact h
  · split
    · exact h.setClosing.abort
    · exact h.put none (fun bs hbs => by simp at hbs) (fun hc => by simp at hc)

/-- The search for the close string keeps the invariant. -/
theorem Inv.checkCloseon (h : Inv c s) (data : Bytes) : Inv c (checkCloseon c s data) := by
  have htail : ∀ {t : Conn} (tail : Bytes), Inv c t → Inv c { t with closeonTail := tail } :=
    fun tail ht => ht.frame ht.atRest rfl rfl rfl id rfl rfl rfl
  unfold ClientConn.checkCloseon
  simp only
  split
  · exact htail _ h.requestGracefulClose
  · split
    · exact htail _ h
    · exact h

/-- Nothing spells nothing. -/
theorem eq_nil_of_spells {p : Protocol} {data : Bytes} (h : Spells p [] data) : data = [] := by
  cases p with
  | raw => exact h.symm
  | telnet =>
    obtain ⟨tokens, -, hnil, rfl⟩ := h
    have hall := List.flatMap_eq_nil_iff.1 hnil.symm
    refine List.flatMap_eq_nil_iff.2 fun t ht => ?_
    have hempty := hall t ht
    cases t with
    | data b =>
      have hne : escape b ≠ [] := by
        unfold escape
        split <;> simp
      exact absurd hempty hne
    | option cmd opt h => rfl
    | command ch h1 h2 h3 => rfl
    | subnegotiation content => rfl

/-- **A chunk from the device.**  It is queued in full, or the client is closing and from then on
    everything is lost for it. -/
theorem Inv.feed (h : Inv c s) (data : Bytes) :
    Inv c (feedFromSerial c { s with device := s.device ++ data } data) := by
  obtain ⟨hrest, ⟨body, written, items, lost, hbody, hdata, hitems, hsum, hlost⟩, hsent, hbuf⟩ := h
  -- the chunk reaches no queue: a client that closes, or a chunk that spells nothing
  have hdropped : ∀ closing, (closing = false → lost ++ data = []) →
      Inv c { s with device := s.device ++ data, closing := closing } := by
    intro closing hnone
    refine ⟨hrest, ⟨body, written, items, lost ++ data, hbody, hdata, hitems, ?_, hnone⟩, hsent,
      hbuf⟩
    rw [← List.append_assoc, hsum]
  unfold feedFromSerial
  simp only
  split
  next hc => exact hdropped s.closing fun hc' => absurd (hc.symm.trans hc') (by simp)
  next hc =>
    have hnothing : lost = [] := hlost (by simpa using hc)
    have hspells := spells_fromSerial hrest data
    split
    next hnet =>
      rw [hnet] at hspells
      exact hdropped s.closing fun _ => by rw [hnothing, eq_nil_of_spells hspells, List.append_nil]
    next =>
      split
      next =>
        -- a full queue kicks the client: the chunk is lost, and the transport aborted
        have hclosed := hdropped true (fun hc' => by simp at hc')
        exact hclosed.abort
      next =>
        refine ⟨hrest, ⟨body, written, items ++ [data], [], hbody, hdata, ?_, ?_, fun _ => rfl⟩,
          hsent, hbuf⟩
        · simp only [queued, List.filterMap_append]
          exact List.rel_append hitems (.cons hspells .nil)
        · rw [← hsum, hnothing]
          simp

/-- The items of the queue, one after another. -/
theorem spells_flatten {p : Protocol} {items xs : List Bytes}
    (h : List.Forall₂ (Spells p) items xs) : Spells p items.flatten xs.flatten := by
  induction h with
  | nil => exact spells_nil p
  | cons hx _ ih => exact hx.append ih

/-- **Writing.**  The first items of the queue are written. -/
theorem Inv.writeItems (h : Inv c s) {now : List Bytes} {out : List (Option Bytes)}
    (hq : queued s = now ++ out.filterMap id) (pump : OutPump) :
    Inv c { s.write now.flatten with out := out, outPump := pump } := by
  obtain ⟨hrest, ⟨body, data, items, lost, hbody, hdata, hitems, hsum, hlost⟩, hsent, hbuf⟩ := h
  rw [hq] at hitems
  have hnow : List.Forall₂ (Spells c.protocol) now (items.take now.length) :=
    (List.forall₂_take_append _ _ _ hitems.flip).flip
  have hlater : List.Forall₂ (Spells c.protocol) (out.filterMap id) (items.drop now.length) :=
    (List.forall₂_drop_append _ _ _ hitems.flip).flip
  rw [← List.take_append_drop now.length items] at hsum
  -- the queue was cut where its items were cut, so both parts still spell their data
  generalize items.take now.length = xs at hnow hsum
  generalize items.drop now.length = ys at hlater hsum
  refine ⟨hrest, ⟨body ++ now.flatten, data ++ xs.flatten, ys, lost, ?_, ?_, hlater, ?_, hlost⟩,
    ?_, ?_⟩
  · show s.written ++ now.flatten = _
    rw [hbody, List.append_assoc]
  · exact hdata.append (spells_flatten hnow)
  · show _ = s.device
    rw [← hsum]
    simp
  · show s.wire ++ (if s.aborted then s.buffer else s.buffer ++ now.flatten) <+:
      s.written ++ now.flatten
    split
    next => exact hsent.trans (List.prefix_append _ _)
    next ha => rw [← List.append_assoc, hbuf (by simpa using ha)]
  · intro ha
    have ha : s.aborted = false := ha
    show s.wire ++ (if s.aborted then s.buffer else s.buffer ++ now.flatten) =
      s.written ++ now.flatten
    rw [ha, if_neg Bool.false_ne_true, ← List.append_assoc, hbuf ha]

/-! ### One event, and runs -/

/-- Whether the read pump goes on is no part of the invariant. -/
theorem Inv.readAgain (h : Inv c s) : Inv c (readAgain s) :=
  h.frame h.atRest rfl rfl rfl id rfl rfl rfl

/-- **One event.** -/
theorem inv_step (s : Conn) (e : Event) (s' : Conn) (h : Inv c s) (hstep : step c s e = some s') :
    Inv c s' := by
  cases e with
  | serialRead data =>
    simp only [step] at hstep
    split at hstep
    · cases hstep
    · obtain rfl := Option.some.inj hstep
      split
      · exact h.feed data
      · exact (h.feed data).checkCloseon data
  | started =>
    simp only [step] at hstep
    split at hstep
    · obtain rfl := Option.some.inj hstep
      -- both pumps begin; neither has touched the data yet
      have hpump : Inv c { s with outPump := .getting } :=
        h.frame h.atRest rfl rfl rfl id rfl rfl rfl
      exact hpump.readAgain
    · cases hstep
  | netRead data =>
    simp only [step] at hstep
    split at hstep
    -- what the session answers goes in front of later data: it spells none of its own
    · obtain ⟨hctrl, hrest⟩ := spells_ctrl h.atRest data
      have hsession : Inv c { s with session := (s.session.fromNetwork data).1.takeNetOut.1 } :=
        h.frame hrest rfl rfl rfl id rfl rfl rfl
      have hput := hsession.putCtrl hctrl
      split at hstep
      · obtain rfl := Option.some.inj hstep
        exact hput.frame hput.atRest rfl rfl rfl id rfl rfl rfl
      · obtain rfl := Option.some.inj hstep
        exact hput.readAgain
    · cases hstep
  | serialWritten =>
    simp only [step] at hstep
    split at hstep
    · obtain rfl := Option.some.inj hstep
      exact h.readAgain
    · cases hstep
  | get =>
    simp only [step] at hstep
    split at hstep
    · split at hstep
      next => cases hstep
      -- the next item is written at once; a close mark has the whole queue written
      next data rest hout =>
        obtain rfl := Option.some.inj hstep
        have hq : queued s = [data] ++ rest.filterMap id := by simp [queued, hout]
        simpa using h.writeItems hq .draining
      next rest hout =>
        obtain rfl := Option.some.inj hstep
        have hq : queued s = rest.filterMap id ++ ([] : List (Option Bytes)).filterMap id := by
          simp [queued, hout]
        exact h.writeItems hq .flushing
    · cases hstep
  | drained =>
    simp only [step] at hstep
    split at hstep
    · obtain rfl := Option.some.inj hstep
      exact h.frame h.atRest rfl rfl rfl id rfl rfl rfl
    · split at hstep
      · obtain rfl := Option.some.inj hstep
        exact h.frame h.atRest rfl rfl rfl id rfl rfl rfl
      · cases hstep
  | kick =>
    obtain rfl := Option.some.inj hstep
    exact h.setClosing.abort
  | endOut =>
    obtain rfl := Option.some.inj hstep
    exact h.frame h.atRest rfl rfl rfl id rfl rfl rfl
  | endIn =>
    obtain rfl := Option.some.inj hstep
    exact h.frame h.atRest rfl rfl rfl id rfl rfl rfl
  | close =>
    simp only [step] at hstep
    split at hstep
    · obtain rfl := Option.some.inj hstep
      exact h.setClosing
    · cases hstep
  | transmit n =>
    obtain rfl := Option.some.inj hstep
    -- the transport moves bytes from its buffer to the wire
    have hsplit : s.wire ++ s.buffer.take n ++ s.buffer.drop n = s.wire ++ s.buffer := by
      rw [List.append_assoc, List.take_append_drop]
    exact ⟨h.atRest, h.account, hsplit.symm ▸ h.sent, fun ha => hsplit.trans (h.buffered ha)⟩
  | lost =>
    obtain rfl := Option.some.inj hstep
    exact h.abort

/-- **Runs.** -/
theorem inv_run {tail : Bytes} {es : List Event} (hrun : run (step c) (start c tail) es = some s) :
    Inv c s :=
  run_invariant_of_step (Inv c) inv_step (inv_start tail) hrun

/-- What was written or sent after the greeting. -/
def afterGreeting (c : Client) (bs : Bytes) : Bytes := bs.drop (greeting c).length

/-- **What a client gets.**  In every interleaving, what is written to a raw client after its
    banner, and what it is sent, is a prefix of the device's bytes since it joined.  What is
    written to a telnet client after the greeting is whole negotiation triples and data that is
    such a prefix; what it is sent is whole tokens of this and then, only while the transport
    holds bytes back or when it was aborted, the front of the next one. -/
theorem client_stream (c : Client) (tail : Bytes) (es : List Event) (s : Conn)
    (hrun : run (step c) (start c tail) es = some s) :
    greeting c <+: s.written ∧
    (c.protocol = .raw →
      afterGreeting c s.written <+: s.device ∧ afterGreeting c s.wire <+: s.device) ∧
    (c.protocol = .telnet →
      ∃ tokens, (∀ t ∈ tokens, Sent t) ∧
        afterGreeting c s.written = tokens.flatMap Token.encode ∧
        tokens.flatMap Token.payload <+: s.device ∧
        ∃ whole cut, whole <+: tokens ∧
          afterGreeting c s.wire = whole.flatMap Token.encode ++ cut ∧
          (cut = [] ∨ (s.aborted = true ∨ s.buffer ≠ []) ∧
            ∃ t, whole ++ [t] <+: tokens ∧ cut <+: t.encode ∧ cut ≠ t.encode)) := by
  have h := inv_run hrun
  obtain ⟨body, data, items, lost, hbody, hdata, -, hsum, -⟩ := h.account
  have hwritten : afterGreeting c s.written = body := by
    rw [afterGreeting, hbody, List.drop_left]
  have hdevice : data <+: s.device := by
    rw [← hsum, List.append_assoc]
    exact List.prefix_append _ _
  have hwire : afterGreeting c s.wire <+: body := by
    have hsent : s.wire <+: s.written := (List.prefix_append _ _).trans h.sent
    rw [← hwritten]
    exact hsent.drop _
  refine ⟨hbody ▸ List.prefix_append _ _, fun hp => ?_, fun hp => ?_⟩
  · rw [hp] at hdata
    have hdata : body = data := hdata
    rw [hwritten]
    subst hdata
    exact ⟨hdevice, hwire.trans hdevice⟩
  · rw [hp] at hdata
    obtain ⟨tokens, hall, rfl, rfl⟩ := hdata
    obtain ⟨whole, cut, hwhole, heq, hcut⟩ := prefix_flatMap hwire
    refine ⟨tokens, hall, hwritten, hdevice, whole, cut, hwhole, heq, ?_⟩
    by_cases hheld : s.aborted = true ∨ s.buffer ≠ []
    · exact hcut.imp_right fun ht => ⟨hheld, ht⟩
    · -- everything that was written was sent, so no token is cut
      rw [not_or, not_not, Bool.not_eq_true] at hheld
      have hall := h.buffered hheld.1
      rw [hheld.2, List.append_nil] at hall
      rw [hall, hwritten] at heq
      refine hcut.imp_right fun ⟨t, ht, hpre, hne⟩ => absurd ?_ hne
      have hlonger := ht.flatMap Token.encode
      rw [List.flatMap_append, List.flatMap_singleton, heq, List.prefix_append_right_inj] at hlonger
      exact hpre.eq_of_length (le_antisymm hpre.length_le hlonger.length_le)

/-- A telnet client without a banner. -/
def telnetClient : Client := ⟨.telnet, [], 16, false, []⟩

/-- The device says `a` and `0xFF` while the client asks for an option; the client is kicked when
    half of the doubled byte is sent. -/
def kickedSession : List Event :=
  [.started, .serialRead [97, 255], .netRead [255, 253, 24], .get, .drained, .get, .transmit 14, .kick]

/-- The kicked client got `a` and the front of a token. -/
theorem client_stream_kicked :
    ∃ s tokens whole cut, run (step telnetClient) (start telnetClient []) kickedSession = some s ∧
      afterGreeting telnetClient s.wire = [97, 255] ∧
      [97, 255] = whole.flatMap Token.encode ++ cut ∧ whole <+: tokens ∧
      tokens.flatMap Token.payload <+: [97, 255] := by
  have hsome : (run (step telnetClient) (start telnetClient []) kickedSession).isSome = true := by
    decide
  obtain ⟨s, hs⟩ := Option.isSome_iff_exists.1 hsome
  have hwire : (run (step telnetClient) (start telnetClient []) kickedSession).map
      (fun s => (afterGreeting telnetClient s.wire, s.device)) = some ([97, 255], [97, 255]) := by
    decide
  rw [hs, Option.map_some, Option.some.injEq, Prod.mk.injEq] at hwire
  obtain ⟨-, -, htelnet⟩ := client_stream telnetClient [] kickedSession s hs
  obtain ⟨tokens, -, -, hdata, whole, cut, hwhole, hcut, -⟩ := htelnet rfl
  exact ⟨s, tokens, whole, cut, hs, hwire.1, hwire.1 ▸ hcut, hwhole, hwire.2 ▸ hdata⟩

end Ser2Net.Engine.ClientConn
