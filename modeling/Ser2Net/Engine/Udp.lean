import Ser2Net.Lib.Trace
import Ser2Net.Lib.Binary
import Ser2Net.Lib.PyUnicode
import Ser2Net.Engine.Access

namespace Ser2Net.Engine.Udp

open Ser2Net.Lib Ser2Net.Lib.PyUnicode Ser2Net.Lib.Ipaddress Ser2Net.Engine.Access

/-!
# Engine — the UDP bridge (`_UdpBridge` and `_UdpPeer` of `bridge.py`)

A UDP mapping has one socket and one serial device.  The last sender is the peer: it gets what
the device says.  UDP has no accept step, so the access list is asked about every datagram.

* `step` — a datagram, a serial read, the device opening or closing;
* `deviceBytes`, `replies` — what a history should make of the device and of the network;
* `run_spec` — a run writes and sends just that;
* `history_spec` — and the datagrams of sources that are not allowed change nothing.
-/

/-- What the bridge reads of a mapping. -/
structure Runner where
  /-- `_allowed_nets` -/
  allowedNets : List Network
  readOnly : Bool
  openstr : UStr

/-- `s.encode("utf-8", "replace")`: a lone surrogate becomes a question mark. -/
def encodeReplace (s : UStr) : Bytes :=
  s.flatMap fun p => match p with
    | .char c => String.utf8EncodeChar c
    | .surrogate _ => ['?'.toUInt8]

/-- `options.openstr.encode("utf-8", "replace")`, when there is one. -/
def Runner.openBytes (r : Runner) : Bytes := encodeReplace r.openstr

/-- The address of a datagram's source. -/
structure SockAddr where
  host : String
  port : Nat
  flowinfo : Nat := 0
  scopeId : Nat := 0
  deriving DecidableEq, Repr

structure State where
  /-- `_swriter` is there: the device is open. -/
  opened : Bool
  /-- The addresses of the `_UdpPeer`s in `_clients`. -/
  clients : List SockAddr
  /-- What was written to the device. -/
  written : Bytes
  /-- What was sent on the socket. -/
  sent : List (Bytes × SockAddr)
  deriving DecidableEq, Repr

/-- A mapping that has just started. -/
def State.init : State := ⟨false, [], [], []⟩

inductive Event
  /-- `datagram_received` -/
  | datagram (data : Bytes) (addr : SockAddr)
  /-- `_serial_read_loop` gets data -/
  | serialRead (data : Bytes)
  | serialOpen
  | serialClose
  deriving DecidableEq, Repr

/-- The first UDP peer among the clients takes the sender's address; without one the sender is a
    new peer. -/
def trackPeer (addr : SockAddr) : List SockAddr → List SockAddr
  | [] => [addr]
  | peer :: rest => if peer ≠ addr then addr :: rest else peer :: rest

/-- `datagram_received`. -/
def datagramReceived (r : Runner) (s : State) (data : Bytes) (addr : SockAddr) : State :=
  if !clientAllowed r.allowedNets addr.host then s
  else
    let s := { s with clients := trackPeer addr s.clients }
    if r.readOnly then s
    else if s.opened then { s with written := s.written ++ data }
    else s

/-- `feed_from_serial` of one peer after the other. -/
def feedFromSerial (s : State) (data : Bytes) : State :=
  { s with sent := s.sent ++ s.clients.map fun addr => (data, addr) }

/-- One event; the device is read while it is open. -/
def step (r : Runner) (s : State) : Event → Option State
  | .datagram data addr => some (datagramReceived r s data addr)
  | .serialRead data => if s.opened ∧ data ≠ [] then some (feedFromSerial s data) else none
  | .serialOpen =>
    -- the open string is written before anything else can run
    if s.opened then none
    else some { s with opened := true, written := s.written ++ r.openBytes }
  | .serialClose => if s.opened then some { s with opened := false } else none

/-! ### What a history should lead to -/

/-- The datagram is of a source that is not allowed. -/
def Event.refused (r : Runner) : Event → Bool
  | .datagram _ addr => !clientAllowed r.allowedNets addr.host
  | _ => false

/-- The bytes for the device: `greeting` at each opening, and the datagrams from allowed sources
    that come while it is open, unless the mapping is read-only. -/
def deviceBytes (r : Runner) (greeting : Bytes) : Bool → List Event → Bytes
  | _, [] => []
  | _, .serialOpen :: es => greeting ++ deviceBytes r greeting true es
  | _, .serialClose :: es => deviceBytes r greeting false es
  | opened, .serialRead _ :: es => deviceBytes r greeting opened es
  | opened, .datagram data addr :: es =>
    (if opened && clientAllowed r.allowedNets addr.host && !r.readOnly then data else []) ++
      deviceBytes r greeting opened es

/-- The datagrams for the network: each serial read goes to the last allowed sender, if there
    is one. -/
def replies (r : Runner) : Option SockAddr → List Event → List (Bytes × SockAddr)
  | _, [] => []
  | last, .serialRead data :: es => (last.map fun addr => (data, addr)).toList ++ replies r last es
  | last, .datagram _ addr :: es =>
    replies r (if clientAllowed r.allowedNets addr.host then some addr else last) es
  | last, .serialOpen :: es => replies r last es
  | last, .serialClose :: es => replies r last es

/-! ### Datagrams -/

variable {r : Runner} {s s' : State} {data : Bytes} {addr : SockAddr}

/-- A source that is not allowed changes nothing. -/
theorem datagramReceived_refused (h : clientAllowed r.allowedNets addr.host = false) :
    datagramReceived r s data addr = s := by
  simp [datagramReceived, h]

/-- There is one peer, and it is the sender. -/
theorem trackPeer_eq {clients : List SockAddr} (hone : clients.length ≤ 1) :
    trackPeer addr clients = [addr] := by
  cases clients with
  | nil => rfl
  | cons peer rest =>
    have hrest : rest = [] := List.length_eq_zero_iff.1 (by simpa using hone)
    by_cases hp : peer = addr <;> simp [trackPeer, hp, hrest]

/-- An allowed source becomes the one peer, and its bytes go to the open device. -/
theorem datagramReceived_allowed (h : clientAllowed r.allowedNets addr.host = true)
    (hone : s.clients.length ≤ 1) :
    datagramReceived r s data addr =
      { s with
        clients := [addr]
        written := s.written ++ if s.opened && !r.readOnly then data else [] } := by
  unfold datagramReceived
  rw [h, trackPeer_eq hone]
  cases r.readOnly <;> cases s.opened <;> simp

/-! ### Runs -/

/-- **Runs.**  From any state with one peer at most, a history writes and sends what it should,
    and there is one peer at most again. -/
theorem run_spec {es : List Event} (hone : s.clients.length ≤ 1)
    (hrun : run (step r) s es = some s') :
    s'.written = s.written ++ deviceBytes r r.openBytes s.opened es ∧
      s'.sent = s.sent ++ replies r s.clients.head? es ∧ s'.clients.length ≤ 1 := by
  induction es generalizing s with
  | nil =>
    obtain rfl : s = s' := Option.some.inj hrun
    simpa [deviceBytes, replies] using hone
  | cons e es ih =>
    rw [run_cons, Option.bind_eq_some_iff] at hrun
    obtain ⟨t, ht, hrun⟩ := hrun
    cases e with
    | datagram data addr =>
      obtain rfl : datagramReceived r s data addr = t := Option.some.inj ht
      cases hallowed : clientAllowed r.allowedNets addr.host with
      | false =>
        rw [datagramReceived_refused hallowed] at hrun
        simpa [deviceBytes, replies, hallowed] using ih hone hrun
      | true =>
        rw [datagramReceived_allowed hallowed hone] at hrun
        obtain ⟨hw, hs, hc⟩ := ih (by simp) hrun
        refine ⟨?_, ?_, hc⟩
        · rw [hw, deviceBytes, hallowed, Bool.and_true, List.append_assoc]
        · simpa [replies, hallowed] using hs
    | serialRead data =>
      simp only [step] at ht
      split at ht
      · obtain rfl : feedFromSerial s data = t := Option.some.inj ht
        obtain ⟨hw, hs, hc⟩ := ih (s := feedFromSerial s data) hone hrun
        refine ⟨hw, ?_, hc⟩
        -- one datagram for the one peer
        have hpeer : s.clients.map (fun addr => (data, addr)) =
            (s.clients.head?.map fun addr => (data, addr)).toList := by
          match s.clients, hone with
          | [], _ => rfl
          | [addr], _ => rfl
        rw [hs, replies, ← hpeer, ← List.append_assoc]
        rfl
      · cases ht
    | serialOpen =>
      simp only [step] at ht
      split at ht
      · cases ht
      · obtain rfl := Option.some.inj ht
        obtain ⟨hw, hs, hc⟩ := ih (s := { s with opened := true, written := _ }) hone hrun
        exact ⟨by rw [hw, deviceBytes, List.append_assoc], hs, hc⟩
    | serialClose =>
      simp only [step] at ht
      split at ht
      · obtain rfl := Option.some.inj ht
        exact ih (s := { s with opened := false }) hone hrun
      · cases ht

/-- **The law of a UDP mapping.**  In every history: the device was written the open string at
    each opening and the datagrams that came from allowed sources while it was open (not those
    of a read-only mapping), in order; every serial read was sent as one datagram to the last
    allowed sender before it; there is one UDP peer at most; and without the datagrams of
    sources that are not allowed the history leads to the same state. -/
theorem history_spec (r : Runner) (es : List Event) (s : State)
    (hrun : run (step r) State.init es = some s) :
    s.written = deviceBytes r r.openBytes false es ∧ s.sent = replies r none es ∧
      s.clients.length ≤ 1 ∧
      run (step r) State.init (es.filter fun e => !e.refused r) = some s := by
  obtain ⟨hwritten, hsent, hone⟩ := run_spec (s := State.init) (Nat.zero_le 1) hrun
  refine ⟨hwritten, hsent, hone, ?_⟩
  rw [run_filter, hrun]
  intro s e he
  cases e with
  | datagram data addr =>
    have hrefused : clientAllowed r.allowedNets addr.host = false := by simpa [Event.refused] using he
    exact congrArg some (datagramReceived_refused hrefused)
  | serialRead _ => simp [Event.refused] at he
  | serialOpen => simp [Event.refused] at he
  | serialClose => simp [Event.refused] at he

/-- A mapping for the machines of one network. -/
def plant (openstr : String) : Runner :=
  ⟨(ipNetwork "10.0.0.0/24").toList, false, ofText openstr.toList⟩

/-- A machine of the network and a stranger send, then the device answers. -/
def strangerHistory : List Event :=
  [.serialOpen, .datagram [1] ⟨"10.0.0.5", 5000, 0, 0⟩, .datagram [2] ⟨"203.0.113.7", 6000, 0, 0⟩,
    .serialRead [3]]

/-- The stranger is not answered. -/
theorem history_spec_stranger :
    let s : State := ⟨true, [⟨"10.0.0.5", 5000, 0, 0⟩], [65, 84, 1], [([3], ⟨"10.0.0.5", 5000, 0, 0⟩)]⟩
    s.sent = replies (plant "AT") none strangerHistory ∧
      run (step (plant "AT")) State.init
        (strangerHistory.filter fun e => !e.refused (plant "AT")) = some s := by
  have h := history_spec (plant "AT") strangerHistory
    ⟨true, [⟨"10.0.0.5", 5000, 0, 0⟩], [65, 84, 1], [([3], ⟨"10.0.0.5", 5000, 0, 0⟩)]⟩
    (by decide +kernel)
  exact ⟨h.2.1, h.2.2.2⟩

/-- The open string reaches the device though no datagram brought it. -/
theorem openstr_written :
    ∃ s, run (step (plant "AT")) State.init [.serialOpen] = some s ∧
      s.written ≠ deviceBytes (plant "AT") [] false [.serialOpen] :=
  ⟨⟨true, [], [65, 84], []⟩, by decide +kernel, by decide +kernel⟩

end Ser2Net.Engine.Udp
