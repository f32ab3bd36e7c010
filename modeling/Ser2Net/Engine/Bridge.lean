import Ser2Net.Lib.Trace
import Mathlib.Order.Nat
import Mathlib.Tactic.Common

namespace Ser2Net.Engine.Bridge

open Ser2Net.Lib

/-!
# Engine — admission of TCP clients (`MappingRunner._on_client`)

The bridge runner shares one serial port between up to `max_connections` TCP clients.
Each accepted socket runs `_on_client` as a task of its own; between two awaits a handler
runs alone, so an interleaving is a list of the atomic pieces:

* `connect` — from the accept to the first await: access check, capacity check, choice
  and kick of a victim, and (unless RFC2217 has to wait for the device) the registration;
* `resume` — a handler that waited for the serial device goes on;
* `finish` — a client's `run()` has ended and its handler takes it out of `_clients`;
* `rehash` — `_clients` is a set, so the order in which it is iterated is arbitrary.

A kicked client stays in `_clients` until its own handler finishes.  The capacity check
counts it and `_pick_victim` may pick it again; a newcomer that waits for the device is
not counted at all.  `unkicked_le_maxConnections` is the bound on the runs in which
neither happens, `unkicked_exceeds_maxConnections` a run in which the first one does.
-/

/-- `PROTOCOLS` of a network mapping. -/
inductive Protocol
  | raw | telnet | rfc2217 | modbus
  deriving DecidableEq, Repr

/-- What `_on_client` reads of its mapping.  `clientAllowed` and `inPriorityNets` are the
    address checks `_client_allowed` and `_ip_in_nets(_, _priority_nets)`. -/
structure ServerNet where
  maxConnections : Nat
  kickOldUser : Bool
  protocol : Protocol
  clientAllowed : String → Bool
  inPriorityNets : String → Bool

/-- A `_ClientConn`: `ref` is the object's identity, `kicked` records that `kick` was
    called on it (`closing` is also set by a graceful close or a slow client's drop). -/
structure ClientConn where
  ref : Nat
  peer : String
  priority : Bool
  connectedAt : Int
  closing : Bool
  closeReason : String
  kicked : Bool
  deriving DecidableEq, Repr

/-- A handler suspended in the RFC2217 wait, past its capacity check. -/
structure Newcomer where
  peer : String
  priority : Bool
  deriving DecidableEq, Repr

/-- The runner's shared state: `_clients` in iteration order, the handlers waiting for
    the serial device, and `_serial_ready`. -/
structure Server where
  clients : List ClientConn
  waiting : List Newcomer
  serialReady : Bool
  nextRef : Nat
  deriving DecidableEq, Repr

/-- A runner that has just started listening. -/
def Server.init : Server := ⟨[], [], false, 0⟩

/-- `_ClientConn.kick`: the first reason wins, the transport is aborted. -/
def ClientConn.kick (c : ClientConn) (reason : String) : ClientConn :=
  { c with
    closing := true
    closeReason := if c.closeReason = "" then reason else c.closeReason
    kicked := true }

/-- `_ClientConn.request_graceful_close`: no new serial data, but no kick either. -/
def ClientConn.requestGracefulClose (c : ClientConn) : ClientConn :=
  if c.closing then c
  else
    { c with
      closing := true
      closeReason := if c.closeReason = "" then "closed by closeon match" else c.closeReason }

/-- `feed_from_serial` with a full output queue: the slow client is dropped. -/
def ClientConn.dropSlow (c : ClientConn) : ClientConn :=
  if c.closing then c
  else
    { c with
      closing := true
      closeReason :=
        if c.closeReason = "" then "dropped: output queue full (slow client)" else c.closeReason }

/-- `_pick_victim`: the oldest non-priority client, else the oldest client overall
    (`min` returns the first of several oldest ones in iteration order). -/
def pickVictim (clients : List ClientConn) : Option ClientConn :=
  let nonPriority := clients.filter (fun c => !c.priority)
  let pool := if nonPriority.isEmpty then clients else nonPriority
  pool.minOn? fun c => c.connectedAt

/-- `victim.kick(…)` on the object with identity `ref`. -/
def kickRef (clients : List ClientConn) (ref : Nat) (reason : String) : List ClientConn :=
  clients.map fun c => if c.ref = ref then c.kick reason else c

/-- The label a peer is logged under. -/
def peerLabel (ip : String) (port : Nat) : String :=
  if port = 0 then ip else ip ++ ":" ++ toString port

/-- Make room for a newcomer: kick the chosen victim, if there is one. -/
def evict (s : Server) (isPriority : Bool) (label : String) : Server :=
  match pickVictim s.clients with
  | none => s
  | some victim =>
    let why := if isPriority then "priority client" else "new client"
    { s with clients := kickRef s.clients victim.ref ("kicked for " ++ why ++ " " ++ label) }

/-- The newcomer's `_ClientConn` is created and added to `_clients`. -/
def register (s : Server) (n : Newcomer) (now : Int) : Server :=
  { s with
    clients := s.clients ++ [⟨s.nextRef, n.peer, n.priority, now, false, "", false⟩]
    nextRef := s.nextRef + 1 }

/-- Past the capacity check: RFC2217 needs the live serial instance and waits for it,
    every other protocol registers at once. -/
def letIn (net : ServerNet) (s : Server) (n : Newcomer) (now : Int) : Server :=
  if net.protocol = .rfc2217 ∧ s.serialReady = false then
    { s with waiting := s.waiting ++ [n] }
  else register s n now

/-- The newcomer is turned away: not in the allowed list, or no free slot and no right to
    kick (it is sent "Busy: maximum connections reached." and closed). -/
def Refused (net : ServerNet) (s : Server) (ip : String) : Prop :=
  net.clientAllowed ip = false ∨
    (net.maxConnections ≤ s.clients.length ∧ net.inPriorityNets ip = false ∧
      net.kickOldUser = false)

instance (net : ServerNet) (s : Server) (ip : String) : Decidable (Refused net s ip) :=
  inferInstanceAs (Decidable (_ ∨ _))

/-- `_on_client` from the accept to its first await. -/
def onClient (net : ServerNet) (s : Server) (ip : String) (port : Nat) (now : Int) : Server :=
  let isPriority := net.inPriorityNets ip
  let label := peerLabel ip port
  if Refused net s ip then s
  else if net.maxConnections ≤ s.clients.length then
    letIn net (evict s isPriority label) ⟨label, isPriority⟩ now
  else letIn net s ⟨label, isPriority⟩ now

/-- `_on_client` after the RFC2217 wait: the device is there, or the newcomer is refused. -/
def afterWait (s : Server) (i : Nat) (n : Newcomer) (now : Int) : Server :=
  let rest := { s with waiting := s.waiting.eraseIdx i }
  if s.serialReady then register rest n now else rest

/-- What can happen next on one runner in TCP server mode. -/
inductive Event
  | connect (ip : String) (port : Nat) (now : Int)
  | resume (i : Nat) (now : Int)
  | finish (ref : Nat)
  | serialReady (ready : Bool)
  | slowClient (ref : Nat)
  | gracefulClose
  | stop
  | rehash (order : List ClientConn)

/-- One atomic piece of one task. -/
def step (net : ServerNet) (s : Server) : Event → Option Server
  | .connect ip port now => some (onClient net s ip port now)
  | .resume i now => (s.waiting[i]?).map fun n => afterWait s i n now
  | .finish ref => some { s with clients := s.clients.filter (fun c => c.ref ≠ ref) }
  | .serialReady ready => some { s with serialReady := ready }
  | .slowClient ref =>
    some { s with clients := s.clients.map fun c => if c.ref = ref then c.dropSlow else c }
  | .gracefulClose => some { s with clients := s.clients.map ClientConn.requestGracefulClose }
  | .stop => some { s with clients := s.clients.map (·.kick "mapping stopped") }
  | .rehash order => if order.isPerm s.clients then some { s with clients := order } else none

/-- The clients in `_clients` that have not been kicked. -/
def unkicked (s : Server) : Nat := s.clients.countP (fun c => !c.kicked)

/-- The slots in use: unkicked clients and newcomers past their capacity check. -/
def slots (s : Server) : Nat := unkicked s + s.waiting.length

/-- The condition on a step: a newcomer that is let in finds a free slot, or evicts a
    client that has not been kicked before. -/
def MakesRoom (net : ServerNet) (s : Server) : Event → Prop
  | .connect ip _ _ =>
      Refused net s ip ∨ slots s < net.maxConnections ∨
        (net.maxConnections ≤ s.clients.length ∧
          ∃ victim, pickVictim s.clients = some victim ∧ victim.kicked = false)
  | _ => True

/-! ### What the pieces do to the slots in use -/

/-- The victim is one of the clients. -/
theorem pickVictim_mem {clients : List ClientConn} {v : ClientConn}
    (h : pickVictim clients = some v) : v ∈ clients := by
  unfold pickVictim at h
  have hv := List.minOn?_mem h
  split at hv
  · exact hv
  · exact (List.mem_filter.mp hv).1

/-- What happens to clients that are kicked already frees no slot again, and a client that
    is not kicked takes one at most. -/
theorem unkicked_map_le (clients : List ClientConn) (f : ClientConn → ClientConn)
    (hf : ∀ c, c.kicked = true → (f c).kicked = true) :
    (clients.map f).countP (fun c => !c.kicked) ≤ clients.countP (fun c => !c.kicked) := by
  rw [List.countP_map]
  apply List.countP_mono_left
  intro c _ hc
  cases hk : c.kicked with
  | false => rfl
  | true => simp [hf c hk] at hc

/-- A change that kicks or leaves alone takes no slot. -/
theorem slots_map_le (s : Server) (f : ClientConn → ClientConn)
    (hf : ∀ c, c.kicked = true → (f c).kicked = true) :
    slots { s with clients := s.clients.map f } ≤ slots s := by
  show (s.clients.map f).countP (fun c => !c.kicked) + s.waiting.length ≤
    s.clients.countP (fun c => !c.kicked) + s.waiting.length
  have hle := unkicked_map_le s.clients f hf
  omega

/-- A kick keeps the kicked clients kicked. -/
theorem kick_kicked (ref : Nat) (reason : String) (c : ClientConn) (hc : c.kicked = true) :
    (if c.ref = ref then c.kick reason else c).kicked = true := by
  split
  · rfl
  · exact hc

/-- Kicking a client that was not kicked yet frees its slot. -/
theorem unkicked_kickRef_lt {clients : List ClientConn} {v : ClientConn} (reason : String)
    (hv : v ∈ clients) (hk : v.kicked = false) :
    (kickRef clients v.ref reason).countP (fun c => !c.kicked)
      < clients.countP (fun c => !c.kicked) := by
  obtain ⟨l, r, rfl⟩ := List.append_of_mem hv
  -- the clients around the victim take no more slots than before, the victim takes none
  have hl := unkicked_map_le l _ (kick_kicked v.ref reason)
  have hr := unkicked_map_le r _ (kick_kicked v.ref reason)
  unfold kickRef
  simp only [List.map_append, List.map_cons, List.countP_append, List.countP_cons, if_true,
    ClientConn.kick, hk]
  simp only [ClientConn.kick] at hl hr
  simp only [Bool.not_true, Bool.not_false, if_true, Bool.false_eq_true, if_false]
  omega

/-- A client that is registered takes a slot. -/
theorem slots_register (s : Server) (n : Newcomer) (now : Int) :
    slots (register s n now) = slots s + 1 := by
  simp only [slots, unkicked, register, List.countP_append, List.countP_cons, List.countP_nil]
  simp only [Bool.not_false, if_true]
  omega

/-- A client that is let in takes a slot. -/
theorem slots_letIn (net : ServerNet) (s : Server) (n : Newcomer) (now : Int) :
    slots (letIn net s n now) = slots s + 1 := by
  unfold letIn
  split
  · simp only [slots, unkicked, List.length_append, List.length_singleton]
    omega
  · exact slots_register s n now

/-- An eviction frees the slot of a victim that was not kicked before. -/
theorem slots_evict_lt {s : Server} {v : ClientConn} (isPriority : Bool) (label : String)
    (hv : pickVictim s.clients = some v) (hk : v.kicked = false) :
    slots (evict s isPriority label) < slots s := by
  have hlt := unkicked_kickRef_lt
    ("kicked for " ++ (if isPriority then "priority client" else "new client") ++ " " ++ label)
    (pickVictim_mem hv) hk
  simp only [slots, unkicked, evict, hv]
  omega

/-- An eviction takes no slot. -/
theorem slots_evict_le (s : Server) (isPriority : Bool) (label : String) :
    slots (evict s isPriority label) ≤ slots s := by
  unfold evict
  split
  · exact le_refl _
  · exact slots_map_le s _ (kick_kicked _ _)

/-- The accept: under `MakesRoom` it keeps the slots within the limit. -/
theorem slots_onClient_le (net : ServerNet) (s : Server) (ip : String) (port : Nat) (now : Int)
    (hs : slots s ≤ net.maxConnections) (hroom : MakesRoom net s (.connect ip port now)) :
    slots (onClient net s ip port now) ≤ net.maxConnections := by
  unfold onClient
  by_cases href : Refused net s ip
  · rw [if_pos href]; exact hs
  rw [if_neg href]
  rcases hroom with h | hfree | ⟨hfull, v, hv, hk⟩
  · exact absurd h href
  · split
    · rw [slots_letIn]
      have := slots_evict_le s (net.inPriorityNets ip) (peerLabel ip port)
      omega
    · rw [slots_letIn]; omega
  · rw [if_pos hfull, slots_letIn]
    have := slots_evict_lt (net.inPriorityNets ip) (peerLabel ip port) hv hk
    omega

/-- The end of a wait takes no slot. -/
theorem slots_afterWait_le {s : Server} {i : Nat} {n : Newcomer} (now : Int)
    (hi : s.waiting[i]? = some n) : slots (afterWait s i n now) ≤ slots s := by
  have hlt : i < s.waiting.length := (List.getElem?_eq_some_iff.mp hi).1
  have hlen : (s.waiting.eraseIdx i).length = s.waiting.length - 1 :=
    List.length_eraseIdx_of_lt hlt
  have hrest : slots { s with waiting := s.waiting.eraseIdx i } + 1 = slots s := by
    simp only [slots, unkicked, hlen]
    omega
  unfold afterWait
  split
  · rw [slots_register, hrest]
  · show slots { s with waiting := s.waiting.eraseIdx i } ≤ slots s
    omega

/-- Marking clients as closing or kicked never frees a kicked one. -/
theorem requestGracefulClose_kicked (c : ClientConn) :
    c.requestGracefulClose.kicked = c.kicked := by
  unfold ClientConn.requestGracefulClose
  split <;> rfl

/-- Dropping a slow client does not kick it. -/
theorem dropSlow_kicked (c : ClientConn) : c.dropSlow.kicked = c.kicked := by
  unfold ClientConn.dropSlow
  split <;> rfl

/-- **Step lemma.**  Every step that meets `MakesRoom` keeps the slots within the limit. -/
theorem slots_step_le (net : ServerNet) (s : Server) (e : Event) (s' : Server)
    (hs : slots s ≤ net.maxConnections) (hroom : MakesRoom net s e)
    (hstep : step net s e = some s') : slots s' ≤ net.maxConnections := by
  cases e with
  | connect ip port now =>
    simp only [step, Option.some.injEq] at hstep
    exact hstep ▸ slots_onClient_le net s ip port now hs hroom
  | resume i now =>
    simp only [step, Option.map_eq_some_iff] at hstep
    obtain ⟨n, hn, rfl⟩ := hstep
    exact le_trans (slots_afterWait_le now hn) hs
  | finish ref =>
    simp only [step, Option.some.injEq] at hstep
    subst hstep
    -- a finished client only leaves
    have hle := List.filter_sublist (l := s.clients) (p := fun c => decide (c.ref ≠ ref))
      |>.countP_le (p := fun c => !c.kicked)
    simp only [slots, unkicked] at hs ⊢
    omega
  | serialReady ready =>
    simp only [step, Option.some.injEq] at hstep
    exact hstep ▸ hs
  | slowClient ref =>
    simp only [step, Option.some.injEq] at hstep
    subst hstep
    refine le_trans (slots_map_le s _ fun c hc => ?_) hs
    split
    · exact (dropSlow_kicked c).trans hc
    · exact hc
  | gracefulClose =>
    simp only [step, Option.some.injEq] at hstep
    subst hstep
    exact le_trans (slots_map_le s _ fun c hc => (requestGracefulClose_kicked c).trans hc) hs
  | stop =>
    simp only [step, Option.some.injEq] at hstep
    subst hstep
    exact le_trans (slots_map_le s _ fun _ _ => rfl) hs
  | rehash order =>
    simp only [step] at hstep
    split at hstep
    · rename_i hperm
      rw [Option.some.injEq] at hstep
      subst hstep
      -- a set has no order, and no client changes by being visited in another
      have heq := (List.isPerm_iff.mp hperm).countP_eq (fun c => !c.kicked)
      simp only [slots, unkicked] at hs ⊢
      omega
    · exact absurd hstep (by simp)

/-! ### The limit over whole runs -/

/-- **The connection limit.**  In every run in which each newcomer that is let in finds a
    free slot or evicts a client not kicked before, at most `max_connections` clients of
    `_clients` are unkicked at any time. -/
theorem unkicked_le_maxConnections (net : ServerNet) (es : List Event) (s : Server)
    (hroom : Along (step net) (MakesRoom net) Server.init es)
    (hrun : run (step net) Server.init es = some s) :
    unkicked s ≤ net.maxConnections := by
  have hslots : slots s ≤ net.maxConnections :=
    run_invariant (fun s => slots s ≤ net.maxConnections) (slots_step_le net)
      (Nat.zero_le _) hroom hrun
  exact le_trans (Nat.le_add_right _ _) hslots

/-- A raw TCP port for one client, where a newcomer kicks the old one. -/
def kickingPort : ServerNet := ⟨1, true, .raw, fun _ => true, fun _ => false⟩

/-- A newcomer kicks the only client, which leaves before the next newcomer arrives. -/
theorem unkicked_le_maxConnections_handover :
    ∃ s, run (step kickingPort) Server.init
        [.connect "10.0.0.1" 1 0, .connect "10.0.0.2" 2 1, .finish 0, .connect "10.0.0.3" 3 2]
        = some s ∧ unkicked s ≤ kickingPort.maxConnections := by
  refine ⟨_, rfl, unkicked_le_maxConnections kickingPort
    [.connect "10.0.0.1" 1 0, .connect "10.0.0.2" 2 1, .finish 0, .connect "10.0.0.3" 3 2] _
    ?_ rfl⟩
  refine ⟨.inr (.inl (by decide)), fun s₁ h₁ => ?_⟩
  cases h₁
  refine ⟨.inr (.inr ⟨by decide, _, rfl, rfl⟩), fun s₂ h₂ => ?_⟩
  cases h₂
  refine ⟨trivial, fun s₃ h₃ => ?_⟩
  cases h₃
  exact ⟨.inr (.inr ⟨by decide, _, rfl, rfl⟩), fun _ _ => trivial⟩

/-- Three clients in a row on a one-client port: the third newcomer's victim is the first
    client again, which was kicked already and has not left yet, so the second and the
    third both stay. -/
theorem unkicked_exceeds_maxConnections :
    ∃ s, run (step kickingPort) Server.init
        [.connect "10.0.0.1" 1 0, .connect "10.0.0.2" 2 1, .connect "10.0.0.3" 3 2] = some s ∧
      1 ≤ kickingPort.maxConnections ∧ ¬ unkicked s ≤ kickingPort.maxConnections :=
  ⟨_, rfl, by decide, by decide⟩

end Ser2Net.Engine.Bridge
