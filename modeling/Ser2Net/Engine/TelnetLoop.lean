import Ser2Net.Engine.Telnet

namespace Ser2Net.Engine.Telnet

open Ser2Net.Lib TelnetSession

/-!
# Loop avoidance of the telnet negotiation

Two peers that answer every command would go on for ever.  The session records for each option
what it last said about it, on either side of the connection, and speaks only to say something
else.  The replies wait in a buffer that is not filled beyond a cap; a chunk of the bridge does
not fill it.

* `Side`, `recorded`, `commands` — what was said of an option, and what is recorded;
* `negotiate_eq` — the four commands are one rule;
* `Follows` — the invariant between the commands sent and the record;
* `pump_follows` — a chunk keeps it, the cap being out of reach;
* `loop_avoidance` — whole streams.
-/

/-! ### What is said of an option -/

/-- Who performs an option: we (`_local`, `WILL` and `WONT`) or the peer (`_remote`, `DO` and
    `DONT`). -/
inductive Side
  | ours | theirs
  deriving DecidableEq, Repr

/-- The command that says yes, or no. -/
def Side.verb : Side → Bool → UInt8
  | .ours, true => will
  | .ours, false => wont
  | .theirs, true => do_
  | .theirs, false => dont

/-- The entry of `_local` or `_remote`. -/
def recorded (side : Side) (s : TelnetSession) (opt : UInt8) : Option Bool :=
  match side with
  | .ours => s.localOpts opt
  | .theirs => s.remoteOpts opt

/-- The bytes of a command. -/
def triple (c : UInt8 × UInt8) : Bytes := [iac, c.1, c.2]

/-- What the commands said of one option on one side, in order. -/
def commands (side : Side) (opt : UInt8) (sent : List (UInt8 × UInt8)) : List Bool :=
  sent.filterMap fun c =>
    if c = (side.verb true, opt) then some true
    else if c = (side.verb false, opt) then some false
    else none

/-- The side that a received command is about. -/
def sideOf (cmd : UInt8) : Side := if cmd = do_ ∨ cmd = dont then .ours else .theirs

/-- A received command asks for a supported option. -/
def agrees (cmd opt : UInt8) : Bool := (cmd = do_ ∨ cmd = will) ∧ opt ∈ supported

/-- The answer to a received command, when there is one. -/
def answer (c : UInt8 × UInt8) : UInt8 × UInt8 := ((sideOf c.1).verb (agrees c.1 c.2), c.2)

/-- The commands of `__init__`. -/
def initial : List (UInt8 × UInt8) :=
  [(will, optBinary), (do_, optBinary), (will, optSga), (do_, optSga)]

/-! ### One rule -/

/-- `self._local[opt] = value`, or `self._remote`. -/
def setOpt (s : TelnetSession) (side : Side) (opt : UInt8) (value : Bool) : TelnetSession :=
  match side with
  | .ours => s.setLocal opt value
  | .theirs => s.setRemote opt value

/-- The call of `_negotiate`, recorded. -/
def called (s : TelnetSession) (cmd opt : UInt8) : TelnetSession :=
  { s with calls := s.calls ++ [(cmd, opt)] }

/-- **One rule.**  A command changes the record of its side to what it asks for, as far as the
    option is supported, and is answered when that is a change. -/
theorem negotiate_eq (s : TelnetSession) {cmd : UInt8} (hcmd : cmd ∈ verbs) (opt : UInt8) :
    s.negotiate cmd opt =
      if recorded (sideOf cmd) s opt = some (agrees cmd opt) then called s cmd opt
      else (setOpt (called s cmd opt) (sideOf cmd) opt (agrees cmd opt)).send
        (triple (answer (cmd, opt))) := by
  simp only [verbs, List.mem_cons, List.not_mem_nil, or_false] at hcmd
  rcases hcmd with rfl | rfl | rfl | rfl <;> by_cases hsup : opt ∈ supported <;>
    simp [negotiate, hsup, sideOf, agrees, answer, triple, recorded, setOpt, called, Side.verb,
      do_, dont, will, wont]

/-- Another command is not answered. -/
theorem negotiate_of_not_mem (s : TelnetSession) {cmd : UInt8} (hcmd : cmd ∉ verbs) (opt : UInt8) :
    s.negotiate cmd opt = called s cmd opt := by
  simp only [verbs, List.mem_cons, List.not_mem_nil, or_false, not_or] at hcmd
  simp [negotiate, hcmd, called]

/-! ### The invariant -/

/-- The commands `sent` are what went out and what waits to go out; they alternate, the last is
    the record, an unsupported option is only refused, and each of them after the initial ones
    answers a received command of its own. -/
structure Follows (out : Bytes) (sent : List (UInt8 × UInt8)) (s : TelnetSession) : Prop where
  bytes : out ++ s.netOut = sent.flatMap triple
  alternate : ∀ side opt, (commands side opt sent).IsChain (· ≠ ·)
  last : ∀ side opt, (commands side opt sent).getLast? = recorded side s opt
  refused : ∀ side opt, opt ∉ supported → ∀ b ∈ commands side opt sent, b = false
  replies : ∃ r, sent = initial ++ r ∧ r.Sublist (s.calls.map answer)

theorem commands_append (side : Side) (opt : UInt8) (sent : List (UInt8 × UInt8)) (c : UInt8 × UInt8) :
    commands side opt (sent ++ [c]) = commands side opt sent ++ commands side opt [c] :=
  List.filterMap_append

/-- One command says something of one option on one side. -/
theorem commands_verb (side other : Side) (opt opt' : UInt8) (value : Bool) :
    commands other opt' [(side.verb value, opt)] = if other = side ∧ opt' = opt then [value] else [] := by
  by_cases hopt : opt' = opt
  · subst hopt
    cases side <;> cases other <;> cases value <;>
      simp [commands, Side.verb, do_, dont, will, wont]
  · have hne : opt ≠ opt' := fun h => hopt h.symm
    simp [commands, hopt, hne]

theorem recorded_setOpt (s : TelnetSession) (side other : Side) (opt opt' : UInt8) (value : Bool) :
    recorded other (setOpt s side opt value) opt' =
      if other = side ∧ opt' = opt then some value else recorded other s opt' := by
  cases side <;> cases other <;> simp [recorded, setOpt, setLocal, setRemote]

theorem send_eq {s : TelnetSession} (h : s.netOut.length < maxNetOut) (bs : Bytes) :
    s.send bs = { s with netOut := s.netOut ++ bs } := if_pos h

section
variable {out : Bytes} {sent : List (UInt8 × UInt8)} {s : TelnetSession}

/-- The invariant reads the buffer, the records and the calls. -/
theorem Follows.congr (h : Follows out sent s) {s' : TelnetSession} (hnet : s'.netOut = s.netOut)
    (hlocal : s'.localOpts = s.localOpts) (hremote : s'.remoteOpts = s.remoteOpts)
    (hcalls : s'.calls = s.calls) : Follows out sent s' := by
  refine ⟨by rw [hnet]; exact h.bytes, h.alternate, fun side opt => ?_, h.refused,
    by rw [hcalls]; exact h.replies⟩
  rw [h.last]
  cases side <;> simp [recorded, hlocal, hremote]

/-- A call without an answer. -/
theorem Follows.called (h : Follows out sent s) (cmd opt : UInt8) :
    Follows out sent (called s cmd opt) := by
  obtain ⟨r, hr, hsub⟩ := h.replies
  refine ⟨h.bytes, h.alternate, h.last, h.refused, r, hr, ?_⟩
  show r.Sublist ((s.calls ++ [(cmd, opt)]).map answer)
  rw [List.map_append]
  exact hsub.trans (List.sublist_append_left _ _)

/-- A call with an answer, which says something else than the last time. -/
theorem Follows.answered (h : Follows out sent s) (hroom : s.netOut.length < maxNetOut)
    (cmd opt : UInt8) (hnew : recorded (sideOf cmd) s opt ≠ some (agrees cmd opt)) :
    Follows out (sent ++ [answer (cmd, opt)])
      ((setOpt (Telnet.called s cmd opt) (sideOf cmd) opt (agrees cmd opt)).send
        (triple (answer (cmd, opt)))) := by
  obtain ⟨r, hr, hsub⟩ := h.replies
  have hnet : (setOpt (Telnet.called s cmd opt) (sideOf cmd) opt (agrees cmd opt)).netOut =
      s.netOut := by
    cases sideOf cmd <;> rfl
  have hcalls : (setOpt (Telnet.called s cmd opt) (sideOf cmd) opt (agrees cmd opt)).calls =
      s.calls ++ [(cmd, opt)] := by
    cases sideOf cmd <;> rfl
  rw [send_eq (by rw [hnet]; exact hroom), hnet]
  have hsaid : ∀ side opt', commands side opt' (sent ++ [answer (cmd, opt)]) =
      commands side opt' sent ++ if side = sideOf cmd ∧ opt' = opt then [agrees cmd opt] else [] := by
    intro side opt'
    rw [commands_append, answer, commands_verb]
  refine ⟨?_, fun side opt' => ?_, fun side opt' => ?_, fun side opt' hsup b hb => ?_,
    r ++ [answer (cmd, opt)], ?_, ?_⟩
  · show out ++ (s.netOut ++ triple (answer (cmd, opt))) = _
    rw [← List.append_assoc, h.bytes, List.flatMap_append]
    simp
  · rw [hsaid]
    split
    next hsame =>
      -- the last word on this option was the other one
      obtain ⟨rfl, rfl⟩ := hsame
      refine (h.alternate _ _).append (List.isChain_singleton _) ?_
      intro b hb c hc
      rw [h.last] at hb
      rw [List.head?_cons, Option.mem_some_iff] at hc
      rintro rfl
      exact hnew (hb.trans (congrArg some hc.symm))
    next => simpa using h.alternate side opt'
  · have hrec := recorded_setOpt (Telnet.called s cmd opt) (sideOf cmd) side opt opt' (agrees cmd opt)
    show _ = recorded side (setOpt (Telnet.called s cmd opt) (sideOf cmd) opt (agrees cmd opt)) opt'
    rw [hsaid, hrec]
    split
    next => simp
    next =>
      rw [List.append_nil, h.last]
      rfl
  · rw [hsaid] at hb
    rcases List.mem_append.1 hb with hb | hb
    · exact h.refused side opt' hsup b hb
    · split at hb
      next hsame =>
        rw [List.mem_singleton.1 hb]
        simp [agrees, ← hsame.2, hsup]
      next => cases hb
  · rw [hr, List.append_assoc]
  · show (r ++ [answer (cmd, opt)]).Sublist (List.map answer (setOpt _ _ _ _).calls)
    rw [hcalls, List.map_append]
    exact hsub.append (List.Sublist.refl _)

/-- **One command.**  While there is room for a reply, the invariant stays. -/
theorem Follows.negotiate (h : Follows out sent s) (hroom : s.netOut.length < maxNetOut)
    (cmd opt : UInt8) : ∃ sent', Follows out sent' (s.negotiate cmd opt) := by
  by_cases hcmd : cmd ∈ verbs
  · rw [negotiate_eq s hcmd]
    split
    next => exact ⟨sent, h.called cmd opt⟩
    next hnew => exact ⟨_, h.answered hroom cmd opt hnew⟩
  · rw [negotiate_of_not_mem s hcmd]
    exact ⟨sent, h.called cmd opt⟩

end

/-! ### A chunk -/

/-- The bytes of an unfinished command that were read. -/
def pending : ParseState → Nat
  | .iac => 1
  | .opt => 2
  | _ => 0

theorem negotiate_netOut_length (s : TelnetSession) (cmd opt : UInt8) :
    (s.negotiate cmd opt).netOut.length ≤ s.netOut.length + 3 := by
  have hsend : ∀ (t : TelnetSession) (c : UInt8 × UInt8), t.netOut = s.netOut →
      (t.send (triple c)).netOut.length ≤ s.netOut.length + 3 := by
    intro t c ht
    unfold send
    split
    · simp [ht, triple]
    · rw [ht]
      omega
  by_cases hcmd : cmd ∈ verbs
  · rw [negotiate_eq s hcmd]
    split
    · simp [called]
    · refine hsend _ _ ?_
      cases sideOf cmd <;> rfl
  · rw [negotiate_of_not_mem s hcmd]
    simp [called]

/-- One byte, after `k` bytes of the chunk: a reply takes no more room than the command took, so
    there is room for it. -/
theorem fromNetworkByte_follows {out : Bytes} {sent : List (UInt8 × UInt8)} {s : TelnetSession}
    (h : Follows out sent s) {k : Nat} (hk : k < maxNetOut)
    (hroom : s.netOut.length + pending s.state ≤ k + 2) (b : UInt8) :
    (∃ sent', Follows out sent' (fromNetworkByte s b).1) ∧
      (fromNetworkByte s b).1.netOut.length + pending (fromNetworkByte s b).1.state ≤ k + 1 + 2 := by
  unfold fromNetworkByte
  split
  -- data and subnegotiations send nothing
  case h_1 hstate | h_4 hstate | h_5 hstate =>
    rw [hstate] at hroom
    simp only [pending] at hroom
    refine ⟨⟨sent, ?_⟩, ?_⟩ <;> split <;>
      first | exact h.congr rfl rfl rfl rfl | exact h | (simp [pending, hstate]; omega)
  case h_2 hstate =>
    rw [hstate] at hroom
    simp only [pending] at hroom
    refine ⟨⟨sent, ?_⟩, ?_⟩ <;> split_ifs <;>
      first | exact h.congr rfl rfl rfl rfl | (simp [pending]; omega)
  -- the option of a command: the only byte that is answered
  case h_3 hstate =>
    rw [hstate] at hroom
    simp only [pending] at hroom
    have hlen := negotiate_netOut_length s s.cmd b
    obtain ⟨sent', h'⟩ := h.negotiate (by omega) s.cmd b
    refine ⟨⟨sent', h'.congr rfl rfl rfl rfl⟩, ?_⟩
    simp only [pending]
    omega

/-- The bytes of a chunk. -/
theorem feed_follows {out : Bytes} {sent : List (UInt8 × UInt8)} {s : TelnetSession}
    (h : Follows out sent s) {data : Bytes} {k : Nat} (hk : k + data.length ≤ maxNetOut)
    (hroom : s.netOut.length + pending s.state ≤ k + 2) :
    ∃ sent', Follows out sent' (s.fromNetwork data).1 := by
  unfold fromNetwork
  induction data generalizing sent s k with
  | nil => exact ⟨sent, h⟩
  | cons b data ih =>
    rw [List.length_cons] at hk
    obtain ⟨⟨sent', h'⟩, hroom'⟩ := fromNetworkByte_follows h (by omega) hroom b
    exact ih h' (by omega) hroom'

/-- A chunk as `_pump_net_to_serial` handles it, as far as the replies: `from_network`, then
    `take_net_out`. -/
def pump (s : TelnetSession) (data : Bytes) : TelnetSession × Bytes :=
  (s.fromNetwork data).1.takeNetOut

/-- What waited has gone out. -/
theorem Follows.taken {out : Bytes} {sent : List (UInt8 × UInt8)} {s : TelnetSession}
    (h : Follows out sent s) : Follows (out ++ s.netOut) sent s.takeNetOut.1 := by
  refine ⟨?_, h.alternate, h.last, h.refused, h.replies⟩
  show out ++ s.netOut ++ [] = _
  rw [List.append_nil, h.bytes]

/-- **One chunk.** -/
theorem pump_follows {out : Bytes} {sent : List (UInt8 × UInt8)} {s : TelnetSession}
    (h : Follows out sent s) (hempty : s.netOut = []) {data : Bytes}
    (hsize : data.length ≤ maxNetOut) :
    ∃ sent', Follows (out ++ (pump s data).2) sent' (pump s data).1 := by
  have hpending : pending s.state ≤ 2 := by cases s.state <;> decide
  have hroom : s.netOut.length + pending s.state ≤ 0 + 2 := by
    rw [hempty]
    simpa using hpending
  have hchunk : 0 + data.length ≤ maxNetOut := by omega
  obtain ⟨sent', h'⟩ := feed_follows h hchunk hroom
  exact ⟨sent', h'.taken⟩

theorem feed_pump_follows {out : Bytes} {sent : List (UInt8 × UInt8)} {s : TelnetSession}
    (h : Follows out sent s) (hempty : s.netOut = []) {chunks : List Bytes}
    (hsize : ∀ data ∈ chunks, data.length ≤ maxNetOut) :
    ∃ sent', Follows (out ++ (feed pump s chunks).2) sent' (feed pump s chunks).1 := by
  induction chunks generalizing out sent s with
  | nil =>
    refine ⟨sent, ?_⟩
    rw [feed_nil, List.append_nil]
    exact h
  | cons data chunks ih =>
    obtain ⟨sent', h'⟩ := pump_follows h hempty (hsize data List.mem_cons_self)
    obtain ⟨sent'', h''⟩ := ih h' rfl fun d hd => hsize d (List.mem_cons_of_mem _ hd)
    refine ⟨sent'', ?_⟩
    rw [feed_cons, ← List.append_assoc]
    exact h''

/-- The requests say yes to the supported options, and nothing of the others. -/
theorem commands_initial (side : Side) (opt : UInt8) :
    commands side opt initial = if opt ∈ supported then [true] else [] := by
  by_cases hbinary : opt = optBinary
  · subst hbinary
    cases side <;> decide
  · by_cases hsga : opt = optSga
    · subst hsga
      cases side <;> decide
    · have hbinary' : optBinary ≠ opt := fun h => hbinary h.symm
      have hsga' : optSga ≠ opt := fun h => hsga h.symm
      cases side <;> simp [commands, initial, supported, hbinary, hsga, hbinary', hsga']

theorem recorded_init (side : Side) (opt : UInt8) :
    recorded side init opt = if opt ∈ supported then some true else none := by
  by_cases hbinary : opt = optBinary
  · subst hbinary
    cases side <;> decide
  · by_cases hsga : opt = optSga
    · subst hsga
      cases side <;> decide
    · have hnot : opt ∉ supported := by simp [supported, hbinary, hsga]
      rw [if_neg hnot]
      cases side with
      | ours =>
        show (if opt = optSga then some true else if opt = optBinary then some true else none) = none
        rw [if_neg hsga, if_neg hbinary]
      | theirs =>
        show (if opt = optSga then some true else if opt = optBinary then some true else none) = none
        rw [if_neg hsga, if_neg hbinary]

/-- A new session has sent its requests. -/
theorem follows_init : Follows [] initial init := by
  refine ⟨by decide, fun side opt => ?_, fun side opt => ?_, fun side opt hsup b hb => ?_, [], rfl,
    List.nil_sublist _⟩
  · rw [commands_initial]
    split
    · exact List.isChain_singleton _
    · exact List.isChain_nil
  · rw [commands_initial, recorded_init]
    split <;> rfl
  · rw [commands_initial, if_neg hsup] at hb
    cases hb

/-- Refusals that alternate are one at most. -/
theorem refused_once {l : List Bool} (halternate : l.IsChain (· ≠ ·)) (hfalse : ∀ b ∈ l, b = false) :
    l = [] ∨ l = [false] := by
  match l with
  | [] => exact Or.inl rfl
  | [b] => exact Or.inr (by rw [hfalse b List.mem_cons_self])
  | b :: c :: rest =>
    have hb := hfalse b (by simp)
    have hc := hfalse c (by simp)
    rw [List.isChain_cons_cons] at halternate
    exact absurd (hb.trans hc.symm) halternate.1

/-- **Loop avoidance.**  Whatever a client sends, in chunks that are not larger than the buffer for
    replies, the bytes that a session sends are whole commands.  Those about one option on one side
    alternate between yes and no, the last of them is what the session has recorded, and an
    unsupported option is refused once at most and never agreed to.  After the requests that open
    the session, each command answers a received one, and no two the same. -/
theorem loop_avoidance (chunks : List Bytes) (hsize : ∀ data ∈ chunks, data.length ≤ maxNetOut) :
    ∃ sent, init.takeNetOut.2 ++ (feed pump init.takeNetOut.1 chunks).2 = sent.flatMap triple ∧
      (∀ side opt, (commands side opt sent).IsChain (· ≠ ·) ∧
        (commands side opt sent).getLast? =
          recorded side (feed pump init.takeNetOut.1 chunks).1 opt ∧
        (opt ∉ supported → commands side opt sent = [] ∨ commands side opt sent = [false])) ∧
      ∃ replies, sent = initial ++ replies ∧
        replies.Sublist ((feed pump init.takeNetOut.1 chunks).1.calls.map answer) := by
  obtain ⟨sent, h⟩ := feed_pump_follows follows_init.taken rfl hsize
  refine ⟨sent, ?_, fun side opt => ⟨h.alternate side opt, h.last side opt, fun hsup => ?_⟩, h.replies⟩
  · have hempty := @feed_invariant _ _ _ pump (fun s => s.netOut = []) (fun _ _ _ => rfl)
      init.takeNetOut.1 rfl chunks
    have hbytes := h.bytes
    rw [hempty, List.append_nil] at hbytes
    exact hbytes
  · exact refused_once (h.alternate side opt) (h.refused side opt hsup)

/-- A client that asks twice for an option that is not supported. -/
theorem loop_avoidance_refusal :
    ∃ sent, init.takeNetOut.2 ++
          (feed pump init.takeNetOut.1 [[255, 253, 24, 255], [253, 24]]).2 = sent.flatMap triple ∧
      (commands .ours 24 sent = [] ∨ commands .ours 24 sent = [false]) := by
  obtain ⟨sent, hbytes, hall, -⟩ := loop_avoidance [[255, 253, 24, 255], [253, 24]] (by decide)
  exact ⟨sent, hbytes, (hall .ours 24).2.2 (by decide)⟩

end Ser2Net.Engine.Telnet
