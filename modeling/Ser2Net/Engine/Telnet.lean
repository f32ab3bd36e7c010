import Ser2Net.Lib.Binary
import Ser2Net.Lib.Feed

namespace Ser2Net.Engine.Telnet

open Ser2Net.Lib

/-!
# Engine — the telnet session (`app/engine/protocols/telnet.py`)

The IAC escaping and the option negotiation of one telnet client.

* `TelnetSession` — the parser's state, the options and the replies not collected yet;
  `calls` is a record of the calls of `_negotiate`, which no code reads;
* `Token` — the grammar of a telnet stream: data, negotiation triples, two-byte commands and
  subnegotiations;
* `fromNetwork_tokens` — however the encoding of tokens is cut, the session returns the data
  and calls `_negotiate` for the triples;
* `fromSerial_eq`, `fromNetwork_replies` — what the session sends is encoded data and whole
  triples.
-/

/-! ### The session -/

/-- `IAC`. -/
def iac : UInt8 := 255

/-- `DONT`. -/
def dont : UInt8 := 254

/-- `DO`. -/
def do_ : UInt8 := 253

/-- `WONT`. -/
def wont : UInt8 := 252

/-- `WILL`. -/
def will : UInt8 := 251

/-- `SB`. -/
def sb : UInt8 := 250

/-- `SE`. -/
def se : UInt8 := 240

/-- `OPT_BINARY`. -/
def optBinary : UInt8 := 0

/-- `OPT_SGA`. -/
def optSga : UInt8 := 3

/-- `SUPPORTED`. -/
def supported : List UInt8 := [optBinary, optSga]

/-- `_MAX_NET_OUT`. -/
def maxNetOut : Nat := 64 * 1024

/-- The commands that an option follows. -/
def verbs : List UInt8 := [do_, dont, will, wont]

/-- The values of `_state`. -/
inductive ParseState
  | data | iac | opt | sb | sbIac
  deriving DecidableEq, Repr

/-- A `TelnetSession`. -/
structure TelnetSession where
  netOut : Bytes
  state : ParseState
  cmd : UInt8
  localOpts : UInt8 → Option Bool
  remoteOpts : UInt8 → Option Bool
  calls : List (UInt8 × UInt8)

namespace TelnetSession

/-- `_send`: beyond the cap, nothing. -/
def send (s : TelnetSession) (bytes : Bytes) : TelnetSession :=
  if s.netOut.length < maxNetOut then { s with netOut := s.netOut ++ bytes } else s

/-- `self._local[opt] = value`. -/
def setLocal (s : TelnetSession) (opt : UInt8) (value : Bool) : TelnetSession :=
  { s with localOpts := fun o => if o = opt then some value else s.localOpts o }

/-- `self._remote[opt] = value`. -/
def setRemote (s : TelnetSession) (opt : UInt8) (value : Bool) : TelnetSession :=
  { s with remoteOpts := fun o => if o = opt then some value else s.remoteOpts o }

/-- The requests for one option that `__init__` makes. -/
def request (s : TelnetSession) (opt : UInt8) : TelnetSession :=
  (((s.setLocal opt true).send [Telnet.iac, will, opt]).setRemote opt true).send
    [Telnet.iac, do_, opt]

/-- `__init__`. -/
def init : TelnetSession :=
  [optBinary, optSga].foldl request ⟨[], .data, 0, fun _ => none, fun _ => none, []⟩

/-- `take_net_out`. -/
def takeNetOut (s : TelnetSession) : TelnetSession × Bytes := ({ s with netOut := [] }, s.netOut)

/-- `from_serial`. -/
def fromSerial (data : Bytes) : Bytes :=
  if Telnet.iac ∈ data then
    data.flatMap fun b => if b = Telnet.iac then [Telnet.iac, Telnet.iac] else [b]
  else data

/-- `_negotiate`, its call recorded. -/
def negotiate (s : TelnetSession) (cmd opt : UInt8) : TelnetSession :=
  let s := { s with calls := s.calls ++ [(cmd, opt)] }
  if cmd = do_ then
    if opt ∈ supported then
      if s.localOpts opt ≠ some true then
        (s.setLocal opt true).send [Telnet.iac, will, opt]
      else s
    else if s.localOpts opt ≠ some false then
      (s.setLocal opt false).send [Telnet.iac, wont, opt]
    else s
  else if cmd = dont then
    if s.localOpts opt ≠ some false then
      (s.setLocal opt false).send [Telnet.iac, wont, opt]
    else s
  else if cmd = will then
    if opt ∈ supported then
      if s.remoteOpts opt ≠ some true then
        (s.setRemote opt true).send [Telnet.iac, do_, opt]
      else s
    else if s.remoteOpts opt ≠ some false then
      (s.setRemote opt false).send [Telnet.iac, dont, opt]
    else s
  else if cmd = wont then
    if s.remoteOpts opt ≠ some false then
      (s.setRemote opt false).send [Telnet.iac, dont, opt]
    else s
  else s

/-- One byte of the loop of `from_network`: the session afterwards, and what is appended to
    `out`. -/
def fromNetworkByte (s : TelnetSession) (byte : UInt8) : TelnetSession × Bytes :=
  match s.state with
  | .data => if byte = Telnet.iac then ({ s with state := .iac }, []) else (s, [byte])
  | .iac =>
    if byte = Telnet.iac then ({ s with state := .data }, [Telnet.iac])
    else if byte ∈ verbs then ({ s with cmd := byte, state := .opt }, [])
    else if byte = Telnet.sb then ({ s with state := .sb }, [])
    -- NOP and the other two-byte commands
    else ({ s with state := .data }, [])
  | .opt => ({ s.negotiate s.cmd byte with state := .data }, [])
  | .sb => if byte = Telnet.iac then ({ s with state := .sbIac }, []) else (s, [])
  | .sbIac => ({ s with state := if byte = se then .data else .sb }, [])

/-- `from_network`. -/
def fromNetwork (s : TelnetSession) (data : Bytes) : TelnetSession × Bytes :=
  feed fromNetworkByte s data

/-- `from_network` on one chunk after the other: what each call returns. -/
def fromNetworkAll (s : TelnetSession) (chunks : List Bytes) : TelnetSession × List Bytes :=
  feedAll fromNetworkByte s chunks

end TelnetSession

/-! ### The grammar -/

/-- A byte of content, `0xFF` doubled. -/
def escape (b : UInt8) : Bytes := if b = iac then [iac, iac] else [b]

/-- A token of a telnet stream.  A two-byte command is any byte after an `IAC` that is not the
    beginning of something else. -/
inductive Token
  | data (b : UInt8)
  | option (cmd : UInt8) (opt : UInt8) (h : cmd ∈ verbs)
  | command (c : UInt8) (hiac : c ≠ iac) (hverb : c ∉ verbs) (hsb : c ≠ sb)
  | subnegotiation (content : Bytes)

namespace Token

/-- The bytes of a token. -/
def encode : Token → Bytes
  | data b => escape b
  | option cmd opt _ => [iac, cmd, opt]
  | command c _ _ _ => [iac, c]
  | subnegotiation content => [iac, sb] ++ content.flatMap escape ++ [iac, se]

/-- The data of a token. -/
def payload : Token → Bytes
  | data b => [b]
  | _ => []

/-- The negotiation triple of a token: its command and its option. -/
def triple? : Token → Option (UInt8 × UInt8)
  | option cmd opt _ => some (cmd, opt)
  | _ => none

/-- What a token does to a session at rest. -/
def act (s : TelnetSession) : Token → TelnetSession
  | option cmd opt _ => { ({ s with cmd := cmd, state := .opt }).negotiate cmd opt with state := .data }
  | _ => s

end Token

/-! ### Reading tokens -/

open TelnetSession

/-- The content of a subnegotiation leaves the parser inside of it. -/
theorem fromNetwork_content {s : TelnetSession} (hs : s.state = .sb) (content : Bytes) :
    feed fromNetworkByte s (content.flatMap escape) = (s, []) := by
  have hbyte : ∀ (s : TelnetSession) (b : UInt8), s.state = .sb →
      feed fromNetworkByte s (escape b) = (s, []) ∧ s.state = .sb := by
    intro s b hs
    refine ⟨?_, hs⟩
    by_cases hb : b = iac
    · -- the doubled byte goes to `sb_iac` and back
      have hse : ¬ iac = se := by decide
      simp only [escape, hb, if_true, feed_cons, feed_nil, fromNetworkByte, hs, if_neg hse,
        List.append_nil]
      rw [← hs]
    · simp only [escape, hb, if_false, feed_cons, feed_nil, fromNetworkByte, hs, List.append_nil]
  have hfeed := feed_flatMap hbyte hs content
  have hstate : content.foldl (fun (s : TelnetSession) _ => s) s = s := List.foldl_fixed _
  have hnothing : content.flatMap (fun _ => ([] : Bytes)) = [] := by
    rw [List.flatMap_eq_nil_iff]
    exact fun _ _ => rfl
  rw [hfeed, hstate, hnothing]

/-- A call of `_negotiate` is recorded once, whatever it decides. -/
theorem negotiate_calls (s : TelnetSession) (cmd opt : UInt8) :
    (s.negotiate cmd opt).calls = s.calls ++ [(cmd, opt)] := by
  have hsend : ∀ (t : TelnetSession) (bytes : Bytes), (t.send bytes).calls = t.calls := by
    intro t bytes
    unfold send
    split <;> rfl
  unfold negotiate
  simp only
  -- every branch sets an option and sends, or does nothing
  repeat' split
  all_goals first | rfl | exact hsend _ _

/-- A token takes the parser from rest to rest. -/
theorem fromNetwork_token (s : TelnetSession) (t : Token) (hs : s.state = .data) :
    feed fromNetworkByte s t.encode = (t.act s, t.payload) ∧ (t.act s).state = .data := by
  cases t with
  | data b =>
    refine ⟨?_, hs⟩
    by_cases hb : b = iac
    · simp only [Token.encode, Token.act, Token.payload, escape, hb, if_true, feed_cons, feed_nil,
        fromNetworkByte, hs, List.nil_append, List.append_nil]
      rw [← hs]
    · simp only [Token.encode, Token.act, Token.payload, escape, hb, if_false, feed_cons, feed_nil,
        fromNetworkByte, hs, List.append_nil]
  | option cmd opt h =>
    have hiac : cmd ≠ iac := by
      rintro rfl
      exact absurd h (by decide)
    simp only [Token.encode, Token.act, Token.payload, feed_cons, feed_nil, fromNetworkByte, hs,
      if_true, if_neg hiac, if_pos h, List.append_nil, and_self]
  | command c hiac hverb hsb =>
    refine ⟨?_, hs⟩
    simp only [Token.encode, Token.act, Token.payload, feed_cons, feed_nil, fromNetworkByte, hs,
      if_true, if_neg hiac, if_neg hverb, if_neg hsb, List.append_nil]
    rw [← hs]
  | subnegotiation content =>
    refine ⟨?_, hs⟩
    have hsb : sb ∉ verbs := by decide
    have hiac : ¬ sb = iac := by decide
    -- `IAC SB` goes inside, the content stays there, `IAC SE` comes back
    have hopen : feed fromNetworkByte s [iac, sb] = ({ s with state := .sb }, []) := by
      simp only [feed_cons, feed_nil, fromNetworkByte, hs, if_true, if_neg hiac, if_neg hsb,
        List.append_nil]
    have hclose : feed fromNetworkByte { s with state := .sb } [iac, se] = (s, []) := by
      simp only [feed_cons, feed_nil, fromNetworkByte, if_true, List.append_nil]
      rw [← hs]
    rw [Token.encode, feed_append, feed_append, hopen, fromNetwork_content rfl, hclose]
    rfl

/-- The calls that tokens make. -/
theorem act_calls (tokens : List Token) (s : TelnetSession) :
    (tokens.foldl Token.act s).calls = s.calls ++ tokens.filterMap Token.triple? := by
  induction tokens generalizing s with
  | nil => simp
  | cons t tokens ih =>
    rw [List.foldl_cons, ih]
    cases t with
    | option cmd opt h =>
      have hcall := negotiate_calls { s with cmd := cmd, state := .opt } cmd opt
      simp only [Token.act, hcall, List.append_assoc, List.filterMap_cons, Token.triple?,
        List.singleton_append]
    | data b => rfl
    | command c hiac hverb hsb => rfl
    | subnegotiation content => rfl

/-- **Reading a telnet stream.**  However the encoding of tokens is cut into chunks, the
    session returns exactly the data, and calls `_negotiate` exactly for the triples. -/
theorem fromNetwork_tokens (tokens : List Token) (chunks : List Bytes)
    (h : chunks.flatten = tokens.flatMap Token.encode) :
    (fromNetworkAll init chunks).2.flatten = tokens.flatMap Token.payload ∧
      (fromNetworkAll init chunks).1.calls = tokens.filterMap Token.triple? := by
  have hinit : init.state = .data := rfl
  have hfeed := feed_flatMap fromNetwork_token hinit tokens
  unfold fromNetworkAll
  rw [feedAll_fst, feedAll_snd_flatten, h, hfeed]
  exact ⟨rfl, act_calls tokens init⟩

/-- `a`, `IAC DO 24` and an escaped `0xFF`, cut in the middle of the triple. -/
theorem fromNetwork_tokens_split :
    (fromNetworkAll init [[97, 255], [253, 24, 255], [255]]).2.flatten = [97, 255] ∧
      (fromNetworkAll init [[97, 255], [253, 24, 255], [255]]).1.calls = [(253, 24)] :=
  fromNetwork_tokens [.data 97, .option do_ 24 (by decide), .data 255]
    [[97, 255], [253, 24, 255], [255]] (by decide)

/-! ### What the session sends -/

/-- `from_serial` encodes the data. -/
theorem fromSerial_eq (data : Bytes) :
    fromSerial data = (data.map Token.data).flatMap Token.encode := by
  rw [List.flatMap_map]
  unfold fromSerial
  split
  next => rfl
  next h =>
    -- nothing to double
    have hplain : ∀ b ∈ data, Token.encode (.data b) = [b] := by
      intro b hb
      have hne : b ≠ iac := fun heq => h (heq ▸ hb)
      exact if_neg hne
    rw [List.flatMap_congr hplain, List.flatMap_singleton']

/-- The bytes are whole negotiation triples. -/
def Replies (bs : Bytes) : Prop :=
  ∃ tokens : List Token, (∀ t ∈ tokens, t.triple?.isSome = true) ∧ bs = tokens.flatMap Token.encode

theorem replies_nil : Replies [] := ⟨[], by simp, rfl⟩

theorem send_replies {s : TelnetSession} (hs : Replies s.netOut) {cmd : UInt8}
    (hcmd : cmd ∈ verbs) (opt : UInt8) : Replies (s.send [iac, cmd, opt]).netOut := by
  unfold send
  split
  · obtain ⟨tokens, hall, heq⟩ := hs
    refine ⟨tokens ++ [.option cmd opt hcmd], ?_, ?_⟩
    · intro t ht
      rcases List.mem_append.1 ht with ht | ht
      · exact hall t ht
      · rw [List.mem_singleton.1 ht]
        rfl
    · rw [List.flatMap_append, ← heq]
      rfl
  · exact hs

/-- An answer to a request is a triple or nothing. -/
theorem negotiate_replies {s : TelnetSession} (hs : Replies s.netOut) (cmd opt : UInt8) :
    Replies (s.negotiate cmd opt).netOut := by
  have hwill : will ∈ verbs := by decide
  have hwont : wont ∈ verbs := by decide
  have hdo : do_ ∈ verbs := by decide
  have hdont : dont ∈ verbs := by decide
  unfold negotiate
  simp only
  -- every branch sends one triple, after it set the option, or nothing
  repeat' split
  all_goals
    first
    | exact hs
    | (refine send_replies ?_ hwill opt; exact hs)
    | (refine send_replies ?_ hwont opt; exact hs)
    | (refine send_replies ?_ hdo opt; exact hs)
    | (refine send_replies ?_ hdont opt; exact hs)

theorem fromNetworkByte_replies (s : TelnetSession) (b : UInt8) (hs : Replies s.netOut) :
    Replies (fromNetworkByte s b).1.netOut := by
  unfold fromNetworkByte
  split
  case h_3 => exact negotiate_replies hs s.cmd b
  all_goals
    repeat' split
    all_goals exact hs

/-- **Replies are whole.**  Whatever the client sends, what waits for it is whole triples. -/
theorem fromNetwork_replies {s : TelnetSession} (hs : Replies s.netOut) (data : Bytes) :
    Replies (s.fromNetwork data).1.netOut := by
  have hinv := @feed_invariant _ _ _ fromNetworkByte fun s => Replies s.netOut
  exact hinv fromNetworkByte_replies hs data

end Ser2Net.Engine.Telnet
