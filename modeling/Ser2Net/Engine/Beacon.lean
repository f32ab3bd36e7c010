import Ser2Net.Lib.PyUnicode

namespace Ser2Net.Engine.Beacon

open Ser2Net.Lib Ser2Net.Lib.PyUnicode

/-!
# Engine — what a beacon does (`ClusterDiscovery.handle_datagram` of `cluster.py`)

A datagram on the discovery port may come from anyone.  It counts when it is a JSON envelope of
a body and its signature under the cluster key; then the peer that the body names is recorded.

* `handleDatagram` — the handler: the new peer table, or the exception that leaves it as it is;
* `Change` — the only way in which the table changes;
* `Sound` — the condition: everything the handler takes out of the datagram has the type it is
  used at;
* `handleDatagram_iff` — the handler returns, and changes no more than it may, exactly then.

`hmac` is the keyed hash, over bytes.
-/

/-- What the handler reads of its node: `cluster.key` and `instance_id`. -/
structure Node where
  key : UStr
  instanceId : UStr

/-- An entry of the peer table. -/
structure Peer where
  id : UStr
  name : UStr
  ip : UStr
  port : Int
  scheme : String
  lastSeen : Rat

abbrev Table := List (UStr × Peer)

/-- `_LOOPBACK`. -/
def loopback : List UStr :=
  ["0.0.0.0", "::", "127.0.0.1", "localhost", ""].map fun s => ofText s.toList

variable (py : Runtime) (hmac : Bytes → Bytes → Bytes) (node : Node)

/-- `_sign`. -/
def sign (key : UStr) (body : Value) : Except Raised UStr := do
  let key ← encodeUtf8 key
  let body ← body.encode
  pure (hexdigest (hmac key body))

/-- `except (ValueError, KeyError, AttributeError, TypeError)`. -/
def caught (e : Raised) : Bool := e.isValueError || e = .attributeError || e = .typeError

/-- `env["d"], env["s"]` of the envelope; `none` when the datagram is none. -/
def envelope (data : Bytes) : Except Raised (Option (Value × Value)) :=
  match decodeUtf8 data with
  | none => .ok none
  | some text =>
    match py.loads text with
    | .error e => if caught e then .ok none else .error e
    | .ok (.obj env) =>
      match lookup env "d", lookup env "s" with
      | some body, some sig => .ok (some (body, sig))
      | _, _ => .ok none
    | .ok _ => .ok none

/-- `json.loads(body)`. -/
def loadsBody : Value → Except Raised Value
  | .str s => py.loads s
  | _ => .error .typeError

/-- The port of a payload: `int(p.get("port", 0) or 0)`. -/
def portOf (p : List (UStr × Value)) : Except Raised Int :=
  let v := get p "port" (.int 0)
  (if v.truthy then v else .int 0).toInt

/-- The entry of a payload; `addr` is the host that the datagram came from. -/
def entry (p : List (UStr × Value)) (pid : UStr) (addr : Option UStr) (now : Rat) :
    Except Raised Peer := do
  let ip ← (get p "ip" (.str [])).toStr py
  let ip := strip ip
  let ip := match addr with
    | some host => if ip ∈ loopback then host else ip
    | none => ip
  let scheme := if (get p "scheme" .null).eqStr "https" then "https" else "http"
  let name ← (get p "name" (.str (ofText ['?']))).toStr py
  let port ← portOf p
  pure ⟨pid, name, ip, port, scheme, now⟩

/-- The handler from the verified payload on. -/
def record (p : Value) (addr : Option UStr) (now : Rat) (table : Table) : Except Raised Table :=
  match p with
  | .obj p => do
    let pid ← (get p "id" (.str [])).toStr py
    if pid = [] ∨ pid = node.instanceId then pure table
    else do
      let peer ← entry py p pid addr now
      pure (dictSet table pid peer)
  | _ => .error .attributeError

/-- The handler from the envelope on. -/
def verify (body sig : Value) (addr : Option UStr) (now : Rat) (table : Table) :
    Except Raised Table := do
  let digest ← sign hmac node.key body
  let sig ← sig.toStr py
  let same ← compareDigest digest sig
  if same then
    match loadsBody py body with
    | .ok p => record py node p addr now table
    | .error e => if e.isValueError then pure table else .error e
  else pure table

/-- `handle_datagram`: the new table.  The assignment to it is the last thing that is done, so an
    exception leaves it as it is. -/
def handleDatagram (data : Bytes) (addr : Option UStr) (now : Rat) (table : Table) :
    Except Raised Table :=
  if node.key = [] then .ok table
  else
    match envelope py data with
    | .error e => .error e
    | .ok none => .ok table
    | .ok (some (body, sig)) => verify py hmac node body sig addr now table

/-! ### What a datagram may do -/

/-- The datagram is a JSON object with these two members. -/
def Envelope (data : Bytes) (body sig : Value) : Prop :=
  ∃ text env, decodeUtf8 data = some text ∧ py.loads text = .ok (.obj env) ∧
    lookup env "d" = some body ∧ lookup env "s" = some sig

/-- The signature is that of the body under the cluster key. -/
def Authentic (body : UStr) (sig : Value) : Prop :=
  ∃ digest, sign hmac node.key (.str body) = .ok digest ∧ sig.toStr py = .ok digest

/-- A change of the table: a signed envelope names an id, not empty and not our own, and the
    entries of the other ids stay. -/
def Change (data : Bytes) (table table' : Table) : Prop :=
  ∃ body sig p pid, Envelope py data (.str body) sig ∧ Authentic py hmac node body sig ∧
    py.loads body = .ok (.obj p) ∧ (get p "id" (.str [])).toStr py = .ok pid ∧
    pid ≠ [] ∧ pid ≠ node.instanceId ∧
    ∀ other, other ≠ pid → table'.lookup other = table.lookup other

/-- The payload is an object, and when it names another node its fields convert. -/
def Recordable (p : Value) : Prop :=
  ∃ kvs pid, p = .obj kvs ∧ (get kvs "id" (.str [])).toStr py = .ok pid ∧
    (pid ≠ [] → pid ≠ node.instanceId →
      Returns ((get kvs "ip" (.str [])).toStr py) ∧
      Returns ((get kvs "name" (.str (ofText ['?']))).toStr py) ∧ Returns (portOf kvs))

/-- Everything that the handler takes out of the datagram has the type it is used at. -/
structure Sound (data : Bytes) : Prop where
  /-- The datagram is not nested too deep to be parsed. -/
  parses : ∀ text e, decodeUtf8 data = some text → py.loads text = .error e → caught e = true
  /-- The body of an envelope is a text that can be encoded, and its signature is ASCII. -/
  texts : ∀ body sig, Envelope py data body sig →
    Returns (encodeUtf8 node.key) ∧ Returns body.encode ∧
      ∃ s, sig.toStr py = .ok s ∧ isAscii s = true
  /-- What is signed is recordable, or no JSON. -/
  payload : ∀ body sig, Envelope py data (.str body) sig → Authentic py hmac node body sig →
    (∀ e, py.loads body = .error e → e.isValueError = true) ∧
      ∀ p, py.loads body = .ok p → Recordable py node p

/-! ### The envelope -/

variable {py hmac node} {data : Bytes} {body sig : Value} {addr : Option UStr} {now : Rat}
  {table table' : Table}

theorem envelope_eq_some : envelope py data = .ok (some (body, sig)) ↔ Envelope py data body sig := by
  constructor
  · intro h
    unfold envelope at h
    split at h
    · cases h
    · next text htext =>
      split at h
      · split at h <;> cases h
      · next env henv =>
        split at h
        · next hd hs =>
          cases h
          exact ⟨text, env, htext, henv, hd, hs⟩
        · cases h
      · cases h
  · rintro ⟨text, env, htext, henv, hd, hs⟩
    rw [envelope, htext]
    dsimp only
    rw [henv]
    dsimp only
    rw [hd, hs]

theorem returns_envelope : Returns (envelope py data) ↔
    ∀ text e, decodeUtf8 data = some text → py.loads text = .error e → caught e = true := by
  unfold envelope
  split
  · next hnone => simp [hnone]
  · next text htext =>
    rw [htext]
    split
    · next e he =>
      -- only an error of the parser that the handler does not catch is left
      constructor
      · intro h text' e' htext' he'
        cases htext'
        rw [he] at he'
        cases he'
        by_contra hc
        simp [hc] at h
      · intro h
        rw [if_pos (h text e rfl he)]
        exact returns_ok _
    · next env henv =>
      refine ⟨fun _ text' e htext' he => ?_, fun _ => ?_⟩
      · cases htext'
        rw [henv] at he
        cases he
      · split <;> exact returns_ok _
    · next v hv =>
      refine ⟨fun _ text' e htext' he => ?_, fun _ => returns_ok _⟩
      cases htext'
      rw [hv] at he
      cases he

/-! ### The payload -/

theorem returns_entry {p : List (UStr × Value)} {pid : UStr} : Returns (entry py p pid addr now) ↔
    Returns ((get p "ip" (.str [])).toStr py) ∧
      Returns ((get p "name" (.str (ofText ['?']))).toStr py) ∧ Returns (portOf p) := by
  unfold entry
  constructor
  · intro h
    obtain ⟨ip, hip, h⟩ := returns_bind.1 h
    obtain ⟨name, hname, h⟩ := returns_bind.1 h
    obtain ⟨port, hport, -⟩ := returns_bind.1 h
    exact ⟨⟨ip, hip⟩, ⟨name, hname⟩, port, hport⟩
  · rintro ⟨⟨ip, hip⟩, ⟨name, hname⟩, port, hport⟩
    exact returns_bind.2 ⟨ip, hip, returns_bind.2 ⟨name, hname, returns_bind.2 ⟨port, hport, returns_ok _⟩⟩⟩

theorem returns_record {p : Value} :
    Returns (record py node p addr now table) ↔ Recordable py node p := by
  unfold record
  split
  · next kvs =>
    constructor
    · intro h
      obtain ⟨pid, hpid, h⟩ := returns_bind.1 h
      refine ⟨kvs, pid, rfl, hpid, fun hne hother => ?_⟩
      rw [if_neg (by simp [hne, hother])] at h
      obtain ⟨peer, hpeer, -⟩ := returns_bind.1 h
      exact returns_entry.1 ⟨peer, hpeer⟩
    · rintro ⟨kvs', pid, heq, hpid, hfields⟩
      cases heq
      refine returns_bind.2 ⟨pid, hpid, ?_⟩
      split
      · exact returns_ok _
      · next hnot =>
        rw [not_or] at hnot
        obtain ⟨peer, hpeer⟩ := (@returns_entry py addr now _ pid).2
          (hfields hnot.1 hnot.2)
        exact returns_bind.2 ⟨peer, hpeer, returns_ok _⟩
  · next hobj =>
    refine ⟨fun h => absurd h (not_returns_error _), ?_⟩
    rintro ⟨kvs, pid, heq, -⟩
    exact absurd heq (hobj kvs)

/-- Recording leaves the table as it is, or sets the entry of the id that the payload names. -/
theorem record_eq_ok {p : Value} (h : record py node p addr now table = .ok table') :
    table' = table ∨ ∃ kvs pid peer, p = .obj kvs ∧ (get kvs "id" (.str [])).toStr py = .ok pid ∧
      pid ≠ [] ∧ pid ≠ node.instanceId ∧ table' = dictSet table pid peer := by
  unfold record at h
  split at h
  · next kvs =>
    obtain ⟨pid, hpid, h⟩ := except_bind_eq_ok.1 h
    split at h
    · cases h
      exact .inl rfl
    · next hnot =>
      rw [not_or] at hnot
      obtain ⟨peer, -, h⟩ := except_bind_eq_ok.1 h
      cases h
      exact .inr ⟨kvs, pid, peer, rfl, hpid, hnot.1, hnot.2, rfl⟩
  · cases h

/-! ### The signature -/

theorem sign_eq_ok {key digest : UStr} : sign hmac key body = .ok digest ↔
    ∃ k b, encodeUtf8 key = .ok k ∧ body.encode = .ok b ∧ hexdigest (hmac k b) = digest := by
  unfold sign
  constructor
  · intro h
    obtain ⟨k, hk, h⟩ := except_bind_eq_ok.1 h
    obtain ⟨b, hb, h⟩ := except_bind_eq_ok.1 h
    exact ⟨k, b, hk, hb, Except.ok.inj h⟩
  · rintro ⟨k, b, hk, hb, rfl⟩
    exact except_bind_eq_ok.2 ⟨k, hk, except_bind_eq_ok.2 ⟨b, hb, rfl⟩⟩

/-- Only a text can be encoded. -/
theorem encode_eq_ok {b : Bytes} (h : body.encode = .ok b) : ∃ s, body = .str s := by
  cases body with
  | str s => exact ⟨s, rfl⟩
  | _ => cases h

/-- What the handler does with a body that it can encode and a signature that is ASCII. -/
theorem verify_eq {s sig' : UStr} {b k : Bytes} (hk : encodeUtf8 node.key = .ok k)
    (hb : encodeUtf8 s = .ok b) (hsig : sig.toStr py = .ok sig') (hascii : isAscii sig' = true) :
    verify py hmac node (.str s) sig addr now table =
      if hexdigest (hmac k b) = sig' then
        match py.loads s with
        | .ok p => record py node p addr now table
        | .error e => if e.isValueError then .ok table else .error e
      else .ok table := by
  have hsign : sign hmac node.key (.str s) = .ok (hexdigest (hmac k b)) :=
    sign_eq_ok.2 ⟨k, b, hk, hb, rfl⟩
  have hcompare : compareDigest (hexdigest (hmac k b)) sig' =
      .ok (decide (hexdigest (hmac k b) = sig')) :=
    compareDigest_eq_ok.2 ⟨⟨isAscii_hexdigest _, hascii⟩, rfl⟩
  unfold verify
  rw [hsign, except_ok_bind, hsig, except_ok_bind, hcompare, except_ok_bind]
  by_cases hsame : hexdigest (hmac k b) = sig'
  · rw [if_pos hsame, if_pos (by simpa using hsame)]
    rfl
  · rw [if_neg hsame, if_neg (by simpa using hsame)]
    rfl

/-- The handler gets as far as the comparison when both texts can be used. -/
theorem verify_texts (h : Returns (verify py hmac node body sig addr now table)) :
    Returns (encodeUtf8 node.key) ∧ Returns body.encode ∧
      ∃ s, sig.toStr py = .ok s ∧ isAscii s = true := by
  obtain ⟨digest, hsign, h⟩ := returns_bind.1 h
  obtain ⟨s, hs, h⟩ := returns_bind.1 h
  obtain ⟨same, hsame, -⟩ := returns_bind.1 h
  obtain ⟨k, b, hk, hb, -⟩ := sign_eq_ok.1 hsign
  exact ⟨⟨k, hk⟩, ⟨b, hb⟩, s, hs, (compareDigest_eq_ok.1 hsame).1.2⟩

theorem authentic_iff {s sig' : UStr} {b k : Bytes} (hk : encodeUtf8 node.key = .ok k)
    (hb : encodeUtf8 s = .ok b) (hsig : sig.toStr py = .ok sig') :
    Authentic py hmac node s sig ↔ hexdigest (hmac k b) = sig' := by
  constructor
  · rintro ⟨digest, hsign, hdigest⟩
    obtain ⟨k', b', hk', hb', rfl⟩ := sign_eq_ok.1 hsign
    rw [hk] at hk'
    rw [Value.encode, hb] at hb'
    rw [hsig] at hdigest
    cases hk'
    cases hb'
    exact (Except.ok.inj hdigest).symm
  · rintro rfl
    exact ⟨_, sign_eq_ok.2 ⟨k, b, hk, hb, rfl⟩, hsig⟩

/-- From the envelope on the handler returns exactly when the texts can be used and what is
    signed is recordable or no JSON. -/
theorem returns_verify : Returns (verify py hmac node body sig addr now table) ↔
    (Returns (encodeUtf8 node.key) ∧ Returns body.encode ∧
      ∃ s, sig.toStr py = .ok s ∧ isAscii s = true) ∧
    ∀ s, body = .str s → Authentic py hmac node s sig →
      (∀ e, py.loads s = .error e → e.isValueError = true) ∧
        ∀ p, py.loads s = .ok p → Recordable py node p := by
  constructor
  · intro h
    -- the texts come first: the comparison says nothing before they are encoded
    have htexts := verify_texts h
    refine ⟨htexts, ?_⟩
    rintro s rfl hauth
    obtain ⟨⟨k, hk⟩, ⟨b, hb⟩, sig', hsig, hascii⟩ := htexts
    rw [verify_eq hk hb hsig hascii, if_pos ((authentic_iff hk hb hsig).1 hauth)] at h
    refine ⟨fun e he => ?_, fun p hp => ?_⟩
    · rw [he] at h
      by_contra hnot
      simp [hnot] at h
    · rw [hp] at h
      exact returns_record.1 h
  · rintro ⟨⟨⟨k, hk⟩, ⟨b, hb⟩, sig', hsig, hascii⟩, hpayload⟩
    obtain ⟨s, rfl⟩ := encode_eq_ok hb
    rw [verify_eq hk hb hsig hascii]
    split
    · next hsame =>
      obtain ⟨herror, hok⟩ := hpayload s rfl ((authentic_iff hk hb hsig).2 hsame)
      split
      · next p hp => exact returns_record.2 (hok p hp)
      · next e he =>
        rw [if_pos (herror e he)]
        exact returns_ok _
    · exact returns_ok _

/-- From the envelope on the table changes only for a signed payload. -/
theorem verify_change (henvelope : Envelope py data body sig)
    (h : verify py hmac node body sig addr now table = .ok table') :
    table' = table ∨ Change py hmac node data table table' := by
  obtain ⟨⟨k, hk⟩, ⟨b, hb⟩, sig', hsig, hascii⟩ := verify_texts ⟨table', h⟩
  obtain ⟨s, rfl⟩ := encode_eq_ok hb
  rw [verify_eq hk hb hsig hascii] at h
  split at h
  · next hsame =>
    split at h
    · next p hp =>
      rcases record_eq_ok h with rfl | ⟨kvs, pid, peer, rfl, hpid, hne, hown, rfl⟩
      · exact .inl rfl
      · refine .inr ⟨s, sig, kvs, pid, henvelope, (authentic_iff hk hb hsig).2 hsame, hp, hpid, hne,
          hown, fun other hother => ?_⟩
        rw [lookup_dictSet, if_neg hother]
    · split at h
      · cases h
        exact .inl rfl
      · cases h
  · cases h
    exact .inl rfl

/-! ### The handler -/

/-- Whatever the datagram, the table changes only as it may. -/
theorem handleDatagram_change (h : handleDatagram py hmac node data addr now table = .ok table') :
    table' = table ∨ Change py hmac node data table table' := by
  unfold handleDatagram at h
  split at h
  · cases h
    exact .inl rfl
  · split at h
    · cases h
    · cases h
      exact .inl rfl
    · next body sig henvelope => exact verify_change (envelope_eq_some.1 henvelope) h

/-- With a key the handler returns exactly on a sound datagram. -/
theorem returns_handleDatagram (hkey : node.key ≠ []) :
    Returns (handleDatagram py hmac node data addr now table) ↔ Sound py hmac node data := by
  rw [handleDatagram, if_neg hkey]
  constructor
  · intro h
    have hparses : Returns (envelope py data) := by
      split at h
      · exact absurd h (not_returns_error _)
      · next he => exact ⟨_, he⟩
      · next he => exact ⟨_, he⟩
    have hverify : ∀ body sig, Envelope py data body sig →
        Returns (verify py hmac node body sig addr now table) := by
      intro body sig henvelope
      rw [envelope_eq_some.2 henvelope] at h
      exact h
    exact ⟨returns_envelope.1 hparses,
      fun body sig he => (returns_verify.1 (hverify body sig he)).1,
      fun s sig he hauth => (returns_verify.1 (hverify _ sig he)).2 s rfl hauth⟩
  · intro h
    obtain ⟨env, henv⟩ := returns_envelope.2 h.parses
    rw [henv]
    cases env with
    | none => exact returns_ok _
    | some env =>
      have henvelope := envelope_eq_some.1 henv
      refine returns_verify.2 ⟨h.texts _ _ henvelope, ?_⟩
      intro s hs hauth
      rw [hs] at henvelope
      exact h.payload s _ henvelope hauth

/-- **Beacons.**  The handler returns, and changes the table only for a signed envelope that
    names another node, and then only the entry of that id, exactly when the cluster has no key
    or everything that the handler takes out of the datagram has the type it is used at. -/
theorem handleDatagram_iff (py : Runtime) (hmac : Bytes → Bytes → Bytes) (node : Node)
    (data : Bytes) (addr : Option UStr) (now : Rat) (table : Table) :
    (∃ table', handleDatagram py hmac node data addr now table = .ok table' ∧
        (table' = table ∨ Change py hmac node data table table')) ↔
      node.key = [] ∨ Sound py hmac node data := by
  have hreturns : (∃ table', handleDatagram py hmac node data addr now table = .ok table' ∧
      (table' = table ∨ Change py hmac node data table table')) ↔
      Returns (handleDatagram py hmac node data addr now table) :=
    ⟨fun ⟨table', h, _⟩ => ⟨table', h⟩, fun ⟨table', h⟩ => ⟨table', h, handleDatagram_change h⟩⟩
  rw [hreturns]
  by_cases hkey : node.key = []
  · rw [handleDatagram, if_pos hkey]
    exact ⟨fun _ => .inl hkey, fun _ => returns_ok _⟩
  · rw [returns_handleDatagram hkey, or_iff_right hkey]

/-! ### A body that is no text -/

/-- The text `{"d":5,"s":"x"}`. -/
def numberBody : List Char := "\x7b\"d\":5,\"s\":\"x\"\x7d".toList

/-- An interpreter, as far as it parses that text. -/
def numberRuntime : Runtime where
  loads text :=
    if text = ofText numberBody then
      .ok (.obj [(ofText ['d'], .int 5), (ofText ['s'], .str (ofText ['x']))])
    else .error .valueError
  loadsBytes _ := .error .valueError
  strOther _ := .error .valueError

/-- An envelope whose body is a number, from anyone: the handler raises. -/
theorem handleDatagram_numberBody :
    ¬ ∃ table', handleDatagram numberRuntime (fun _ _ => []) ⟨ofText ['k'], ofText ['n']⟩
        (Latin1.encode numberBody) (some (ofText "10.0.0.9".toList)) 0 [] = .ok table' ∧
      (table' = [] ∨ Change numberRuntime (fun _ _ => []) ⟨ofText ['k'], ofText ['n']⟩
        (Latin1.encode numberBody) [] table') := by
  rintro ⟨table', h, -⟩
  have hdecode : decodeUtf8 (Latin1.encode numberBody) = some (ofText numberBody) := by
    decide +kernel
  have henvelope : Envelope numberRuntime (Latin1.encode numberBody) (.int 5)
      (.str (ofText ['x'])) := ⟨_, _, hdecode, rfl, rfl, rfl⟩
  rw [handleDatagram, if_neg (by decide), envelope_eq_some.2 henvelope] at h
  obtain ⟨-, hbody, -⟩ := verify_texts ⟨table', h⟩
  exact not_returns_error _ hbody

end Ser2Net.Engine.Beacon
