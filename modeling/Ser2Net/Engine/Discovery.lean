import Ser2Net.Engine.Beacon
import Ser2Net.Engine.Cluster
import Ser2Net.Lib.Trace

namespace Ser2Net.Engine.Discovery

open Ser2Net.Lib Ser2Net.Lib.PyUnicode Ser2Net.Engine.Beacon

/-!
# Engine — nodes that find each other by beacons (`ClusterDiscovery` of `cluster.py`)

Every node broadcasts a signed beacon now and then, records the beacons that it can verify, and
forgets the nodes that it has not heard of for `PEER_TTL`.  The network may lose, repeat, reorder
and delay datagrams, and anyone may send what he likes; the settings of a node may change while
it runs.

* `advertised`, `payload`, `makeBeacon` — what a node broadcasts;
* `Net`, `Event`, `apply` — the nodes, their clocks and tables, and what may happen to them;
* `Genuine` — the guard: nobody signs with a key that he does not have, and JSON is read back as
  it was written;
* `listed_genuine` — every entry of every table shows a beacon of a node with a key that the
  owner of the table has had since the table was last cleared;
* `delivered_listed` — a beacon that gets through keeps its sender listed for `PEER_TTL`.
-/

/-! ### What a node broadcasts -/

/-- What `advertised` and `_make_beacon` read: the cluster section, the admin UI, the host name
    and `primary_lan_ip()`. -/
structure Site where
  key : UStr
  advertiseIp : UStr
  bindIp : UStr
  uiPort : Int
  tlsEnabled : Bool
  hostname : UStr
  lanIp : Option UStr

/-- The address of `advertised`. -/
def Site.ip (s : Site) : UStr :=
  let ip := strip s.advertiseIp
  if ip ≠ [] then ip
  else
    let bind := strip s.bindIp
    if !loopback.contains bind then bind
    else (s.lanIp.filter (· ≠ [])).getD (ofText "127.0.0.1".toList)

/-- The scheme of `advertised`. -/
def Site.scheme (s : Site) : String := if s.tlsEnabled then "https" else "http"

/-- `advertised`. -/
def Site.advertised (s : Site) : UStr × Int × String := (s.ip, s.uiPort, s.scheme)

/-- `int(time.time())`. -/
def seconds (t : Rat) : Int := t.num.tdiv t.den

/-- The payload of a beacon. -/
def payload (id : UStr) (s : Site) (t : Rat) : List (UStr × Value) :=
  let (ip, port, scheme) := s.advertised
  [(ofText "v".toList, .int 1), (ofText "id".toList, .str id),
    (ofText "name".toList, .str s.hostname), (ofText "ip".toList, .str ip),
    (ofText "port".toList, .int port), (ofText "scheme".toList, .str (ofText scheme.toList)),
    (ofText "t".toList, .int (seconds t))]

/-- `json.dumps` of a dictionary: with `separators=(",", ":"), sort_keys=True`, and plain. -/
structure Writer where
  sorted : List (UStr × Value) → UStr
  plain : List (UStr × Value) → UStr

variable (py : Runtime) (w : Writer) (hmac : Bytes → Bytes → Bytes)

/-- The envelope of `_make_beacon`. -/
def envelopeOf (body sig : UStr) : List (UStr × Value) :=
  [(ofText "d".toList, .str body), (ofText "s".toList, .str sig)]

/-- The body that `_make_beacon` signs. -/
def bodyOf (id : UStr) (s : Site) (t : Rat) : UStr := w.sorted (payload id s t)

/-- `_make_beacon`. -/
def makeBeacon (id : UStr) (s : Site) (t : Rat) : Except Raised Bytes := do
  let body := bodyOf w id s t
  let sig ← sign hmac s.key (.str body)
  encodeUtf8 (w.plain (envelopeOf body sig))

/-! ### The table -/

/-- The peers heard from within `PEER_TTL`: what `peers` returns, before it is sorted. -/
def live (now : Rat) (table : Table) : List Peer :=
  (table.map Prod.snd).filter fun p => now - p.lastSeen ≤ Cluster.peerTtl

/-- What `peers` leaves in the table. -/
def prune (now : Rat) (table : Table) : Table :=
  (live now table).foldl (fun t p => dictSet t p.id p) []

/-! ### The network -/

variable {ι : Type} [DecidableEq ι]

/-- A beacon that has been sent. -/
structure Sent (ι : Type) where
  sender : ι
  site : Site
  time : Rat
  data : Bytes

/-- The nodes: their settings, their clocks and their tables.  `sent` is every beacon so far, and
    `held` the keys that a node has had since its table was last cleared. -/
structure Net (ι : Type) where
  site : ι → Site
  clock : ι → Rat
  table : ι → Table
  sent : List (Sent ι)
  held : ι → List UStr

/-- What may happen. -/
inductive Event (ι : Type)
  /-- The clock of a node is set. -/
  | clock (i : ι) (t : Rat)
  /-- The settings of a node are changed; its table stays until it is stopped. -/
  | configure (i : ι) (s : Site)
  /-- `_broadcast`. -/
  | broadcast (i : ι)
  /-- `handle_datagram`, of whatever anyone sent. -/
  | datagram (i : ι) (data : Bytes) (addr : Option UStr)
  /-- `peers`. -/
  | peers (i : ι)
  /-- `stop`. -/
  | stop (i : ι)

/-- A node that nobody has heard of, with these settings. -/
def Net.start (site : ι → Site) : Net ι where
  site := site
  clock _ := 0
  table _ := []
  sent := []
  held i := [(site i).key]

/-- The node that the handler reads. -/
def Net.node (ids : ι → UStr) (net : Net ι) (i : ι) : Node := ⟨(net.site i).key, ids i⟩

/-- The table of `i` after a datagram; an exception leaves it as it is. -/
def Net.received (ids : ι → UStr) (net : Net ι) (i : ι) (data : Bytes) (addr : Option UStr) : Table :=
  match handleDatagram py hmac (net.node ids i) data addr (net.clock i) (net.table i) with
  | .ok table => table
  | .error _ => net.table i

/-- What an event does.  The `instance_id` of a node never changes. -/
def apply (ids : ι → UStr) (net : Net ι) : Event ι → Net ι
  | .clock i t => { net with clock := Function.update net.clock i t }
  | .configure i s =>
    { net with site := Function.update net.site i s
               held := Function.update net.held i (s.key :: net.held i) }
  | .broadcast i =>
    match makeBeacon w hmac (ids i) (net.site i) (net.clock i) with
    | .ok data => { net with sent := ⟨i, net.site i, net.clock i, data⟩ :: net.sent }
    | .error _ => net
  | .datagram i data addr =>
    { net with table := Function.update net.table i (net.received py hmac ids i data addr) }
  | .peers i =>
    { net with table := Function.update net.table i (prune (net.clock i) (net.table i)) }
  | .stop i =>
    { net with table := Function.update net.table i []
               held := Function.update net.held i [(net.site i).key] }

/-- `apply`, as a machine in which every event is possible. -/
def step (ids : ι → UStr) (net : Net ι) (e : Event ι) : Option (Net ι) :=
  some (apply py w hmac ids net e)

/-- A dictionary is read back as it was written, up to the order of its keys. -/
def ReadBack (text : UStr) (kvs : List (UStr × Value)) : Prop :=
  ∃ kvs', kvs'.Perm kvs ∧ py.loads text = .ok (.obj kvs')

/-- The guard of a run.  Who broadcasts writes JSON that says what he means.  An envelope that a
    node verifies holds a body that was broadcast by someone who has the key. -/
def Genuine (ids : ι → UStr) (net : Net ι) : Event ι → Prop
  | .broadcast i =>
    ReadBack py (bodyOf w (ids i) (net.site i) (net.clock i))
      (payload (ids i) (net.site i) (net.clock i))
  | .datagram i data _ =>
    ∀ body sig, Envelope py data (.str body) sig → Authentic py hmac (net.node ids i) body sig →
      ∃ b ∈ net.sent, b.site.key = (net.site i).key ∧ bodyOf w (ids b.sender) b.site b.time = body
  | _ => True

/-- The entry shows a beacon of `b`: its address is the advertised one, or, when this is not
    usable, the one that the datagram came from. -/
structure Shows (ids : ι → UStr) (b : Sent ι) (peer : Peer) : Prop where
  id : peer.id = ids b.sender
  name : peer.name = b.site.hostname
  port : peer.port = b.site.uiPort
  scheme : peer.scheme = b.site.scheme
  ip : peer.ip = strip b.site.ip ∨ strip b.site.ip ∈ loopback

/-- What holds in every state of a genuine run. -/
structure Inv (ids : ι → UStr) (net : Net ι) : Prop where
  /-- The settings of a node hold the newest of its keys. -/
  current : ∀ i, (net.site i).key ∈ net.held i
  /-- Whoever broadcast wrote JSON that says what he means. -/
  written : ∀ b ∈ net.sent, ReadBack py (bodyOf w (ids b.sender) b.site b.time)
    (payload (ids b.sender) b.site b.time)
  /-- What was sent is what was made. -/
  made : ∀ b ∈ net.sent, makeBeacon w hmac (ids b.sender) b.site b.time = .ok b.data
  /-- A table has one entry for an id, under that id. -/
  nodup : ∀ j, ((net.table j).map Prod.fst).Nodup
  /-- Every entry shows a beacon. -/
  shows : ∀ j pid peer, (pid, peer) ∈ net.table j → pid = peer.id ∧ pid ≠ [] ∧ pid ≠ ids j ∧
    ∃ b ∈ net.sent, b.site.key ∈ net.held j ∧ Shows ids b peer

variable {py w hmac}

/-! ### A beacon at its receiver -/

/-- The keys of a payload are distinct. -/
theorem payload_nodup (id : UStr) (s : Site) (t : Rat) : ((payload id s t).map Prod.fst).Nodup := by
  show [ofText "v".toList, ofText "id".toList, ofText "name".toList, ofText "ip".toList,
    ofText "port".toList, ofText "scheme".toList, ofText "t".toList].Nodup
  decide

/-- However its keys are ordered, a dictionary with distinct keys reads the same. -/
theorem get_of_perm {kvs kvs' : List (UStr × Value)} (hperm : kvs'.Perm kvs)
    (hnd : (kvs.map Prod.fst).Nodup) {key : String} {v default : Value}
    (hv : (ofText key.toList, v) ∈ kvs) : get kvs' key default = v := by
  have hnd' : (kvs'.map Prod.fst).Nodup := (hperm.map Prod.fst).nodup_iff.2 hnd
  have hlookup : lookup kvs' key = some v := lookup_of_mem hnd' (hperm.mem_iff.2 hv)
  show (lookup kvs' key).getD default = v
  rw [hlookup, Option.getD_some]

/-- The address where a node that names a loopback address is found: that of its packet. -/
def reached (ip host : UStr) : UStr := bif loopback.contains ip then host else ip

theorem reached_eq (ip host : UStr) : reached ip host = if ip ∈ loopback then host else ip := by
  simp only [reached, Bool.cond_eq_ite, List.contains_iff_mem]

/-- What a receiver makes of a beacon. -/
def peerOf (id : UStr) (s : Site) (addr : Option UStr) (now : Rat) : Peer :=
  ⟨id, s.hostname, addr.elim (strip s.ip) (reached (strip s.ip)), s.uiPort, s.scheme, now⟩

section
variable {id : UStr} {s : Site} {t now : Rat} {addr : Option UStr} {kvs : List (UStr × Value)}

theorem portOf_eq {n : Int} (h : get kvs "port" (.int 0) = .int n) : portOf kvs = .ok n := by
  unfold portOf
  rw [h]
  -- a port of zero is falsy, and zero is what stands in for it
  by_cases hn : n = 0
  · subst hn
    rfl
  · simp [Value.truthy, Value.toInt, hn]

theorem get_payload (hperm : kvs.Perm (payload id s t)) {key : String} {v default : Value}
    (hv : (ofText key.toList, v) ∈ payload id s t) : get kvs key default = v :=
  get_of_perm hperm (payload_nodup id s t) hv

/-- The id that a receiver reads in a beacon. -/
theorem id_payload (hperm : kvs.Perm (payload id s t)) :
    (get kvs "id" (.str [])).toStr py = .ok id := by
  rw [get_payload hperm (v := .str id) (by simp [payload])]
  rfl

/-- The entry that a receiver makes of a beacon. -/
theorem entry_payload (hperm : kvs.Perm (payload id s t)) :
    entry py kvs id addr now = .ok (peerOf id s addr now) := by
  have hip : get kvs "ip" (.str []) = .str s.ip := get_payload hperm (by simp [payload, Site.advertised])
  have hname : get kvs "name" (.str (ofText ['?'])) = .str s.hostname :=
    get_payload hperm (by simp [payload])
  have hport : portOf kvs = .ok s.uiPort :=
    portOf_eq (get_payload hperm (by simp [payload, Site.advertised]))
  have hscheme : get kvs "scheme" .null = .str (ofText s.scheme.toList) :=
    get_payload hperm (by simp [payload, Site.advertised])
  have hsame : (if (Value.str (ofText s.scheme.toList)).eqStr "https" then "https" else "http") =
      s.scheme := by
    cases htls : s.tlsEnabled <;> rw [Site.scheme, htls] <;> rfl
  unfold entry
  rw [hip, hname, hport, hscheme, hsame, peerOf]
  cases addr with
  | none => rfl
  | some host =>
    rw [Option.elim_some, reached_eq]
    rfl

omit [DecidableEq ι] in
/-- The entry made of a beacon shows it. -/
theorem shows_peerOf (ids : ι → UStr) (b : Sent ι) (addr : Option UStr) (now : Rat) :
    Shows ids b (peerOf (ids b.sender) b.site addr now) := by
  refine ⟨rfl, rfl, rfl, rfl, ?_⟩
  cases addr with
  | none => exact .inl rfl
  | some host =>
    show reached (strip b.site.ip) host = strip b.site.ip ∨ _
    rw [reached_eq]
    split
    · next hloop => exact .inr hloop
    · exact .inl rfl

end

/-! ### What the handler records -/

section
variable {node : Node} {data : Bytes} {body sig : Value} {addr : Option UStr} {now : Rat}
  {table table' : Table}

/-- The handler records an entry for an authentic envelope. -/
def Recorded (py : Runtime) (hmac : Bytes → Bytes → Bytes) (node : Node) (data : Bytes)
    (addr : Option UStr) (now : Rat) (table table' : Table) : Prop :=
  ∃ body sig kvs pid peer, Envelope py data (.str body) sig ∧ Authentic py hmac node body sig ∧
    py.loads body = .ok (.obj kvs) ∧ (get kvs "id" (.str [])).toStr py = .ok pid ∧ pid ≠ [] ∧
    pid ≠ node.instanceId ∧ entry py kvs pid addr now = .ok peer ∧ table' = dictSet table pid peer

/-- What `record` does with a payload that names another node. -/
theorem record_obj {kvs : List (UStr × Value)} {pid : UStr}
    (hpid : (get kvs "id" (.str [])).toStr py = .ok pid) (hne : pid ≠ [])
    (hown : pid ≠ node.instanceId) :
    record py node (.obj kvs) addr now table =
      (entry py kvs pid addr now).bind fun peer => .ok (dictSet table pid peer) := by
  unfold record
  dsimp only
  rw [hpid, except_ok_bind, if_neg (not_or.2 ⟨hne, hown⟩)]
  rfl

/-- From the envelope on: the table stays, or an entry is recorded. -/
theorem verify_recorded (henvelope : Envelope py data body sig)
    (h : verify py hmac node body sig addr now table = .ok table') :
    table' = table ∨ Recorded py hmac node data addr now table table' := by
  obtain ⟨⟨k, hk⟩, ⟨b, hb⟩, sig', hsig, hascii⟩ := verify_texts ⟨table', h⟩
  obtain ⟨s, rfl⟩ := encode_eq_ok hb
  rw [verify_eq hk hb hsig hascii] at h
  by_cases hsame : hexdigest (hmac k b) = sig'
  · rw [if_pos hsame] at h
    have hauth : Authentic py hmac node s sig := (authentic_iff hk hb hsig).2 hsame
    split at h
    · next p hp =>
      -- `record` names an id of its own: the entry is read off the second time round
      rcases record_eq_ok h with rfl | ⟨kvs, pid, -, rfl, hpid, hne, hown, -⟩
      · exact .inl rfl
      · rw [record_obj hpid hne hown] at h
        obtain ⟨peer, hpeer, htable⟩ := except_bind_eq_ok.1 h
        exact .inr ⟨s, sig, kvs, pid, peer, henvelope, hauth, hp, hpid, hne, hown, hpeer,
          (Except.ok.inj htable).symm⟩
    · split at h
      · cases h
        exact .inl rfl
      · cases h
  · rw [if_neg hsame] at h
    cases h
    exact .inl rfl

theorem handleDatagram_recorded (h : handleDatagram py hmac node data addr now table = .ok table') :
    table' = table ∨ Recorded py hmac node data addr now table table' := by
  unfold handleDatagram at h
  split at h
  · cases h
    exact .inl rfl
  · split at h
    · cases h
    · cases h
      exact .inl rfl
    · next body sig henvelope => exact verify_recorded (envelope_eq_some.1 henvelope) h

end

/-! ### A beacon that gets through -/

section
variable {ids : ι → UStr} {net net' : Net ι} {i j : ι} {s : Site} {t now : Rat} {data : Bytes}
  {addr : Option UStr} {table : Table} {node : Node}

/-- The datagram of a beacon: the envelope of the body and its signature. -/
theorem makeBeacon_eq_ok {id : UStr} : makeBeacon w hmac id s t = .ok data ↔
    ∃ sig, sign hmac s.key (.str (bodyOf w id s t)) = .ok sig ∧
      encodeUtf8 (w.plain (envelopeOf (bodyOf w id s t) sig)) = .ok data := by
  unfold makeBeacon
  exact except_bind_eq_ok

/-- The receiver's JSON takes the two texts of a beacon apart as they were written. -/
structure Written (py : Runtime) (w : Writer) (hmac : Bytes → Bytes → Bytes) (id : UStr) (s : Site)
    (t : Rat) : Prop where
  body : ReadBack py (bodyOf w id s t) (payload id s t)
  envelope : ∀ sig, sign hmac s.key (.str (bodyOf w id s t)) = .ok sig →
    ReadBack py (w.plain (envelopeOf (bodyOf w id s t) sig)) (envelopeOf (bodyOf w id s t) sig)

/-- A node with the same key and another id records a beacon. -/
theorem handleDatagram_beacon {id : UStr} (hsent : makeBeacon w hmac id s t = .ok data)
    (hwritten : Written py w hmac id s t) (hkey : s.key = node.key) (hactive : node.key ≠ [])
    (hid : id ≠ []) (hother : id ≠ node.instanceId) :
    handleDatagram py hmac node data addr now table =
      .ok (dictSet table id (peerOf id s addr now)) := by
  obtain ⟨sig, hsig, hdata⟩ := makeBeacon_eq_ok.1 hsent
  obtain ⟨k, b, hk, hb, rfl⟩ := sign_eq_ok.1 hsig
  obtain ⟨env, henv, hloads⟩ := hwritten.envelope _ hsig
  obtain ⟨kvs, hkvs, hbody⟩ := hwritten.body
  rw [hkey] at hk
  -- the envelope holds the body and its signature, in whatever order
  have hnd : ((envelopeOf (bodyOf w id s t) (hexdigest (hmac k b))).map Prod.fst).Nodup := by
    show [ofText "d".toList, ofText "s".toList].Nodup
    decide
  have hnd' : (env.map Prod.fst).Nodup := (henv.map Prod.fst).nodup_iff.2 hnd
  have henvelope : Envelope py data (.str (bodyOf w id s t)) (.str (hexdigest (hmac k b))) :=
    ⟨_, env, decodeUtf8_encodeUtf8 hdata, hloads,
      lookup_of_mem hnd' (henv.mem_iff.2 (by simp [envelopeOf])),
      lookup_of_mem hnd' (henv.mem_iff.2 (by simp [envelopeOf]))⟩
  rw [handleDatagram, if_neg hactive, envelope_eq_some.2 henvelope]
  dsimp only
  rw [verify_eq hk hb rfl (isAscii_hexdigest _), if_pos rfl, hbody]
  dsimp only
  rw [record_obj (id_payload hkvs) hid hother, entry_payload hkvs]
  rfl

/-! ### Looking at the peers -/

/-- A table under the ids of its entries, pruned. -/
theorem prune_eq (hnd : (table.map Prod.fst).Nodup) (hid : ∀ e ∈ table, e.1 = e.2.id) :
    prune now table = table.filter fun e => now - e.2.lastSeen ≤ Cluster.peerTtl := by
  have hlive : (live now table).map (fun p => (p.id, p)) =
      table.filter fun e => now - e.2.lastSeen ≤ Cluster.peerTtl := by
    rw [live, List.filter_map, List.map_map]
    refine (List.map_congr_left fun e he => ?_).trans (List.map_id _)
    rw [Function.comp_apply, ← hid e (List.mem_of_mem_filter he)]
    rfl
  have hkeys : ((live now table).map Peer.id).Nodup := by
    have hmap : (live now table).map Peer.id =
        ((live now table).map fun p => (p.id, p)).map Prod.fst := by
      rw [List.map_map]
      rfl
    rw [hmap, hlive]
    exact hnd.sublist (List.filter_sublist.map Prod.fst)
  rw [prune, foldl_dictSet Peer.id (live now table) [] (by simpa using hkeys), hlive,
    List.nil_append]

end

/-! ### One step -/

section
variable {ids : ι → UStr} {net net' : Net ι}

omit [DecidableEq ι] in
/-- An entry that shows a beacon is not lost from view when more is sent and the keys stay. -/
theorem Inv.shows_mono (h : Inv py w hmac ids net) {sent : List (Sent ι)} (hsent : net.sent ⊆ sent)
    {held : List UStr} {j : ι} (hheld : net.held j ⊆ held) {pid : UStr} {peer : Peer}
    (hmem : (pid, peer) ∈ net.table j) : pid = peer.id ∧ pid ≠ [] ∧ pid ≠ ids j ∧
      ∃ b ∈ sent, b.site.key ∈ held ∧ Shows ids b peer := by
  obtain ⟨hid, hne, hown, b, hb, hkey, hshows⟩ := h.shows j pid peer hmem
  exact ⟨hid, hne, hown, b, hsent hb, hheld hkey, hshows⟩

omit [DecidableEq ι] in
/-- What a genuine datagram may put into a table. -/
theorem Inv.recorded (h : Inv py w hmac ids net) {i : ι} {data : Bytes} {addr : Option UStr}
    {table' : Table} (hgenuine : Genuine py w hmac ids net (.datagram i data addr))
    (hrec : Recorded py hmac (net.node ids i) data addr (net.clock i) (net.table i) table') :
    ∃ b ∈ net.sent, b.site.key = (net.site i).key ∧ ids b.sender ≠ [] ∧ ids b.sender ≠ ids i ∧
      table' = dictSet (net.table i) (ids b.sender)
        (peerOf (ids b.sender) b.site addr (net.clock i)) := by
  obtain ⟨body, sig, kvs, pid, peer, henvelope, hauth, hloads, hpid, hne, hown, hentry, rfl⟩ := hrec
  obtain ⟨b, hb, hkey, rfl⟩ := hgenuine body sig henvelope hauth
  -- the body is one that was broadcast, so it says what its sender meant
  obtain ⟨kvs', hperm, hloads'⟩ := h.written b hb
  obtain rfl : kvs = kvs' := by
    rw [hloads] at hloads'
    cases hloads'
    rfl
  rw [id_payload hperm] at hpid
  obtain rfl := Except.ok.inj hpid
  rw [entry_payload hperm] at hentry
  obtain rfl := Except.ok.inj hentry
  exact ⟨b, hb, hkey, hne, hown, rfl⟩

omit [DecidableEq ι] in
/-- The table after a genuine datagram: as it was, or with an entry for a beacon. -/
theorem Inv.received (h : Inv py w hmac ids net) {i : ι} {data : Bytes} {addr : Option UStr}
    (hgenuine : Genuine py w hmac ids net (.datagram i data addr)) :
    net.received py hmac ids i data addr = net.table i ∨
      ∃ b ∈ net.sent, b.site.key = (net.site i).key ∧ ids b.sender ≠ [] ∧ ids b.sender ≠ ids i ∧
        net.received py hmac ids i data addr = dictSet (net.table i) (ids b.sender)
          (peerOf (ids b.sender) b.site addr (net.clock i)) := by
  unfold Net.received
  split
  · next table' h' =>
    rcases handleDatagram_recorded h' with rfl | hrec
    · exact .inl rfl
    · exact .inr (h.recorded hgenuine hrec)
  · exact .inl rfl

/-- A table whose entries are some of those that were there. -/
theorem Inv.sublist (h : Inv py w hmac ids net) (i : ι) {table' : Table}
    (hsub : table'.Sublist (net.table i)) :
    Inv py w hmac ids { net with table := Function.update net.table i table' } where
  current := h.current
  written := h.written
  made := h.made
  nodup j := by
    by_cases hj : j = i
    · subst hj
      simpa using (h.nodup j).sublist (hsub.map Prod.fst)
    · simpa [hj] using h.nodup j
  shows j pid peer hmem := by
    by_cases hj : j = i
    · subst hj
      exact h.shows j pid peer (hsub.mem (by simpa using hmem))
    · exact h.shows j pid peer (by simpa [hj] using hmem)

/-- A table with an entry for a beacon of a node that has the key. -/
theorem Inv.record (h : Inv py w hmac ids net) (i : ι) {b : Sent ι} (hb : b ∈ net.sent)
    (hkey : b.site.key = (net.site i).key) (hne : ids b.sender ≠ []) (hown : ids b.sender ≠ ids i)
    (addr : Option UStr) :
    Inv py w hmac ids { net with table := Function.update net.table i (dictSet (net.table i)
      (ids b.sender) (peerOf (ids b.sender) b.site addr (net.clock i))) } where
  current := h.current
  written := h.written
  made := h.made
  nodup j := by
    by_cases hj : j = i
    · subst hj
      simpa using dictSet_nodup (h.nodup j) _ _
    · simpa [hj] using h.nodup j
  shows j pid peer hmem := by
    by_cases hj : j = i
    · subst hj
      simp only [Function.update_self] at hmem
      rcases mem_dictSet hmem with ⟨rfl, rfl⟩ | ⟨-, hmem⟩
      · exact ⟨rfl, hne, hown, b, hb, hkey ▸ h.current j, shows_peerOf ids b addr _⟩
      · exact h.shows j pid peer hmem
    · exact h.shows j pid peer (by simpa [hj] using hmem)

/-- Every event keeps the invariant. -/
theorem Inv.apply (h : Inv py w hmac ids net) {e : Event ι} (hgenuine : Genuine py w hmac ids net e) :
    Inv py w hmac ids (apply py w hmac ids net e) := by
  cases e with
  | clock i t => exact ⟨h.current, h.written, h.made, h.nodup, h.shows⟩
  | configure i s =>
    -- the keys of a node only grow, so an entry keeps the key it came with
    have hgrow : ∀ j, net.held j ⊆ Function.update net.held i (s.key :: net.held i) j := by
      intro j k hk
      by_cases hj : j = i
      · subst hj
        simp [hk]
      · simpa [hj] using hk
    refine ⟨fun j => ?_, h.written, h.made, h.nodup, fun j pid peer hmem => ?_⟩
    · show (Function.update net.site i s j).key ∈ Function.update net.held i (s.key :: net.held i) j
      by_cases hj : j = i
      · subst hj
        simp
      · simpa [hj] using h.current j
    · exact h.shows_mono (List.Subset.refl _) (hgrow j) hmem
  | broadcast i =>
    unfold Discovery.apply
    dsimp only
    split
    · next data hdata =>
      refine ⟨h.current, fun b hb => ?_, fun b hb => ?_, h.nodup, fun j pid peer hmem => ?_⟩
      · rcases List.mem_cons.1 hb with rfl | hb
        · exact hgenuine
        · exact h.written b hb
      · rcases List.mem_cons.1 hb with rfl | hb
        · exact hdata
        · exact h.made b hb
      · exact h.shows_mono (List.subset_cons_self _ _) (List.Subset.refl _) hmem
    · exact h
  | datagram i data addr =>
    unfold Discovery.apply
    dsimp only
    rcases h.received hgenuine with hsame | ⟨b, hb, hkey, hne, hown, htable⟩
    · rw [hsame]
      exact h.sublist i (List.Sublist.refl _)
    · rw [htable]
      exact h.record i hb hkey hne hown addr
  | peers i =>
    refine h.sublist i ?_
    rw [prune_eq (h.nodup i) fun e he => (h.shows i e.1 e.2 he).1]
    exact List.filter_sublist
  | stop i =>
    have hcleared := h.sublist i (List.nil_sublist (net.table i))
    refine ⟨fun j => ?_, h.written, h.made, hcleared.nodup, fun j pid peer hmem => ?_⟩
    · show (net.site j).key ∈ Function.update net.held i [(net.site i).key] j
      by_cases hj : j = i
      · subst hj
        simp
      · simpa [hj] using h.current j
    · -- the cleared table has no entries, and the other ones keep theirs
      by_cases hj : j = i
      · subst hj
        simp [Discovery.apply] at hmem
      · have hheld : net.held j ⊆ Function.update net.held i [(net.site i).key] j := by
          rw [Function.update_of_ne hj]
          exact List.Subset.refl _
        exact h.shows_mono (List.Subset.refl _) hheld (by simpa [Discovery.apply, hj] using hmem)

omit [DecidableEq ι] in
theorem inv_start (site : ι → Site) : Inv py w hmac ids (Net.start site) where
  current i := by simp [Net.start]
  written b hb := by cases hb
  made b hb := by cases hb
  nodup j := List.nodup_nil
  shows j pid peer hmem := by cases hmem

/-- Every run keeps the invariant. -/
theorem Inv.run (h : Inv py w hmac ids net) {es : List (Event ι)}
    (hgenuine : Along (step py w hmac ids) (Genuine py w hmac ids) net es)
    (hrun : run (step py w hmac ids) net es = some net') : Inv py w hmac ids net' := by
  refine run_invariant (Inv py w hmac ids) ?_ h hgenuine hrun
  rintro s e s' hs he ⟨⟩
  exact hs.apply he

end

/-! ### What a node has heard of -/

/-- The events that a listed peer outlives: its owner is not stopped, and reads no clock outside
    `PEER_TTL` from `c` on. -/
def Outlived (j : ι) (c : Rat) : Event ι → Prop
  | .clock i t => i = j → c ≤ t ∧ t ≤ c + Cluster.peerTtl
  | .stop i => i ≠ j
  | _ => True

/-- Since `c`, not longer ago than `PEER_TTL`, `j` has heard of the id. -/
def Heard (j : ι) (pid : UStr) (c : Rat) (net : Net ι) : Prop :=
  (c ≤ net.clock j ∧ net.clock j ≤ c + Cluster.peerTtl) ∧
    ∃ peer, (net.table j).lookup pid = some peer ∧ c ≤ peer.lastSeen

section
variable {ids : ι → UStr} {net net' : Net ι} {j : ι} {pid : UStr} {c : Rat}

omit [DecidableEq ι] in
/-- What `j` has heard of is not pruned. -/
theorem Inv.lookup_prune (h : Inv py w hmac ids net) (hheard : Heard j pid c net) {peer : Peer}
    (hpeer : (net.table j).lookup pid = some peer) (hseen : c ≤ peer.lastSeen) :
    (prune (net.clock j) (net.table j)).lookup pid = some peer := by
  have hfresh : net.clock j - peer.lastSeen ≤ Cluster.peerTtl := by
    have := hheard.1.2
    linarith
  rw [prune_eq (h.nodup j) fun e he => (h.shows j e.1 e.2 he).1]
  refine lookup_of_mem ((h.nodup j).sublist (List.filter_sublist.map Prod.fst)) ?_
  exact List.mem_filter.2 ⟨mem_of_lookup hpeer, by simpa using hfresh⟩

/-- A genuine event that does not stop `j` leaves it with what it has heard of. -/
theorem Heard.apply (hheard : Heard j pid c net) (h : Inv py w hmac ids net) {e : Event ι}
    (hgenuine : Genuine py w hmac ids net e) (hout : Outlived j c e) :
    Heard j pid c (apply py w hmac ids net e) := by
  obtain ⟨hclock, peer, hpeer, hseen⟩ := id hheard
  cases e with
  | clock i t =>
    refine ⟨?_, peer, hpeer, hseen⟩
    show c ≤ Function.update net.clock i t j ∧ Function.update net.clock i t j ≤ _
    by_cases hj : j = i
    · subst hj
      simpa using hout rfl
    · simpa [hj] using hclock
  | configure i s => exact ⟨hclock, peer, hpeer, hseen⟩
  | broadcast i =>
    unfold Discovery.apply
    dsimp only
    split
    · exact ⟨hclock, peer, hpeer, hseen⟩
    · exact hheard
  | datagram i data addr =>
    refine ⟨hclock, ?_⟩
    show ∃ peer, (Function.update net.table i (net.received py hmac ids i data addr) j).lookup pid =
      some peer ∧ c ≤ peer.lastSeen
    by_cases hj : j = i
    · subst hj
      rw [Function.update_self]
      rcases h.received hgenuine with hsame | ⟨b, -, -, -, -, htable⟩
      · exact ⟨peer, hsame ▸ hpeer, hseen⟩
      · rw [htable, lookup_dictSet]
        -- the id was heard again, now, or another one was
        split
        · exact ⟨_, rfl, hclock.1⟩
        · exact ⟨peer, hpeer, hseen⟩
    · rw [Function.update_of_ne hj]
      exact ⟨peer, hpeer, hseen⟩
  | peers i =>
    refine ⟨hclock, peer, ?_, hseen⟩
    show (Function.update net.table i (prune (net.clock i) (net.table i)) j).lookup pid = some peer
    by_cases hj : j = i
    · subst hj
      rw [Function.update_self, h.lookup_prune hheard hpeer hseen]
    · rw [Function.update_of_ne hj, hpeer]
  | stop i =>
    refine ⟨hclock, peer, ?_, hseen⟩
    show (Function.update net.table i [] j).lookup pid = some peer
    rw [Function.update_of_ne fun hj => hout hj.symm, hpeer]

/-- After a beacon got through its receiver has heard of the sender. -/
theorem Inv.heard (h : Inv py w hmac ids net) {b : Sent ι} (hb : b ∈ net.sent)
    (hwritten : Written py w hmac (ids b.sender) b.site b.time)
    (hkey : b.site.key = (net.site j).key) (hactive : (net.site j).key ≠ [])
    (hid : ids b.sender ≠ []) (hother : ids b.sender ≠ ids j) (addr : Option UStr) :
    Heard j (ids b.sender) (net.clock j)
      (Discovery.apply py w hmac ids net (.datagram j b.data addr)) := by
  have hhandled : handleDatagram py hmac (net.node ids j) b.data addr (net.clock j) (net.table j) =
      .ok (dictSet (net.table j) (ids b.sender)
        (peerOf (ids b.sender) b.site addr (net.clock j))) :=
    handleDatagram_beacon (h.made b hb) hwritten hkey hactive hid hother
  have hreceived : net.received py hmac ids j b.data addr = dictSet (net.table j) (ids b.sender)
      (peerOf (ids b.sender) b.site addr (net.clock j)) := by
    rw [Net.received, hhandled]
  refine ⟨⟨le_refl _, ?_⟩, peerOf (ids b.sender) b.site addr (net.clock j), ?_, le_refl _⟩
  · show net.clock j ≤ net.clock j + Cluster.peerTtl
    have : (0 : Rat) ≤ Cluster.peerTtl := by decide
    linarith
  · show (Function.update net.table j (net.received py hmac ids j b.data addr) j).lookup _ = _
    rw [Function.update_self, hreceived, lookup_dictSet, if_pos rfl]

/-- A run that `j` outlives leaves it with what it has heard of. -/
theorem Heard.run (hheard : Heard j pid c net) (h : Inv py w hmac ids net) {es : List (Event ι)}
    (hgenuine : Along (step py w hmac ids) (Genuine py w hmac ids) net es)
    (hout : ∀ e ∈ es, Outlived j c e) (hrun : run (step py w hmac ids) net es = some net') :
    Heard j pid c net' := by
  have hboth : Along (step py w hmac ids) (fun s e => Genuine py w hmac ids s e ∧ Outlived j c e)
      net es := along_and.2 ⟨hgenuine, along_of_forall (fun e he _ => hout e he) net⟩
  refine (run_invariant (fun s => Inv py w hmac ids s ∧ Heard j pid c s) ?_ ⟨h, hheard⟩ hboth hrun).2
  rintro s e s' ⟨hs, hheard⟩ ⟨he, hout⟩ ⟨⟩
  exact ⟨hs.apply he, hheard.apply hs he hout⟩

end

/-! ### Two nodes of one cluster -/

/-- The body of a first beacon. -/
@[irreducible] def firstBody : List Char :=
  ("\x7b\"id\":\"a1\",\"ip\":\"10.0.0.1\",\"name\":\"n\",\"port\":8080,\"scheme\":\"http\"," ++
    "\"t\":0,\"v\":1\x7d").toList

/-- Its datagram. -/
@[irreducible] def firstText : List Char :=
  ("\x7b\"d\": \"\x7b\\\"id\\\":\\\"a1\\\",\\\"ip\\\":\\\"10.0.0.1\\\",\\\"name\\\":\\\"n\\\"," ++
    "\\\"port\\\":8080,\\\"scheme\\\":\\\"http\\\",\\\"t\\\":0,\\\"v\\\":1\x7d\", \"s\": \"" ++
    "a31668bca02ec96ae55dcf316c7c7ea5787b212738dc98a4aae82e6978dfdd61\"\x7d").toList

/-- The keyed hash of that body under the key `k`. -/
def firstDigest (_ _ : Bytes) : Bytes :=
  [163, 22, 104, 188, 160, 46, 201, 106, 229, 93, 207, 49, 108, 124, 126, 165, 120, 123, 33, 39, 56,
    220, 152, 164, 170, 232, 46, 105, 120, 223, 221, 97]

/-- The settings of both nodes. -/
def bothSite : Site where
  key := ofText ['k']
  advertiseIp := ofText "10.0.0.1".toList
  bindIp := []
  uiPort := 8080
  tlsEnabled := false
  hostname := ofText ['n']
  lanIp := none

def bothIds (i : Bool) : UStr := if i then ofText ['c', '3'] else ofText ['a', '1']

/-- JSON, as far as it writes that beacon. -/
def firstWriter : Writer where
  sorted _ := ofText firstBody
  plain _ := ofText firstText

/-- The order of the keys of a written dictionary. -/
def keyLe (a b : UStr × Value) : Bool :=
  decide ((toText? a.1).getD [] ≤ (toText? b.1).getD [])

/-- JSON, as far as it reads that beacon. -/
def firstRuntime : Runtime where
  loads text :=
    if text = ofText firstBody then .ok (.obj ((payload (bothIds false) bothSite 0).mergeSort keyLe))
    else if text = ofText firstText then
      .ok (.obj (envelopeOf (ofText firstBody) (hexdigest (firstDigest [] []))))
    else .error .valueError
  loadsBytes _ := .error .valueError
  strOther _ := .error .valueError

/-- The beacon of the first node. -/
def firstSent : Sent Bool := ⟨false, bothSite, 0, Latin1.encode firstText⟩

/-- Both nodes, after the first one has broadcast. -/
def afterFirst : Net Bool := { Net.start (fun _ => bothSite) with sent := [firstSent] }

theorem loads_first : firstRuntime.loads (ofText firstBody) =
    .ok (.obj ((payload (bothIds false) bothSite 0).mergeSort keyLe)) := by
  unfold firstRuntime
  exact if_pos rfl

theorem loads_firstText : firstRuntime.loads (ofText firstText) =
    .ok (.obj (envelopeOf (ofText firstBody) (hexdigest (firstDigest [] [])))) := by
  have hne : ofText firstText ≠ ofText firstBody := by decide +kernel
  unfold firstRuntime
  exact (if_neg hne).trans (if_pos rfl)

theorem sign_first : sign firstDigest bothSite.key (.str (ofText firstBody)) =
    .ok (hexdigest (firstDigest [] [])) := by
  refine sign_eq_ok.2 ⟨_, Latin1.encode firstBody, encodeUtf8_ofText ['k'], ?_, rfl⟩
  rw [Value.encode, encodeUtf8_ofText]

theorem makeBeacon_first :
    makeBeacon firstWriter firstDigest (bothIds false) bothSite 0 = .ok (Latin1.encode firstText) :=
  makeBeacon_eq_ok.2 ⟨_, sign_first, encodeUtf8_ofText firstText⟩

theorem written_first :
    Written firstRuntime firstWriter firstDigest (bothIds false) bothSite 0 where
  body := ⟨_, List.mergeSort_perm _ keyLe, loads_first⟩
  envelope sig hsig := by
    obtain rfl : hexdigest (firstDigest [] []) = sig := Except.ok.inj (sign_first.symm.trans hsig)
    exact ⟨_, List.Perm.refl _, loads_firstText⟩

theorem apply_broadcast_first :
    apply firstRuntime firstWriter firstDigest bothIds (Net.start fun _ => bothSite)
      (.broadcast false) = afterFirst := by
  show (match makeBeacon firstWriter firstDigest (bothIds false) bothSite 0 with
    | .ok data => { Net.start (fun _ => bothSite) with sent := ⟨false, bothSite, 0, data⟩ :: [] }
    | .error _ => Net.start fun _ => bothSite) = afterFirst
  rw [makeBeacon_first]
  rfl

/-- The datagram is that of the beacon, so it holds what was broadcast. -/
theorem genuine_first (addr : Option UStr) :
    Genuine firstRuntime firstWriter firstDigest bothIds afterFirst
      (.datagram true firstSent.data addr) := by
  rintro body sig ⟨text, env, htext, henv, hbody, -⟩ -
  obtain rfl : ofText firstText = text :=
    Option.some.inj ((decodeUtf8_encodeUtf8 (encodeUtf8_ofText firstText)).symm.trans htext)
  obtain rfl : envelopeOf (ofText firstBody) (hexdigest (firstDigest [] [])) = env := by
    rw [loads_firstText] at henv
    cases henv
    rfl
  obtain rfl : ofText firstBody = body := by
    have hd : lookup (envelopeOf (ofText firstBody) (hexdigest (firstDigest [] []))) "d" =
        some (.str (ofText firstBody)) := rfl
    rw [hd] at hbody
    cases hbody
    rfl
  exact ⟨firstSent, List.mem_singleton_self _, rfl, rfl⟩

theorem step_broadcast_first :
    step firstRuntime firstWriter firstDigest bothIds (Net.start fun _ => bothSite)
      (.broadcast false) = some afterFirst :=
  congrArg some apply_broadcast_first

theorem genuine_broadcast_first :
    Genuine firstRuntime firstWriter firstDigest bothIds (Net.start fun _ => bothSite)
      (.broadcast false) :=
  written_first.body

theorem inv_afterFirst : Inv firstRuntime firstWriter firstDigest bothIds afterFirst :=
  apply_broadcast_first ▸ (inv_start _).apply genuine_broadcast_first

/-- The beacon is sent, and arrives; no other datagram does. -/
theorem along_first (addr : Option UStr) (later : List (Event Bool))
    (hlater : ∀ e ∈ later, ∀ net, Genuine firstRuntime firstWriter firstDigest bothIds net e) :
    Along (step firstRuntime firstWriter firstDigest bothIds)
      (Genuine firstRuntime firstWriter firstDigest bothIds) (Net.start fun _ => bothSite)
      (.broadcast false :: .datagram true firstSent.data addr :: later) := by
  refine ⟨genuine_broadcast_first, fun net hnet => ?_⟩
  rw [step_broadcast_first, Option.some.injEq] at hnet
  subst hnet
  exact ⟨genuine_first addr, fun net _ => along_of_forall hlater net⟩

/-! ### Nobody is listed who did not broadcast -/

/-- **Authenticity.**  However datagrams are lost, repeated, reordered or made up, an entry of a
    table shows a beacon that was sent, under a key that the owner of the table has had since the
    table was last cleared, by another node, which has the id of the entry. -/
theorem listed_genuine (py : Runtime) (w : Writer) (hmac : Bytes → Bytes → Bytes) (ids : ι → UStr)
    (site : ι → Site) (es : List (Event ι)) (net : Net ι)
    (hgenuine : Along (step py w hmac ids) (Genuine py w hmac ids) (Net.start site) es)
    (hrun : run (step py w hmac ids) (Net.start site) es = some net) (j : ι) :
    ((net.table j).map Prod.fst).Nodup ∧
      ∀ pid peer, (pid, peer) ∈ net.table j → pid ≠ [] ∧ pid ≠ ids j ∧
        ∃ b ∈ net.sent, ids b.sender = pid ∧ b.site.key ∈ net.held j ∧ Shows ids b peer := by
  have h : Inv py w hmac ids net := (inv_start site).run hgenuine hrun
  refine ⟨h.nodup j, fun pid peer hmem => ?_⟩
  obtain ⟨hid, hne, hown, b, hb, hkey, hshows⟩ := h.shows j pid peer hmem
  exact ⟨hne, hown, b, hb, hshows.id.symm.trans hid.symm, hkey, hshows⟩

/-- A beacon that arrives is listed by the other node. -/
theorem listed_genuine_first :
    ∃ net, run (step firstRuntime firstWriter firstDigest bothIds) (Net.start fun _ => bothSite)
        [.broadcast false, .datagram true firstSent.data none] = some net ∧
      ∃ e ∈ net.table true, ∃ b ∈ net.sent, bothIds b.sender = e.1 ∧ Shows bothIds b e.2 := by
  have hrun : run (step firstRuntime firstWriter firstDigest bothIds) (Net.start fun _ => bothSite)
      [.broadcast false, .datagram true firstSent.data none] =
        some (apply firstRuntime firstWriter firstDigest bothIds afterFirst
          (.datagram true firstSent.data none)) := by
    show some (apply _ _ _ _ (apply _ _ _ _ _ _) _) = _
    rw [apply_broadcast_first]
  have hheard := inv_afterFirst.heard (j := true) (b := firstSent) (List.mem_singleton_self _)
    written_first rfl (by decide) (by decide) (by decide) none
  obtain ⟨-, peer, hpeer, -⟩ := hheard
  have hmem := mem_of_lookup hpeer
  obtain ⟨-, hall⟩ := listed_genuine firstRuntime firstWriter firstDigest bothIds (fun _ => bothSite)
    _ _ (along_first none [] (by simp)) hrun true
  obtain ⟨-, -, b, hb, hid, -, hshows⟩ := hall _ _ hmem
  exact ⟨_, hrun, _, hmem, b, hb, hid, hshows⟩

/-! ### Who gets through is listed -/

/-- **Discovery.**  Once a beacon gets through to another node with the same key, its sender is
    listed there for `PEER_TTL`, whatever else happens, as long as the receiver is not stopped:
    with an entry that shows a beacon of this very sender. -/
theorem delivered_listed (py : Runtime) (w : Writer) (hmac : Bytes → Bytes → Bytes) (ids : ι → UStr)
    (hids : Function.Injective ids) (site : ι → Site) (es later : List (Event ι)) (net net' : Net ι)
    (b : Sent ι) (j : ι) (addr : Option UStr)
    (hrun : run (step py w hmac ids) (Net.start site) es = some net)
    (hrun' : run (step py w hmac ids) net (.datagram j b.data addr :: later) = some net')
    (hgenuine : Along (step py w hmac ids) (Genuine py w hmac ids) (Net.start site)
      (es ++ .datagram j b.data addr :: later))
    (hb : b ∈ net.sent) (hwritten : Written py w hmac (ids b.sender) b.site b.time)
    (hkey : b.site.key = (net.site j).key) (hactive : (net.site j).key ≠ [])
    (hid : ids b.sender ≠ []) (hother : b.sender ≠ j)
    (hout : ∀ e ∈ later, Outlived j (net.clock j) e) :
    ∃ peer ∈ live (net'.clock j) (net'.table j), net.clock j ≤ peer.lastSeen ∧
      ∃ b' ∈ net'.sent, b'.sender = b.sender ∧ b'.site.key ∈ net'.held j ∧ Shows ids b' peer := by
  obtain ⟨hbefore, hafter⟩ := along_append hrun hgenuine
  have h : Inv py w hmac ids net := (inv_start site).run hbefore hrun
  have h' : Inv py w hmac ids net' := h.run hafter hrun'
  have hheard : Heard j (ids b.sender) (net.clock j) net' :=
    (h.heard hb hwritten hkey hactive hid (fun heq => hother (hids heq)) addr).run
      (h.apply hafter.1) (hafter.2 _ rfl) hout hrun'
  obtain ⟨hclock, peer, hpeer, hseen⟩ := hheard
  have hmem : (ids b.sender, peer) ∈ net'.table j := mem_of_lookup hpeer
  obtain ⟨hpid, -, -, b', hb', hkey', hshows⟩ := h'.shows j _ peer hmem
  refine ⟨peer, List.mem_filter.2 ⟨List.mem_map_of_mem (f := Prod.snd) hmem, ?_⟩, hseen, b', hb',
    hids (hshows.id.symm.trans hpid.symm), hkey', hshows⟩
  have := hclock.2
  have hfresh : net'.clock j - peer.lastSeen ≤ Cluster.peerTtl := by linarith
  simpa using hfresh

/-- Five seconds after its beacon arrived the sender is listed. -/
theorem delivered_listed_first :
    ∃ net, run (step firstRuntime firstWriter firstDigest bothIds) afterFirst
        [.datagram true firstSent.data none, .clock true 5, .peers true] = some net ∧
      ∃ peer ∈ live (net.clock true) (net.table true), peer.id = bothIds false := by
  refine ⟨_, rfl, ?_⟩
  have hids : Function.Injective bothIds := by decide
  have hout : ∀ e ∈ [Event.clock true 5, .peers true], Outlived true (afterFirst.clock true) e := by
    intro e he
    rcases List.mem_pair.1 he with rfl | rfl
    · intro _
      show (0 : Rat) ≤ 5 ∧ (5 : Rat) ≤ 0 + 20
      constructor <;> norm_num
    · trivial
  have hlater : ∀ e ∈ [Event.clock true 5, .peers true], ∀ net,
      Genuine firstRuntime firstWriter firstDigest bothIds net e := by
    intro e he net
    rcases List.mem_pair.1 he with rfl | rfl <;> trivial
  have hsent : run (step firstRuntime firstWriter firstDigest bothIds) (Net.start fun _ => bothSite)
      [.broadcast false] = some afterFirst := by
    rw [run_cons, step_broadcast_first]
    rfl
  obtain ⟨peer, hpeer, -, b, -, hb, -, hshows⟩ := delivered_listed firstRuntime firstWriter
    firstDigest bothIds hids (fun _ => bothSite) [.broadcast false] [.clock true 5, .peers true]
    afterFirst _ firstSent true none hsent rfl (along_first none _ hlater)
    (List.mem_singleton_self _) written_first rfl (by decide) (by decide) (by decide) hout
  exact ⟨peer, hpeer, hshows.id.trans (congrArg bothIds hb)⟩

end Ser2Net.Engine.Discovery
