import Ser2Net.Config.App
import Ser2Net.Lib.Uri

namespace Ser2Net.Engine.Cluster

open Ser2Net.Lib Ser2Net.Config

/-!
# Cluster — the peers this node knows, and its requests to them

The peer table and the manual peers of `ClusterDiscovery`, the allowlist `known_addresses`
made of both, and the requests of `get_peer` and `post_peer`, which carry the cluster key.

* `allTargets` — discovered peers first, then the manual peers at other addresses;
* `mem_knownAddresses` — the allowlist is the addresses of the live peers and of the manual
  entries that parse: deduplication loses none;
* `urlopen` — the requests that leave for one of them: the request itself, and those that
  redirects make of it, which carry the key too;
* `ToKnown` — the address a URL parser reads in a request is on the allowlist.
-/

/-- `PEER_TTL`, in seconds. -/
def peerTtl : Rat := 20

/-- An entry of the peer table. -/
structure Peer where
  id : String
  name : String
  ip : String
  port : Int
  scheme : String
  lastSeen : Rat

/-- `ClusterDiscovery`: the cluster section, read live, and the table `_peers`. -/
structure Discovery where
  cluster : ClusterSettings
  table : List (String × Peer)

/-- The peers heard from within `PEER_TTL`. -/
def Discovery.live (now : Rat) (d : Discovery) : List Peer :=
  (d.table.map Prod.snd).filter fun p => now - p.lastSeen ≤ peerTtl

/-- What `peers` leaves in the table. -/
def Discovery.prune (now : Rat) (d : Discovery) : Discovery :=
  { d with table := (d.live now).foldl (fun t p => dictSet t p.id p) [] }

/-- The key `(name.lower(), ip)` of one peer is at most that of another. -/
def Peer.before (py : PyEnv) (p q : Peer) : Prop :=
  py.lower p.name < py.lower q.name ∨ (py.lower p.name = py.lower q.name ∧ p.ip ≤ q.ip)

instance (py : PyEnv) : DecidableRel (Peer.before py) := fun _ _ =>
  inferInstanceAs (Decidable (_ ∨ _))

/-- `peers`. -/
def Discovery.peers (py : PyEnv) (now : Rat) (d : Discovery) : List Peer :=
  (d.live now).insertionSort (Peer.before py)

/-- A fetch target. -/
inductive Target
  /-- A discovered peer, with `source` set to `auto`. -/
  | auto (p : Peer)
  /-- A configured peer, with `source` set to `manual`. -/
  | manual (scheme ip : String) (port : Int)

/-- `(t["ip"], t["port"])`. -/
def Target.address : Target → String × Int
  | .auto p => (p.ip, p.port)
  | .manual _ ip port => (ip, port)

/-- The target of one manual entry; an entry that does not parse is skipped. -/
def manualTarget (entry : String) : Option Target :=
  match parseClusterPeer entry with
  | .ok (scheme, host, port) => some (.manual scheme host port)
  | .error _ => none

/-- `manual_targets`. -/
def Discovery.manualTargets (d : Discovery) : List Target :=
  d.cluster.peers.filterMap manualTarget

/-- The second loop of `all_targets`: the targets at addresses not seen before. -/
def unseen (seen : List (String × Int)) : List Target → List Target
  | [] => []
  | t :: rest =>
    if t.address ∈ seen then unseen seen rest else t :: unseen (t.address :: seen) rest

/-- `all_targets`. -/
def Discovery.allTargets (py : PyEnv) (now : Rat) (d : Discovery) : List Target :=
  let auto := (d.peers py now).map Target.auto
  auto ++ unseen (auto.map Target.address) d.manualTargets

/-- `known_addresses`. -/
def Discovery.knownAddresses (py : PyEnv) (now : Rat) (d : Discovery) : List (String × Int) :=
  (d.allTargets py now).map Target.address

/-- `(host, port) in known_addresses()`. -/
def Discovery.knows (py : PyEnv) (now : Rat) (d : Discovery) (host : String) (port : Int) : Bool :=
  (d.knownAddresses py now).contains (host, port)

theorem knows_iff {py : PyEnv} {now : Rat} {d : Discovery} {host : String} {port : Int} :
    d.knows py now host port = true ↔ (host, port) ∈ d.knownAddresses py now :=
  List.contains_iff_mem

/-! ### What the allowlist holds -/

/-- Deduplication keeps one target for every address. -/
theorem mem_unseen_address {seen : List (String × Int)} {ts : List Target} {a : String × Int} :
    a ∈ seen ∨ a ∈ (unseen seen ts).map Target.address ↔
      a ∈ seen ∨ a ∈ ts.map Target.address := by
  induction ts generalizing seen with
  | nil => rfl
  | cons t rest ih =>
    unfold unseen
    split
    · next hseen =>
      -- the target is dropped: its address has been seen
      rw [ih, List.map_cons, List.mem_cons]
      constructor
      · rintro (h | h)
        · exact Or.inl h
        · exact Or.inr (Or.inr h)
      · rintro (h | rfl | h)
        · exact Or.inl h
        · exact Or.inl hseen
        · exact Or.inr h
    · -- the target is kept, and its address counts as seen from here on
      have hrest : a ∈ t.address :: seen ∨ a ∈ (unseen (t.address :: seen) rest).map _ ↔
          a ∈ t.address :: seen ∨ a ∈ rest.map Target.address := ih
      rw [List.mem_cons] at hrest
      rw [List.map_cons, List.map_cons, List.mem_cons, List.mem_cons]
      tauto

/-- **The allowlist** is made of the addresses of the live peers and of the manual entries
    that parse. -/
theorem mem_knownAddresses {py : PyEnv} {now : Rat} {d : Discovery} {a : String × Int} :
    a ∈ d.knownAddresses py now ↔
      (∃ p ∈ d.live now, (p.ip, p.port) = a) ∨
      ∃ entry ∈ d.cluster.peers, ∃ scheme, parseClusterPeer entry = .ok (scheme, a) := by
  have hauto : a ∈ ((d.peers py now).map Target.auto).map Target.address ↔
      ∃ p ∈ d.live now, (p.ip, p.port) = a := by
    simp [Discovery.peers, Target.address]
  have hmanual : a ∈ d.manualTargets.map Target.address ↔
      ∃ entry ∈ d.cluster.peers, ∃ scheme, parseClusterPeer entry = .ok (scheme, a) := by
    constructor
    · intro h
      obtain ⟨t, ht, rfl⟩ := List.mem_map.1 h
      obtain ⟨entry, hentry, hparse⟩ := List.mem_filterMap.1 ht
      refine ⟨entry, hentry, ?_⟩
      unfold manualTarget at hparse
      split at hparse
      · next scheme host port heq =>
        obtain rfl := Option.some.inj hparse
        exact ⟨scheme, heq⟩
      · cases hparse
    · rintro ⟨entry, hentry, scheme, hparse⟩
      refine List.mem_map.2 ⟨.manual scheme a.1 a.2, List.mem_filterMap.2 ⟨entry, hentry, ?_⟩, rfl⟩
      unfold manualTarget
      rw [hparse]
  show a ∈ (((d.peers py now).map Target.auto) ++ unseen _ d.manualTargets).map _ ↔ _
  rw [List.map_append, List.mem_append, mem_unseen_address, hauto, hmanual]

/-! ### Requests to peers -/

/-- The HTTP method of a request. -/
inductive Method
  | get
  | post
  deriving DecidableEq, Repr

/-- A request that leaves this node with the `X-Cluster-Key` header. -/
structure PeerRequest where
  method : Method
  url : String
  clusterKey : Json
  fields : List (String × String)
  deriving DecidableEq

/-- `f"{scheme}://{host}:{port}{path}"`. -/
def peerUrl (scheme host : String) (port : Int) (path : String) : String :=
  scheme ++ "://" ++ host ++ ":" ++ toString port ++ path

/-- `get_peer`. -/
def Discovery.getPeer (d : Discovery) (scheme host : String) (port : Int) (path : String) :
    PeerRequest :=
  ⟨.get, peerUrl scheme host port path, d.cluster.key, []⟩

/-- `post_peer`. -/
def Discovery.postPeer (d : Discovery) (scheme host : String) (port : Int) (path : String)
    (fields : List (String × String)) : PeerRequest :=
  ⟨.post, peerUrl scheme host port path, d.cluster.key, fields⟩

/-- `control_peer`. -/
def Discovery.controlPeer (d : Discovery) (scheme host : String) (port : Int)
    (mappingId action : String) : PeerRequest :=
  d.postPeer scheme host port "/api/cluster/control"
    [("mapping_id", mappingId), ("action", action)]

/-! ### Redirects

`_http_get_json` and `_http_post_json` leave redirects to `urlopen`, which sends the headers of
the request along, the cluster key among them. -/

/-- An answer with a redirect status.  `location` is the URL its `Location` header names,
    resolved against the URL of the request, if it has that header. -/
structure Redirect where
  status : Nat
  location : Option String

/-- What is answered to a request: redirects, each to the request before it, and at the end the
    JSON, `none` for a request that failed. -/
structure Answer where
  redirects : List Redirect
  data : Option Json

/-- The redirect statuses that are followed. -/
def Method.follows : Method → Nat → Bool
  | .get, status => [301, 302, 303, 307, 308].contains status
  | .post, status => [301, 302, 303].contains status

/-- The schemes of the URLs that redirects are followed to. -/
def redirectable (url : String) : Bool :=
  match Uri.splitScheme url.toList with
  | some (scheme, _) =>
    ["http", "https", "ftp"].contains (PyText.lower (String.ofList scheme))
  | none => false

/-- `redirect_request` of urllib: the next request, or `none` for an `HTTPError`. -/
def redirectRequest (r : PeerRequest) (a : Redirect) : Option PeerRequest :=
  match a.location with
  | none => none
  | some url =>
    if r.method.follows a.status && redirectable url then some ⟨.get, url, r.clusterKey, []⟩
    else none

/-- The requests that redirects make, and whether all of them were followed.  `visited` are the
    URLs that redirects have led to: none of them a fifth time, and not more than ten. -/
def followed (r : PeerRequest) (visited : List String) : List Redirect → List PeerRequest × Bool
  | [] => ([], true)
  | a :: rest =>
    match redirectRequest r a with
    | none => ([], false)
    | some next =>
      if 4 ≤ visited.count next.url ∨ 10 ≤ visited.dedup.length then ([], false)
      else
        let (later, all) := followed next (next.url :: visited) rest
        (next :: later, all)

/-- What one call of `urlopen` sends, and the JSON it gets. -/
structure Exchange where
  sent : List PeerRequest
  data : Option Json

/-- `_http_get_json` and `_http_post_json`: any exception makes the answer `None`. -/
def urlopen (answer : Answer) (r : PeerRequest) : Exchange :=
  let (later, all) := followed r [] answer.redirects
  ⟨r :: later, if all then answer.data else none⟩

/-- The URLs that the answers redirect a request to. -/
def redirectedTo (answer : Answer) (r : PeerRequest) : List String :=
  (followed r [] answer.redirects).1.map PeerRequest.url

/-- A redirect takes the cluster key with it. -/
theorem redirectRequest_key {r next : PeerRequest} {a : Redirect}
    (h : redirectRequest r a = some next) : next.clusterKey = r.clusterKey := by
  unfold redirectRequest at h
  split at h
  · cases h
  · split at h
    · cases h
      rfl
    · cases h

/-- So do any number of redirects. -/
theorem followed_key {r next : PeerRequest} {visited : List String} {rs : List Redirect}
    (h : next ∈ (followed r visited rs).1) : next.clusterKey = r.clusterKey := by
  induction rs generalizing r visited with
  | nil => exact absurd h List.not_mem_nil
  | cons a rest ih =>
    unfold followed at h
    split at h
    · exact absurd h List.not_mem_nil
    · next mid hmid =>
      split at h
      · exact absurd h List.not_mem_nil
      · rcases List.mem_cons.1 h with rfl | h
        · exact redirectRequest_key hmid
        · exact (ih h).trans (redirectRequest_key hmid)

/-- Every request of an exchange carries the key of the first one. -/
theorem urlopen_key {answer : Answer} {r next : PeerRequest} (h : next ∈ (urlopen answer r).sent) :
    next.clusterKey = r.clusterKey := by
  rcases List.mem_cons.1 h with rfl | h
  · rfl
  · exact followed_key h

/-- What is said of the URLs of an exchange is said of the first one and of the redirects. -/
theorem forall_urlopen_sent {answer : Answer} {r : PeerRequest} {p : String → Prop} :
    (∀ next ∈ (urlopen answer r).sent, p next.url) ↔ p r.url ∧ ∀ u ∈ redirectedTo answer r, p u := by
  show (∀ next ∈ r :: (followed r [] answer.redirects).1, p next.url) ↔ _
  rw [List.forall_mem_cons, redirectedTo, List.forall_mem_map]

/-- The URL is an HTTP one, and the address that a parser reads in it is known. -/
def ToKnown (known : List (String × Int)) (url : List Char) : Prop :=
  ∃ host port, Uri.httpAddress url = some (host, port) ∧ (String.ofList host, (port : Int)) ∈ known

instance (known : List (String × Int)) (url : List Char) : Decidable (ToKnown known url) :=
  match h : Uri.httpAddress url with
  | none => isFalse fun ⟨_, _, h', _⟩ => by rw [h] at h'; cases h'
  | some (host, port) =>
    if hmem : (String.ofList host, (port : Int)) ∈ known then isTrue ⟨host, port, h, hmem⟩
    else isFalse fun ⟨_, _, h', hm⟩ => by
      rw [h] at h'
      cases h'
      exact hmem hm

/-- What the scheme text has to be for the request to go to the host and port it was put in
    front of, or at least to a known address: an HTTP scheme in front of a host that takes the
    port, or a text that is itself a URL of a known address. -/
def SchemeFits (known : List (String × Int)) (scheme host : String) (port : Int) : Prop :=
  (Uri.NoSep scheme.toList ∧ PyText.lower scheme ∈ ["http", "https"] ∧
    Uri.TakesPort host.toList ∧ 0 ≤ port) ∨
  (¬ Uri.NoSep scheme.toList ∧ ToKnown known (scheme.toList ++ [':']))

/-- The two HTTP schemes, in any letter case. -/
theorem defaultPort_isSome_iff (scheme : String) :
    (Uri.defaultPort scheme.toList).isSome = true ↔ PyText.lower scheme ∈ ["http", "https"] := by
  have hlower : ∀ t : String, PyText.lower scheme = t ↔ scheme.toList.map Char.toLower = t.toList :=
    fun t => by rw [PyText.lower, ← String.toList_inj, String.toList_ofList]
  rw [List.mem_cons, List.mem_singleton, hlower, hlower]
  unfold Uri.defaultPort
  split
  · simp_all
  · split <;> simp_all

/-- The characters of a URL whose path starts with a slash. -/
theorem toList_peerUrl (scheme host path : String) (port : Int) :
    (peerUrl scheme host port ("/" ++ path)).toList =
      scheme.toList ++ ':' :: ("//".toList ++
        ((host.toList ++ ':' :: (toString port).toList) ++ '/' :: path.toList)) := by
  simp [peerUrl, String.toList_append, List.append_assoc]

/-- **Where a request goes.**  A URL put together for a known plain address is read as a
    known address exactly when the scheme text fits. -/
theorem toKnown_peerUrl_iff {known : List (String × Int)} {scheme host : String} {port : Int}
    (path : String) (hplain : Uri.PlainHost host.toList) (hknown : (host, port) ∈ known) :
    ToKnown known (peerUrl scheme host port ("/" ++ path)).toList ↔
      SchemeFits known scheme host port := by
  rw [toList_peerUrl, SchemeFits]
  by_cases hs : Uri.NoSep scheme.toList
  · rw [ToKnown, Uri.httpAddress_build port hs hplain, ← defaultPort_isSome_iff]
    constructor
    · rintro ⟨h, p, heq, -⟩
      by_cases hfit : (Uri.defaultPort scheme.toList).isSome = true ∧
          Uri.TakesPort host.toList ∧ 0 ≤ port
      · exact Or.inl ⟨hs, hfit⟩
      · rw [if_neg hfit] at heq
        cases heq
    · rintro (⟨-, hfit⟩ | ⟨hno, -⟩)
      · refine ⟨host.toList, port.toNat, if_pos hfit, ?_⟩
        rw [String.ofList_toList, Int.toNat_of_nonneg hfit.2.2]
        exact hknown
      · exact absurd hs hno
  · rw [ToKnown, Uri.httpAddress_of_separator hs]
    constructor
    · intro h
      exact Or.inr ⟨hs, h⟩
    · rintro (⟨hyes, -⟩ | ⟨-, h⟩)
      · exact absurd hyes hs
      · exact h

end Ser2Net.Engine.Cluster
