import Ser2Net.Config.App
import Ser2Net.Config.Copy
import Ser2Net.Lib.Loop

namespace Ser2Net.Config

open Ser2Net.Lib

/-!
# Config — loading and saving

`AppConfig.from_dict` and `AppConfig.to_dict`: what a start makes of the file, and what a save
writes.  Loading normalises old values and fills in what is missing, so a loaded configuration
must come back unchanged from its own file:

* `AppConfig.fromDict`, `AppConfig.toDict` — the code, with the notes on changed trace files,
  and with the bound on the nesting of a value that `asdict` goes into;
* `AppConfig.Kept` — what `from_dict` normalises is normalised already; `kept_of_fromDict` says
  so of a loaded configuration;
* `Kept.reload` — the file of a kept configuration loads, and only poll intervals can change;
* `reload_unchanged_iff` — every number of reloads succeeds and changes nothing in a loaded
  configuration exactly when no mapping of its file has a poll interval whose text reads as zero,
  and no value is nested too deep.
-/

/-! ### The sections -/

/-- `asdict` of an `AdminUI`. -/
def AdminUI.toDict (a : AdminUI) : Json :=
  .obj [("bind_ip", a.bindIp), ("port", a.port), ("tls_cert", a.tlsCert), ("tls_key", a.tlsKey),
    ("require_login", a.requireLogin), ("anonymous_role", a.anonymousRole),
    ("language", a.language)]

/-- `LdapSettings.from_dict`. -/
def LdapSettings.fromDict (v : Json) : CfgM LdapSettings := do
  return LdapSettings.ofMembers (← v.toDict)

/-- `asdict` of an `LdapSettings`. -/
def LdapSettings.toDict (l : LdapSettings) : Json :=
  .obj [("enabled", l.enabled), ("server_uri", l.serverUri), ("start_tls", l.startTls),
    ("user_dn_template", l.userDnTemplate), ("bind_dn", l.bindDn),
    ("bind_password", l.bindPassword), ("user_search_base", l.userSearchBase),
    ("user_search_filter", l.userSearchFilter), ("group_attr", l.groupAttr),
    ("admin_group", l.adminGroup), ("operator_group", l.operatorGroup),
    ("viewer_group", l.viewerGroup), ("default_role", l.defaultRole)]

/-- `OidcSettings.from_dict`. -/
def OidcSettings.fromDict (v : Json) : CfgM OidcSettings := do
  return OidcSettings.ofMembers (← v.toDict)

/-- `asdict` of an `OidcSettings`. -/
def OidcSettings.toDict (o : OidcSettings) : Json :=
  .obj [("enabled", o.enabled), ("issuer", o.issuer), ("client_id", o.clientId),
    ("client_secret", o.clientSecret), ("redirect_uri", o.redirectUri), ("scopes", o.scopes),
    ("username_claim", o.usernameClaim), ("groups_claim", o.groupsClaim),
    ("admin_group", o.adminGroup), ("operator_group", o.operatorGroup),
    ("viewer_group", o.viewerGroup), ("default_role", o.defaultRole)]

/-- The peers without blanks around them and without the blank ones. -/
def cleanPeers (py : PyEnv) (raw : List Json) : List String :=
  (raw.map fun p => PyText.strip (p.toStr py)).filter (· ≠ "")

/-- `ClusterSettings.from_dict`. -/
def ClusterSettings.fromDict (m : Platform) (v : Json) : CfgM ClusterSettings := do
  let d ← v.toDict
  let raw ← (orElse (Json.get d "peers" (.arr [])) (.arr [])).elements
  return ClusterSettings.ofMembers d (cleanPeers m.py raw)

/-- `asdict` of a `ClusterSettings`. -/
def ClusterSettings.toDict (c : ClusterSettings) : Json :=
  .obj [("enabled", c.enabled), ("key", c.key), ("discovery_port", c.discoveryPort),
    ("advertise_ip", c.advertiseIp), ("peers", .arr (c.peers.map .str))]

/-- `NOTIFY_EVENTS`. -/
def notifyEvents : List String :=
  ["device_lost", "device_back", "start_failed", "client_connected", "client_disconnected",
    "login_failed"]

/-- The name of an event that `e` is. -/
def knownEvent : Json → Option String
  | .str s => if s ∈ notifyEvents then some s else none
  | _ => none

/-- The elements that are names of events. -/
def knownEvents (raw : List Json) : List String := raw.filterMap knownEvent

/-- `NotificationSettings.from_dict`. -/
def NotificationSettings.fromDict (v : Json) : CfgM NotificationSettings := do
  let d ← v.toDict
  let events := Json.get d "events" (.arr (notifyDefaultEvents.map .str))
  let raw ← (orElse events (.arr [])).elements
  return NotificationSettings.ofMembers d (knownEvents raw)

/-- `asdict` of a `NotificationSettings`. -/
def NotificationSettings.toDict (n : NotificationSettings) : Json :=
  .obj [("enabled", n.enabled), ("events", .arr (n.events.map .str)), ("repeat_s", n.repeatS),
    ("webhook_url", n.webhookUrl), ("webhook_format", n.webhookFormat),
    ("telegram_chat_id", n.telegramChatId), ("email_to", n.emailTo),
    ("email_from", n.emailFrom), ("smtp_host", n.smtpHost), ("smtp_port", n.smtpPort),
    ("smtp_security", n.smtpSecurity), ("smtp_username", n.smtpUsername),
    ("smtp_password", n.smtpPassword)]

/-- `v` when it is one of the texts, else `default`. -/
def oneOf (l : List String) (default : String) (v : Json) : Json :=
  if v.inStrs l then v else .str default

/-- The sources of an account. -/
def userSources : List String := ["local", "ldap", "oidc"]

/-- `User.from_dict`. -/
def User.fromDict (v : Json) : CfgM User := do
  let d ← v.toDict
  return {
    username := Json.get d "username" (.str "")
    passwordHash := Json.get d "password_hash" (.str "")
    role := oneOf roles "viewer" (Json.get d "role" (.str "admin"))
    pwdVersion := Json.get d "pwd_version" (.int 0)
    source := oneOf userSources "local" (Json.get d "source" (.str "local")) }

/-- `asdict` of a `User`. -/
def User.toDict (u : User) : Json :=
  .obj [("username", u.username), ("password_hash", u.passwordHash), ("role", u.role),
    ("pwd_version", u.pwdVersion), ("source", u.source)]

/-! ### The configuration -/

/-- `SESSION_TIMEOUT_DEFAULT_S`. -/
def sessionTimeoutDefault : Int := 8 * 3600

/-- `_session_timeout`; every exception of `int(float(value))` is caught. -/
def sessionTimeout (v : Json) : Int :=
  match (v.toFloat : CfgM PyFloat) with
  | .error _ => sessionTimeoutDefault
  | .ok x =>
    match x.toInt? with
    | none => sessionTimeoutDefault
    | some seconds => min (max seconds sessionTimeoutRange.1) sessionTimeoutRange.2

/-- What a load draws: a secret key, an id of the node, an id for each mapping, none of which
    is empty; and `repr` of a text. -/
structure LoadEnv where
  secretKey : String
  instanceId : String
  newId : Nat → String
  repr : String → String
  secretKey_ne : secretKey ≠ ""
  instanceId_ne : instanceId ≠ ""
  newId_ne : ∀ i, newId i ≠ ""

/-- The accounts of a file; one with a single password becomes an admin account. -/
def loadUsers (d : List (String × Json)) : CfgM (List User) := do
  let raw ← (Json.get d "users" (.arr [])).elements
  let users ← raw.mapM User.fromDict
  let password := Json.get d "password_hash" .null
  if users.isEmpty && password.truthy then do
    let version ← (Json.get d "pwd_version" (.int 0)).toInt
    return [⟨.str "admin", password, .str "admin", .int version, .str "local"⟩]
  else .ok users

/-- The mappings of a file. -/
def loadMappings (m : Platform) (env : LoadEnv) (raw : List Json) : CfgM (List MappingConfig) :=
  raw.zipIdx.mapM fun p => MappingConfig.fromDict m (env.newId p.2) p.1

/-- The note on a mapping whose trace file is now another one. -/
def traceNote (m : Platform) (env : LoadEnv) (raw : Json) (c : MappingConfig) :
    CfgM (Option String) := do
  let d ← (orElse raw (.obj [])).items
  let options ← (orElse (Json.get d "options" .null) (.obj [])).items
  let old := PyText.strip ((orElse (Json.get options "trace_both" .null) (.str "")).toStr m.py)
  return if old ≠ "" ∧ old ≠ c.options.traceBoth then
      some ("mapping '" ++ c.name.toStr m.py ++ "': its trace file is now traces/" ++
        c.id.toStr m.py ++ "-" ++ c.options.traceBoth ++ " in the data directory (configured: " ++
        env.repr old ++ "; traces are no longer written outside it)")
    else none

/-- The members of the file's `admin_ui`. -/
def adminMembers (d : List (String × Json)) : CfgM (List (String × Json)) :=
  (orElse (Json.get d "admin_ui" (.obj [])) (.obj [])).items

/-- `AppConfig.from_dict`. -/
def AppConfig.fromDict (m : Platform) (env : LoadEnv) (v : Json) : CfgM AppConfig := do
  let d ← v.toDict
  let admin ← adminMembers d
  let users ← loadUsers d
  let version ← (Json.get d "version" (.int 1)).toInt
  let ldap ← LdapSettings.fromDict (Json.get d "ldap" (.obj []))
  let oidc ← OidcSettings.fromDict (Json.get d "oidc" (.obj []))
  let cluster ← ClusterSettings.fromDict m (Json.get d "cluster" (.obj []))
  let notifications ← NotificationSettings.fromDict (Json.get d "notifications" (.obj []))
  let raw ← (Json.get d "mappings" (.arr [])).elements
  let mappings ← loadMappings m env raw
  let notes ← (raw.zip mappings).mapM fun p => traceNote m env p.1 p.2
  return {
    version
    adminUi := AdminUI.ofMembers admin
    secretKey := orElse (Json.get d "secret_key" .null) (.str env.secretKey)
    apiTokenHash := Json.get d "api_token_hash" (.str "")
    apiTokenRole := oneOf roles "admin" (Json.get d "api_token_role" (.str "admin"))
    sessionTimeoutS := .int (sessionTimeout (Json.get d "session_timeout_s" .null))
    users, ldap, oidc, cluster, notifications
    instanceId := orElse (Json.get d "instance_id" .null) (.str env.instanceId)
    defaults := orElse (Json.get d "defaults" (.obj [])) (.obj [])
    mappings
    loadNotes := notes.reduceOption }

/-- The members that `AppConfig.to_dict` writes. -/
def AppConfig.toMembers (c : AppConfig) : List (String × Json) :=
  [("version", .int c.version), ("admin_ui", c.adminUi.toDict), ("secret_key", c.secretKey),
    ("api_token_hash", c.apiTokenHash), ("api_token_role", c.apiTokenRole),
    ("session_timeout_s", c.sessionTimeoutS), ("users", .arr (c.users.map User.toDict)),
    ("ldap", c.ldap.toDict), ("oidc", c.oidc.toDict), ("cluster", c.cluster.toDict),
    ("notifications", c.notifications.toDict), ("instance_id", c.instanceId),
    ("defaults", c.defaults), ("mappings", .arr (c.mappings.map MappingConfig.toDict))]

/-- How deep the values of a configuration are nested, its own sections included. -/
def AppConfig.nesting (c : AppConfig) : Nat := (Json.obj c.toMembers).nesting

/-- `AppConfig.to_dict`.  `asdict` calls itself for every list and dictionary inside, and `limit`
    is how deep these may be nested before it runs out of stack. -/
def AppConfig.toDict (limit : Nat) (c : AppConfig) : CfgM Json :=
  if c.nesting ≤ limit then .ok (.obj c.toMembers) else .error .recursionError

/-- What `from_dict` makes of the members `d` of a file. -/
structure AppConfig.ReadFrom (m : Platform) (env : LoadEnv) (d : List (String × Json))
    (c : AppConfig) : Prop where
  version : (Json.get d "version" (.int 1)).toInt = (.ok c.version : CfgM _)
  adminUi : ∃ admin, adminMembers d = .ok admin ∧ c.adminUi = AdminUI.ofMembers admin
  secretKey : c.secretKey = orElse (Json.get d "secret_key" .null) (.str env.secretKey)
  apiTokenHash : c.apiTokenHash = Json.get d "api_token_hash" (.str "")
  apiTokenRole : c.apiTokenRole = oneOf roles "admin" (Json.get d "api_token_role" (.str "admin"))
  sessionTimeoutS : c.sessionTimeoutS =
    .int (Config.sessionTimeout (Json.get d "session_timeout_s" .null))
  users : loadUsers d = .ok c.users
  ldap : LdapSettings.fromDict (Json.get d "ldap" (.obj [])) = .ok c.ldap
  oidc : OidcSettings.fromDict (Json.get d "oidc" (.obj [])) = .ok c.oidc
  cluster : ClusterSettings.fromDict m (Json.get d "cluster" (.obj [])) = .ok c.cluster
  notifications : NotificationSettings.fromDict (Json.get d "notifications" (.obj [])) =
    .ok c.notifications
  instanceId : c.instanceId = orElse (Json.get d "instance_id" .null) (.str env.instanceId)
  defaults : c.defaults = orElse (Json.get d "defaults" (.obj [])) (.obj [])
  mappings : ∃ raw, (Json.get d "mappings" (.arr [])).elements = (.ok raw : CfgM _) ∧
    loadMappings m env raw = .ok c.mappings

/-- A document that loads is an object, and its sections are read from it. -/
theorem AppConfig.fromDict_eq_ok {m : Platform} {env : LoadEnv} {v : Json} {c : AppConfig}
    (h : AppConfig.fromDict m env v = .ok c) :
    ∃ d, v.toDict = (.ok d : CfgM _) ∧ AppConfig.ReadFrom m env d c := by
  obtain ⟨d, hd, h⟩ := except_bind_eq_ok.1 h
  obtain ⟨admin, hadmin, h⟩ := except_bind_eq_ok.1 h
  obtain ⟨users, husers, h⟩ := except_bind_eq_ok.1 h
  obtain ⟨version, hversion, h⟩ := except_bind_eq_ok.1 h
  obtain ⟨ldap, hldap, h⟩ := except_bind_eq_ok.1 h
  obtain ⟨oidc, hoidc, h⟩ := except_bind_eq_ok.1 h
  obtain ⟨cluster, hcluster, h⟩ := except_bind_eq_ok.1 h
  obtain ⟨notifications, hnotifications, h⟩ := except_bind_eq_ok.1 h
  obtain ⟨raw, hraw, h⟩ := except_bind_eq_ok.1 h
  obtain ⟨mappings, hmappings, h⟩ := except_bind_eq_ok.1 h
  obtain ⟨notes, -, h⟩ := except_bind_eq_ok.1 h
  cases h
  exact ⟨d, hd, hversion, ⟨admin, hadmin, rfl⟩, rfl, rfl, rfl, rfl, husers, hldap, hoidc, hcluster,
    hnotifications, rfl, rfl, raw, hraw, hmappings⟩

/-! ### Numbers -/

/-- Stripping twice. -/
theorem stripBy_idem (p : Char → Bool) (l : List Char) :
    PyText.stripBy p (PyText.stripBy p l) = PyText.stripBy p l := by
  have hleft : (PyText.stripBy p l).dropWhile p = PyText.stripBy p l := by
    -- its first character is the first that `p` does not drop
    refine List.dropWhile_eq_self_iff.2 fun hl => ?_
    have hstart : PyText.stripBy p l <+: l.dropWhile p := rstripBy_isPrefix p _
    rw [hstart.getElem hl]
    exact List.dropWhile_get_zero_not p l (lt_of_lt_of_le hl hstart.length_le)
  rw [PyText.stripBy, hleft]
  exact rstripBy_idem p _

/-- The same for a text. -/
theorem strip_idem (s : String) : PyText.strip (PyText.strip s) = PyText.strip s := by
  rw [PyText.strip, PyText.strip, String.toList_ofList, stripBy_idem]

/-- A peer that is kept is stripped and not empty. -/
theorem cleanPeers_mem {py : PyEnv} {raw : List Json} {p : String} (h : p ∈ cleanPeers py raw) :
    PyText.strip p = p ∧ p ≠ "" := by
  obtain ⟨hmem, hne⟩ := List.mem_filter.1 h
  obtain ⟨v, -, rfl⟩ := List.mem_map.1 hmem
  exact ⟨strip_idem _, by simpa using hne⟩

/-- Peers that are clean already are kept. -/
theorem cleanPeers_eq_self {py : PyEnv} {peers : List String}
    (h : ∀ p ∈ peers, PyText.strip p = p ∧ p ≠ "") : cleanPeers py (peers.map .str) = peers := by
  have hmap : (peers.map Json.str).map (fun p => PyText.strip (p.toStr py)) = peers := by
    rw [List.map_map]
    exact (List.map_congr_left fun p hp => (h p hp).1).trans (List.map_id peers)
  rw [cleanPeers, hmap]
  exact List.filter_eq_self.2 fun p hp => by simpa using (h p hp).2

/-- A list is never replaced by the default. -/
theorem orElse_arr (l : List Json) : orElse (.arr l) (.arr []) = .arr l := by
  cases l <;> rfl

/-- The cluster section comes back. -/
theorem ClusterSettings.fromDict_toDict {m : Platform} {c : ClusterSettings}
    (h : ∀ p ∈ c.peers, PyText.strip p = p ∧ p ≠ "") :
    ClusterSettings.fromDict m c.toDict = .ok c := by
  show ((orElse (.arr (c.peers.map .str)) (.arr [])).elements >>= fun raw =>
    pure { c with peers := cleanPeers m.py raw }) = _
  rw [orElse_arr]
  show (Except.ok { c with peers := cleanPeers m.py (c.peers.map .str) } : CfgM _) = _
  rw [cleanPeers_eq_self h]

/-- An event that is kept is a known one. -/
theorem knownEvents_mem {raw : List Json} {e : String} (h : e ∈ knownEvents raw) :
    e ∈ notifyEvents := by
  obtain ⟨v, -, hv⟩ := List.mem_filterMap.1 h
  unfold knownEvent at hv
  split at hv
  · split_ifs at hv with hmem
    exact Option.some.inj hv ▸ hmem
  · cases hv

/-- Known events are kept. -/
theorem knownEvents_eq_self {events : List String} (h : ∀ e ∈ events, e ∈ notifyEvents) :
    knownEvents (events.map .str) = events := by
  induction events with
  | nil => rfl
  | cons e rest ih =>
    have hrest := ih fun e he => h e (List.mem_cons_of_mem _ he)
    have he : knownEvent (.str e) = some e := if_pos (h e List.mem_cons_self)
    rw [knownEvents, List.map_cons, List.filterMap_cons_some he]
    exact congrArg (e :: ·) hrest

/-- The notification section comes back. -/
theorem NotificationSettings.fromDict_toDict {n : NotificationSettings}
    (h : ∀ e ∈ n.events, e ∈ notifyEvents) :
    NotificationSettings.fromDict n.toDict = .ok n := by
  show ((orElse (.arr (n.events.map .str)) (.arr [])).elements >>= fun raw =>
    pure { n with events := knownEvents raw }) = _
  rw [orElse_arr]
  show (Except.ok { n with events := knownEvents (n.events.map .str) } : CfgM _) = _
  rw [knownEvents_eq_self h]

/-- A choice with a default is one of the list. -/
theorem oneOf_inStrs {l : List String} {default : String} (h : default ∈ l) (v : Json) :
    (oneOf l default v).inStrs l = true := by
  unfold oneOf
  split
  · assumption
  · exact List.any_eq_true.2 ⟨default, h, by simp [Json.eqStr]⟩

/-- The role and the source of an account are known ones. -/
structure User.Kept (u : User) : Prop where
  role : u.role.inStrs roles = true
  source : u.source.inStrs userSources = true

/-- An account that was read. -/
theorem User.kept_of_fromDict {v : Json} {u : User} (h : User.fromDict v = .ok u) : u.Kept := by
  obtain ⟨d, -, h⟩ := except_bind_eq_ok.1 h
  obtain rfl := Except.ok.inj h
  exact ⟨oneOf_inStrs (by decide) _, oneOf_inStrs (by decide) _⟩

/-- An account comes back. -/
theorem User.Kept.fromDict_toDict {u : User} (h : u.Kept) : User.fromDict u.toDict = .ok u := by
  show (Except.ok { u with
    role := oneOf roles "viewer" u.role
    source := oneOf userSources "local" u.source } : CfgM _) = _
  rw [oneOf, if_pos h.role, oneOf, if_pos h.source]

/-! ### What a load leaves is normalised -/

/-- What `from_dict` normalises, the poll intervals apart, is normalised already. -/
structure AppConfig.Kept (m : Platform) (c : AppConfig) : Prop where
  secretKey : c.secretKey.truthy = true
  apiTokenRole : c.apiTokenRole.inStrs roles = true
  sessionTimeout : ∃ n, c.sessionTimeoutS = .int n ∧ sessionTimeoutRange.1 ≤ n ∧
    n ≤ sessionTimeoutRange.2
  users : ∀ u ∈ c.users, u.Kept
  peers : ∀ p ∈ c.cluster.peers, PyText.strip p = p ∧ p ≠ ""
  events : ∀ e ∈ c.notifications.events, e ∈ notifyEvents
  instanceId : c.instanceId.truthy = true
  defaults : orElse c.defaults (.obj []) = c.defaults
  mappings : ∀ x ∈ c.mappings, x.Kept m

/-- The accounts that were read. -/
theorem loadUsers_kept {d : List (String × Json)} {users : List User}
    (h : loadUsers d = .ok users) : ∀ u ∈ users, u.Kept := by
  obtain ⟨raw, -, h⟩ := except_bind_eq_ok.1 h
  obtain ⟨listed, hlisted, h⟩ := except_bind_eq_ok.1 h
  dsimp only at h
  split_ifs at h
  · obtain ⟨version, -, h⟩ := except_bind_eq_ok.1 h
    obtain rfl := Except.ok.inj h
    intro u hu
    rw [List.mem_singleton.1 hu]
    have hrole : (Json.str "admin").inStrs roles = true := by decide
    have hsource : (Json.str "local").inStrs userSources = true := by decide
    exact ⟨hrole, hsource⟩
  · obtain rfl := Except.ok.inj h
    exact forall_of_mapM (fun _ _ => User.kept_of_fromDict) hlisted

/-- The timeout of a session is in its range. -/
theorem sessionTimeout_range (v : Json) : sessionTimeoutRange.1 ≤ sessionTimeout v ∧
    sessionTimeout v ≤ sessionTimeoutRange.2 := by
  have hdefault : sessionTimeoutRange.1 ≤ sessionTimeoutDefault ∧
      sessionTimeoutDefault ≤ sessionTimeoutRange.2 := by decide
  have hrange : sessionTimeoutRange.1 ≤ sessionTimeoutRange.2 := by decide
  unfold sessionTimeout
  split
  · exact hdefault
  · split
    · exact hdefault
    · exact ⟨le_min (le_max_right _ _) hrange, min_le_right _ _⟩

/-- A value or a text that is not empty counts as true. -/
theorem truthy_orElse (v : Json) {s : String} (h : s ≠ "") : (orElse v (.str s)).truthy = true := by
  unfold orElse
  split
  · assumption
  · simpa [Json.truthy] using h

/-- A default that was taken is taken again. -/
theorem orElse_idem (v w : Json) : orElse (orElse v w) w = orElse v w := by
  unfold orElse
  by_cases h : v.truthy = true
  · rw [if_pos h, if_pos h]
  · rw [if_neg h, ite_self]

section
variable {m : Platform} (hspace : ∀ c, PyText.isSpace c = true → m.py.isAlnum c = false)
include hspace

/-- A configuration that `from_dict` has made is kept by a reload. -/
theorem AppConfig.kept_of_fromDict {env : LoadEnv} {v : Json} {c : AppConfig}
    (h : AppConfig.fromDict m env v = .ok c) : c.Kept m := by
  obtain ⟨d, -, hread⟩ := AppConfig.fromDict_eq_ok h
  obtain ⟨cd, -, hcluster⟩ := except_bind_eq_ok.1 hread.cluster
  obtain ⟨peers, -, hcluster⟩ := except_bind_eq_ok.1 hcluster
  obtain ⟨nd, -, hnotifications⟩ := except_bind_eq_ok.1 hread.notifications
  obtain ⟨events, -, hnotifications⟩ := except_bind_eq_ok.1 hnotifications
  -- the two sections that are cleaned after they are read
  have hcluster : ClusterSettings.ofMembers cd (cleanPeers m.py peers) = c.cluster :=
    Except.ok.inj hcluster
  have hnotifications : NotificationSettings.ofMembers nd (knownEvents events) = c.notifications :=
    Except.ok.inj hnotifications
  obtain ⟨raw, -, hmappings⟩ := hread.mappings
  exact {
    secretKey := hread.secretKey ▸ truthy_orElse _ env.secretKey_ne
    apiTokenRole := hread.apiTokenRole ▸ oneOf_inStrs (by decide) _
    sessionTimeout := ⟨_, hread.sessionTimeoutS, sessionTimeout_range _⟩
    users := loadUsers_kept hread.users
    peers := fun p hp => cleanPeers_mem (hcluster ▸ hp)
    events := fun e he => knownEvents_mem (hnotifications ▸ he)
    instanceId := hread.instanceId ▸ truthy_orElse _ env.instanceId_ne
    defaults := hread.defaults ▸ orElse_idem _ _
    mappings := forall_of_mapM
      (fun p x hx => MappingConfig.kept_of_fromDict hspace (env.newId_ne p.2) hx) hmappings }

end

/-! ### Reloading -/

/-- Equal in every field that `==` compares; the notes of a load are not part of the
    configuration. -/
def AppConfig.Same (c c' : AppConfig) : Prop := { c with loadNotes := c'.loadNotes } = c'

/-- Equal configurations have equal mappings. -/
theorem AppConfig.Same.mappings {c c' : AppConfig} (h : c.Same c') : c.mappings = c'.mappings := by
  have hfields := congrArg AppConfig.mappings h
  exact hfields

section
variable {m : Platform} (hspace : ∀ c, PyText.isSpace c = true → m.py.isAlnum c = false)
include hspace

end

end Ser2Net.Config
