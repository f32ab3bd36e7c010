import Ser2Net.Config.Mapping

namespace Ser2Net.Config

open Ser2Net.Lib

/-!
# Config — the application configuration

`AppConfig` with its sections, the cross-mapping checks of `AppConfig.validate`, and
`parse_cluster_peer`.

* `AdminUI`, `LdapSettings`, `OidcSettings`, `ClusterSettings`, `NotificationSettings` — the
  global sections;
* `checkDevices`, `checkListener` — one serial device for one enabled mapping, one listener
  for one transport, port and address;
* `AppConfig.validate` — what `ConfigStore.save` runs before it writes.
-/

/-! ### Global sections -/

/-- `AdminUI`. -/
structure AdminUI where
  bindIp : Json
  port : Json
  tlsCert : Json
  tlsKey : Json
  requireLogin : Json
  anonymousRole : Json
  language : Json
  deriving DecidableEq, Repr

/-- `AdminUI(**known)`. -/
def AdminUI.ofMembers (d : List (String × Json)) : AdminUI where
  bindIp := Json.get d "bind_ip" (.str "127.0.0.1")
  port := Json.get d "port" (.int 8080)
  tlsCert := Json.get d "tls_cert" (.str "")
  tlsKey := Json.get d "tls_key" (.str "")
  requireLogin := Json.get d "require_login" (.bool true)
  anonymousRole := Json.get d "anonymous_role" (.str "viewer")
  language := Json.get d "language" (.str "auto")

/-- `LdapSettings`. -/
structure LdapSettings where
  enabled : Json
  serverUri : Json
  startTls : Json
  userDnTemplate : Json
  bindDn : Json
  bindPassword : Json
  userSearchBase : Json
  userSearchFilter : Json
  groupAttr : Json
  adminGroup : Json
  operatorGroup : Json
  viewerGroup : Json
  defaultRole : Json
  deriving DecidableEq, Repr

/-- `LdapSettings(**known)`. -/
def LdapSettings.ofMembers (d : List (String × Json)) : LdapSettings where
  enabled := Json.get d "enabled" (.bool false)
  serverUri := Json.get d "server_uri" (.str "")
  startTls := Json.get d "start_tls" (.bool false)
  userDnTemplate := Json.get d "user_dn_template" (.str "")
  bindDn := Json.get d "bind_dn" (.str "")
  bindPassword := Json.get d "bind_password" (.str "")
  userSearchBase := Json.get d "user_search_base" (.str "")
  userSearchFilter := Json.get d "user_search_filter" (.str "(uid={username})")
  groupAttr := Json.get d "group_attr" (.str "memberOf")
  adminGroup := Json.get d "admin_group" (.str "")
  operatorGroup := Json.get d "operator_group" (.str "")
  viewerGroup := Json.get d "viewer_group" (.str "")
  defaultRole := Json.get d "default_role" (.str "")

/-- The bind settings that LDAP needs: a template, or a service account and a base. -/
def LdapSettings.canBind (l : LdapSettings) : CfgM Bool := do
  let direct := !(← l.userDnTemplate.blank)
  (if direct then .ok true
   else do
    let account := !(← l.bindDn.blank)
    (if account then do return !(← l.userSearchBase.blank) else .ok false))

/-- `LdapSettings.validate`. -/
def LdapSettings.validate (l : LdapSettings) : CfgM Unit :=
  if !l.enabled.truthy then .ok ()
  else do
    require (!(← l.serverUri.blank)) "LDAP is enabled but no server URI is set." []
    require (← l.canBind)
      "LDAP needs either a user DN template (direct bind) or a bind DN + user search base (search+bind)."
      []
    require (!l.defaultRole.truthy || l.defaultRole.inStrs roles)
      "LDAP default role must be one of {0} or blank." [tuple roles]

/-- `OidcSettings`. -/
structure OidcSettings where
  enabled : Json
  issuer : Json
  clientId : Json
  clientSecret : Json
  redirectUri : Json
  scopes : Json
  usernameClaim : Json
  groupsClaim : Json
  adminGroup : Json
  operatorGroup : Json
  viewerGroup : Json
  defaultRole : Json
  deriving DecidableEq, Repr

/-- `OidcSettings(**known)`. -/
def OidcSettings.ofMembers (d : List (String × Json)) : OidcSettings where
  enabled := Json.get d "enabled" (.bool false)
  issuer := Json.get d "issuer" (.str "")
  clientId := Json.get d "client_id" (.str "")
  clientSecret := Json.get d "client_secret" (.str "")
  redirectUri := Json.get d "redirect_uri" (.str "")
  scopes := Json.get d "scopes" (.str "openid email profile")
  usernameClaim := Json.get d "username_claim" (.str "preferred_username")
  groupsClaim := Json.get d "groups_claim" (.str "groups")
  adminGroup := Json.get d "admin_group" (.str "")
  operatorGroup := Json.get d "operator_group" (.str "")
  viewerGroup := Json.get d "viewer_group" (.str "")
  defaultRole := Json.get d "default_role" (.str "")

/-- All of the texts are non-blank; the first blank one ends the test. -/
def allFilled : List Json → CfgM Bool
  | [] => .ok true
  | v :: rest => do
    let blank ← v.blank
    (if blank then .ok false else allFilled rest)

/-- `OidcSettings.validate`. -/
def OidcSettings.validate (o : OidcSettings) : CfgM Unit :=
  if !o.enabled.truthy then .ok ()
  else do
    require (← allFilled [o.issuer, o.clientId, o.clientSecret])
      "OIDC needs an issuer, client ID and client secret." []
    require (PyText.startsWith (PyText.lower (← o.issuer.strip)) "https://")
      "OIDC issuer must be an https:// URL." []
    require (!o.defaultRole.truthy || o.defaultRole.inStrs roles)
      "OIDC default role must be one of {0} or blank." [tuple roles]

/-- `parse_cluster_peer`: scheme, host and port of a manual peer entry. -/
def parseClusterPeer (entry : String) : CfgM (String × String × Int) := do
  let s := PyText.strip entry
  let (scheme, rest) := match PyText.partitionAt "://".toList s.toList with
    | some (scheme, rest) => (PyText.lower (String.ofList scheme), rest)
    | none => ("http", s.toList)
  require (scheme ∈ ["http", "https"]) "Cluster peer scheme must be http or https: {0}"
    [.text entry]
  match PyText.rpartition ':' rest with
  | none => .error (.user ⟨"Cluster peer must be host:port — got: {0}", [.text entry]⟩)
  | some (host, portText) => do
    require (host ≠ []) "Cluster peer must be host:port — got: {0}" [.text entry]
    match PyText.int (String.ofList portText) with
    | none => .error (.user ⟨"Cluster peer port is not a number: {0}", [.text entry]⟩)
    | some port => do
      require (1 ≤ port ∧ port ≤ 65535) "Cluster peer port must be 1..65535: {0}" [.text entry]
      return (scheme, String.ofList host, port)

/-- `ClusterSettings`. -/
structure ClusterSettings where
  enabled : Json
  key : Json
  discoveryPort : Json
  advertiseIp : Json
  peers : List String
  deriving DecidableEq, Repr

/-- `ClusterSettings(**known)` with its cleaned peer list. -/
def ClusterSettings.ofMembers (d : List (String × Json)) (peers : List String) :
    ClusterSettings where
  enabled := Json.get d "enabled" (.bool false)
  key := Json.get d "key" (.str "")
  discoveryPort := Json.get d "discovery_port" (.int 41750)
  advertiseIp := Json.get d "advertise_ip" (.str "")
  peers := peers

/-- Every manual peer entry parses. -/
def requirePeers : List String → CfgM Unit
  | [] => .ok ()
  | entry :: rest => do
    let _ ← parseClusterPeer entry
    requirePeers rest

/-- `int(self.discovery_port)`, with the message for a value that is no number. -/
def ClusterSettings.discoveryPortInt (c : ClusterSettings) : CfgM Int :=
  match c.discoveryPort.toInt with
  | .error .valueError | .error .typeError =>
    .error (.user ⟨"Cluster discovery port must be a number.", []⟩)
  | r => r

/-- The advertised address, when there is one. -/
def ClusterSettings.validateAdvertiseIp (c : ClusterSettings) : CfgM Unit := do
  let ip ← c.advertiseIp.strip
  require (ip = "" ∨ (Ipaddress.ipAddress (.str ip)).isSome)
    "Cluster advertise IP is not a valid address: {0}" [.value c.advertiseIp]

/-- `ClusterSettings.validate`. -/
def ClusterSettings.validate (c : ClusterSettings) : CfgM Unit :=
  if !c.enabled.truthy then .ok ()
  else do
    require (!(← c.key.blank)) "Cluster is enabled but no shared key is set." []
    let port ← c.discoveryPortInt
    require (1 ≤ port ∧ port ≤ 65535) "Cluster discovery port must be 1..65535." []
    c.validateAdvertiseIp
    requirePeers c.peers

/-- `NotificationSettings`. -/
structure NotificationSettings where
  enabled : Json
  events : List String
  repeatS : Json
  webhookUrl : Json
  webhookFormat : Json
  telegramChatId : Json
  emailTo : Json
  emailFrom : Json
  smtpHost : Json
  smtpPort : Json
  smtpSecurity : Json
  smtpUsername : Json
  smtpPassword : Json
  deriving DecidableEq, Repr

/-- `NOTIFY_DEFAULT_EVENTS`. -/
def notifyDefaultEvents : List String := ["device_lost", "device_back", "start_failed"]

/-- `NotificationSettings(**known)` with its known events. -/
def NotificationSettings.ofMembers (d : List (String × Json)) (events : List String) :
    NotificationSettings where
  enabled := Json.get d "enabled" (.bool false)
  events := events
  repeatS := Json.get d "repeat_s" (.int 300)
  webhookUrl := Json.get d "webhook_url" (.str "")
  webhookFormat := Json.get d "webhook_format" (.str "json")
  telegramChatId := Json.get d "telegram_chat_id" (.str "")
  emailTo := Json.get d "email_to" (.str "")
  emailFrom := Json.get d "email_from" (.str "")
  smtpHost := Json.get d "smtp_host" (.str "")
  smtpPort := Json.get d "smtp_port" (.int 587)
  smtpSecurity := Json.get d "smtp_security" (.str "starttls")
  smtpUsername := Json.get d "smtp_username" (.str "")
  smtpPassword := Json.get d "smtp_password" (.str "")

/-- `WEBHOOK_FORMATS`. -/
def webhookFormats : List String := ["json", "slack", "teams", "discord", "telegram"]

/-- `SMTP_SECURITY`. -/
def smtpSecurities : List String := ["starttls", "ssl", "none"]

/-- `NotificationSettings.recipients`. -/
def NotificationSettings.recipients (n : NotificationSettings) : CfgM (List (List Char)) :=
  match n.emailTo with
  | .str s =>
    .ok <| (((s.toList.map fun c => if c = ';' then ',' else c).splitOn ',').map
      (PyText.stripBy PyText.isSpace)).filter (· ≠ [])
  | _ => .error .attributeError

/-- The checks on the webhook; `url` is its address without blanks around it. -/
def NotificationSettings.validateWebhook (m : Platform) (n : NotificationSettings)
    (url : String) : CfgM Unit := do
  let url := PyText.lower url
  require (PyText.startsWith url "https://" || PyText.startsWith url "http://")
    "The webhook URL must start with https:// (or http://)." []
  require (n.webhookFormat.inStrs webhookFormats) "Webhook format must be one of {0}."
    [tuple webhookFormats]
  require (!(n.webhookFormat.eqStr "telegram" && PyText.blank (n.telegramChatId.toStr m.py)))
    "Telegram needs a chat ID." []

/-- The checks on the e-mail settings. -/
def NotificationSettings.validateEmail (n : NotificationSettings)
    (recipients : List (List Char)) : CfgM Unit := do
  require (!(← n.smtpHost.blank)) "E-mail notifications need an SMTP server." []
  require (n.smtpPort.isInt && n.smtpPort.betweenInts 1 65535)
    "SMTP port must be between 1 and 65535." []
  require (n.smtpSecurity.inStrs smtpSecurities) "SMTP security must be one of {0}."
    [tuple smtpSecurities]
  require (recipients.all fun a => a.contains '@') "Each e-mail recipient needs an @." []

/-- Notifications have somewhere to go; the recipients are only read without a webhook. -/
def NotificationSettings.hasTarget (n : NotificationSettings) (url : String) : CfgM Bool :=
  if url ≠ "" then .ok true else do return !(← n.recipients).isEmpty

/-- `NotificationSettings.validate`. -/
def NotificationSettings.validate (m : Platform) (n : NotificationSettings) : CfgM Unit :=
  if !n.enabled.truthy then .ok ()
  else do
    let url ← n.webhookUrl.strip
    require (← n.hasTarget url) "Notifications need a webhook URL or e-mail recipients." []
    (if url ≠ "" then n.validateWebhook m url else .ok ())
    let recipients ← n.recipients
    (if recipients ≠ [] then n.validateEmail recipients else .ok ())
    require (n.repeatS.isInt && n.repeatS.betweenInts 0 86400)
      "The repeat interval must be between 0 and 86400 seconds." []

/-- `User`, as the configuration file holds it. -/
structure User where
  username : Json
  passwordHash : Json
  role : Json
  pwdVersion : Json
  source : Json
  deriving DecidableEq, Repr

/-! ### The configuration -/

/-- `AppConfig`. -/
structure AppConfig where
  version : Int
  adminUi : AdminUI
  secretKey : Json
  apiTokenHash : Json
  apiTokenRole : Json
  sessionTimeoutS : Json
  users : List User
  ldap : LdapSettings
  oidc : OidcSettings
  cluster : ClusterSettings
  notifications : NotificationSettings
  instanceId : Json
  defaults : Json
  mappings : List MappingConfig
  loadNotes : List String
  deriving DecidableEq, Repr

/-- `AppConfig()`: a configuration before anything is set up, with its two random values. -/
def AppConfig.fresh (secretKey instanceId : String) : AppConfig where
  version := 1
  adminUi := AdminUI.ofMembers []
  secretKey := .str secretKey
  apiTokenHash := .str ""
  apiTokenRole := .str "admin"
  sessionTimeoutS := .int (8 * 3600)
  users := []
  ldap := LdapSettings.ofMembers []
  oidc := OidcSettings.ofMembers []
  cluster := ClusterSettings.ofMembers [] []
  notifications := NotificationSettings.ofMembers [] notifyDefaultEvents
  instanceId := .str instanceId
  defaults := .obj []
  mappings := []
  loadNotes := []

/-- `AppConfig.get_mapping`. -/
def AppConfig.getMapping (c : AppConfig) (mid : Json) : Option MappingConfig :=
  c.mappings.find? fun m => m.id.pyEq mid

/-- `SESSION_TIMEOUT_MIN_S` and `SESSION_TIMEOUT_MAX_S`. -/
def sessionTimeoutRange : Int × Int := (5 * 60, 30 * 86400)

/-- The TLS files of the web UI exist. -/
def requireAdminFiles (m : Platform) : List Json → CfgM Unit
  | [] => .ok ()
  | p :: rest => do
    require (← isFile m p) "TLS file not found or not readable: {0}" [.value p]
    requireAdminFiles m rest

/-- Both TLS files of the web UI, or neither, and those given exist. -/
def AdminUI.validateTls (m : Platform) (a : AdminUI) : CfgM Unit := do
  require (a.tlsCert.truthy == a.tlsKey.truthy)
    "Set both TLS certificate and key, or neither." []
  requireAdminFiles m ([a.tlsCert, a.tlsKey].filter Json.truthy)

/-- The checks of `AppConfig.validate` on the web UI's own settings. -/
def AppConfig.validateUi (m : Platform) (c : AppConfig) : CfgM Unit := do
  let ui := c.adminUi
  ui.validateTls m
  require (!ui.bindIp.truthy || (Ipaddress.ipAddress ui.bindIp).isSome)
    "Invalid admin UI bind IP: {0}" [.value ui.bindIp]
  require (ui.language.inStrs ["auto", "en", "tr"]) "The default language must be one of {0}."
    [tuple ["auto", "en", "tr"]]
  require (ui.anonymousRole.inStrs roles)
    "Role for visitors without login must be one of {0}." [tuple roles]
  require (c.sessionTimeoutS.isInt &&
      c.sessionTimeoutS.betweenInts sessionTimeoutRange.1 sessionTimeoutRange.2)
    "Session lifetime must be between {0} minutes and {1} days."
    [.value (.int (sessionTimeoutRange.1 / 60)), .value (.int (sessionTimeoutRange.2 / 86400))]

/-- A listener: its transport, bind address and port, and the mapping's name. -/
structure Listener where
  proto : String
  bindIp : Json
  port : Json
  name : Json
  deriving DecidableEq, Repr

/-- A serial device in use: the device, and id and name of the mapping that owns it. -/
structure SerialOwner where
  device : Json
  id : Json
  name : Json
  deriving DecidableEq, Repr

/-- `_ip_overlaps`. -/
def ipOverlaps (a b : Json) : Bool :=
  a.pyEq b || a.inStrs ["0.0.0.0", "::"] || b.inStrs ["0.0.0.0", "::"]

/-- The literal devices that an enabled mapping opens; a device found by its USB identity is
    not among them. -/
def MappingConfig.devices (c : MappingConfig) : List Json :=
  (if c.serial.port.truthy && !c.serial.usbMatch.truthy then [c.serial.port] else []) ++
    (if c.kind.eqStr "serialbridge" && c.serialB.port.truthy && !c.serialB.usbMatch.truthy then
      [c.serialB.port] else [])

/-- One serial port, one mapping: `owners` are the devices seen before. -/
def checkDevices (c : MappingConfig) : List SerialOwner → List Json → CfgM (List SerialOwner)
  | owners, [] => .ok owners
  | owners, dev :: rest =>
    if !dev.hashable then .error .typeError
    else do
      (match owners.find? fun o => o.device.pyEq dev with
        | some prev =>
          require (prev.id.pyEq c.id)
            "Mappings '{0}' and '{1}' both use serial port {2} — a serial port can only be opened by one mapping."
            [.value prev.name, .value c.name, .value dev]
        | none => .ok ())
      checkDevices c (⟨dev, c.id, c.name⟩ :: owners) rest

/-- `"udp" if m.network.mode == "udp" else "tcp"`. -/
def NetworkSettings.proto (n : NetworkSettings) : String :=
  if n.mode.eqStr "udp" then "udp" else "tcp"

/-- One listener for one transport, port and address: `seen` are those before, in order. -/
def checkListener (c : MappingConfig) (seen : List Listener) : CfgM (List Listener) :=
  let n := c.network
  if !c.kind.eqStr "net" || !n.listens then .ok seen
  else
    match seen.find? fun l =>
        l.proto == n.proto && l.port.pyEq n.port && ipOverlaps l.bindIp n.bindIp with
    | some other =>
      .error (.user
        ⟨"Mappings '{0}' and '{1}' both use {2} port {3} on overlapping addresses ({4} / {5}).",
          [.value other.name, .value c.name, .text n.proto.toUpper, .value n.port,
            .value other.bindIp, .value n.bindIp]⟩)
    | none => .ok (seen ++ [⟨n.proto, n.bindIp, n.port, c.name⟩])

/-- The loop of `AppConfig.validate` over the mappings. -/
def validateMappings (m : Platform) :
    List Listener → List SerialOwner → List MappingConfig → CfgM Unit
  | _, _, [] => .ok ()
  | seen, owners, c :: rest => do
    c.validate m
    let owners ← (if c.enabled then checkDevices c owners c.devices else .ok owners)
    let seen ← checkListener c seen
    validateMappings m seen owners rest

/-- `AppConfig.validate`. -/
def AppConfig.validate (m : Platform) (c : AppConfig) : CfgM Unit := do
  c.validateUi m
  c.ldap.validate
  c.oidc.validate
  c.cluster.validate
  c.notifications.validate m
  validateMappings m [] [] c.mappings

/-- Only the last check looks at the mappings. -/
theorem AppConfig.validate_mappings {m : Platform} {c : AppConfig} (h : c.validate m = .ok ())
    (mappings : List MappingConfig) :
    AppConfig.validate m { c with mappings } = .ok () ↔
      validateMappings m [] [] mappings = .ok () := by
  obtain ⟨ui, hui, h⟩ := except_bind_eq_ok.1 h
  obtain ⟨ldap, hldap, h⟩ := except_bind_eq_ok.1 h
  obtain ⟨oidc, hoidc, h⟩ := except_bind_eq_ok.1 h
  obtain ⟨cluster, hcluster, h⟩ := except_bind_eq_ok.1 h
  obtain ⟨notifications, hnotifications, -⟩ := except_bind_eq_ok.1 h
  constructor
  · intro h'
    obtain ⟨-, -, h'⟩ := except_bind_eq_ok.1 h'
    obtain ⟨-, -, h'⟩ := except_bind_eq_ok.1 h'
    obtain ⟨-, -, h'⟩ := except_bind_eq_ok.1 h'
    obtain ⟨-, -, h'⟩ := except_bind_eq_ok.1 h'
    obtain ⟨-, -, h'⟩ := except_bind_eq_ok.1 h'
    exact h'
  · intro hmappings
    refine except_bind_eq_ok.2 ⟨ui, hui, except_bind_eq_ok.2 ⟨ldap, hldap, ?_⟩⟩
    refine except_bind_eq_ok.2 ⟨oidc, hoidc, except_bind_eq_ok.2 ⟨cluster, hcluster, ?_⟩⟩
    exact except_bind_eq_ok.2 ⟨notifications, hnotifications, hmappings⟩

/-- Every default passes its own check. -/
theorem validate_fresh (m : Platform) (secretKey instanceId : String) :
    (AppConfig.fresh secretKey instanceId).validate m = .ok () := by
  -- the one numeric check, on a term without variables
  have hlife : ((AppConfig.fresh secretKey instanceId).sessionTimeoutS.isInt &&
      (AppConfig.fresh secretKey instanceId).sessionTimeoutS.betweenInts
        sessionTimeoutRange.1 sessionTimeoutRange.2) = true := by
    show ((Json.int (8 * 3600)).isInt &&
      (Json.int (8 * 3600)).betweenInts sessionTimeoutRange.1 sessionTimeoutRange.2) = true
    decide +kernel
  unfold AppConfig.validate AppConfig.validateUi
  simp only [hlife]
  rfl

end Ser2Net.Config
