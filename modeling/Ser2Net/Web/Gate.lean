import Ser2Net.Web.Auth
import Ser2Net.Lib.Binary
import Mathlib.Data.List.Infix

namespace Ser2Net.Web.Gate

open Ser2Net.Lib Ser2Net.Web.Auth

/-!
# Web — who gets to which handler (`server.py` and the routes)

A request passes `GuardMiddleware`, which looks at the path of its URL, then the router, which
looks at the path of the connection, and then the checks that its handler begins with.  The two
paths are not the same text: the framework escapes the one, or cuts it off, and removes tabs and
line breaks.  A WebSocket does not pass the guard; its handler asks who it is itself.

* `dispatch`, `routes`, `Endpoint.head`, `serve` — the guard, the table of routes, the checks of
  the handlers, and the three in a row;
* `Policy`, `Endpoint.policy`, `Allowed` — who may call what, said once for each handler;
* `connect`, `Admitted` — the two WebSockets, and who may open one;
* `Route.sound` — what a line of the table must be for guard and checks to enforce its policy;
* `served_allowed` — a request that gets past the checks of a handler is one that the policy
  allows, whatever its path, method, cookies and headers are, and a WebSocket is opened only for
  who may.
-/

abbrev Text := List Char

/-! ### Paths -/

/-- A part of a route's path. -/
inductive Part
  | lit (s : Text)
  /-- A parameter: `[^/]+`. -/
  | param
  /-- The rest of the path, in a mount: `.*`. -/
  | rest
  deriving DecidableEq

/-- `compile_path`: the literal text of a path, and its parameters in braces. -/
def compilePath (acc : Text) (inParam : Bool) : Text → List Part
  | [] => if acc = [] then [] else [.lit acc.reverse]
  | c :: cs =>
    if inParam then compilePath [] (c ≠ '\x7d') cs
    else if c = '\x7b' then .lit acc.reverse :: .param :: compilePath [] true cs
    else compilePath (c :: acc) false cs

/-- The end of a pattern: `$`, which a line break may follow. -/
def isEnd (s : Text) : Bool := s = [] ∨ s = ['\n']

/-- The pattern matches the path. -/
def matchParts : List Part → Text → Bool
  | [], path => isEnd path
  | .lit s :: parts, path =>
    match s.isPrefixOf? path with
    | some path => matchParts parts path
    | none => false
  | .param :: parts, path =>
    path.takeWhile (· ≠ '/') ≠ [] ∧ matchParts parts (path.dropWhile (· ≠ '/'))
  | .rest :: _, path => isEnd (path.dropWhile (· ≠ '\n'))

/-- A leading slash, which `urlunsplit` puts before a path that has none. -/
def slashed : Text → Text
  | [] => []
  | c :: cs => if c = '/' then c :: cs else '/' :: c :: cs

/-- The characters that `urlsplit` removes. -/
def isRemoved (c : Char) : Bool := c = '\t' ∨ c = '\r' ∨ c = '\n'

/-- The characters that the framework escapes in the path of a URL. -/
def escape (c : Char) : Text :=
  if c = '?' then "%3F".toList
  else if c = '#' then "%23".toList
  else if c = '\\' then "%5C".toList
  else [c]

/-- `request.url.path`, with Starlette 1.10.0. -/
def urlPath (path : Text) : Text := (slashed (path.flatMap escape)).filter fun c => !isRemoved c

/-- `request.url.path`, with Starlette 1.7.0, which does not escape: a `?` or `#` ends the path. -/
def cutUrlPath (path : Text) : Text :=
  ((slashed path).filter fun c => !isRemoved c).takeWhile fun c => c ≠ '?' ∧ c ≠ '#'

/-- A path without any of these characters. -/
def isPlain (s : Text) : Bool :=
  s.head? = some '/' ∧ s.all fun c => !isRemoved c && c ≠ '?' && c ≠ '#' && c ≠ '\\'

/-- What the guard relies on: a plain path, and a plain front of a path, stay as they are. -/
structure Framework where
  urlPath : Text → Text
  keeps : ∀ s rest, isPlain s = true → s <+: urlPath (s ++ rest)
  exact : ∀ s, isPlain s = true → urlPath s = s
  exact_break : ∀ s, isPlain s = true → urlPath (s ++ ['\n']) = s

/-! ### Requests -/

/-- `ROLE_RANK`. -/
def rank : Role → Nat
  | .viewer => 1
  | .operator => 2
  | .admin => 3

/-- `ROLE_RANK.get(role, 0)`; `none` is a role that is not in `ROLES`. -/
def rankOf : Option Role → Nat
  | some role => rank role
  | none => 0

/-- Who a request acts as: what guard and checks look at of a `User`. -/
structure Visitor where
  role : Option Role
  source : String

/-- What guard and checks read of a request. -/
structure Request where
  method : String
  /-- `scope["path"]` -/
  path : Text
  /-- `session_user`, of its cookie -/
  session : Option Visitor
  /-- every host that it claims is this machine: `is_own_host` of `_claimed_hosts` -/
  ownHosts : Bool
  csrfCookie : Option Text
  /-- `X-CSRF-Token` -/
  csrfHeader : Option Text
  /-- `_csrf` of the form -/
  csrfField : Option Text
  /-- `bearer_token` -/
  bearer : Text
  /-- `X-Cluster-Key` -/
  clusterKey : Text

/-- What they read of the configuration. -/
structure Settings where
  passwordSet : Bool
  requireLogin : Bool
  /-- `none`: no role of `ROLES`, which a file may hold -/
  anonymousRole : Option Role
  apiTokenHash : Text
  apiTokenRole : Option Role
  clusterActive : Bool
  clusterKey : Text

/-- Why a request is answered without its handler. -/
inductive Refusal
  | csrfFailed
  | toSetup
  | toRoot
  | toLogin
  | unauthorized
  | setupIncomplete
  | tokenNotConfigured
  | forbidden
  | signIn
  | methodNotAllowed
  | notFound
  /-- `compare_digest` of texts that are not ASCII -/
  | typeError
  /-- a WebSocket that is closed at once -/
  | closed
  /-- `urlparse` of an `Origin` that it refuses -/
  | valueError
  deriving DecidableEq

/-- `anonymous_user`. -/
def anonymousUser (cfg : Settings) (r : Request) : Option Visitor :=
  if cfg.requireLogin ∨ !cfg.passwordSet then none
  else if r.ownHosts then some ⟨cfg.anonymousRole, "anonymous"⟩
  else none

/-- `request_user`. -/
def requestUser (cfg : Settings) (r : Request) : Option Visitor :=
  match r.session with
  | some u => some u
  | none => anonymousUser cfg r

/-- `hmac.compare_digest`, of two texts. -/
def compareDigest (a b : Text) : Except Refusal Bool :=
  if a.all (·.toNat < 128) ∧ b.all (·.toNat < 128) then .ok (decide (a = b)) else .error .typeError

/-- `csrf_token_matches`. -/
def csrfTokenMatches (r : Request) (token : Option Text) : Except Refusal Bool :=
  match r.csrfCookie, token with
  | some cookie, some token =>
    if cookie = [] ∨ token = [] then .ok false else compareDigest token cookie
  | _, _ => .ok false

/-! ### The guard -/

def publicPrefixes : List Text := ["/static", "/auth/", "/lang/"].map String.toList

/-- `_CLUSTER_PEER_PATHS`. -/
def clusterPeerPaths : List Text :=
  ["/api/cluster/local", "/api/cluster/control", "/api/cluster/mapping-data",
    "/api/cluster/mapping-save"].map String.toList

def publicPaths : List Text :=
  ["/login", "/setup", "/healthz", "/favicon.ico"].map String.toList ++ clusterPeerPaths

def isPublic (path : Text) : Bool :=
  publicPaths.contains path || publicPrefixes.any fun p => p.isPrefixOf path

def changingMethods : List String := ["POST", "PUT", "DELETE", "PATCH"]

def apiV1 : Text := "/api/v1".toList

/-- The paths of the API that need no token. -/
def openApiPaths : List Text := ["/api/v1/health", "/api/v1/openapi.json"].map String.toList

/-- The paths that are served before the setup. -/
def isSetupPath (path : Text) : Bool :=
  ["/setup", "/healthz"].any (fun s => s.toList = path) ||
    ["/static", "/lang/"].any fun s => s.toList.isPrefixOf path

/-- A check that must hold. -/
def demand (b : Bool) (e : Refusal) : Except Refusal Unit := if b then .ok () else .error e

/-- The CSRF check of `_dispatch_ui`. -/
def guardCsrf (r : Request) (path : Text) : Except Refusal Unit :=
  if changingMethods.contains r.method ∧ "/api/".toList.isPrefixOf path ∧
      !clusterPeerPaths.contains path then do
    demand (← csrfTokenMatches r r.csrfHeader) .csrfFailed
  else .ok ()

/-- `_dispatch_ui`, up to `call_next`: the visitor that the handler will see. -/
def dispatchUi (cfg : Settings) (r : Request) (path : Text) : Except Refusal (Option Visitor) := do
  guardCsrf r path
  if !cfg.passwordSet then
    if isSetupPath path then .ok none else .error .toSetup
  else if path = "/setup".toList then .error .toRoot
  else if isPublic path then .ok none
  else
    match requestUser cfg r with
    | some v => .ok (some v)
    | none => .error (if "/api".toList.isPrefixOf path then .unauthorized else .toLogin)

/-- `verify_token`; `sha256` is the hex digest of a text. -/
def verifyToken (sha256 : Text → Text) (token stored : Text) : Except Refusal Bool :=
  if token = [] ∨ stored = [] then .ok false else compareDigest (sha256 token) stored

/-- `_dispatch_api`, up to `call_next`. -/
def dispatchApi (sha256 : Text → Text) (cfg : Settings) (r : Request) (path : Text) :
    Except Refusal (Option Visitor) :=
  if openApiPaths.contains path then .ok none
  else do
    demand cfg.passwordSet .setupIncomplete
    demand (cfg.apiTokenHash ≠ []) .tokenNotConfigured
    demand (← verifyToken sha256 r.bearer cfg.apiTokenHash) .unauthorized
    demand (!(changingMethods.contains r.method && rankOf cfg.apiTokenRole < rank .operator))
      .forbidden
    .ok none

/-- `dispatch`. -/
def dispatch (fw : Framework) (sha256 : Text → Text) (cfg : Settings) (r : Request) :
    Except Refusal (Option Visitor) :=
  let path := fw.urlPath r.path
  if apiV1.isPrefixOf path then dispatchApi sha256 cfg r path else dispatchUi cfg r path

/-! ### The routes -/

/-- The handlers; those of the JSON API are `v1…`. -/
inductive Endpoint
  | loginGet | loginPost | logoutPost | oidcLogin | oidcCallback | setupGet | setupPost
  | settingsGet | settingsPasswordPost | settingsTlsPost | settingsTlsGenerate | settingsAccessPost
  | settingsApiTokenPost | settingsApiTokenRevoke | settingsUsersCreate | settingsUsersRole
  | settingsUsersDelete | settingsLdapPost | settingsOidcPost | settingsClusterPost | configExport
  | configImport | configImportApply | settingsNotificationsPost | auditPage | auditCsv
  | backupRestore | backupDownload
  | v1Health | v1Openapi | v1Status | v1Ports | v1ListMappings | v1CreateMapping | v1GetMapping
  | v1UpdateMapping | v1DeleteMapping | v1MappingAction
  | dashboard | mappingDuplicate | apiStatus | mappingBulk | mappingFormNew | mappingFormEdit
  | mappingLog | consoleView | mappingTraces | mappingTraceFile | mappingSave | mappingDelete
  | mappingAction
  | clusterStatus | clusterLocal | clusterControl | clusterControlPeer | clusterMappingData
  | clusterMappingSave | clusterPeerForm | clusterPeerSave
  | setLanguage | healthz | metrics | apiPortsJson | apiPortsRefresh | apiPortsTable
  | static
  deriving DecidableEq

structure Route where
  parts : List Part
  /-- `none`: any method -/
  methods : Option (List String)
  endpoint : Endpoint

/-- `Route(path, endpoint, methods=…)`. -/
def route (path : String) (endpoint : Endpoint) (methods : List String) : Route :=
  ⟨compilePath [] false path.toList, some methods, endpoint⟩

/-- `Route(path, endpoint)`. -/
def get (path : String) (endpoint : Endpoint) : Route := route path endpoint ["GET"]

/-- `Route(path, endpoint, methods=["POST"])`. -/
def post (path : String) (endpoint : Endpoint) : Route := route path endpoint ["POST"]

/-- `build_routes`, but for the two WebSocket routes, which do not take part in HTTP. -/
def routes : List Route := [
  get "/login" .loginGet,
  post "/login" .loginPost,
  post "/logout" .logoutPost,
  get "/auth/oidc/login" .oidcLogin,
  get "/auth/oidc/callback" .oidcCallback,
  get "/setup" .setupGet,
  post "/setup" .setupPost,
  get "/settings" .settingsGet,
  post "/settings/password" .settingsPasswordPost,
  post "/settings/tls" .settingsTlsPost,
  post "/settings/tls/generate" .settingsTlsGenerate,
  post "/settings/access" .settingsAccessPost,
  post "/settings/api-token" .settingsApiTokenPost,
  post "/settings/api-token/revoke" .settingsApiTokenRevoke,
  post "/settings/users" .settingsUsersCreate,
  post "/settings/users/{username}/role" .settingsUsersRole,
  post "/settings/users/{username}/delete" .settingsUsersDelete,
  post "/settings/ldap" .settingsLdapPost,
  post "/settings/oidc" .settingsOidcPost,
  post "/settings/cluster" .settingsClusterPost,
  get "/settings/config/export" .configExport,
  post "/settings/config/import" .configImport,
  post "/settings/config/import/apply" .configImportApply,
  post "/settings/notifications" .settingsNotificationsPost,
  get "/settings/audit" .auditPage,
  get "/settings/audit.csv" .auditCsv,
  post "/settings/backups/restore" .backupRestore,
  get "/settings/backups/{name}" .backupDownload,
  get "/api/v1/health" .v1Health,
  get "/api/v1/openapi.json" .v1Openapi,
  get "/api/v1/status" .v1Status,
  get "/api/v1/ports" .v1Ports,
  get "/api/v1/mappings" .v1ListMappings,
  post "/api/v1/mappings" .v1CreateMapping,
  get "/api/v1/mappings/{mid}" .v1GetMapping,
  route "/api/v1/mappings/{mid}" .v1UpdateMapping ["PUT"],
  route "/api/v1/mappings/{mid}" .v1DeleteMapping ["DELETE"],
  post "/api/v1/mappings/{mid}/{action}" .v1MappingAction,
  get "/" .dashboard,
  post "/api/mappings/{mid}/duplicate" .mappingDuplicate,
  get "/api/status" .apiStatus,
  post "/api/mappings/bulk" .mappingBulk,
  get "/api/mappings/form" .mappingFormNew,
  get "/api/mappings/{mid}/form" .mappingFormEdit,
  get "/api/mappings/{mid}/log" .mappingLog,
  get "/api/mappings/{mid}/console-view" .consoleView,
  get "/api/mappings/{mid}/traces" .mappingTraces,
  get "/api/mappings/{mid}/traces/{name}" .mappingTraceFile,
  post "/api/mappings/save" .mappingSave,
  route "/api/mappings/{mid}" .mappingDelete ["DELETE"],
  post "/api/mappings/{mid}/{action}" .mappingAction,
  get "/api/cluster/status" .clusterStatus,
  get "/api/cluster/local" .clusterLocal,
  post "/api/cluster/control" .clusterControl,
  post "/api/cluster/control-peer" .clusterControlPeer,
  get "/api/cluster/mapping-data" .clusterMappingData,
  post "/api/cluster/mapping-save" .clusterMappingSave,
  get "/api/cluster/peer-form" .clusterPeerForm,
  post "/api/cluster/peer-save" .clusterPeerSave,
  get "/lang/{code}" .setLanguage,
  get "/healthz" .healthz,
  get "/metrics" .metrics,
  get "/api/ports.json" .apiPortsJson,
  post "/api/ports/refresh" .apiPortsRefresh,
  get "/api/ports/table" .apiPortsTable,
  ⟨[.lit "/static/".toList, .rest], none, .static⟩]

/-- The path matches. -/
def Route.matches (rt : Route) (path : Text) : Bool := matchParts rt.parts path

/-- The method is one of the route; GET brings HEAD with it. -/
def Route.takes (rt : Route) (method : String) : Bool :=
  match rt.methods with
  | none => true
  | some methods => methods.contains method || (method = "HEAD" && methods.contains "GET")

/-- `Router.app`: the first route that takes path and method; a redirect to the path with or
    without a slash at the end runs no handler either. -/
def router (method : String) (path : Text) : Except Refusal Route :=
  match routes.find? fun rt => rt.matches path && rt.takes method with
  | some rt => .ok rt
  | none => .error (if routes.any (·.matches path) then .methodNotAllowed else .notFound)

/-! ### The handlers -/

/-- What a handler checks before it does anything. -/
inductive Check
  /-- `require_role` -/
  | atLeast (role : Role)
  /-- `csrf_token_matches` of the form -/
  | csrf
  /-- `is_anonymous` of `require_peer_access` -/
  | signedIn
  /-- The checks of `settings_password_post` on the account, before that of its password. -/
  | localAccount
  /-- The cluster is active, and the header has its key. -/
  | clusterKey
  deriving DecidableEq

/-- The check, of a request and its visitor (`current_user`). -/
def Check.run (cfg : Settings) (r : Request) (v : Option Visitor) : Check → Except Refusal Unit
  | .atLeast role => demand (v.any fun v => rank role ≤ rankOf v.role) .forbidden
  | .csrf => do demand (← csrfTokenMatches r r.csrfField) .csrfFailed
  | .signedIn => demand (!v.any fun v => v.source = "anonymous") .signIn
  | .localAccount => demand (v.any fun v => v.source = "local") .signIn
  | .clusterKey =>
    if cfg.clusterActive ∧ r.clusterKey ≠ [] then do
      demand (← compareDigest r.clusterKey cfg.clusterKey) .forbidden
    else .error .forbidden

/-- The checks that a handler begins with, in their order. -/
def Endpoint.head : Endpoint → List Check
  | .loginPost | .logoutPost | .setupPost => [.csrf]
  | .settingsPasswordPost => [.csrf, .localAccount]
  | .settingsTlsPost | .settingsTlsGenerate | .settingsAccessPost | .settingsApiTokenPost
  | .settingsApiTokenRevoke | .settingsUsersCreate | .settingsUsersRole | .settingsUsersDelete
  | .settingsLdapPost | .settingsOidcPost | .settingsClusterPost | .settingsNotificationsPost
  | .backupRestore => [.atLeast .admin, .csrf]
  | .auditPage | .auditCsv | .backupDownload => [.atLeast .admin]
  | .configExport => [.atLeast .operator]
  | .configImport | .configImportApply => [.atLeast .operator, .csrf]
  | .mappingDuplicate | .mappingBulk | .mappingFormNew | .mappingFormEdit | .mappingSave
  | .mappingDelete | .mappingAction => [.atLeast .operator]
  | .clusterControlPeer | .clusterPeerForm | .clusterPeerSave => [.signedIn, .atLeast .operator]
  | .clusterLocal | .clusterControl | .clusterMappingData | .clusterMappingSave => [.clusterKey]
  | _ => []

/-- A request, from the guard to the body of its handler: the handler whose checks it has passed,
    and its visitor. -/
def serve (fw : Framework) (sha256 : Text → Text) (cfg : Settings) (r : Request) :
    Except Refusal (Endpoint × Option Visitor) := do
  let v ← dispatch fw sha256 cfg r
  let rt ← router r.method r.path
  rt.endpoint.head.forM (Check.run cfg r v)
  pure (rt.endpoint, v)

/-! ### The WebSockets -/

/-- The handlers of `console.py`. -/
inductive Socket
  | console
  | traffic
  deriving DecidableEq

/-- The routes of the WebSockets. -/
def socketRoutes : List (List Part × Socket) := [
  (compilePath [] false "/api/mappings/{mid}/console".toList, .console),
  (compilePath [] false "/api/mappings/{mid}/traffic".toList, .traffic)]

/-- A WebSocket that is asked for. -/
structure Handshake where
  request : Request
  /-- `urlparse(origin).netloc`; the outer `none` is no `Origin` or an empty one, the inner one a
      `ValueError`. -/
  origin : Option (Option Text)
  host : Option Text

/-- `_authorize`. -/
def authorize (cfg : Settings) (h : Handshake) : Except Refusal Visitor :=
  match requestUser cfg h.request with
  | none => .error .closed
  | some v =>
    match h.origin with
    | none => .ok v
    | some none => .error .valueError
    | some (some netloc) => if some netloc = h.host then .ok v else .error .closed

/-- A WebSocket, from the router to the body of its handler, which reads only for the visitors that
    `_authorize` lets through. -/
def connect (cfg : Settings) (h : Handshake) : Except Refusal (Socket × Visitor) :=
  match socketRoutes.find? fun rt => matchParts rt.1 h.request.path with
  | none => .error .notFound
  | some rt => do
    let v ← authorize cfg h
    pure (rt.2, v)

/-! ### The policy -/

/-- Who may call a handler. -/
inductive Policy
  /-- Anyone. -/
  | free
  /-- Anyone with a form of this site: the sign-in. -/
  | signIn
  /-- Anyone, before the first password is set. -/
  | setup (change : Bool)
  /-- A visitor, of this role at least where one is asked for; for a change, with a form or script
      of this site. -/
  | visitor (role : Option Role) (change : Bool)
  /-- An operator who is signed in; for a change, with a script of this site. -/
  | operator (change : Bool)
  /-- A local account, for itself. -/
  | own
  /-- The holder of the API token; for a change, of an operator's. -/
  | token (change : Bool)
  /-- A node that has the key of the cluster. -/
  | cluster

/-- The policy of a handler. -/
def Endpoint.policy : Endpoint → Policy
  | .loginGet | .oidcLogin | .oidcCallback | .v1Health | .v1Openapi | .setLanguage | .healthz
  | .static => .free
  | .loginPost => .signIn
  | .setupGet => .setup false
  | .setupPost => .setup true
  | .logoutPost => .visitor none true
  | .settingsPasswordPost => .own
  | .settingsTlsPost | .settingsTlsGenerate | .settingsAccessPost | .settingsApiTokenPost
  | .settingsApiTokenRevoke | .settingsUsersCreate | .settingsUsersRole | .settingsUsersDelete
  | .settingsLdapPost | .settingsOidcPost | .settingsClusterPost | .settingsNotificationsPost
  | .backupRestore => .visitor (some .admin) true
  | .auditPage | .auditCsv | .backupDownload => .visitor (some .admin) false
  | .configExport | .mappingFormNew | .mappingFormEdit => .visitor (some .operator) false
  | .configImport | .configImportApply | .mappingDuplicate | .mappingBulk | .mappingSave
  | .mappingDelete | .mappingAction => .visitor (some .operator) true
  | .apiPortsRefresh => .visitor none true
  | .settingsGet | .dashboard | .apiStatus | .mappingLog | .consoleView | .mappingTraces
  | .mappingTraceFile | .clusterStatus | .metrics | .apiPortsJson | .apiPortsTable =>
    .visitor none false
  | .clusterControlPeer | .clusterPeerSave => .operator true
  | .clusterPeerForm => .operator false
  | .v1Status | .v1Ports | .v1ListMappings | .v1GetMapping => .token false
  | .v1CreateMapping | .v1UpdateMapping | .v1DeleteMapping | .v1MappingAction => .token true
  | .clusterLocal | .clusterControl | .clusterMappingData | .clusterMappingSave => .cluster

/-- The request carries the token of its cookie a second time, where only a page of this site can
    put it. -/
def Unforged (r : Request) : Prop :=
  ∃ token, token ≠ [] ∧ r.csrfCookie = some token ∧
    (r.csrfHeader = some token ∨ r.csrfField = some token)

/-- The policy allows the request. -/
def Allowed (sha256 : Text → Text) (cfg : Settings) (r : Request) : Policy → Prop
  | .free => True
  | .signIn => cfg.passwordSet = true ∧ Unforged r
  | .setup change => cfg.passwordSet = false ∧ (change = true → Unforged r)
  | .visitor role change =>
    cfg.passwordSet = true ∧ (∃ v, requestUser cfg r = some v ∧ rankOf role ≤ rankOf v.role) ∧
      (change = true → Unforged r)
  | .operator change =>
    cfg.passwordSet = true ∧ (∃ u, r.session = some u ∧ rank .operator ≤ rankOf u.role) ∧
      (change = true → Unforged r)
  | .own =>
    cfg.passwordSet = true ∧ (∃ u, r.session = some u ∧ u.source = "local") ∧ Unforged r
  | .token change =>
    cfg.passwordSet = true ∧ r.bearer ≠ [] ∧ sha256 r.bearer = cfg.apiTokenHash ∧
      (change = true → rank .operator ≤ rankOf cfg.apiTokenRole)
  | .cluster =>
    cfg.passwordSet = true ∧ cfg.clusterActive = true ∧ r.clusterKey ≠ [] ∧
      r.clusterKey = cfg.clusterKey

/-- Who may open a WebSocket: a visitor, from a page of this site or from no page. -/
def Admitted (cfg : Settings) (h : Handshake) (v : Visitor) : Prop :=
  requestUser cfg h.request = some v ∧
    (h.origin = none ∨ ∃ netloc, h.origin = some (some netloc) ∧ h.host = some netloc)

/-! ### What guard and checks leave -/

section
variable {cfg : Settings} {r : Request} {v : Option Visitor} {g path : Text} {sha256 : Text → Text}

/-- A demand that is met. -/
theorem demand_eq_ok {b : Bool} {e : Refusal} : demand b e = .ok () ↔ b = true := by
  cases b <;> simp [demand]

/-- Texts that compare as equal are equal. -/
theorem compareDigest_eq_ok {a b : Text} (h : compareDigest a b = .ok true) : a = b := by
  unfold compareDigest at h
  split at h
  · simpa using h
  · cases h

/-- A token that matches is that of the cookie. -/
theorem csrfTokenMatches_eq_ok {token : Option Text} (h : csrfTokenMatches r token = .ok true) :
    ∃ t, t ≠ [] ∧ r.csrfCookie = some t ∧ token = some t := by
  unfold csrfTokenMatches at h
  split at h
  · next cookie token hcookie =>
    split at h
    · cases h
    · next hne =>
      obtain rfl := compareDigest_eq_ok h
      exact ⟨token, fun ht => hne (.inl ht), hcookie, rfl⟩
  · cases h

/-- A check that is passed: the token in the form. -/
theorem csrf_run (h : Check.csrf.run cfg r v = .ok ()) : Unforged r := by
  obtain ⟨b, hb, h⟩ := except_bind_eq_ok.1 h
  obtain rfl := demand_eq_ok.1 h
  obtain ⟨t, hne, hcookie, hfield⟩ := csrfTokenMatches_eq_ok hb
  exact ⟨t, hne, hcookie, .inr hfield⟩

/-- A visitor of at least this role. -/
theorem atLeast_run {role : Role} (h : (Check.atLeast role).run cfg r v = .ok ()) :
    ∃ u, v = some u ∧ rank role ≤ rankOf u.role := by
  have hany := demand_eq_ok.1 h
  cases v with
  | none => cases hany
  | some u => exact ⟨u, rfl, by simpa using hany⟩

/-- A visitor who has signed in. -/
theorem signedIn_run {u : Visitor} (h : Check.signedIn.run cfg r (some u) = .ok ()) :
    u.source ≠ "anonymous" := by
  have hany := demand_eq_ok.1 h
  simpa using hany

/-- A visitor who is not the one of open access is that of the session. -/
theorem session_of_source {u : Visitor} (h : requestUser cfg r = some u)
    (hsource : u.source ≠ "anonymous") : r.session = some u := by
  unfold requestUser anonymousUser at h
  split at h
  · next a ha =>
    cases h
    exact ha
  · split at h
    · cases h
    · split at h
      · cases h
        exact absurd rfl hsource
      · cases h

/-- A visitor with a local account. -/
theorem localAccount_run (h : Check.localAccount.run cfg r v = .ok ()) :
    ∃ u, v = some u ∧ u.source = "local" := by
  have hany := demand_eq_ok.1 h
  cases v with
  | none => cases hany
  | some u => exact ⟨u, rfl, by simpa using hany⟩

/-- A peer with the key of the cluster. -/
theorem clusterKey_run (h : Check.clusterKey.run cfg r v = .ok ()) :
    cfg.clusterActive = true ∧ r.clusterKey ≠ [] ∧ r.clusterKey = cfg.clusterKey := by
  unfold Check.run at h
  dsimp only at h
  split at h
  · next hactive =>
    obtain ⟨b, hb, h⟩ := except_bind_eq_ok.1 h
    obtain rfl := demand_eq_ok.1 h
    exact ⟨hactive.1, hactive.2, compareDigest_eq_ok hb⟩
  · cases h

/-- All the checks of a handler that is reached are passed. -/
theorem run_of_forM {checks : List Check}
    (h : (checks.forM (Check.run cfg r v) : Except Refusal PUnit) = .ok ()) :
    ∀ c ∈ checks, c.run cfg r v = .ok () := by
  induction checks with
  | nil => simp
  | cons c checks ih =>
    have h : (c.run cfg r v >>= fun _ => checks.forM (Check.run cfg r v)) = .ok () := h
    obtain ⟨_, hc, h⟩ := except_bind_eq_ok.1 h
    intro c' hc'
    rcases List.mem_cons.1 hc' with rfl | hc'
    · exact hc
    · exact ih h c' hc'

/-- The token in the header, where the guard asks for it. -/
theorem unforged_of_guardCsrf (h : guardCsrf r g = .ok ())
    (hmethod : changingMethods.contains r.method = true) (hapi : "/api/".toList.isPrefixOf g = true)
    (hpeer : clusterPeerPaths.contains g = false) : Unforged r := by
  rw [guardCsrf, if_pos ⟨hmethod, hapi, by simp only [hpeer, Bool.not_false]⟩] at h
  obtain ⟨b, hb, h⟩ := except_bind_eq_ok.1 h
  obtain rfl := demand_eq_ok.1 h
  obtain ⟨t, hne, hcookie, hheader⟩ := csrfTokenMatches_eq_ok hb
  exact ⟨t, hne, hcookie, .inl hheader⟩

/-- What the guard of the pages lets through. -/
theorem dispatchUi_eq_ok (h : dispatchUi cfg r g = .ok v) : guardCsrf r g = .ok () ∧
    (cfg.passwordSet = false ∧ isSetupPath g = true ∨
      cfg.passwordSet = true ∧ g ≠ "/setup".toList ∧
        (isPublic g = false → ∃ u, v = some u ∧ requestUser cfg r = some u)) := by
  obtain ⟨_, hcsrf, h⟩ := except_bind_eq_ok.1 h
  refine ⟨hcsrf, ?_⟩
  -- before the setup only its own pages are let through
  cases hset : cfg.passwordSet with
  | false =>
    simp only [hset, Bool.not_false, if_true] at h
    split at h
    · next hsetup => exact .inl ⟨rfl, hsetup⟩
    · cases h
  | true =>
    simp only [hset, Bool.not_true, Bool.false_eq_true, if_false] at h
    split at h
    · cases h
    · next hne =>
      refine .inr ⟨rfl, hne, fun hprivate => ?_⟩
      simp only [hprivate, Bool.false_eq_true, if_false] at h
      split at h
      · next u hu =>
        cases h
        exact ⟨u, rfl, hu⟩
      · cases h

/-- What the guard of the API lets through. -/
theorem dispatchApi_eq_ok (h : dispatchApi sha256 cfg r g = .ok v)
    (hclosed : openApiPaths.contains g = false) :
    cfg.passwordSet = true ∧ r.bearer ≠ [] ∧ sha256 r.bearer = cfg.apiTokenHash ∧
      (changingMethods.contains r.method = true → rank .operator ≤ rankOf cfg.apiTokenRole) := by
  rw [dispatchApi, if_neg (by simp only [hclosed, Bool.false_eq_true, not_false_iff])] at h
  obtain ⟨_, hset, h⟩ := except_bind_eq_ok.1 h
  obtain ⟨_, -, h⟩ := except_bind_eq_ok.1 h
  obtain ⟨b, hb, h⟩ := except_bind_eq_ok.1 h
  obtain ⟨_, htoken, h⟩ := except_bind_eq_ok.1 h
  obtain ⟨_, hrole, -⟩ := except_bind_eq_ok.1 h
  obtain rfl := demand_eq_ok.1 htoken
  unfold verifyToken at hb
  split at hb
  · cases hb
  · next hne =>
    refine ⟨demand_eq_ok.1 hset, fun ht => hne (.inl ht), compareDigest_eq_ok hb, fun hm => ?_⟩
    have hrole := demand_eq_ok.1 hrole
    rw [hm] at hrole
    simpa using hrole

end

/-! ### The lines of the table -/

namespace Route

/-- The text that the path begins with. -/
def literal (rt : Route) : Text :=
  match rt.parts with
  | .lit s :: _ => s
  | _ => []

/-- The path has no parameter. -/
def isExact (rt : Route) : Bool := rt.parts = [.lit rt.literal]

/-- The path of the URL, as far as it is known when the route matches. -/
def Sees (rt : Route) (g : Text) : Prop :=
  if rt.isExact then g = rt.literal else rt.literal <+: g

/-- It is not this one. -/
def never (rt : Route) (q : Text) : Bool :=
  if rt.isExact then rt.literal ≠ q else !rt.literal.isPrefixOf q

/-- It does not begin with this. -/
def neverUnder (rt : Route) (p : Text) : Bool :=
  !p.isPrefixOf rt.literal && (rt.isExact || !rt.literal.isPrefixOf p)

/-- The guard asks for an account: the path is not public. -/
def isPrivate (rt : Route) : Bool :=
  publicPaths.all rt.never && publicPrefixes.all rt.neverUnder && rt.neverUnder apiV1

/-- The guard redirects before the setup. -/
def afterSetup (rt : Route) : Bool :=
  ["/setup", "/healthz"].all (fun q => rt.never q.toList) &&
    ["/static", "/lang/"].all (fun p => rt.neverUnder p.toList) && rt.neverUnder apiV1

/-- Only the methods that change something are taken. -/
def isChanging (rt : Route) : Bool :=
  rt.methods.any fun methods => methods.all fun m => changingMethods.contains m

/-- A forged request does not get to the body of the handler. -/
def stopsForged (rt : Route) : Bool :=
  rt.endpoint.head.contains .csrf ||
    (rt.isChanging && "/api/".toList.isPrefixOf rt.literal && clusterPeerPaths.all rt.never)

/-- What a line of the table must be for guard and checks to enforce the policy of its handler. -/
def sound (rt : Route) : Bool :=
  isPlain rt.literal && (rt.parts.head? = some (.lit rt.literal)) &&
    match rt.endpoint.policy with
    | .free => true
    | .signIn => rt.afterSetup && rt.endpoint.head.contains .csrf
    | .setup change =>
      rt.isExact && rt.literal = "/setup".toList && (!change || rt.endpoint.head.contains .csrf)
    | .visitor role change =>
      rt.isPrivate && (role.all fun role => rt.endpoint.head.contains (.atLeast role)) &&
        (!change || rt.stopsForged)
    | .operator change =>
      rt.isPrivate && rt.endpoint.head.contains .signedIn &&
        rt.endpoint.head.contains (.atLeast .operator) && (!change || rt.stopsForged)
    | .own =>
      rt.isPrivate && rt.endpoint.head.contains .csrf && rt.endpoint.head.contains .localAccount
    | .token change =>
      apiV1.isPrefixOf rt.literal && openApiPaths.all rt.never && (!change || rt.isChanging)
    | .cluster => rt.afterSetup && rt.endpoint.head.contains .clusterKey

end Route

/-- Every line of the table is as it must be. -/
theorem routes_sound : routes.all Route.sound = true := by decide +kernel

section
variable {rt : Route} {g path p q : Text}

/-- The path that the guard sees begins like the route. -/
theorem Route.isPrefixOf_sees (h : rt.Sees g) : rt.literal <+: g := by
  unfold Route.Sees at h
  split at h
  · exact h ▸ List.prefix_rfl
  · exact h

/-- A route that never takes a path is not on it. -/
theorem Route.ne_of_never (h : rt.Sees g) (hnever : rt.never q = true) : g ≠ q := by
  rintro rfl
  unfold Route.Sees at h
  unfold Route.never at hnever
  split at h
  · next hexact =>
    rw [if_pos hexact] at hnever
    exact of_decide_eq_true hnever h.symm
  · next hexact =>
    rw [if_neg hexact, Bool.not_eq_true', ← Bool.not_eq_true, List.isPrefixOf_iff_prefix] at hnever
    exact hnever h

/-- A route that is nowhere under a prefix is not there. -/
theorem Route.not_isPrefixOf (h : rt.Sees g) (hnever : rt.neverUnder p = true) :
    p.isPrefixOf g = false := by
  rw [Route.neverUnder, Bool.and_eq_true, Bool.not_eq_true', Bool.or_eq_true] at hnever
  obtain ⟨hfront, hback⟩ := hnever
  rw [← Bool.not_eq_true, List.isPrefixOf_iff_prefix] at hfront ⊢
  intro hpre
  -- two fronts of one text are fronts of each other
  rcases List.prefix_or_prefix_of_prefix hpre (isPrefixOf_sees h) with hpl | hlp
  · exact hfront hpl
  · rcases hback with hexact | hback
    · rw [Route.Sees, if_pos hexact] at h
      exact hfront (h ▸ hpre)
    · rw [Bool.not_eq_true', ← Bool.not_eq_true, List.isPrefixOf_iff_prefix] at hback
      exact hback hlp

/-- A private route is on no public path. -/
theorem Route.isPublic_of_isPrivate (h : rt.Sees g) (hprivate : rt.isPrivate = true) :
    isPublic g = false ∧ apiV1.isPrefixOf g = false := by
  rw [Route.isPrivate, Bool.and_eq_true, Bool.and_eq_true, List.all_eq_true, List.all_eq_true]
    at hprivate
  obtain ⟨⟨hpaths, hprefixes⟩, hapi⟩ := hprivate
  refine ⟨?_, Route.not_isPrefixOf h hapi⟩
  rw [isPublic, Bool.or_eq_false_iff]
  constructor
  · rw [← Bool.not_eq_true, List.contains_iff_mem]
    exact fun hmem => Route.ne_of_never h (hpaths _ hmem) rfl
  · rw [List.any_eq_false]
    exact fun p hp => by simp [Route.not_isPrefixOf h (hprefixes p hp)]

/-- What is served before the setup is public. -/
theorem isPublic_of_isSetupPath (h : isSetupPath g = true) : isPublic g = true := by
  simp only [isSetupPath, List.any_cons, List.any_nil, Bool.or_false, Bool.or_eq_true,
    decide_eq_true_eq] at h
  rw [isPublic, Bool.or_eq_true]
  rcases h with (rfl | rfl) | h | h
  · exact .inl (by decide +kernel)
  · exact .inl (by decide +kernel)
  · exact .inr (List.any_eq_true.2 ⟨_, by decide +kernel, h⟩)
  · exact .inr (List.any_eq_true.2 ⟨_, by decide +kernel, h⟩)

/-- A route for after the setup is not on its paths. -/
theorem Route.isSetupPath_of_afterSetup (h : rt.Sees g) (hafter : rt.afterSetup = true) :
    isSetupPath g = false ∧ apiV1.isPrefixOf g = false := by
  rw [Route.afterSetup, Bool.and_eq_true, Bool.and_eq_true, List.all_eq_true, List.all_eq_true]
    at hafter
  obtain ⟨⟨hpaths, hprefixes⟩, hapi⟩ := hafter
  refine ⟨?_, Route.not_isPrefixOf h hapi⟩
  rw [isSetupPath, Bool.or_eq_false_iff, List.any_eq_false, List.any_eq_false]
  constructor
  · intro q hq
    have hne : q.toList ≠ g := fun heq => Route.ne_of_never h (hpaths q hq) heq.symm
    simpa using hne
  · exact fun p hp => by simp [Route.not_isPrefixOf h (hprefixes p hp)]

/-- The route matches: the path begins with its text, and is this text when there is nothing
    else. -/
theorem Route.path_of_matches (hparts : rt.parts.head? = some (.lit rt.literal))
    (h : rt.matches path = true) : ∃ rest, path = rt.literal ++ rest ∧
      (rt.isExact = true → rest = [] ∨ rest = ['\n']) := by
  obtain ⟨parts, methods, endpoint⟩ := rt
  cases parts with
  | nil => cases hparts
  | cons part parts =>
    cases part with
    | lit s =>
      unfold Route.matches matchParts at h
      split at h
      · next rest hrest =>
        refine ⟨rest, (List.isPrefixOf?_eq_some_iff_append_eq.1 hrest).symm, fun hexact => ?_⟩
        have hnil : parts = [] := by simpa [Route.isExact, Route.literal] using hexact
        subst hnil
        simpa [matchParts, isEnd] using h
      · cases h
    | _ => simp [Route.literal] at hparts

/-- The guard sees the path of the route that matches. -/
theorem Route.sees_of_matches (fw : Framework) (hplain : isPlain rt.literal = true)
    (hparts : rt.parts.head? = some (.lit rt.literal)) (h : rt.matches path = true) :
    rt.Sees (fw.urlPath path) := by
  obtain ⟨rest, rfl, hrest⟩ := Route.path_of_matches hparts h
  unfold Route.Sees
  split
  · next hexact =>
    rcases hrest hexact with rfl | rfl
    · rw [List.append_nil, fw.exact _ hplain]
    · exact fw.exact_break _ hplain
  · exact fw.keeps _ rest hplain

/-- A changing route takes a changing method. -/
theorem Route.changing_of_takes {method : String} (h : rt.isChanging = true)
    (htakes : rt.takes method = true) : changingMethods.contains method = true := by
  unfold Route.isChanging at h
  unfold Route.takes at htakes
  cases hmethods : rt.methods with
  | none =>
    rw [hmethods] at h
    cases h
  | some methods =>
    rw [hmethods] at h htakes
    have hall : ∀ m ∈ methods, changingMethods.contains m = true := List.all_eq_true.1 h
    simp only [Bool.or_eq_true, Bool.and_eq_true, decide_eq_true_eq, List.contains_iff_mem]
      at htakes
    rcases htakes with hmem | ⟨-, hget⟩
    · exact hall _ hmem
    · exact absurd (hall _ hget) (by decide +kernel)

end

/-- What the router finds is a line of the table. -/
theorem router_eq_ok {method : String} {path : Text} {rt : Route}
    (h : router method path = .ok rt) :
    rt.sound = true ∧ rt.matches path = true ∧ rt.takes method = true := by
  unfold router at h
  split at h
  · next rt' hfind =>
    cases h
    have hmatch := List.find?_some hfind
    rw [Bool.and_eq_true] at hmatch
    exact ⟨List.all_eq_true.1 routes_sound _ (List.mem_of_find?_eq_some hfind), hmatch⟩
  · cases h

/-! ### The guard on a line of the table -/

section
variable {fw : Framework} {sha256 : Text → Text} {cfg : Settings} {r : Request}
  {v : Option Visitor} {rt : Route}

/-- A request outside the API goes through the guard of the pages. -/
theorem dispatch_ui (h : apiV1.isPrefixOf (fw.urlPath r.path) = false) :
    dispatch fw sha256 cfg r = dispatchUi cfg r (fw.urlPath r.path) := by
  show (if apiV1.isPrefixOf (fw.urlPath r.path) = true then _ else _) = _
  rw [h, if_neg Bool.false_ne_true]

/-- A request to the API goes through the guard of the tokens. -/
theorem dispatch_api (h : apiV1.isPrefixOf (fw.urlPath r.path) = true) :
    dispatch fw sha256 cfg r = dispatchApi sha256 cfg r (fw.urlPath r.path) := by
  show (if apiV1.isPrefixOf (fw.urlPath r.path) = true then _ else _) = _
  rw [if_pos h]

/-- A page that is not public: the visitor that the handler sees is the one of the request. -/
theorem visitor_of_isPrivate (hsees : rt.Sees (fw.urlPath r.path)) (hprivate : rt.isPrivate = true)
    (hguard : dispatch fw sha256 cfg r = .ok v) :
    guardCsrf r (fw.urlPath r.path) = .ok () ∧ cfg.passwordSet = true ∧
      ∃ u, v = some u ∧ requestUser cfg r = some u := by
  obtain ⟨hpublic, hapi⟩ := Route.isPublic_of_isPrivate hsees hprivate
  rw [dispatch_ui hapi] at hguard
  obtain ⟨hcsrf, ⟨-, hsetup⟩ | ⟨hset, -, hvisitor⟩⟩ := dispatchUi_eq_ok hguard
  · -- what is served before the setup is public, and this page is not
    rw [isPublic_of_isSetupPath hsetup] at hpublic
    cases hpublic
  · exact ⟨hcsrf, hset, hvisitor hpublic⟩

/-- A page that is not served before the setup. -/
theorem passwordSet_of_afterSetup (hsees : rt.Sees (fw.urlPath r.path))
    (hafter : rt.afterSetup = true) (hguard : dispatch fw sha256 cfg r = .ok v) :
    cfg.passwordSet = true := by
  obtain ⟨hsetup, hapi⟩ := Route.isSetupPath_of_afterSetup hsees hafter
  rw [dispatch_ui hapi] at hguard
  obtain ⟨-, ⟨-, htrue⟩ | ⟨hset, -⟩⟩ := dispatchUi_eq_ok hguard
  · rw [hsetup] at htrue
    cases htrue
  · exact hset

/-- The form of the setup, which is gone once there is a password. -/
theorem passwordSet_of_setup (hpath : fw.urlPath r.path = "/setup".toList)
    (hguard : dispatch fw sha256 cfg r = .ok v) : cfg.passwordSet = false := by
  have hapi : apiV1.isPrefixOf (fw.urlPath r.path) = false := by rw [hpath]; decide +kernel
  rw [dispatch_ui hapi, hpath] at hguard
  obtain ⟨-, ⟨hset, -⟩ | ⟨-, hne, -⟩⟩ := dispatchUi_eq_ok hguard
  · exact hset
  · exact absurd rfl hne

/-- A request that gets to a handler which changes something is not forged: the handler looks for
    the token in the form, or the guard has looked for it in the header. -/
theorem unforged_of_stopsForged (hsees : rt.Sees (fw.urlPath r.path))
    (htakes : rt.takes r.method = true) (hcsrf : guardCsrf r (fw.urlPath r.path) = .ok ())
    (hchecks : ∀ c ∈ rt.endpoint.head, c.run cfg r v = .ok ()) (hstops : rt.stopsForged = true) :
    Unforged r := by
  rw [Route.stopsForged, Bool.or_eq_true, Bool.and_eq_true, Bool.and_eq_true,
    List.contains_iff_mem] at hstops
  rcases hstops with hmem | ⟨⟨hchanging, hapi⟩, hpeer⟩
  · exact csrf_run (hchecks _ hmem)
  · refine unforged_of_guardCsrf hcsrf (Route.changing_of_takes hchanging htakes) ?_ ?_
    · rw [List.isPrefixOf_iff_prefix] at hapi ⊢
      exact hapi.trans (Route.isPrefixOf_sees hsees)
    · rw [← Bool.not_eq_true, List.contains_iff_mem]
      exact fun hmem => Route.ne_of_never hsees (List.all_eq_true.1 hpeer _ hmem) rfl

/-- What a line asks for when its handler changes something. -/
theorem of_change {change : Bool} {p : Prop} (h : change = false ∨ p) (hchange : change = true) :
    p := by
  refine h.resolve_left fun hfalse => ?_
  rw [hchange] at hfalse
  cases hfalse

/-- Guard and checks enforce the policy of a line that is as it must be. -/
theorem Route.allowed_of_sound (hsound : rt.sound = true) (hsees : rt.Sees (fw.urlPath r.path))
    (htakes : rt.takes r.method = true) (hguard : dispatch fw sha256 cfg r = .ok v)
    (hchecks : ∀ c ∈ rt.endpoint.head, c.run cfg r v = .ok ()) :
    Allowed sha256 cfg r rt.endpoint.policy := by
  rw [Route.sound, Bool.and_eq_true] at hsound
  have hline := hsound.2
  cases hpolicy : rt.endpoint.policy with
  | free => trivial
  | signIn =>
    -- one policy after the other: what the line of the table demands, the guard has checked
    simp only [hpolicy, Bool.and_eq_true, List.contains_iff_mem] at hline
    exact ⟨passwordSet_of_afterSetup hsees hline.1 hguard, csrf_run (hchecks _ hline.2)⟩
  | setup change =>
    simp only [hpolicy, Bool.and_eq_true, decide_eq_true_eq, Bool.or_eq_true,
      Bool.not_eq_true', List.contains_iff_mem] at hline
    obtain ⟨⟨hexact, hlit⟩, hcsrf⟩ := hline
    rw [Route.Sees, if_pos hexact, hlit] at hsees
    refine ⟨passwordSet_of_setup hsees hguard, fun hchange => ?_⟩
    exact csrf_run (hchecks _ (of_change hcsrf hchange))
  | visitor role change =>
    simp only [hpolicy, Bool.and_eq_true, Bool.or_eq_true, Bool.not_eq_true'] at hline
    obtain ⟨⟨hprivate, hrole⟩, hstops⟩ := hline
    obtain ⟨hcsrf, hset, u, rfl, hu⟩ := visitor_of_isPrivate hsees hprivate hguard
    refine ⟨hset, ⟨u, hu, ?_⟩, fun hchange => ?_⟩
    · cases role with
      | none => exact Nat.zero_le _
      | some role =>
        obtain ⟨w, hw, hrank⟩ := atLeast_run (hchecks _ (List.contains_iff_mem.1 hrole))
        cases hw
        exact hrank
    · have hforged := of_change hstops hchange
      exact unforged_of_stopsForged hsees htakes hcsrf hchecks hforged
  | operator change =>
    simp only [hpolicy, Bool.and_eq_true, Bool.or_eq_true, Bool.not_eq_true',
      List.contains_iff_mem] at hline
    obtain ⟨⟨⟨hprivate, hsigned⟩, hrole⟩, hstops⟩ := hline
    obtain ⟨hcsrf, hset, u, rfl, hu⟩ := visitor_of_isPrivate hsees hprivate hguard
    obtain ⟨w, hw, hrank⟩ := atLeast_run (hchecks _ hrole)
    cases hw
    -- the visitor is not the one of open access, so it is the one of the session
    have hsession := session_of_source hu (signedIn_run (hchecks _ hsigned))
    refine ⟨hset, ⟨u, hsession, hrank⟩, fun hchange => ?_⟩
    have hforged := of_change hstops hchange
    exact unforged_of_stopsForged hsees htakes hcsrf hchecks hforged
  | own =>
    simp only [hpolicy, Bool.and_eq_true, List.contains_iff_mem] at hline
    obtain ⟨⟨hprivate, hcsrf⟩, hlocal⟩ := hline
    obtain ⟨-, hset, u, rfl, hu⟩ := visitor_of_isPrivate hsees hprivate hguard
    obtain ⟨a, ha, hsource⟩ := localAccount_run (hchecks _ hlocal)
    cases ha
    have hsession := session_of_source hu (by rw [hsource]; decide)
    exact ⟨hset, ⟨u, hsession, hsource⟩, csrf_run (hchecks _ hcsrf)⟩
  | token change =>
    simp only [hpolicy, Bool.and_eq_true, Bool.or_eq_true, Bool.not_eq_true'] at hline
    obtain ⟨⟨hapi, hopen⟩, hchanging⟩ := hline
    have hfront : apiV1.isPrefixOf (fw.urlPath r.path) = true := by
      -- the path begins like the API's, and is none of its open ones
      rw [List.isPrefixOf_iff_prefix] at hapi ⊢
      exact hapi.trans (Route.isPrefixOf_sees hsees)
    have hclosed : openApiPaths.contains (fw.urlPath r.path) = false := by
      rw [← Bool.not_eq_true, List.contains_iff_mem]
      exact fun hmem => Route.ne_of_never hsees (List.all_eq_true.1 hopen _ hmem) rfl
    rw [dispatch_api hfront] at hguard
    obtain ⟨hset, hbearer, hhash, hrole⟩ := dispatchApi_eq_ok hguard hclosed
    refine ⟨hset, hbearer, hhash, fun hchange => hrole ?_⟩
    exact Route.changing_of_takes (of_change hchanging hchange) htakes
  | cluster =>
    simp only [hpolicy, Bool.and_eq_true, List.contains_iff_mem] at hline
    exact ⟨passwordSet_of_afterSetup hsees hline.1 hguard, clusterKey_run (hchecks _ hline.2)⟩

/-- The body of a handler runs only for a request that its policy allows. -/
theorem allowed_of_serve {e : Endpoint} (h : serve fw sha256 cfg r = .ok (e, v)) :
    Allowed sha256 cfg r e.policy := by
  obtain ⟨v', hguard, h⟩ := except_bind_eq_ok.1 h
  obtain ⟨rt, hrouter, h⟩ := except_bind_eq_ok.1 h
  obtain ⟨_, hhead, h⟩ := except_bind_eq_ok.1 h
  cases h
  obtain ⟨hsound, hmatch, htakes⟩ := router_eq_ok hrouter
  have hshape := hsound
  rw [Route.sound, Bool.and_eq_true, Bool.and_eq_true, decide_eq_true_eq] at hshape
  obtain ⟨⟨hplain, hparts⟩, -⟩ := hshape
  have hsees := Route.sees_of_matches fw hplain hparts hmatch
  exact Route.allowed_of_sound hsound hsees htakes hguard (run_of_forM hhead)

/-- A WebSocket gets to the body of its handler only for who may open it. -/
theorem admitted_of_connect {h : Handshake} {socket : Socket} {u : Visitor}
    (hopen : connect cfg h = .ok (socket, u)) : Admitted cfg h u := by
  unfold connect at hopen
  split at hopen
  · cases hopen
  · obtain ⟨w, hw, hopen⟩ := except_bind_eq_ok.1 hopen
    cases hopen
    unfold authorize at hw
    split at hw
    · cases hw
    -- a browser names its origin, which has to be the host
    · next w' hvisitor =>
      split at hw
      · next horigin =>
        cases hw
        exact ⟨hvisitor, .inl horigin⟩
      · cases hw
      · next netloc horigin =>
        split at hw
        · next hhost =>
          cases hw
          exact ⟨hvisitor, .inr ⟨netloc, horigin, hhost.symm⟩⟩
        · cases hw

end

/-- **Complete mediation.**  The body of a handler runs only for a request that the policy of the
    handler allows, whatever its path, method, cookies and headers are, and a WebSocket is opened
    only for a visitor from a page of this site or from no page. -/
theorem served_allowed (fw : Framework) (sha256 : Text → Text) (cfg : Settings) :
    (∀ r e v, serve fw sha256 cfg r = .ok (e, v) → Allowed sha256 cfg r e.policy) ∧
      ∀ h socket v, connect cfg h = .ok (socket, v) → Admitted cfg h v :=
  ⟨fun _ _ _ => allowed_of_serve, fun _ _ _ => admitted_of_connect⟩

/-! ### The two versions of the framework -/

/-- A plain path begins with a slash. -/
theorem isPlain_cons {s : Text} (h : isPlain s = true) : ∃ cs, s = '/' :: cs := by
  cases s with
  | nil => cases h
  | cons c cs =>
    rw [isPlain, decide_eq_true_eq] at h
    obtain rfl : c = '/' := by simpa using h.1
    exact ⟨cs, rfl⟩

/-- A plain path has none of the characters that a URL sets apart. -/
theorem isPlain_mem {s : Text} (h : isPlain s = true) {c : Char} (hc : c ∈ s) :
    isRemoved c = false ∧ c ≠ '?' ∧ c ≠ '#' ∧ c ≠ '\\' := by
  rw [isPlain, decide_eq_true_eq, List.all_eq_true] at h
  simpa [and_assoc] using h.2 c hc

/-- Starlette 1.10.0. -/
theorem urlPath_append {s : Text} (h : isPlain s = true) (rest : Text) :
    urlPath (s ++ rest) = s ++ (rest.flatMap escape).filter fun c => !isRemoved c := by
  have hescape : s.flatMap escape = s := by
    rw [← List.flatMap_singleton' s, List.flatMap_assoc]
    refine List.flatMap_congr fun c hc => ?_
    obtain ⟨-, hq, hh, hb⟩ := isPlain_mem h hc
    simp [escape, hq, hh, hb]
  have hfilter : s.filter (fun c => !isRemoved c) = s :=
    List.filter_eq_self.2 fun c hc => by simp [(isPlain_mem h hc).1]
  have hslash : slashed (s ++ rest.flatMap escape) = s ++ rest.flatMap escape := by
    obtain ⟨cs, rfl⟩ := isPlain_cons h
    rfl
  rw [urlPath, List.flatMap_append, hescape, hslash, List.filter_append, hfilter]

/-- Starlette 1.7.0. -/
theorem cutUrlPath_append {s : Text} (h : isPlain s = true) (rest : Text) :
    cutUrlPath (s ++ rest) =
      s ++ (rest.filter fun c => !isRemoved c).takeWhile fun c => c ≠ '?' ∧ c ≠ '#' := by
  have hfilter : s.filter (fun c => !isRemoved c) = s :=
    List.filter_eq_self.2 fun c hc => by simp [(isPlain_mem h hc).1]
  have hslash : slashed (s ++ rest) = s ++ rest := by
    obtain ⟨cs, rfl⟩ := isPlain_cons h
    rfl
  rw [cutUrlPath, hslash, List.filter_append, hfilter, List.takeWhile_append_of_pos]
  exact fun c hc => by simp [isPlain_mem h hc]

/-- Starlette 1.10.0, the one that is vendored. -/
def starlette : Framework where
  urlPath := urlPath
  keeps s rest h := urlPath_append h rest ▸ List.prefix_append _ _
  exact s h := by simpa using urlPath_append h []
  exact_break s h := (urlPath_append h ['\n']).trans (List.append_nil s)

/-- Starlette 1.7.0, of the wheels for older versions of Python. -/
def starlette17 : Framework where
  urlPath := cutUrlPath
  keeps s rest h := cutUrlPath_append h rest ▸ List.prefix_append _ _
  exact s h := by simpa using cutUrlPath_append h []
  exact_break s h := (cutUrlPath_append h ['\n']).trans (List.append_nil s)

/-- The digest of the token `abc`, the only one in what follows. -/
def digestAbc (_ : Text) : Text :=
  "ba7816bf8f01cfea414140de5dae2223b00361a396177a9cb410ff61f20015ad".toList

/-- A script of an operator deletes a mapping. -/
def deletion : Request :=
  { method := "DELETE", path := "/api/v1/mappings/3f2a".toList, session := none, ownHosts := true,
    csrfCookie := none, csrfHeader := none, csrfField := none, bearer := "abc".toList,
    clusterKey := [] }

/-- A device that takes calls of the API, and visitors without a session, in a role that is none. -/
def withToken (role : Role) : Settings :=
  { passwordSet := true, requireLogin := false, anonymousRole := none,
    apiTokenHash := digestAbc [], apiTokenRole := some role, clusterActive := false,
    clusterKey := [] }

/-- A page of the device opens the console of a mapping. -/
def consoleOpened : Handshake :=
  { request := { deletion with method := "GET", path := "/api/mappings/3f2a/console".toList }
    origin := some (some "127.0.0.1:8080".toList), host := some "127.0.0.1:8080".toList }

/-- An operator's token deletes a mapping, and a page opens a console. -/
theorem served_allowed_deletion :
    serve starlette digestAbc (withToken .operator) deletion = .ok (.v1DeleteMapping, none) ∧
      Allowed digestAbc (withToken .operator) deletion Endpoint.v1DeleteMapping.policy ∧
      connect (withToken .operator) consoleOpened = .ok (.console, ⟨none, "anonymous"⟩) ∧
      Admitted (withToken .operator) consoleOpened ⟨none, "anonymous"⟩ :=
  have h : serve starlette digestAbc (withToken .operator) deletion =
    .ok (.v1DeleteMapping, none) := by rfl
  have hopen : connect (withToken .operator) consoleOpened = .ok (.console, ⟨none, "anonymous"⟩) := by
    rfl
  have hall := served_allowed starlette digestAbc (withToken .operator)
  ⟨h, hall.1 _ _ _ h, hopen, hall.2 _ _ _ hopen⟩

example : serve starlette digestAbc (withToken .viewer) deletion = .error .forbidden := by rfl

end Ser2Net.Web.Gate
