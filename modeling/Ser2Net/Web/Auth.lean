import Ser2Net.Lib.Trace
import Ser2Net.Lib.PyText

namespace Ser2Net.Web.Auth

open Ser2Net.Lib

/-!
# Web — accounts and session tokens

The accounts of the web UI (`AppConfig.users`), the operations on them in
`routes/settings.py`, `routes/login.py` and `AppConfig.upsert_external_user`, and the session
cookie of `auth.py`, whose payload names the account and its `pwd_version`.

Signing is abstract: a token carries the key that signed it, and a signature verifies under
that key alone.  A run is any sequence of the operations with tokens issued in between; the
state remembers the tokens issued and those revoked (the account was deleted, or its
password or role changed after the token was issued).

* `sessionUser` — the account that a token authenticates;
* `AboveTokens` — the condition: an operation that creates or restores an account, and is not
  refused, starts it above the version of every token that was issued to its name;
* `revoked_token_rejected` — in the runs that meet it no revoked token is accepted again;
* `recreated_account_accepts_revoked` — an account that is deleted and created again.
-/

/-! ### Accounts -/

/-- `ROLES`. -/
inductive Role
  | admin
  | operator
  | viewer
  deriving DecidableEq, Repr

/-- A role by its name; `none` is a name that is not in `ROLES`. -/
def Role.parse (s : String) : Option Role :=
  if s = "admin" then some .admin
  else if s = "operator" then some .operator
  else if s = "viewer" then some .viewer
  else none

/-- Where an account comes from. -/
inductive Source
  | local
  | ldap
  | oidc
  deriving DecidableEq, Repr

/-- A `User`. -/
structure User where
  username : String
  passwordHash : String
  role : Role
  pwdVersion : Int
  source : Source
  deriving DecidableEq, Repr

/-- The part of `AppConfig` that sign-in uses. -/
structure Accounts where
  users : List User
  secretKey : String
  deriving DecidableEq, Repr

/-- `AppConfig.get_user`. -/
def getUser (users : List User) (username : String) : Option User :=
  users.find? fun u => u.username = username

/-- `AppConfig.admin_count`. -/
def adminCount (users : List User) : Nat := users.countP fun u => u.role = .admin

/-- An assignment to the account that `get_user` returns. -/
def modifyUser (username : String) (f : User → User) : List User → List User
  | [] => []
  | u :: us => if u.username = username then f u :: us else u :: modifyUser username f us

/-! ### Session tokens -/

/-- A session cookie: the key of its signature and the payload. -/
structure Token where
  signedBy : String
  exp : Int
  u : String
  v : Int
  deriving DecidableEq, Repr

/-- `issue_session`. -/
def issueSession (secret : String) (now ttlSeconds : Int) (username : String)
    (pwdVersion : Int) : Token :=
  ⟨secret, now + ttlSeconds, username, pwdVersion⟩

/-- `decode_session`: the name and version of a token that verifies and has not expired. -/
def decodeSession (secret : String) (now : Int) (t : Token) : Option (String × Int) :=
  if t.signedBy = secret ∧ now < t.exp then some (t.u, t.v) else none

/-- `session_user`. -/
def sessionUser (cfg : Accounts) (now : Int) (t : Token) : Option User :=
  match decodeSession cfg.secretKey now t with
  | none => none
  | some (u, v) =>
    match getUser cfg.users u with
    | none => none
    | some user => if user.pwdVersion ≠ v then none else some user

/-! ### Operations -/

/-- `_username_problem`. -/
def usernameProblem (username : String) : Option String :=
  if username = "" then some "Username is required."
  else if username.toList.length ≤ 32 ∧
      username.toList.all (fun c => c.isAlphanum || c = '.' || c = '_' || c = '-') then none
  else some "Username must be 1-32 characters: letters, digits, '.', '_' or '-'."

/-- `_password_problem`. -/
def passwordProblem (pw pw2 : String) : Option String :=
  if pw.toList.length < 8 then some "Password must be at least 8 characters."
  else if pw ≠ pw2 then some "Passwords do not match."
  else none

/-- An operation on the accounts.  `hash` is what `hash_password` makes of the new password
    with its random salt; `verified` is the check of the current password; `valid` says that
    `AppConfig.validate` accepts the restored configuration. -/
inductive Op
  /-- `settings_users_create` -/
  | create (username role pw pw2 hash : String)
  /-- `settings_users_role` -/
  | changeRole (username role : String)
  /-- `settings_users_delete`, by the account `me` -/
  | delete (me username : String)
  /-- `settings_password_post`, by the account itself -/
  | changePassword (username : String) (verified : Bool) (pw pw2 hash : String)
  /-- `upsert_external_user` on an LDAP or OIDC sign-in -/
  | upsertExternal (username : String) (role : Role) (source : Source)
  /-- `backup_restore` of a backup with these accounts -/
  | restore (users : List User) (valid : Bool)
  deriving DecidableEq, Repr

/-- `settings_users_create`. -/
def createUser (users : List User) (username role pw pw2 hash : String) :
    Except String (List User) :=
  let username := PyText.strip username
  match usernameProblem username with
  | some err => .error err
  | none =>
    match Role.parse role with
    | none => .error "Invalid role."
    | some r =>
      match passwordProblem pw pw2 with
      | some err => .error err
      | none =>
        if (getUser users username).isSome then .error ("User '" ++ username ++ "' already exists.")
        else .ok (users ++ [⟨username, hash, r, 1, .local⟩])

/-- `settings_users_role`. -/
def changeRole (users : List User) (username role : String) : Except String (List User) :=
  match getUser users username with
  | none => .error "User not found."
  | some target =>
    match Role.parse role with
    | none => .error "Invalid role."
    | some r =>
      if target.role = .admin ∧ r ≠ .admin ∧ adminCount users ≤ 1 then
        .error "Cannot demote the last admin."
      else
        .ok (modifyUser username (fun u => { u with role := r, pwdVersion := u.pwdVersion + 1 })
          users)

/-- `settings_users_delete`. -/
def deleteUser (users : List User) (me username : String) : Except String (List User) :=
  match getUser users username with
  | none => .error "User not found."
  | some target =>
    if me = username then .error "You cannot delete your own account."
    else if target.role = .admin ∧ adminCount users ≤ 1 then
      .error "Cannot delete the last admin."
    else .ok (users.filter fun u => u.username ≠ username)

/-- The name of a source in capitals, as the password page shows it. -/
def Source.upper : Source → String
  | .local => "LOCAL"
  | .ldap => "LDAP"
  | .oidc => "OIDC"

/-- `settings_password_post`. -/
def changePassword (users : List User) (username : String) (verified : Bool)
    (pw pw2 hash : String) : Except String (List User) :=
  match getUser users username with
  | none => .error "Current password is incorrect."
  | some user =>
    if user.source ≠ .local then
      .error ("Your account is managed by " ++ user.source.upper ++
        "; change your password there.")
    else if !verified then .error "Current password is incorrect."
    else
      match passwordProblem pw pw2 with
      | some err => .error err
      | none =>
        .ok (modifyUser username
          (fun u => { u with passwordHash := hash, pwdVersion := u.pwdVersion + 1 }) users)

/-- `upsert_external_user`. -/
def upsertExternalUser (users : List User) (username : String) (role : Role)
    (source : Source) : List User :=
  match getUser users username with
  | none => users ++ [⟨username, "", role, 1, source⟩]
  | some u =>
    if u.role ≠ role ∨ u.source ≠ source then
      modifyUser username
        (fun u => { u with role := role, source := source, pwdVersion := u.pwdVersion + 1 }) users
    else users

/-- `backup_restore`; the key of the signatures stays. -/
def restoreBackup (restored : List User) (valid : Bool) : Except String (List User) :=
  if restored.isEmpty then
    .error ("This backup has no user accounts (it was made before the first-run setup); " ++
      "restoring it would open the setup page to anyone. Not restored.")
  else if valid then .ok restored
  else .error "Restore rejected"

/-- An operation, with the text of the error when it is refused. -/
def applyOp (users : List User) : Op → Except String (List User)
  | .create username role pw pw2 hash => createUser users username role pw pw2 hash
  | .changeRole username role => changeRole users username role
  | .delete me username => deleteUser users me username
  | .changePassword username verified pw pw2 hash =>
    changePassword users username verified pw pw2 hash
  | .upsertExternal username role source => .ok (upsertExternalUser users username role source)
  | .restore restored valid => restoreBackup restored valid

/-! ### Runs -/

/-- The accounts, the tokens issued so far and those of them that were revoked. -/
structure State where
  accounts : Accounts
  issued : List Token
  revoked : List Token
  deriving DecidableEq, Repr

/-- The accounts of a server that has issued nothing. -/
def State.init (accounts : Accounts) : State := ⟨accounts, [], []⟩

/-- An operation, or a sign-in that issues a token to an account. -/
inductive Event
  | op (o : Op)
  | issue (username : String) (now ttlSeconds : Int)
  deriving DecidableEq, Repr

/-- The operation is a change of the password or the role of this account. -/
def Op.changes (name : String) : Op → Bool
  | .changeRole username _ => username = name
  | .changePassword username _ _ _ _ => username = name
  | _ => false

/-- The accepted operation `o` revokes the tokens of `name`: it changes the password or the
    role of the account, or the account is gone. -/
def revokes (o : Op) (before after : List User) (name : String) : Bool :=
  o.changes name ||
    match getUser before name, getUser after name with
    | some _, none => true
    | some u, some u' => u.role ≠ u'.role || u.passwordHash ≠ u'.passwordHash
    | none, _ => false

/-- One event; a refused operation changes nothing. -/
def step (s : State) : Event → Option State
  | .op o =>
    match applyOp s.accounts.users o with
    | .error _ => some s
    | .ok users =>
      some { s with
        accounts := { s.accounts with users := users }
        revoked := s.revoked ++ s.issued.filter fun t => revokes o s.accounts.users users t.u }
  | .issue username now ttlSeconds =>
    (getUser s.accounts.users username).map fun user =>
      { s with
        issued :=
          issueSession s.accounts.secretKey now ttlSeconds user.username user.pwdVersion ::
            s.issued }

/-- Every token that was issued to `name` has a version below `v`. -/
def Below (issued : List Token) (name : String) (v : Int) : Prop :=
  ∀ t ∈ issued, t.u = name → t.v < v

/-- The accounts that an operation brings in are above the tokens of their names: a new account,
    which starts at version 1, and an account of a restored backup, unless it is the account as
    it stands (version, role and password). -/
def Op.AboveTokens (s : State) : Op → Prop
  | .create username _ _ _ _ => Below s.issued (PyText.strip username) 1
  | .upsertExternal username _ _ =>
    getUser s.accounts.users username = none → Below s.issued username 1
  | .restore restored _ =>
    ∀ name u', getUser restored name = some u' →
      (∃ u, getUser s.accounts.users name = some u ∧ u.pwdVersion = u'.pwdVersion ∧
        u.role = u'.role ∧ u.passwordHash = u'.passwordHash) ∨
      Below s.issued name u'.pwdVersion
  | _ => True

/-- The condition on a step; an operation that is refused brings in nothing. -/
def AboveTokens (s : State) : Event → Prop
  | .op o => ∀ users, applyOp s.accounts.users o = .ok users → o.AboveTokens s
  | .issue _ _ _ => True

/-! ### Accounts after an operation -/

/-- The first account is looked at first. -/
theorem getUser_cons (w : User) (ws : List User) (name : String) :
    getUser (w :: ws) name = if w.username = name then some w else getUser ws name := by
  unfold getUser
  rw [List.find?_cons]
  by_cases h : w.username = name <;> simp [h]

/-- The accounts are searched before a new one. -/
theorem getUser_append (users : List User) (w : User) (name : String) :
    getUser (users ++ [w]) name =
      (getUser users name).or (if w.username = name then some w else none) := by
  unfold getUser
  rw [List.find?_append]
  by_cases h : w.username = name <;> simp [h]

/-- What is found has the name that was looked for. -/
theorem getUser_username {users : List User} {name : String} {u : User}
    (h : getUser users name = some u) : u.username = name := by
  simpa using List.find?_some h

/-- The account that was changed is found changed. -/
theorem getUser_modifyUser_self {users : List User} {name : String} {f : User → User}
    (hf : ∀ u, (f u).username = u.username) {u : User} (h : getUser users name = some u) :
    getUser (modifyUser name f users) name = some (f u) := by
  induction users with
  | nil => cases h
  | cons w ws ih =>
    rw [getUser_cons] at h
    by_cases hw : w.username = name
    · rw [if_pos hw, Option.some.injEq] at h
      rw [modifyUser, if_pos hw, getUser_cons, hf, if_pos hw, h]
    · rw [if_neg hw] at h
      rw [modifyUser, if_neg hw, getUser_cons, if_neg hw, ih h]

/-- The other accounts are found unchanged. -/
theorem getUser_modifyUser_ne {users : List User} {name other : String} {f : User → User}
    (hf : ∀ u, (f u).username = u.username) (hne : other ≠ name) :
    getUser (modifyUser name f users) other = getUser users other := by
  induction users with
  | nil => rfl
  | cons w ws ih =>
    by_cases hw : w.username = name
    · have hwo : w.username ≠ other := fun h => hne (h.symm.trans hw)
      rw [modifyUser, if_pos hw, getUser_cons, getUser_cons, hf, if_neg hwo, if_neg hwo]
    · rw [modifyUser, if_neg hw, getUser_cons, getUser_cons, ih]

/-- After a deletion the others are found. -/
theorem getUser_filter_ne {users : List User} {name other : String} :
    getUser (users.filter fun u => u.username ≠ name) other =
      if other = name then none else getUser users other := by
  induction users with
  | nil => simp [getUser]
  | cons w ws ih =>
    by_cases hw : w.username = name
    · rw [List.filter_cons_of_neg (by simpa using hw), ih, getUser_cons]
      by_cases hother : other = name
      · rw [if_pos hother, if_pos hother]
      · rw [if_neg hother, if_neg hother, if_neg fun h => hother (h.symm.trans hw)]
    · rw [List.filter_cons_of_pos (by simpa using hw), getUser_cons, getUser_cons, ih]
      by_cases hother : other = name
      · rw [if_pos hother, if_pos hother, if_neg fun h => hw (h.trans hother)]
      · rw [if_neg hother, if_neg hother]

/-! ### The invariant -/

/-- No token is ahead of its account, and a revoked one is behind it. -/
structure Inv (s : State) : Prop where
  behind : ∀ t ∈ s.issued, ∀ u, getUser s.accounts.users t.u = some u → t.v ≤ u.pwdVersion
  revoked : ∀ t ∈ s.revoked, ∀ u, getUser s.accounts.users t.u = some u → t.v < u.pwdVersion
  issued : ∀ t ∈ s.revoked, t ∈ s.issued

/-- What an accepted operation does to the account of a name, as far as its tokens are
    concerned: the account stands, or it is above every token issued to the name. -/
def Advances (s : State) (o : Op) (users : List User) (name : String) (u' : User) : Prop :=
  (∃ u, getUser s.accounts.users name = some u ∧ u.pwdVersion = u'.pwdVersion ∧
    revokes o s.accounts.users users name = false) ∨
  Below s.issued name u'.pwdVersion

/-- A change that moves the version on. -/
theorem Inv.advances_succ {s : State} (h : Inv s) {o : Op} {users : List User} {name : String}
    {u u' : User} (hu : getUser s.accounts.users name = some u)
    (hv : u'.pwdVersion = u.pwdVersion + 1) : Advances s o users name u' := by
  refine Or.inr fun t ht htu => ?_
  have := h.behind t ht u (htu ▸ hu)
  omega

/-- An account that an operation on another account leaves. -/
theorem advances_same {s : State} {o : Op} {users : List User} {name : String} {u' : User}
    (hsame : getUser users name = getUser s.accounts.users name)
    (hu' : getUser users name = some u') (ho : o.changes name = false) :
    Advances s o users name u' := by
  have hu : getUser s.accounts.users name = some u' := by rw [← hsame, hu']
  refine Or.inl ⟨u', hu, rfl, ?_⟩
  rw [revokes, ho, hu, hu']
  simp

/-- An operation that rewrites one account with the next version. -/
theorem Inv.advances_modify {s : State} (h : Inv s) {o : Op} {name : String} {f : User → User}
    (hf : ∀ u, (f u).username = u.username)
    (hv : ∀ u, (f u).pwdVersion = u.pwdVersion + 1)
    (ho : ∀ other, other ≠ name → o.changes other = false) {target : User}
    (htarget : getUser s.accounts.users name = some target) :
    ∀ other u', getUser (modifyUser name f s.accounts.users) other = some u' →
      Advances s o (modifyUser name f s.accounts.users) other u' := by
  intro other u' hu'
  by_cases hother : other = name
  · subst hother
    have hself := getUser_modifyUser_self hf htarget
    rw [hself, Option.some.injEq] at hu'
    exact h.advances_succ htarget (hu' ▸ hv target)
  · exact advances_same (getUser_modifyUser_ne hf hother) hu' (ho other hother)

/-- An operation that appends an account at version 1. -/
theorem advances_append {s : State} {o : Op} {w : User} (hw : w.pwdVersion = 1)
    (hnone : getUser s.accounts.users w.username = none)
    (hbelow : Below s.issued w.username 1) (ho : ∀ other, o.changes other = false) :
    ∀ other u', getUser (s.accounts.users ++ [w]) other = some u' →
      Advances s o (s.accounts.users ++ [w]) other u' := by
  intro other u' hu'
  by_cases hother : w.username = other
  · subst hother
    rw [getUser_append, hnone, if_pos rfl, Option.none_or, Option.some.injEq] at hu'
    exact Or.inr (by rw [← hu', hw]; exact hbelow)
  · have hsame : getUser (s.accounts.users ++ [w]) other = getUser s.accounts.users other := by
      rw [getUser_append, if_neg hother, Option.or_none]
    exact advances_same hsame hu' (ho other)

/-- A new account has a free name and the first password version. -/
theorem createUser_ok {users users' : List User} {username role pw pw2 hash : String}
    (h : createUser users username role pw pw2 hash = .ok users') :
    ∃ r, getUser users (PyText.strip username) = none ∧
      users' = users ++ [⟨PyText.strip username, hash, r, 1, .local⟩] := by
  unfold createUser at h
  dsimp only at h
  split at h
  · cases h
  split at h
  · cases h
  next r _ =>
    split at h
    · cases h
    split at h
    · cases h
    next hnone => exact ⟨r, by simpa using hnone, (Except.ok.inj h).symm⟩

/-- A new role belongs to an account that is there. -/
theorem changeRole_ok {users users' : List User} {username role : String}
    (h : changeRole users username role = .ok users') :
    ∃ target r, getUser users username = some target ∧
      users' = modifyUser username
        (fun u => { u with role := r, pwdVersion := u.pwdVersion + 1 }) users := by
  unfold changeRole at h
  split at h
  · cases h
  next target htarget =>
    split at h
    · cases h
    next r _ =>
      split at h
      · cases h
      · exact ⟨target, r, htarget, (Except.ok.inj h).symm⟩

/-- A deletion removes the accounts of the name. -/
theorem deleteUser_ok {users users' : List User} {me username : String}
    (h : deleteUser users me username = .ok users') :
    users' = users.filter fun u => u.username ≠ username := by
  unfold deleteUser at h
  split at h
  · cases h
  split at h
  · cases h
  split at h
  · cases h
  · exact (Except.ok.inj h).symm

/-- A new password belongs to an account that is there. -/
theorem changePassword_ok {users users' : List User} {username pw pw2 hash : String}
    {verified : Bool} (h : changePassword users username verified pw pw2 hash = .ok users') :
    ∃ target, getUser users username = some target ∧
      users' = modifyUser username
        (fun u => { u with passwordHash := hash, pwdVersion := u.pwdVersion + 1 }) users := by
  unfold changePassword at h
  split at h
  · cases h
  next target htarget =>
    split at h
    · cases h
    split at h
    · cases h
    split at h
    · cases h
    · exact ⟨target, htarget, (Except.ok.inj h).symm⟩

/-- **Every accepted operation advances every account**, under the condition. -/
theorem Inv.advances {s : State} (h : Inv s) {o : Op} (hcond : o.AboveTokens s)
    {users : List User} (hop : applyOp s.accounts.users o = .ok users) :
    ∀ name u', getUser users name = some u' → Advances s o users name u' := by
  cases o with
  | create username role pw pw2 hash =>
    obtain ⟨r, hnone, rfl⟩ := createUser_ok hop
    exact advances_append rfl hnone hcond fun _ => rfl
  | changeRole username role =>
    obtain ⟨target, r, htarget, rfl⟩ := changeRole_ok hop
    exact h.advances_modify (fun _ => rfl) (fun _ => rfl)
      (fun other hne => decide_eq_false (Ne.symm hne)) htarget
  | delete me username =>
    obtain rfl := deleteUser_ok hop
    intro other u' hu'
    by_cases hother : other = username
    · rw [getUser_filter_ne, if_pos hother] at hu'
      cases hu'
    · exact advances_same (by rw [getUser_filter_ne, if_neg hother]) hu' rfl
  | changePassword username verified pw pw2 hash =>
    obtain ⟨target, htarget, rfl⟩ := changePassword_ok hop
    exact h.advances_modify (fun _ => rfl) (fun _ => rfl)
      (fun other hne => decide_eq_false (Ne.symm hne)) htarget
  | upsertExternal username role source =>
    obtain rfl := Except.ok.inj hop
    unfold upsertExternalUser
    cases hget : getUser s.accounts.users username with
    | none => exact advances_append rfl hget (hcond hget) fun _ => rfl
    | some target =>
      dsimp only
      split
      · exact h.advances_modify (fun _ => rfl) (fun _ => rfl) (fun _ _ => rfl) hget
      · intro other u' hu'
        exact advances_same rfl hu' rfl
  | restore restored valid =>
    intro name u' hu'
    -- a restore takes the users of the backup as they are, versions included
    have hrestored : users = restored := by
      unfold applyOp restoreBackup at hop
      dsimp only at hop
      split at hop
      · cases hop
      split at hop
      · exact (Except.ok.inj hop).symm
      · cases hop
    subst hrestored
    rcases hcond name u' hu' with ⟨u, hu, hver, hrole, hhash⟩ | hbelow
    · refine Or.inl ⟨u, hu, hver, ?_⟩
      rw [revokes, hu, hu']
      simp [Op.changes, hrole, hhash]
    · exact Or.inr hbelow

/-- Every step that meets the condition preserves the invariant. -/
theorem inv_step (s : State) (e : Event) (s' : State) (h : Inv s) (hcond : AboveTokens s e)
    (hstep : step s e = some s') : Inv s' := by
  cases e with
  | op o =>
    simp only [step] at hstep
    split at hstep
    · obtain rfl := Option.some.inj hstep
      exact h
    next users hop =>
      obtain rfl := Option.some.inj hstep
      -- every account afterwards is one from before, unchanged or above its tokens
      have hadv := h.advances (hcond users hop) hop
      refine ⟨?_, ?_, ?_⟩
      · intro t ht u' hu'
        rcases hadv t.u u' hu' with ⟨u, hu, hver, -⟩ | hbelow
        · exact hver ▸ h.behind t ht u hu
        · exact Int.le_of_lt (hbelow t ht rfl)
      · intro t ht u' hu'
        rcases List.mem_append.1 ht with ht | ht
        · rcases hadv t.u u' hu' with ⟨u, hu, hver, -⟩ | hbelow
          · exact hver ▸ h.revoked t ht u hu
          · exact hbelow t (h.issued t ht) rfl
        · -- a token revoked by this very operation: its account did not stay as it was
          obtain ⟨hissued, hrev⟩ := List.mem_filter.1 ht
          rcases hadv t.u u' hu' with ⟨u, hu, hver, hnot⟩ | hbelow
          · rw [hrev] at hnot
            cases hnot
          · exact hbelow t hissued rfl
      · intro t ht
        rcases List.mem_append.1 ht with ht | ht
        · exact h.issued t ht
        · exact (List.mem_filter.1 ht).1
  | issue username now ttlSeconds =>
    simp only [step, Option.map_eq_some_iff] at hstep
    obtain ⟨user, huser, rfl⟩ := hstep
    -- a token carries the version of the account at this moment
    have hname := getUser_username huser
    refine ⟨?_, h.revoked, fun t ht => List.mem_cons_of_mem _ (h.issued t ht)⟩
    intro t ht u hu
    rcases List.mem_cons.1 ht with rfl | ht
    · have hsame : some user = some u := by
        rw [← huser, ← hname]
        exact hu
      obtain rfl := Option.some.inj hsame
      exact Int.le_refl _
    · exact h.behind t ht u hu

/-- Before the first token. -/
theorem inv_init (accounts : Accounts) : Inv (State.init accounts) :=
  ⟨by simp [State.init], by simp [State.init], by simp [State.init]⟩

/-- **Revocation.**  From any accounts, in every run whose steps meet the condition, a token
    that was revoked is accepted in no state reached afterwards. -/
theorem revoked_token_rejected (accounts : Accounts) (es : List Event) (s : State)
    (hcond : Along step AboveTokens (State.init accounts) es)
    (hrun : run step (State.init accounts) es = some s) :
    ∀ t ∈ s.revoked, ∀ now, sessionUser s.accounts now t = none := by
  have h : Inv s := run_invariant Inv inv_step (inv_init accounts) hcond hrun
  intro t ht now
  unfold sessionUser decodeSession
  split
  · rfl
  next u v hdec =>
    split at hdec
    · obtain ⟨rfl, rfl⟩ : t.u = u ∧ t.v = v := by simpa using hdec
      cases hu : getUser s.accounts.users t.u with
      | none => rfl
      | some user =>
        have := h.revoked t ht user hu
        dsimp only
        rw [if_pos (by omega)]
    · cases hdec

/-- A test for `AboveTokens` that refuses external sign-ins and restores. -/
def aboveTokensCheck (s : State) : Event → Bool
  | .op (.create username _ _ _ _) =>
    s.issued.all fun t => t.u ≠ PyText.strip username || t.v < 1
  | .op (.upsertExternal _ _ _) | .op (.restore _ _) => false
  | _ => true

/-- The test finds only steps that meet the condition. -/
theorem aboveTokens_of_check (s : State) (e : Event) (h : aboveTokensCheck s e = true) :
    AboveTokens s e := by
  cases e with
  | issue username now ttlSeconds => trivial
  | op o =>
    intro users _
    cases o with
    | create username role pw pw2 hash =>
      intro t ht htu
      have := List.all_eq_true.1 h t ht
      simpa [htu] using this
    | upsertExternal username role source => cases h
    | restore restored valid => cases h
    | _ => trivial

/-- A server with one administrator. -/
def oneAdmin : Accounts := ⟨[⟨"admin", "scrypt$00$00", .admin, 1, .local⟩], "key"⟩

/-- The administrator creates an account, which signs in, and changes its role. -/
def demotion : List Event :=
  [.op (.create "alice" "operator" "password" "password" "scrypt$01$01"),
    .issue "alice" 0 3600, .op (.changeRole "alice" "viewer")]

/-- The token of `demotion` is revoked and rejected. -/
theorem revoked_token_rejected_demotion :
    ∃ s, run step (State.init oneAdmin) demotion = some s ∧
      s.revoked = [⟨"key", 3600, "alice", 1⟩] ∧
      ∀ t ∈ s.revoked, ∀ now, sessionUser s.accounts now t = none := by
  refine ⟨_, rfl, by decide, revoked_token_rejected oneAdmin demotion _
    (along_of_check aboveTokens_of_check (by decide)) rfl⟩

/-- An account that was deleted is created again under its name: its first token, revoked
    with the deletion, authenticates the new account. -/
theorem recreated_account_accepts_revoked :
    ∃ (es : List Event) (s : State) (t : Token),
      run step (State.init oneAdmin) es = some s ∧ t ∈ s.revoked ∧
        (sessionUser s.accounts 0 t).isSome := by
  refine ⟨[.op (.create "alice" "operator" "password" "password" "scrypt$01$01"),
    .issue "alice" 0 3600, .op (.delete "admin" "alice"),
    .op (.create "alice" "viewer" "drowssap" "drowssap" "scrypt$02$02")], _,
    ⟨"key", 3600, "alice", 1⟩, rfl, by decide, by decide⟩

end Ser2Net.Web.Auth
