import Ser2Net.Web.SignIn

namespace Ser2Net.Web.Accounts

open Ser2Net.Lib Ser2Net.Web.Auth

/-!
# Web — account management under concurrent requests

The requests of `routes/settings.py` that create an account, change a role or delete an
account, and the external sign-ins of `routes/login.py`, with their awaits as switch points.
Each request tests the accounts when it has read its form and writes when it holds
`config_lock`; in between it may wait for the hash of a password, for the directory, or for
the lock, which the holder keeps while it saves.

The accounts are objects: a change of role writes to the object that the test has found,
whether or not it still is in the list.

* `step` — one request up to its next await, or the end of a save;
* `Inv` — names and objects are distinct and there is an admin;
* `Current` — the condition: what a write was tested for still holds when it is made, and a
  sign-in does not take the role of the last admin;
* `accounts_invariant` — every state of a run that meets it has distinct names and an admin;
* `overlapping_requests_break_accounts` — two requests that create one name, and a sign-in.
-/

/-- A `User` object with its identity. -/
structure Account where
  ref : Nat
  user : User
  deriving DecidableEq, Repr

/-- What a request writes to the accounts once it holds the lock. -/
inductive Write
  /-- `state.config.users.append(User(…))` -/
  | create (username hash : String) (role : Role)
  /-- `target.role = role` on the object found by the test -/
  | setRole (target : Nat) (role : Role)
  /-- `state.config.users = [u for u in … if u.username != username]` -/
  | remove (username : String)
  /-- `upsert_external_user` -/
  | upsert (username : String) (role : Role) (source : Source)
  deriving DecidableEq, Repr

/-- The accounts and the requests in flight: those waiting for the hash of a password, those
    waiting for the directory, the queue of the lock, and whether the lock is held. -/
structure State where
  accounts : List Account
  nextRef : Nat
  hashing : List Write
  binding : List String
  waiters : List Write
  locked : Bool
  deriving DecidableEq, Repr

/-- The `users` list. -/
def State.users (s : State) : List User := s.accounts.map Account.user

/-- The configuration as it is loaded, without a request. -/
def State.init (users : List User) : State :=
  ⟨users.zipIdx.map fun p => ⟨p.2, p.1⟩, users.length, [], [], [], false⟩

/-- `upsert_external_user` on the objects. -/
def upsertAccount (next : Nat) (name : String) (role : Role) (source : Source) :
    List Account → List Account
  | [] => [⟨next, ⟨name, "", role, 1, source⟩⟩]
  | a :: rest =>
    if a.user.username = name then
      (if a.user.role ≠ role ∨ a.user.source ≠ source then
        { a with user :=
          { a.user with role := role, source := source, pwdVersion := a.user.pwdVersion + 1 } }
       else a) :: rest
    else a :: upsertAccount next name role source rest

/-- `target.role = role; target.pwd_version += 1`. -/
def assignRole (target : Nat) (role : Role) (a : Account) : Account :=
  if a.ref = target then
    { a with user := { a.user with role := role, pwdVersion := a.user.pwdVersion + 1 } }
  else a

/-- A write to the list of accounts. -/
def Write.apply (next : Nat) (accounts : List Account) : Write → List Account
  | .create username hash role => accounts ++ [⟨next, ⟨username, hash, role, 1, .local⟩⟩]
  | .setRole target role => accounts.map (assignRole target role)
  | .remove username => accounts.filter fun a => a.user.username ≠ username
  | .upsert username role source => upsertAccount next username role source accounts

/-- `async with state.config_lock`: the write is made at once when nobody holds the lock, and
    waits in its queue otherwise. -/
def State.acquire (s : State) (w : Write) : State × Option Write :=
  if s.locked then ({ s with waiters := s.waiters ++ [w] }, none)
  else ({ s with locked := true }, some w)

/-- What happens next. -/
inductive Event
  /-- `settings_users_create` up to the hashing of the password -/
  | create (username role pw pw2 hash : String)
  /-- the `i`-th password is hashed -/
  | hashed (i : Nat)
  /-- `settings_users_role` up to the lock -/
  | changeRole (username role : String)
  /-- `settings_users_delete` by the account `me`, up to the lock -/
  | delete (me username : String)
  /-- `login_post` with LDAP, up to the directory -/
  | login (form : String)
  /-- the directory answers the `i`-th bind -/
  | bound (i : Nat) (role : Option Role)
  /-- `oidc_callback` from the claims on -/
  | oidc (username : String) (role : Option Role)
  /-- the save of the holder of the lock ends -/
  | saved
  deriving DecidableEq, Repr

/-- One request up to its next await, or the end of a save: the requests in flight after it,
    and the write that is made now. -/
def react (s : State) : Event → Option (State × Option Write)
  | .create username role pw pw2 hash =>
    match createUser s.users username role pw pw2 hash, Role.parse role with
    | .ok _, some r =>
      some ({ s with hashing := s.hashing ++ [.create (PyText.strip username) hash r] }, none)
    | _, _ => some (s, none)
  | .hashed i => s.hashing[i]?.map { s with hashing := s.hashing.eraseIdx i }.acquire
  | .changeRole username role =>
    match changeRole s.users username role, Role.parse role,
        s.accounts.find? (fun a => a.user.username = username) with
    | .ok _, some r, some target => some (s.acquire (.setRole target.ref r))
    | _, _, _ => some (s, none)
  | .delete me username =>
    match deleteUser s.users me username with
    | .ok _ => some (s.acquire (.remove username))
    | .error _ => some (s, none)
  | .login form =>
    match getUser s.users (loginName form) with
    | some ⟨_, _, _, _, .local⟩ => some (s, none)
    | _ => some ({ s with binding := s.binding ++ [loginName form] }, none)
  | .bound i role =>
    s.binding[i]?.map fun name =>
      match role with
      | some r => { s with binding := s.binding.eraseIdx i }.acquire (.upsert name r .ldap)
      | none => ({ s with binding := s.binding.eraseIdx i }, none)
  | .oidc username role =>
    match role with
    | some r => if username = "" then some (s, none) else some (s.acquire (.upsert username r .oidc))
    | none => some (s, none)
  | .saved =>
    if s.locked then
      match s.waiters with
      | [] => some ({ s with locked := false }, none)
      | w :: rest => some ({ s with waiters := rest }, some w)
    else none

/-- The write is made. -/
def State.write (s : State) : Option Write → State
  | none => s
  | some w => { s with accounts := w.apply s.nextRef s.accounts, nextRef := s.nextRef + 1 }

/-- One event. -/
def step (s : State) (e : Event) : Option State := (react s e).map fun p => p.1.write p.2

/-! ### The condition and the invariant -/

/-- There is another admin, or the account is no admin that the write takes away. -/
def KeepsAdmin (accounts : List Account) (p : Account → Prop) : Prop :=
  ∀ a ∈ accounts, p a → a.user.role = .admin → 1 < adminCount (accounts.map Account.user)

/-- What a write was tested for, at the time it is made: the name is free, the account is not
    the last admin.  A sign-in is not tested by the code. -/
def Current (accounts : List Account) : Write → Prop
  | .create username _ _ => getUser (accounts.map Account.user) username = none
  | .setRole target role => role ≠ .admin → KeepsAdmin accounts fun a => a.ref = target
  | .remove username => KeepsAdmin accounts fun a => a.user.username = username
  | .upsert username role _ => role ≠ .admin → KeepsAdmin accounts fun a => a.user.username = username

/-- The condition on a step: the write that it makes, if any, is `Current`. -/
def WritesCurrent (s : State) (e : Event) : Prop :=
  ∀ s' w, react s e = some (s', some w) → Current s.accounts w

/-- Distinct names, distinct objects, an admin. -/
structure Inv (s : State) : Prop where
  names : (s.accounts.map fun a => a.user.username).Nodup
  refs : (s.accounts.map Account.ref).Nodup
  fresh : ∀ a ∈ s.accounts, a.ref < s.nextRef
  admin : ∃ a ∈ s.accounts, a.user.role = .admin

/-! ### The accounts after a write -/

/-- Two elements of a class with distinct keys are not both of one key. -/
theorem exists_key_ne {α κ : Type} {l : List α} {f : α → κ} (hnodup : (l.map f).Nodup)
    {p : α → Bool} (hcount : 1 < l.countP p) (k : κ) : ∃ a ∈ l, p a = true ∧ f a ≠ k := by
  by_contra hall
  push Not at hall
  have hkeys : (l.filter p).map f = List.replicate (l.filter p).length k := by
    rw [List.eq_replicate_iff]
    refine ⟨by simp, ?_⟩
    intro b hb
    obtain ⟨a, ha, rfl⟩ := List.mem_map.mp hb
    obtain ⟨hmem, hpa⟩ := List.mem_filter.mp ha
    exact hall a hmem hpa
  have hsub : ((l.filter p).map f).Nodup := hnodup.sublist (List.filter_sublist.map f)
  rw [hkeys, List.nodup_replicate] at hsub
  rw [List.countP_eq_length_filter] at hcount
  omega

/-- The administrators, counted by their objects. -/
theorem adminCount_map (accounts : List Account) :
    adminCount (accounts.map Account.user) = accounts.countP fun a => a.user.role = .admin := by
  rw [adminCount, List.countP_map]
  rfl

/-- An admin apart from the accounts that a write takes away. -/
theorem exists_other_admin {κ : Type} {accounts : List Account} {f : Account → κ} {k : κ}
    (hnodup : (accounts.map f).Nodup) (hadmin : ∃ a ∈ accounts, a.user.role = .admin)
    (hkeeps : KeepsAdmin accounts fun a => f a = k) :
    ∃ a ∈ accounts, a.user.role = .admin ∧ f a ≠ k := by
  obtain ⟨a, ha, hrole⟩ := hadmin
  by_cases hk : f a = k
  · have hcount := hkeeps a ha hk hrole
    rw [adminCount_map] at hcount
    obtain ⟨b, hb, hbrole, hne⟩ := exists_key_ne hnodup hcount k
    exact ⟨b, hb, by simpa using hbrole, hne⟩
  · exact ⟨a, ha, hrole, hk⟩

/-- `upsert_external_user` adds a new account, or rewrites the one of the name in its place. -/
theorem upsertAccount_cases (next : Nat) (name : String) (role : Role) (source : Source)
    (accounts : List Account) :
    ((∀ a ∈ accounts, a.user.username ≠ name) ∧
        upsertAccount next name role source accounts =
          accounts ++ [⟨next, ⟨name, "", role, 1, source⟩⟩]) ∨
      ∃ before a a' after, accounts = before ++ a :: after ∧
        upsertAccount next name role source accounts = before ++ a' :: after ∧
        a.user.username = name ∧ a'.ref = a.ref ∧ a'.user.username = a.user.username ∧
        a'.user.role = role := by
  induction accounts with
  | nil => exact .inl ⟨by simp, rfl⟩
  | cons a rest ih =>
    unfold upsertAccount
    -- the first account of that name is the one that is changed
    by_cases hname : a.user.username = name
    · refine .inr ⟨[], a, _, rest, rfl, by rw [if_pos hname]; rfl, hname, ?_⟩
      split_ifs with hsame
      · exact ⟨rfl, rfl, rfl⟩
      · exact ⟨rfl, rfl, by simpa using (not_or.mp hsame).1⟩
    · rw [if_neg hname]
      rcases ih with ⟨hnone, heq⟩ | ⟨before, b, b', after, hsplit, heq, hb⟩
      · refine .inl ⟨?_, by rw [heq]; rfl⟩
        intro x hx
        rcases List.mem_cons.mp hx with rfl | hx
        · exact hname
        · exact hnone x hx
      · exact .inr ⟨a :: before, b, b', after, by rw [hsplit]; rfl, by rw [heq]; rfl, hb⟩

/-- A new account with a free name. -/
theorem Inv.append {s : State} (h : Inv s) {u : User}
    (hfree : ∀ a ∈ s.accounts, a.user.username ≠ u.username) :
    -- a new name, a new reference, and the old administrator is still there
    Inv { s with accounts := s.accounts ++ [⟨s.nextRef, u⟩], nextRef := s.nextRef + 1 } where
  names := by
    simp only [List.map_append, List.map_cons, List.map_nil]
    rw [List.nodup_append]
    refine ⟨h.names, by simp, ?_⟩
    intro x hx y hy
    obtain ⟨a, ha, rfl⟩ := List.mem_map.mp hx
    rw [List.mem_singleton] at hy
    exact hy ▸ hfree a ha
  refs := by
    simp only [List.map_append, List.map_cons, List.map_nil]
    rw [List.nodup_append]
    refine ⟨h.refs, by simp, ?_⟩
    intro x hx y hy
    obtain ⟨a, ha, rfl⟩ := List.mem_map.mp hx
    rw [List.mem_singleton] at hy
    have := h.fresh a ha
    omega
  fresh := by
    intro a ha
    rcases List.mem_append.mp ha with ha | ha
    · exact Nat.lt_succ_of_lt (h.fresh a ha)
    · rw [List.mem_singleton] at ha
      subst ha
      exact Nat.lt_succ_self _
  admin := by
    obtain ⟨a, ha, hrole⟩ := h.admin
    exact ⟨a, List.mem_append_left _ ha, hrole⟩

/-- A new name keeps the invariant. -/
theorem Inv.write_create {s : State} (h : Inv s) {username hash : String} {role : Role}
    (hc : Current s.accounts (.create username hash role)) :
    Inv (s.write (some (.create username hash role))) := by
  refine h.append (u := ⟨username, hash, role, 1, .local⟩) ?_
  intro a ha hname
  have hnone := List.find?_eq_none.mp hc a.user (List.mem_map_of_mem ha)
  exact hnone (by simpa using hname)

/-- A role keeps the invariant, while another administrator is left. -/
theorem Inv.write_setRole {s : State} (h : Inv s) {target : Nat} {role : Role}
    (hc : Current s.accounts (.setRole target role)) :
    Inv (s.write (some (.setRole target role))) := by
  have hname : ∀ a, (assignRole target role a).user.username = a.user.username := by
    intro a
    unfold assignRole
    split_ifs <;> rfl
  have href : ∀ a, (assignRole target role a).ref = a.ref := by
    intro a
    unfold assignRole
    split_ifs <;> rfl
  refine ⟨?_, ?_, ?_, ?_⟩
  · simpa [State.write, Write.apply, Function.comp_def, hname] using h.names
  · simpa [State.write, Write.apply, Function.comp_def, href] using h.refs
  · intro a ha
    obtain ⟨b, hb, rfl⟩ := List.mem_map.mp ha
    rw [href]
    exact Nat.lt_succ_of_lt (h.fresh b hb)
  -- the account may become an administrator; otherwise another one stays
  · by_cases hrole : role = .admin
    · obtain ⟨a, ha, hadmin⟩ := h.admin
      refine ⟨_, List.mem_map_of_mem ha, ?_⟩
      unfold assignRole
      split_ifs
      · exact hrole
      · exact hadmin
    · obtain ⟨a, ha, hadmin, hne⟩ := exists_other_admin h.refs h.admin (hc hrole)
      refine ⟨_, List.mem_map_of_mem ha, ?_⟩
      rw [assignRole, if_neg hne]
      exact hadmin

/-- A removal keeps the invariant, while another administrator is left. -/
theorem Inv.write_remove {s : State} (h : Inv s) {username : String}
    (hc : Current s.accounts (.remove username)) : Inv (s.write (some (.remove username))) := by
  have hsub : (s.accounts.filter fun a => a.user.username ≠ username).Sublist s.accounts :=
    List.filter_sublist
  refine ⟨h.names.sublist (hsub.map _), h.refs.sublist (hsub.map _), ?_, ?_⟩
  · exact fun a ha => Nat.lt_succ_of_lt (h.fresh a (hsub.subset ha))
  · obtain ⟨a, ha, hadmin, hne⟩ := exists_other_admin h.names h.admin hc
    exact ⟨a, List.mem_filter.mpr ⟨ha, by simpa using hne⟩, hadmin⟩

/-- A sign-in keeps the invariant. -/
theorem Inv.write_upsert {s : State} (h : Inv s) {username : String} {role : Role}
    {source : Source} (hc : Current s.accounts (.upsert username role source)) :
    Inv (s.write (some (.upsert username role source))) := by
  rcases upsertAccount_cases s.nextRef username role source s.accounts with
    ⟨hnone, heq⟩ | ⟨before, a, a', after, hsplit, heq, hname, href, hname', hrole⟩
  · have hwrite : s.write (some (.upsert username role source)) =
        { s with accounts := s.accounts ++ [⟨s.nextRef, ⟨username, "", role, 1, source⟩⟩],
                 nextRef := s.nextRef + 1 } := by
      simp only [State.write, Write.apply, heq]
    rw [hwrite]
    exact h.append hnone
  · have hwrite : (s.write (some (.upsert username role source))).accounts =
        before ++ a' :: after := heq
    have hmem : ∀ x ∈ before ++ a' :: after, x = a' ∨ x ∈ s.accounts := by
      intro x hx
      rw [hsplit]
      simp only [List.mem_append, List.mem_cons] at hx ⊢
      tauto
    refine ⟨?_, ?_, ?_, ?_⟩
    · have := h.names
      rw [hsplit] at this
      rw [hwrite]
      simpa [hname'] using this
    · have := h.refs
      rw [hsplit] at this
      rw [hwrite]
      simpa [href] using this
    · intro x hx
      rw [hwrite] at hx
      refine Nat.lt_succ_of_lt ?_
      rcases hmem x hx with rfl | hx
      · rw [href]
        exact h.fresh a (by rw [hsplit]; simp)
      · exact h.fresh x hx
    · rw [hwrite]
      by_cases hadmin : role = .admin
      · exact ⟨a', by simp, hrole.trans hadmin⟩
      · obtain ⟨b, hb, hbrole, hne⟩ := exists_other_admin h.names h.admin (hc hadmin)
        refine ⟨b, ?_, hbrole⟩
        -- the other admin has another name, so it is not the account rewritten
        rw [hsplit] at hb
        simp only [List.mem_append, List.mem_cons] at hb ⊢
        rcases hb with hb | rfl | hb
        · exact .inl hb
        · exact absurd hname hne
        · exact .inr (.inr hb)

/-- Every current write keeps the invariant. -/
theorem Inv.write {s : State} (h : Inv s) {w : Write} (hc : Current s.accounts w) :
    Inv (s.write (some w)) := by
  cases w with
  | create username hash role => exact h.write_create hc
  | setRole target role => exact h.write_setRole hc
  | remove username => exact h.write_remove hc
  | upsert username role source => exact h.write_upsert hc

/-! ### Runs -/

/-- Waiting for the lock changes no account. -/
theorem acquire_accounts (s : State) (w : Write) :
    (s.acquire w).1.accounts = s.accounts ∧ (s.acquire w).1.nextRef = s.nextRef := by
  unfold State.acquire
  split_ifs <;> exact ⟨rfl, rfl⟩

/-- Nothing but a write changes the accounts. -/
theorem react_accounts {s s' : State} {e : Event} {w : Option Write}
    (h : react s e = some (s', w)) : s'.accounts = s.accounts ∧ s'.nextRef = s.nextRef := by
  -- taking the lock, or waiting for it, leaves the accounts to the write
  have hacquire : ∀ (t : State) (v : Write), t.accounts = s.accounts → t.nextRef = s.nextRef →
      t.acquire v = (s', w) → s'.accounts = s.accounts ∧ s'.nextRef = s.nextRef := by
    intro t v haccounts hnext heq
    obtain ⟨h1, h2⟩ := acquire_accounts t v
    rw [heq] at h1 h2
    exact ⟨h1.trans haccounts, h2.trans hnext⟩
  cases e with
  | create username role pw pw2 hash =>
    simp only [react] at h
    split at h <;> cases h <;> exact ⟨rfl, rfl⟩
  | hashed i =>
    simp only [react, Option.map_eq_some_iff] at h
    obtain ⟨v, -, h⟩ := h
    exact hacquire { s with hashing := s.hashing.eraseIdx i } v rfl rfl h
  | changeRole username role =>
    simp only [react] at h
    split at h
    · exact hacquire s _ rfl rfl (Option.some.inj h)
    · cases h
      exact ⟨rfl, rfl⟩
  | delete me username =>
    simp only [react] at h
    split at h
    · exact hacquire s _ rfl rfl (Option.some.inj h)
    · cases h
      exact ⟨rfl, rfl⟩
  | login form =>
    simp only [react] at h
    split at h <;> cases h <;> exact ⟨rfl, rfl⟩
  | bound i role =>
    simp only [react, Option.map_eq_some_iff] at h
    obtain ⟨name, -, h⟩ := h
    cases role with
    | some r => exact hacquire { s with binding := s.binding.eraseIdx i } _ rfl rfl h
    | none =>
      cases h
      exact ⟨rfl, rfl⟩
  | oidc username role =>
    cases role with
    | some r =>
      simp only [react] at h
      split_ifs at h
      · cases h
        exact ⟨rfl, rfl⟩
      · exact hacquire s _ rfl rfl (Option.some.inj h)
    | none =>
      cases h
      exact ⟨rfl, rfl⟩
  | saved =>
    simp only [react] at h
    split_ifs at h
    split at h <;> cases h <;> exact ⟨rfl, rfl⟩

/-- The invariant is about the accounts and the objects made. -/
theorem inv_congr {s s' : State} (haccounts : s'.accounts = s.accounts)
    (hnext : s'.nextRef = s.nextRef) (h : Inv s) : Inv s' := by
  obtain ⟨hnames, hrefs, hfresh, hadmin⟩ := h
  exact ⟨by rwa [haccounts], by rwa [haccounts], by rwa [haccounts, hnext], by rwa [haccounts]⟩

/-- Every step keeps the invariant. -/
theorem inv_step (s : State) (e : Event) (s' : State) (h : Inv s) (hcond : WritesCurrent s e)
    (hstep : step s e = some s') : Inv s' := by
  simp only [step, Option.map_eq_some_iff] at hstep
  obtain ⟨⟨t, w⟩, hreact, rfl⟩ := hstep
  obtain ⟨haccounts, hnext⟩ := react_accounts hreact
  have ht : Inv t := inv_congr haccounts hnext h
  cases w with
  | none => exact ht
  | some w => exact ht.write (haccounts ▸ hcond t w hreact)

/-- The accounts at the start. -/
theorem inv_init {users : List User} (hnames : (users.map User.username).Nodup)
    (hadmin : ∃ u ∈ users, u.role = .admin) : Inv (State.init users) := by
  have husers : (State.init users).users = users := by
    simp [State.init, State.users, Function.comp_def]
  refine ⟨?_, ?_, ?_, ?_⟩
  · have : ((State.init users).accounts.map fun a => a.user.username) =
        (State.init users).users.map User.username := by
      simp [State.users, Function.comp_def]
    rwa [this, husers]
  · have : (State.init users).accounts.map Account.ref = List.range users.length := by
      simp [State.init, Function.comp_def, List.range_eq_range']
    rw [this]
    exact List.nodup_range
  · intro a ha
    obtain ⟨p, hp, rfl⟩ := List.mem_map.mp ha
    have := List.snd_lt_of_mem_zipIdx hp
    simpa [State.init] using this
  · obtain ⟨u, hu, hrole⟩ := hadmin
    rw [← husers] at hu
    obtain ⟨a, ha, rfl⟩ := List.mem_map.mp hu
    exact ⟨a, ha, hrole⟩

/-- From any accounts with distinct names and an admin: in every run of which each write is
    still `Current` when it is made, every state reached has distinct names and an admin. -/
theorem accounts_invariant (users : List User) (es : List Event) (s : State)
    (hnames : (users.map User.username).Nodup) (hadmin : ∃ u ∈ users, u.role = .admin)
    (hcond : Along step WritesCurrent (State.init users) es)
    (hrun : run step (State.init users) es = some s) :
    (s.users.map User.username).Nodup ∧ ∃ u ∈ s.users, u.role = .admin := by
  have hinv : Inv s := run_invariant Inv inv_step (inv_init hnames hadmin) hcond hrun
  refine ⟨?_, ?_⟩
  · have : s.users.map User.username = s.accounts.map fun a => a.user.username := by
      simp [State.users, Function.comp_def]
    rw [this]
    exact hinv.names
  · obtain ⟨a, ha, hrole⟩ := hinv.admin
    exact ⟨a.user, List.mem_map_of_mem ha, hrole⟩

/-! ### Two runs -/

instance (accounts : List Account) (p : Account → Prop) [DecidablePred p] :
    Decidable (KeepsAdmin accounts p) :=
  inferInstanceAs (Decidable (∀ a ∈ accounts, _))

instance (accounts : List Account) : (w : Write) → Decidable (Current accounts w)
  | .create username _ _ =>
    inferInstanceAs (Decidable (getUser (accounts.map Account.user) username = none))
  | .setRole target role =>
    inferInstanceAs (Decidable (role ≠ .admin → KeepsAdmin accounts fun a => a.ref = target))
  | .remove username =>
    inferInstanceAs (Decidable (KeepsAdmin accounts fun a => a.user.username = username))
  | .upsert username role _ =>
    inferInstanceAs
      (Decidable (role ≠ .admin → KeepsAdmin accounts fun a => a.user.username = username))

/-- A test of `WritesCurrent`. -/
def writesCurrentCheck (s : State) (e : Event) : Bool :=
  match react s e with
  | some (_, some w) => decide (Current s.accounts w)
  | _ => true

/-- The test finds only steps that meet the condition. -/
theorem writesCurrent_of_check (s : State) (e : Event) (h : writesCurrentCheck s e = true) :
    WritesCurrent s e := by
  intro s' w hreact
  simpa [writesCurrentCheck, hreact] using h

/-- Two admins, one of them of a directory. -/
def twoAdmins : List User :=
  [⟨"alice", "scrypt$1", .admin, 1, .local⟩, ⟨"bob", "", .admin, 1, .ldap⟩]

/-- A new account while a role is changed, and a sign-in that takes a role. -/
def orderlyEvents : List Event :=
  [.create "carol" "admin" "password" "password" "scrypt$2", .changeRole "alice" "operator",
    .hashed 0, .saved, .saved, .login "bob", .bound 0 (some .viewer), .saved]

/-- Two administrators, one change at a time. -/
theorem accounts_invariant_orderly :
    ∃ s, run step (State.init twoAdmins) orderlyEvents = some s ∧
      (s.users.map User.username).Nodup ∧ ∃ u ∈ s.users, u.role = .admin := by
  obtain ⟨s, hs⟩ : ∃ s, run step (State.init twoAdmins) orderlyEvents = some s :=
    Option.isSome_iff_exists.mp (by decide +kernel)
  exact ⟨s, hs, accounts_invariant twoAdmins orderlyEvents s (by decide) (by decide)
    (along_of_check writesCurrent_of_check (by decide +kernel)) hs⟩

/-- Two requests create one name while both passwords are hashed; two demotions pass their
    tests while the lock is held; and a single sign-on takes the role of the only admin. -/
theorem overlapping_requests_break_accounts :
    (∃ s, run step (State.init twoAdmins)
        [.create "carol" "viewer" "password" "password" "scrypt$2",
          .create "carol" "viewer" "password" "password" "scrypt$3", .hashed 0, .saved, .hashed 0] =
          some s ∧ ¬ (s.users.map User.username).Nodup) ∧
      (∃ s, run step (State.init twoAdmins)
        [.oidc "carol" (some .viewer), .changeRole "alice" "viewer", .changeRole "bob" "viewer",
          .saved, .saved] = some s ∧ ¬ ∃ u ∈ s.users, u.role = .admin) ∧
      ∃ s, run step (State.init [⟨"bob", "", .admin, 1, .oidc⟩]) [.oidc "bob" (some .viewer)] =
          some s ∧ ¬ ∃ u ∈ s.users, u.role = .admin := by
  refine ⟨⟨_, rfl, ?_⟩, ⟨_, rfl, ?_⟩, ⟨_, rfl, ?_⟩⟩
  · decide +kernel
  · decide +kernel
  · decide +kernel

end Ser2Net.Web.Accounts
