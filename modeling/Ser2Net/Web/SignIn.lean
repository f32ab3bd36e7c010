import Ser2Net.Web.Auth

namespace Ser2Net.Web.Auth

open Ser2Net.Lib

/-!
# Web — external sign-ins

The two ways in which an account of a directory or an identity provider signs in: the form of
`login_post`, which asks LDAP about names that are no local account, and `oidc_callback`.
Both end in `upsert_external_user` and in a session for the account that it returns.

* `SignIn.complete` — the accounts and the session after a sign-in;
* `LocalsKept` — no local account is touched and none gets the session;
* `localsKept_iff` — a sign-in keeps the local accounts exactly when it is denied or the
  account of its name is not a local one;
* `ldap_keeps_locals` — the form keeps them as long as the accounts do not change while the
  directory is asked.
-/

/-- `(form.get("username") or "admin").strip() or "admin"`. -/
def loginName (form : String) : String :=
  let name := PyText.strip (if form = "" then "admin" else form)
  if name = "" then "admin" else name

/-- An external sign-in as the directory or the identity provider answers it.  No role is a
    failed bind, an invalid token, or an account in no mapped group. -/
inductive SignIn
  /-- `login_post`; `lookup` are the accounts at the time the form is read, before the
      directory is asked -/
  | ldap (lookup : List User) (form : String) (role : Option Role)
  /-- `oidc_callback` -/
  | oidc (username : String) (role : Option Role)
  deriving DecidableEq, Repr

/-- The name, role and source that a sign-in brings to `upsert_external_user`; `none` is a
    sign-in that does not get there. -/
def SignIn.granted : SignIn → Option (String × Role × Source)
  | .ldap lookup form role =>
    match getUser lookup (loginName form) with
    | some ⟨_, _, _, _, .local⟩ => none
    | _ => role.map fun r => (loginName form, r, .ldap)
  | .oidc username role =>
    if username = "" then none else role.map fun r => (username, r, .oidc)

/-- The sign-in with the accounts `users` at the time of the upsert: the accounts after it
    and the account for which the session is opened. -/
def SignIn.complete (users : List User) (s : SignIn) : List User × Option User :=
  match s.granted with
  | none => (users, none)
  | some (name, role, source) =>
    let users := upsertExternalUser users name role source
    (users, getUser users name)

/-- The position of the account that a name denotes. -/
def accountIndex (users : List User) (name : String) : Option Nat :=
  users.findIdx? fun u => u.username = name

/-- Every local account stands where it stood with the same fields, and the session is not
    one of it. -/
def LocalsKept (users : List User) (s : SignIn) : Prop :=
  ∀ i u, users[i]? = some u → u.source = .local →
    (s.complete users).1[i]? = some u ∧
      ∀ session, (s.complete users).2 = some session →
        accountIndex (s.complete users).1 session.username ≠ some i

/-! ### Positions -/

/-- A change of an account, by position. -/
theorem getElem?_modifyUser (users : List User) (name : String) (f : User → User) (i : Nat) :
    (modifyUser name f users)[i]? =
      if accountIndex users name = some i then users[i]?.map f else users[i]? := by
  induction users generalizing i with
  | nil => simp [modifyUser]
  | cons u us ih =>
    unfold modifyUser accountIndex
    by_cases hu : u.username = name
    · cases i with
      | zero => simp [hu, List.findIdx?_cons]
      | succ i => simp [hu, List.findIdx?_cons]
    · cases i with
      | zero => simp [hu, List.findIdx?_cons]
      | succ i =>
        have := ih i
        unfold accountIndex at this
        simp [hu, List.findIdx?_cons, this]

/-- A change that keeps the names keeps what they denote. -/
theorem accountIndex_modifyUser (users : List User) (name other : String) (f : User → User)
    (hf : ∀ u, (f u).username = u.username) :
    accountIndex (modifyUser name f users) other = accountIndex users other := by
  induction users with
  | nil => rfl
  | cons u us ih =>
    unfold accountIndex at ih
    unfold modifyUser accountIndex
    by_cases hu : u.username = name
    · rw [if_pos hu]
      simp only [List.findIdx?_cons, hf]
    · rw [if_neg hu]
      simp only [List.findIdx?_cons, ih]

/-- An account without a position is not there. -/
theorem accountIndex_eq_none_iff {users : List User} {name : String} :
    accountIndex users name = none ↔ getUser users name = none := by
  unfold accountIndex getUser
  rw [List.findIdx?_eq_none_iff, List.find?_eq_none]
  simp

/-- The account of a name stands at its position. -/
theorem getUser_eq_getElem? (users : List User) (name : String) :
    getUser users name = (accountIndex users name).bind fun i => users[i]? := by
  induction users with
  | nil => rfl
  | cons u us ih =>
    rw [getUser_cons]
    unfold accountIndex
    by_cases hu : u.username = name
    · simp [hu, List.findIdx?_cons]
    · rw [if_neg hu, ih]
      unfold accountIndex
      simp only [List.findIdx?_cons, hu, decide_false, Bool.false_eq_true, if_false]
      cases us.findIdx? fun u => decide (u.username = name) <;> simp

/-! ### The accounts after an upsert -/

/-- `upsert_external_user` for a name without an account: a new account at the end. -/
theorem upsertExternalUser_new {users : List User} {name : String} (h : getUser users name = none)
    (role : Role) (source : Source) :
    upsertExternalUser users name role source = users ++ [⟨name, "", role, 1, source⟩] := by
  simp [upsertExternalUser, h]

/-- `upsert_external_user` leaves every account but that of the name as it is. -/
theorem getElem?_upsertExternalUser {users : List User} {name : String} {i k : Nat}
    (hk : accountIndex users name = some k) (hik : i ≠ k) (role : Role) (source : Source) :
    (upsertExternalUser users name role source)[i]? = users[i]? := by
  unfold upsertExternalUser
  split
  · next hnone =>
    rw [← accountIndex_eq_none_iff, hk] at hnone
    cases hnone
  · split_ifs
    · rw [getElem?_modifyUser, hk, if_neg (by simpa using Ne.symm hik)]
    · rfl

/-- The name keeps its position. -/
theorem accountIndex_upsertExternalUser {users : List User} {name : String} {k : Nat}
    (hk : accountIndex users name = some k) (role : Role) (source : Source) :
    accountIndex (upsertExternalUser users name role source) name = some k := by
  unfold upsertExternalUser
  split
  · next hnone =>
    rw [← accountIndex_eq_none_iff, hk] at hnone
    cases hnone
  · split_ifs
    · rw [accountIndex_modifyUser users name name _ ?_]
      · exact hk
      · exact fun _ => rfl
    · exact hk

/-- A new account stands at the end. -/
theorem accountIndex_append_new {users : List User} {u : User}
    (h : accountIndex users u.username = none) :
    accountIndex (users ++ [u]) u.username = some users.length := by
  unfold accountIndex at h ⊢
  rw [List.findIdx?_append, h]
  simp

/-! ### When a sign-in keeps the local accounts -/

/-- A refused sign-in changes nothing. -/
theorem localsKept_of_denied {users : List User} {s : SignIn} (h : s.granted = none) :
    LocalsKept users s := by
  intro i u hu _
  simp [SignIn.complete, h, hu]

/-- A new account is not a local one's. -/
theorem localsKept_of_new {users : List User} {s : SignIn} {name : String} {role : Role}
    {source : Source} (h : s.granted = some (name, role, source))
    (hnew : getUser users name = none) : LocalsKept users s := by
  intro i u hu _
  have hlt : i < users.length := (List.getElem?_eq_some_iff.mp hu).1
  have hindex := accountIndex_eq_none_iff.mpr hnew
  simp only [SignIn.complete, h, upsertExternalUser_new hnew]
  refine ⟨by rw [List.getElem?_append_left hlt, hu], ?_⟩
  intro session hsession
  have hname : session.username = name := getUser_username hsession
  rw [hname, accountIndex_append_new (u := ⟨name, "", role, 1, source⟩) hindex]
  simp only [ne_eq, Option.some.injEq]
  omega

/-- An external account is not a local one's. -/
theorem localsKept_of_external {users : List User} {s : SignIn} {name : String} {role : Role}
    {source : Source} {v : User} (h : s.granted = some (name, role, source))
    (hv : getUser users name = some v) (hexternal : v.source ≠ .local) : LocalsKept users s := by
  obtain ⟨k, hk⟩ : ∃ k, accountIndex users name = some k := by
    rw [← Option.isSome_iff_exists, Option.isSome_iff_ne_none, Ne, accountIndex_eq_none_iff, hv]
    simp
  have hat : users[k]? = some v := by
    rw [getUser_eq_getElem?, hk] at hv
    exact hv
  intro i u hu hlocal
  -- the account at the position of the name is external, so `i` is another one
  have hik : i ≠ k := by
    rintro rfl
    rw [hu, Option.some.injEq] at hat
    exact hexternal (hat ▸ hlocal)
  simp only [SignIn.complete, h]
  refine ⟨by rw [getElem?_upsertExternalUser hk hik, hu], ?_⟩
  intro session hsession
  rw [getUser_username hsession, accountIndex_upsertExternalUser hk]
  simpa using Ne.symm hik

/-- A sign-in that reaches the upsert under the name of a local account opens a session of
    that account. -/
theorem not_localsKept {users : List User} {s : SignIn} {name : String} {role : Role}
    {source : Source} {v : User} (h : s.granted = some (name, role, source))
    (hv : getUser users name = some v) (hlocal : v.source = .local) : ¬ LocalsKept users s := by
  intro hkept
  rw [getUser_eq_getElem?, Option.bind_eq_some_iff] at hv
  obtain ⟨k, hk, hat⟩ := hv
  obtain ⟨hsame, hsession⟩ := hkept k v hat hlocal
  simp only [SignIn.complete, h] at hsame hsession
  have hindex := accountIndex_upsertExternalUser hk role source
  have hget : getUser (upsertExternalUser users name role source) name = some v := by
    rw [getUser_eq_getElem?, hindex]
    exact hsame
  refine hsession v hget ?_
  rw [getUser_username hget, hindex]

/-- For all accounts and every external sign-in: the local accounts are kept, and none of them
    gets the session, if and only if the sign-in is denied or the account of its name, at the
    time of the upsert, is missing or not local. -/
theorem localsKept_iff (users : List User) (s : SignIn) :
    LocalsKept users s ↔
      ∀ name role source, s.granted = some (name, role, source) →
        ∀ u, getUser users name = some u → u.source ≠ .local := by
  constructor
  · intro hkept name role source hgranted u hu hlocal
    exact not_localsKept hgranted hu hlocal hkept
  · intro hcond
    cases hgranted : s.granted with
    | none => exact localsKept_of_denied hgranted
    | some g =>
      obtain ⟨name, role, source⟩ := g
      cases hu : getUser users name with
      | none => exact localsKept_of_new hgranted hu
      | some u => exact localsKept_of_external hgranted hu (hcond name role source hgranted u hu)

/-- A single sign-on under the name of the local administrator takes the account over. -/
theorem oidc_takes_local_account :
    let users : List User := [⟨"admin", "scrypt$1", .admin, 4, .local⟩]
    (SignIn.oidc "admin" (some .viewer)).complete users =
        ([⟨"admin", "scrypt$1", .viewer, 5, .oidc⟩],
          some ⟨"admin", "scrypt$1", .viewer, 5, .oidc⟩) ∧
      ¬ LocalsKept users (.oidc "admin" (some .viewer)) := by
  refine ⟨by decide, ?_⟩
  exact not_localsKept (v := ⟨"admin", "scrypt$1", .admin, 4, .local⟩) rfl rfl rfl

/-- The form asks the directory only about names that are no local account, so it keeps them
    when the accounts are still those that it looked at. -/
theorem ldap_keeps_locals (users : List User) (form : String) (role : Option Role) :
    LocalsKept users (.ldap users form role) := by
  cases hgranted : (SignIn.ldap users form role).granted with
  | none => exact localsKept_of_denied hgranted
  | some g =>
    obtain ⟨name, r, source⟩ := g
    have hname : loginName form = name ∧
        ∀ u, getUser users (loginName form) = some u → u.source ≠ .local := by
      simp only [SignIn.granted] at hgranted
      split at hgranted
      · cases hgranted
      · next hlookup =>
        simp only [Option.map_eq_some_iff, Prod.mk.injEq] at hgranted
        obtain ⟨_, -, hname, -, -⟩ := hgranted
        refine ⟨hname, ?_⟩
        rintro ⟨n, hash, ro, v, so⟩ hu rfl
        exact hlookup n hash ro v hu
    obtain ⟨rfl, hexternal⟩ := hname
    cases hu : getUser users (loginName form) with
    | none => exact localsKept_of_new hgranted hu
    | some u => exact localsKept_of_external hgranted hu (hexternal u hu)

end Ser2Net.Web.Auth
