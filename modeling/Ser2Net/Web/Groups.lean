import Ser2Net.Config.App

namespace Ser2Net.Web.Groups

open Ser2Net.Lib Ser2Net.Config

/-!
# Web — roles from groups

`role_for_groups` of `ldap_auth.py` and `role_from_claims` of `oidc_auth.py`: the role that
the groups of a directory user, or the groups claim of an identity provider, earn.

* `member` — a configured group occurs inside one of the user's groups;
* `SameGroup` — what a mapped group is meant to be: the whole text or the value of the first
  RDN, without case;
* `role_earned_iff` — the role is the one earned exactly when the first role whose group
  occurs inside a group of the user is earned too, or none is and it is the default.
-/

/-- The settings that `role_for_groups` reads. -/
structure GroupSettings where
  adminGroup : Json
  operatorGroup : Json
  viewerGroup : Json
  defaultRole : Json
  deriving DecidableEq, Repr

/-- The group settings of OIDC. -/
def oidcGroups (o : OidcSettings) : GroupSettings :=
  ⟨o.adminGroup, o.operatorGroup, o.viewerGroup, o.defaultRole⟩

/-- The local function `member` of `role_for_groups`: `g in dn` is a test for a substring. -/
def member (py : PyEnv) (lowered : List String) (groupName : Json) : CfgM Bool := do
  let name ← (if groupName.truthy then groupName.strip else .ok "")
  let g := py.lower name
  return g ≠ "" && lowered.any fun dn => decide (g.toList <:+: dn.toList)

/-- `role_for_groups`; `null` is `None`. -/
def roleForGroups (py : PyEnv) (groups : List Json) (s : GroupSettings) : CfgM Json := do
  let lowered := groups.map fun g => py.lower (g.toStr py)
  let isAdmin ← member py lowered s.adminGroup
  (if isAdmin then return .str "admin"
   else do
    let isOperator ← member py lowered s.operatorGroup
    (if isOperator then return .str "operator"
     else do
      let isViewer ← member py lowered s.viewerGroup
      (if isViewer then return .str "viewer"
       else return if s.defaultRole.truthy then s.defaultRole else .null)))

/-- `claims.get(key)`: the keys of the claims are texts. -/
def claimsGet (claims : List (String × Json)) (key : Json) : CfgM Json :=
  match key with
  | .str k => .ok (Json.get claims k .null)
  | _ => if key.hashable then .ok .null else .error .typeError

/-- The groups that `role_from_claims` passes on: a text counts as a list of one. -/
def claimGroups (claims : List (String × Json)) (settings : OidcSettings) : CfgM (List Json) := do
  let groups ← claimsGet claims settings.groupsClaim
  (if groups.truthy then
    match groups with
    | .str s => .ok [.str s]
    | _ => groups.elements
   else .ok [])

/-- `role_from_claims`. -/
def roleFromClaims (py : PyEnv) (claims : List (String × Json)) (settings : OidcSettings) :
    CfgM Json := do
  let groups ← claimGroups claims settings
  roleForGroups py groups (oidcGroups settings)

/-! ### What a mapped group is -/

/-- The value of an RDN as it is written: up to the first separator that is not escaped. -/
def rdnValue : List Char → List Char
  | [] => []
  | '\\' :: c :: rest => '\\' :: c :: rdnValue rest
  | c :: rest => if c = ',' ∨ c = '+' then [] else c :: rdnValue rest

/-- The value of the first RDN of a DN; `none` for a text that is no DN. -/
def firstRdnValue (dn : List Char) : Option (List Char) :=
  match PyText.partition '=' dn with
  | some (attr, rest) => if ',' ∈ attr then none else some (rdnValue rest)
  | none => none

/-- A group of the user is the configured one: as a whole, be it a DN or a plain claim, or by
    the value of its first RDN, without case.  An empty setting is no group. -/
def SameGroup (py : PyEnv) (group dn : String) : Prop :=
  let g := py.lower (PyText.strip group)
  g ≠ "" ∧ (py.lower dn = g ∨ firstRdnValue (py.lower dn).toList = some g.toList)

/-- One of the user's groups is the configured one. -/
def Earned (py : PyEnv) (groups : List Json) (group : String) : Prop :=
  ∃ dn ∈ groups, SameGroup py group (dn.toStr py)

/-- The configured group occurs inside one of the user's groups. -/
def Occurs (py : PyEnv) (groups : List Json) (group : String) : Prop :=
  let g := py.lower (PyText.strip group)
  g ≠ "" ∧ ∃ dn ∈ groups, g.toList <:+: (py.lower (dn.toStr py)).toList

instance (py : PyEnv) (group dn : String) : Decidable (SameGroup py group dn) :=
  inferInstanceAs (Decidable (_ ∧ _))

instance (py : PyEnv) (groups : List Json) (group : String) : Decidable (Earned py groups group) :=
  inferInstanceAs (Decidable (∃ dn ∈ groups, _))

instance (py : PyEnv) (groups : List Json) (group : String) : Decidable (Occurs py groups group) :=
  inferInstanceAs (Decidable (_ ∧ _))

/-- The group texts by role, from the highest role down, and the default role. -/
structure RoleMap where
  admin : String
  operator : String
  viewer : String
  defaultRole : String
  deriving DecidableEq, Repr

/-- The texts as settings. -/
def RoleMap.settings (m : RoleMap) : GroupSettings :=
  ⟨.str m.admin, .str m.operator, .str m.viewer, .str m.defaultRole⟩

/-- The roles with their groups, the highest first. -/
def RoleMap.ranked (m : RoleMap) : List (Json × String) :=
  [(.str "admin", m.admin), (.str "operator", m.operator), (.str "viewer", m.viewer)]

/-- The default role, or `None` to deny. -/
def RoleMap.fallback (m : RoleMap) : Json :=
  if m.defaultRole = "" then .null else .str m.defaultRole

/-- The highest role that the user's groups earn, else the default role or a denial. -/
def RoleMap.earnedRole (py : PyEnv) (groups : List Json) (m : RoleMap) : Json :=
  ((m.ranked.find? fun r => Earned py groups r.2).map Prod.fst).getD m.fallback

/-! ### The role that is returned -/

theorem rdnValue_isPrefix (l : List Char) : rdnValue l <+: l := by
  fun_induction rdnValue l with
  | case1 => exact List.prefix_rfl
  | case2 c rest ih => simpa using ih
  | case3 c rest => exact List.nil_prefix
  | case4 c rest _ _ ih => simpa using ih

theorem partition_eq_append {c : Char} {l before after : List Char}
    (h : PyText.partition c l = some (before, after)) : l = before ++ c :: after := by
  unfold PyText.partition at h
  split_ifs at h with hc
  simp only [Option.some.injEq, Prod.mk.injEq] at h
  obtain ⟨rfl, rfl⟩ := h
  have hdrop : l.dropWhile (· ≠ c) ≠ [] := by
    intro hnil
    have := List.dropWhile_eq_nil_iff.mp hnil c hc
    simp at this
  obtain ⟨d, rest, hd⟩ := List.exists_cons_of_ne_nil hdrop
  have hhead : d = c := by
    have := List.head_dropWhile_not (fun x => decide (x ≠ c)) hdrop
    simp only [hd, List.head_cons] at this
    simpa using this
  conv_lhs => rw [← List.takeWhile_append_dropWhile (p := fun x => decide (x ≠ c)) (l := l)]
  rw [hd, hhead]
  rfl

/-- The value of the first RDN occurs in the DN. -/
theorem firstRdnValue_infix {dn v : List Char} (h : firstRdnValue dn = some v) : v <:+: dn := by
  unfold firstRdnValue at h
  split at h
  · next attr rest hpart =>
    split_ifs at h
    obtain rfl : rdnValue rest = v := by simpa using h
    rw [partition_eq_append hpart]
    have hrest : rdnValue rest <:+: rest := (rdnValue_isPrefix rest).isInfix
    exact hrest.trans ((List.suffix_cons _ _).trans (List.suffix_append _ _)).isInfix
  · cases h

/-- A group that is earned occurs. -/
theorem Earned.occurs {py : PyEnv} {groups : List Json} {group : String}
    (h : Earned py groups group) : Occurs py groups group := by
  obtain ⟨dn, hdn, hne, heq | hrdn⟩ := h
  · refine ⟨hne, dn, hdn, ?_⟩
    rw [heq]
  · exact ⟨hne, dn, hdn, firstRdnValue_infix hrdn⟩

theorem member_str (py : PyEnv) (groups : List Json) (group : String) :
    member py (groups.map fun g => py.lower (g.toStr py)) (.str group) =
      .ok (decide (Occurs py groups group)) := by
  have hname : (if (Json.str group).truthy then (Json.str group).strip else .ok "" : CfgM String) =
      .ok (PyText.strip group) := by
    by_cases hempty : group = ""
    · subst hempty
      decide
    · have : (Json.str group).truthy = true := by simp [Json.truthy, hempty]
      rw [if_pos this]
      rfl
  unfold member
  rw [hname]
  simp only [bind, Except.bind, pure, Except.pure, Except.ok.injEq]
  rw [Bool.eq_iff_iff, decide_eq_true_iff]
  simp [Occurs]

/-- The first role whose group occurs, else the default. -/
theorem roleForGroups_eq (py : PyEnv) (groups : List Json) (m : RoleMap) :
    roleForGroups py groups m.settings =
      .ok (((m.ranked.find? fun r => Occurs py groups r.2).map Prod.fst).getD m.fallback) := by
  have hfallback : (if (Json.str m.defaultRole).truthy then Json.str m.defaultRole else .null) =
      m.fallback := by
    by_cases hempty : m.defaultRole = "" <;> simp [Json.truthy, RoleMap.fallback, hempty]
  unfold roleForGroups RoleMap.settings
  simp only [member_str, hfallback]
  by_cases ha : Occurs py groups m.admin
  · simp [RoleMap.ranked, ha, bind, Except.bind, pure, Except.pure]
  · by_cases ho : Occurs py groups m.operator
    · simp [RoleMap.ranked, ha, ho, bind, Except.bind, pure, Except.pure]
    · by_cases hv : Occurs py groups m.viewer <;>
        simp [RoleMap.ranked, ha, ho, hv, bind, Except.bind, pure, Except.pure]

/-! ### When the role is the one earned -/

/-- Two searches of one list, the second for less: they name the same element, or the same
    default, exactly when the first hit of the wider search is one of the narrower too, or
    the narrower finds nothing and its default is that hit. -/
theorem find?_getD_eq_iff {α β : Type} [DecidableEq β] {l : List (β × α)}
    (hnodup : (l.map Prod.fst).Nodup) {p q : β × α → Bool} (hqp : ∀ a, q a = true → p a = true)
    (d : β) :
    ((l.find? p).map Prod.fst).getD d = ((l.find? q).map Prod.fst).getD d ↔
      ∀ a, l.find? p = some a → q a = true ∨ ((∀ b ∈ l, q b = false) ∧ d = a.1) := by
  cases hp : l.find? p with
  | none =>
    have hnone : l.find? q = none := by
      rw [List.find?_eq_none] at hp ⊢
      exact fun b hb hqb => hp b hb (hqp b hqb)
    simp [hnone]
  | some a =>
    simp only [Option.map_some, Option.getD_some, Option.some.injEq, forall_eq']
    obtain ⟨hpa, before, after, hl, hbefore⟩ := List.find?_eq_some_iff_append.mp hp
    by_cases hqa : q a = true
    · have hsame : l.find? q = some a := by
        rw [List.find?_eq_some_iff_append]
        refine ⟨hqa, before, after, hl, fun b hb => ?_⟩
        have := hbefore b hb
        by_contra hqb
        simp [hqp b (by simpa using hqb)] at this
      simp [hsame, hqa]
    · cases hq : l.find? q with
      | none =>
        have hall : ∀ b ∈ l, q b = false := fun b hb => by
          simpa using List.find?_eq_none.mp hq b hb
        simp only [Option.map_none, Option.getD_none, hqa, Bool.false_eq_true, false_or]
        exact ⟨fun h => ⟨hall, h.symm⟩, fun h => h.2.symm⟩
      | some b =>
        have hqb : q b = true := List.find?_some hq
        have hb : b ∈ l := List.mem_of_find?_eq_some hq
        have ha : a ∈ l := List.mem_of_find?_eq_some hp
        refine iff_of_false ?_ ?_
        · intro h
          -- the names are distinct, so the two hits would be one
          have hab : a = b := List.inj_on_of_nodup_map hnodup ha hb h
          exact hqa (hab ▸ hqb)
        · rintro (h | ⟨hall, -⟩)
          · exact hqa h
          · simp [hall b hb] at hqb

/-- The first role whose group occurs inside a group of the user is one that the user has
    earned; or it is the default role and the user has earned none. -/
def Unmistaken (py : PyEnv) (groups : List Json) (m : RoleMap) : Prop :=
  ∀ r, (m.ranked.find? fun r => Occurs py groups r.2) = some r →
    Earned py groups r.2 ∨ ((∀ r' ∈ m.ranked, ¬ Earned py groups r'.2) ∧ m.fallback = r.1)

theorem roleForGroups_eq_earned_iff (py : PyEnv) (groups : List Json) (m : RoleMap) :
    roleForGroups py groups m.settings = .ok (m.earnedRole py groups) ↔
      Unmistaken py groups m := by
  have hnames : (m.ranked.map Prod.fst).Nodup := by
    show [Json.str "admin", Json.str "operator", Json.str "viewer"].Nodup
    decide
  rw [roleForGroups_eq, Except.ok.injEq]
  unfold RoleMap.earnedRole Unmistaken
  rw [find?_getD_eq_iff hnames (fun r hr => by
    simpa using (of_decide_eq_true hr : Earned py groups r.2).occurs)]
  simp

/-- For every list of groups and every choice of group names and default role, the role of
    `role_for_groups` is the highest one earned, else the default, if and only if the groups
    are `Unmistaken`; and so is the role of `role_from_claims` for every claims object whose
    groups claim holds these groups. -/
theorem role_earned_iff (py : PyEnv) (groups : List Json) (m : RoleMap) :
    (roleForGroups py groups m.settings = .ok (m.earnedRole py groups) ↔
        Unmistaken py groups m) ∧
      ∀ claims settings, oidcGroups settings = m.settings →
        claimGroups claims settings = .ok groups →
          (roleFromClaims py claims settings = .ok (m.earnedRole py groups) ↔
            Unmistaken py groups m) := by
  refine ⟨roleForGroups_eq_earned_iff py groups m, ?_⟩
  intro claims settings hsettings hgroups
  have hrole : roleFromClaims py claims settings = roleForGroups py groups m.settings := by
    rw [roleFromClaims, hgroups, hsettings]
    rfl
  rw [hrole]
  exact roleForGroups_eq_earned_iff py groups m

/-- The mapping of the tests: one group name for each role, and no default. -/
def sampleRoles : RoleMap := ⟨"ser2net-admins", "ser2net-operators", "ser2net-viewers", ""⟩

/-- OIDC with the group names of `sampleRoles`. -/
def sampleOidc : OidcSettings :=
  OidcSettings.ofMembers [("admin_group", .str "ser2net-admins"),
    ("operator_group", .str "ser2net-operators"), ("viewer_group", .str "ser2net-viewers")]

/-- A claim that names one mapped group. -/
theorem role_earned_iff_claim :
    oidcGroups sampleOidc = sampleRoles.settings ∧
      (roleFromClaims bareMachine.py [("groups", .str "SER2NET-operators")] sampleOidc =
          .ok (sampleRoles.earnedRole bareMachine.py [.str "SER2NET-operators"]) ↔
        Unmistaken bareMachine.py [.str "SER2NET-operators"] sampleRoles) :=
  ⟨by decide, (role_earned_iff bareMachine.py [.str "SER2NET-operators"] sampleRoles).2
    [("groups", .str "SER2NET-operators")] sampleOidc (by decide) (by decide)⟩

/-- A group whose name contains that of the admin group grants admin. -/
theorem containing_group_grants_admin :
    roleForGroups bareMachine.py [.str "cn=not-ser2net-admins,ou=groups,dc=ex,dc=com"]
        sampleRoles.settings = .ok (.str "admin") ∧
      sampleRoles.earnedRole bareMachine.py
        [.str "cn=not-ser2net-admins,ou=groups,dc=ex,dc=com"] = .null := by
  constructor <;> decide +kernel

end Ser2Net.Web.Groups
