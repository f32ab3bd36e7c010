import Ser2Net.Config.Copy

namespace Ser2Net.Import

open Ser2Net.Lib Ser2Net.Config

/-!
# Import — `apply_import`

`app/importer.py` applies an uploaded list of mappings to the current one.  In merge mode a
mapping with the same id, else with the same name, is updated in place; in replace mode the
uploaded list takes the place of the current one.

* `copyMapping` — `MappingConfig.from_dict(m.to_dict())`, which may ask `_new_id()` for an id;
* `matchTarget` — `_match`, as the position of the mapping it finds;
* `applyImport` — the two modes, with the errors they raise;
* `distinct_ids` — a lemma per mode: the ids of the result are distinct;
* `place` — the merge of one mapping that a copy keeps, without the bookkeeping.

Two mappings are the same object when they stand at the same position.  `newIds n` is what the
`n`-th call of `_new_id()` returns.
-/

section
variable (m : Platform) (newIds : Nat → String)

/-- `MappingConfig.from_dict(m.to_dict())` after `n` calls of `_new_id()`. -/
def copyMapping (n : Nat) (c : MappingConfig) : CfgM (MappingConfig × Nat) := do
  let copy ← MappingConfig.fromDict m (newIds n) c.toDict
  return (copy, if c.id.truthy then n else n + 1)

/-- `[MappingConfig.from_dict(m.to_dict()) for m in current]`. -/
def copyAll : Nat → List MappingConfig → CfgM (List MappingConfig × Nat)
  | n, [] => .ok ([], n)
  | n, c :: rest => do
    let (copy, n) ← copyMapping m newIds n c
    let (copies, n) ← copyAll n rest
    return (copy :: copies, n)

/-- `_match`. -/
def matchTarget (existing : List MappingConfig) (c : MappingConfig) :
    Option (Fin existing.length) :=
  (existing.findFinIdx? fun e => e.id.pyEq c.id) <|>
    existing.findFinIdx? fun e => e.name.pyEq c.name

/-- `result.index(target)`: the first mapping that is the target or equal to it. -/
def indexOf (result : List MappingConfig) (target : Fin result.length) : Nat :=
  ((result.take target).findIdx? fun e => e.pyEq result[target]).getD target

/-- The lists of the loop of `apply_import` and the ids asked for so far. -/
structure Progress where
  result : List MappingConfig
  touched : List MappingConfig
  drawn : Nat

/-- One round of the merge loop. -/
def mergeOne (s : Progress) (c : MappingConfig) : CfgM Progress := do
  let (c, n) ← copyMapping m newIds s.drawn c
  match matchTarget s.result c with
  | some i =>
    let c := { c with id := s.result[i].id }
    if c.pyEq s.result[i] then return { s with drawn := n }
    else return ⟨s.result.set (indexOf s.result i) c, s.touched ++ [c], n⟩
  | none =>
    if s.result.any fun e => e.id.pyEq c.id then
      let c := { c with id := .str (newIds n) }
      return ⟨s.result ++ [c], s.touched ++ [c], n + 1⟩
    else return ⟨s.result ++ [c], s.touched ++ [c], n⟩

/-- One round of the loop of replace mode: the ids of `out` are the set `seen`, and only a
    hashable value can be looked up in a set. -/
def replaceOne (s : Progress) (c : MappingConfig) : CfgM Progress := do
  let (c, n) ← copyMapping m newIds s.drawn c
  if !c.id.hashable then .error .typeError
  else if s.result.any fun e => e.id.pyEq c.id then
    let c := { c with id := .str (newIds n) }
    return ⟨s.result ++ [c], s.touched ++ [c], n + 1⟩
  else return ⟨s.result ++ [c], s.touched ++ [c], n⟩

/-- `MODES`. -/
def modes : List String := ["merge", "replace"]

/-- `apply_import`: the new mapping list, and the mappings that were added or changed. -/
def applyImport (current incoming : List MappingConfig) (mode : String) :
    CfgM (List MappingConfig × List MappingConfig) := do
  require (modes.contains mode) "Import mode must be one of {0}." [tuple modes]
  if mode = "replace" then
    let s ← incoming.foldlM (replaceOne m newIds) ⟨[], [], 0⟩
    return (s.result, s.touched)
  else
    let (result, n) ← copyAll m newIds 0 current
    let s ← incoming.foldlM (mergeOne m newIds) ⟨result, [], n⟩
    return (s.result, s.touched)

end

/-! ### One mapping -/

/-- No mapping has the id of a later one. -/
def DistinctIds (l : List MappingConfig) : Prop := l.Pairwise fun a b => a.id.pyEq b.id = false

/-- What `mergeOne` makes of the list with the copy `c` of an uploaded mapping. -/
def place (result : List MappingConfig) (c : MappingConfig) : List MappingConfig :=
  match matchTarget result c with
  | some i =>
    if ({ c with id := result[i].id } : MappingConfig).pyEq result[i] then result
    else result.set i { c with id := result[i].id }
  | none => result ++ [c]

/-- The id of the mapping that `x` updates, or its own. -/
def pinnedId (result : List MappingConfig) (x : MappingConfig) : Json :=
  match matchTarget result x with
  | some i => result[i].id
  | none => x.id

theorem pinnedId_of_some {result : List MappingConfig} {x r : MappingConfig}
    {i : Fin result.length} (h : matchTarget result x = some i)
    (hr : result[(i : Nat)]? = some r) : pinnedId result x = r.id := by
  rw [List.getElem?_eq_getElem i.2] at hr
  rw [pinnedId, h, ← Option.some.inj hr]
  rfl

/-- The mapping found has the same id, or no mapping has and it is the first with the name. -/
theorem matchTarget_eq_some {existing : List MappingConfig} {c : MappingConfig}
    {i : Fin existing.length} (h : matchTarget existing c = some i) :
    (existing[i].id.pyEq c.id = true ∧
      ∀ (j : Nat) (hj : j < i), existing[j].id.pyEq c.id = false) ∨
    ((∀ e ∈ existing, e.id.pyEq c.id = false) ∧ existing[i].name.pyEq c.name = true ∧
      ∀ (j : Nat) (hj : j < i), existing[j].name.pyEq c.name = false) := by
  rcases (Option.orElse_eq_some _ _ _).1 h with h | ⟨hnone, h⟩
  · obtain ⟨hid, hbefore⟩ := List.findFinIdx?_eq_some_iff.1 h
    exact .inl ⟨hid, fun j hj => by simpa using hbefore ⟨j, by omega⟩ hj⟩
  · obtain ⟨hname, hbefore⟩ := List.findFinIdx?_eq_some_iff.1 h
    refine .inr ⟨fun e he => ?_, hname, fun j hj => by simpa using hbefore ⟨j, by omega⟩ hj⟩
    simpa using List.findFinIdx?_eq_none_iff.1 hnone e he

theorem matchTarget_eq_none {existing : List MappingConfig} {c : MappingConfig}
    (h : matchTarget existing c = none) :
    ∀ e ∈ existing, e.id.pyEq c.id = false ∧ e.name.pyEq c.name = false := by
  obtain ⟨hid, hname⟩ := (Option.orElse_eq_none _ _).1 h
  intro e he
  exact ⟨by simpa using List.findFinIdx?_eq_none_iff.1 hid e he,
    by simpa using List.findFinIdx?_eq_none_iff.1 hname e he⟩

/-- With distinct ids no mapping before the target is equal to it. -/
theorem indexOf_eq {result : List MappingConfig} (hd : DistinctIds result)
    (i : Fin result.length) : indexOf result i = i := by
  have hnone : ((result.take i).findIdx? fun e => e.pyEq result[i]) = none := by
    refine List.findIdx?_eq_none_iff.2 fun e he => ?_
    obtain ⟨j, hj, rfl⟩ := List.mem_iff_getElem.1 he
    have hji : j < i := lt_of_lt_of_le hj (by simp)
    rw [List.getElem_take]
    by_contra heq
    have heq : MappingConfig.pyEq result[j] result[i] = true := by simpa using heq
    have hid := MappingConfig.id_of_pyEq heq
    have hne := List.pairwise_iff_getElem.1 hd j i (by omega) i.2 hji
    exact Bool.false_ne_true (hne.symm.trans hid)
  rw [indexOf, hnone]
  rfl

section
variable {m : Platform} {newIds : Nat → String}

/-- A copy keeps the name, and the id unless it is empty. -/
theorem copyMapping_eq_ok {n n' : Nat} {c c' : MappingConfig}
    (h : copyMapping m newIds n c = .ok (c', n')) :
    MappingConfig.fromDict m (newIds n) c.toDict = .ok c' ∧ c'.name = c.name ∧
      ((c'.id = c.id ∧ n' = n) ∨ (c'.id = .str (newIds n) ∧ n' = n + 1)) := by
  obtain ⟨copy, hcopy, h⟩ := except_bind_eq_ok.1 h
  cases h
  refine ⟨hcopy, ?_⟩
  rw [MappingConfig.fromDict_toDict] at hcopy
  cases hidle : legacySeconds c.options.idleTimeoutS with
  | error e => rw [hidle] at hcopy; cases hcopy
  | ok idle =>
    rw [hidle] at hcopy
    cases hcopy
    refine ⟨rfl, ?_⟩
    show (orElse c.id _ = c.id ∧ _) ∨ (orElse c.id _ = _ ∧ _)
    unfold orElse
    by_cases hid : c.id.truthy = true
    · rw [if_pos hid, if_pos hid]
      exact .inl ⟨rfl, rfl⟩
    · rw [if_neg hid, if_neg hid]
      exact .inr ⟨rfl, rfl⟩

/-- One round of the merge, with the copy in hand. -/
theorem mergeOne_of_copy {s : Progress} {c c' : MappingConfig} {n : Nat}
    (hd : DistinctIds s.result) (hcopy : copyMapping m newIds s.drawn c = .ok (c', n)) :
    ∃ touched, mergeOne m newIds s c = .ok ⟨place s.result c', touched, n⟩ := by
  unfold mergeOne place
  rw [hcopy]
  dsimp only [bind, Except.bind]
  -- the target is replaced under its own id, without one the copy is appended
  cases hmatch : matchTarget s.result c' with
  | some i =>
    dsimp only
    by_cases heq : ({ c' with id := s.result[i].id } : MappingConfig).pyEq s.result[i] = true
    · rw [if_pos heq, if_pos heq]
      exact ⟨_, rfl⟩
    · rw [if_neg heq, if_neg heq, indexOf_eq hd]
      exact ⟨_, rfl⟩
  | none =>
    have hany : ¬ (s.result.any fun e => e.id.pyEq c'.id) = true := by
      rw [List.any_eq_true]
      rintro ⟨e, he, hid⟩
      rw [(matchTarget_eq_none hmatch e he).1] at hid
      cases hid
    dsimp only
    rw [if_neg hany]
    exact ⟨_, rfl⟩

end

/-- Placing a mapping keeps the ids that are there and adds one that is not. -/
theorem place_distinct {result : List MappingConfig} (hd : DistinctIds result)
    (c : MappingConfig) : DistinctIds (place result c) := by
  unfold place
  split
  · next i _ =>
    split
    · exact hd
    · -- the ids of the list are the same as before
      have hids : (result.set i { c with id := result[i].id }).map MappingConfig.id =
          result.map MappingConfig.id := by
        have hself := @List.set_getElem_self _ (result.map MappingConfig.id) i
          (by rw [List.length_map]; exact i.2)
        rw [List.getElem_map] at hself
        rw [List.map_set]
        exact hself
      unfold DistinctIds at hd ⊢
      rw [← List.pairwise_map (f := MappingConfig.id) (R := fun a b => a.pyEq b = false)] at hd ⊢
      rwa [hids]
  · next hmatch =>
    -- without a target no id of the list is the new one's
    refine List.pairwise_append.2 ⟨hd, List.pairwise_singleton _ _, fun a ha b hb => ?_⟩
    rw [List.mem_singleton.1 hb]
    exact (matchTarget_eq_none hmatch a ha).1

/-- A mapping whose id and name are not those of `c` stays where it is. -/
theorem place_getElem?_of_ne {result : List MappingConfig} {c r : MappingConfig} {t : Nat}
    (ht : result[t]? = some r) (hid : r.id.pyEq c.id = false)
    (hname : r.name.pyEq c.name = false) : (place result c)[t]? = some r := by
  obtain ⟨hlt, hr⟩ := List.getElem?_eq_some_iff.1 ht
  unfold place
  split
  · next i hmatch =>
    split
    · exact ht
    · have hne : (i : Nat) ≠ t := by
        rintro rfl
        rcases matchTarget_eq_some hmatch with ⟨h, -⟩ | ⟨-, h, -⟩
        · rw [Fin.getElem_fin, hr, hid] at h
          cases h
        · rw [Fin.getElem_fin, hr, hname] at h
          cases h
      rw [List.getElem?_set_ne hne]
      exact ht
  · rw [List.getElem?_append_left hlt]
    exact ht

/-- A mapping whose id and name are not among those of `cs` stays where it is. -/
theorem foldl_place_getElem? {cs result : List MappingConfig} {r : MappingConfig} {t : Nat}
    (ht : result[t]? = some r)
    (h : ∀ c ∈ cs, r.id.pyEq c.id = false ∧ r.name.pyEq c.name = false) :
    (cs.foldl place result)[t]? = some r := by
  induction cs generalizing result with
  | nil => exact ht
  | cons c cs ih =>
    obtain ⟨hid, hname⟩ := h c List.mem_cons_self
    exact ih (place_getElem?_of_ne ht hid hname) fun d hd => h d (List.mem_cons_of_mem c hd)

theorem foldl_place_distinct {cs result : List MappingConfig} (hd : DistinctIds result) :
    DistinctIds (cs.foldl place result) := by
  induction cs generalizing result with
  | nil => exact hd
  | cons c cs ih => exact ih (place_distinct hd c)

/-! ### Whole lists -/

/-- `_new_id` returns an id that is not in use, and never the same one twice. -/
structure Fresh (newIds : Nat → String) (used : List MappingConfig) : Prop where
  injective : Function.Injective newIds
  unused : ∀ n, ∀ c ∈ used, c.id ≠ .str (newIds n)

theorem str_pyEq_of_ne {s : String} {v : Json} (h : v ≠ .str s) :
    (Json.str s).pyEq v = false := by
  cases v with
  | str t =>
    have hne : s ≠ t := fun heq => h (by rw [heq])
    simp [Json.pyEq, Json.scalarEq, hne]
  | _ => simp [Json.pyEq, Json.scalarEq, Json.number?]

theorem pyEq_str_of_ne {s : String} {v : Json} (h : v ≠ .str s) :
    v.pyEq (.str s) = false := by
  rw [Json.pyEq_str, Json.eqStr, beq_eq_false_iff_ne]
  exact h

section
variable {m : Platform} {newIds : Nat → String}

theorem drawn_le_of_copy {n n' : Nat} {c c' : MappingConfig}
    (h : copyMapping m newIds n c = .ok (c', n')) : n ≤ n' := by
  rcases (copyMapping_eq_ok h).2.2 with ⟨-, rfl⟩ | ⟨-, rfl⟩
  · exact le_refl _
  · exact Nat.le_succ n

/-- Where each copy comes from. -/
theorem copyAll_eq_ok {n n' : Nat} {l copies : List MappingConfig}
    (h : copyAll m newIds n l = .ok (copies, n')) :
    copies.length = l.length ∧ n ≤ n' ∧ ∀ (i : Nat) (c' : MappingConfig),
      copies[i]? = some c' → ∃ c k k', l[i]? = some c ∧ n ≤ k ∧ k' ≤ n' ∧
        copyMapping m newIds k c = .ok (c', k') := by
  induction l generalizing n copies with
  | nil =>
    cases h
    exact ⟨rfl, le_refl _, fun i c' hi => by simp at hi⟩
  | cons c rest ih =>
    -- one copy after the other, each draws from where the one before stopped
    obtain ⟨⟨c', n₁⟩, hcopy, h⟩ := except_bind_eq_ok.1 h
    obtain ⟨⟨tail, n₂⟩, hrest, h⟩ := except_bind_eq_ok.1 h
    cases h
    obtain ⟨hlen, hle, hall⟩ := ih hrest
    have hdrawn := drawn_le_of_copy hcopy
    refine ⟨by simp [hlen], by omega, fun i d hi => ?_⟩
    cases i with
    | zero =>
      cases Option.some.inj hi
      exact ⟨c, n, n₁, rfl, le_refl n, hle, hcopy⟩
    | succ i =>
      obtain ⟨e, k, k', he, hk, hk', hcopy'⟩ := hall i d hi
      exact ⟨e, k, k', he, by omega, hk', hcopy'⟩

/-- Copies made one after the other of mappings with different ids have different ids. -/
theorem copy_ids_differ {used : List MappingConfig} (hfresh : Fresh newIds used)
    {c c' d d' : MappingConfig} {n n' k k' : Nat} (hc : c ∈ used) (hd : d ∈ used)
    (hcopy : copyMapping m newIds n c = .ok (c', n'))
    (hcopy' : copyMapping m newIds k d = .ok (d', k')) (hle : n' ≤ k)
    (hne : c.id.pyEq d.id = false) : c'.id.pyEq d'.id = false := by
  rcases (copyMapping_eq_ok hcopy).2.2 with ⟨hid, hn⟩ | ⟨hid, hn⟩
  · rcases (copyMapping_eq_ok hcopy').2.2 with ⟨hid', -⟩ | ⟨hid', -⟩
    · rwa [hid, hid']
    · rw [hid, hid']
      exact pyEq_str_of_ne (hfresh.unused k c hc)
  · rcases (copyMapping_eq_ok hcopy').2.2 with ⟨hid', -⟩ | ⟨hid', -⟩
    · rw [hid, hid']
      exact str_pyEq_of_ne (hfresh.unused n d hd)
    · -- both ids are new: they were asked for at different times
      rw [hid, hid']
      refine str_pyEq_of_ne fun heq => ?_
      have := hfresh.injective (Json.str.inj heq)
      omega

theorem copyAll_distinct {used l copies : List MappingConfig} {n n' : Nat}
    (hfresh : Fresh newIds used) (hused : ∀ c ∈ l, c ∈ used) (hd : DistinctIds l)
    (h : copyAll m newIds n l = .ok (copies, n')) : DistinctIds copies := by
  induction l generalizing n copies with
  | nil =>
    cases h
    exact List.Pairwise.nil
  | cons c rest ih =>
    obtain ⟨⟨c', n₁⟩, hcopy, h⟩ := except_bind_eq_ok.1 h
    obtain ⟨⟨tail, n₂⟩, hrest, h⟩ := except_bind_eq_ok.1 h
    cases h
    obtain ⟨hhead, htail⟩ := List.pairwise_cons.1 hd
    have hused' := fun d hd => hused d (List.mem_cons_of_mem c hd)
    refine List.pairwise_cons.2 ⟨fun d' hd' => ?_, ih hused' htail hrest⟩
    obtain ⟨i, hi⟩ := List.mem_iff_getElem?.1 hd'
    obtain ⟨d, k, k', hdi, hk, -, hcopy'⟩ := (copyAll_eq_ok hrest).2.2 i d' hi
    have hdmem := List.mem_of_getElem? hdi
    exact copy_ids_differ hfresh (hused c List.mem_cons_self) (hused' d hdmem) hcopy hcopy' hk
      (hhead d hdmem)

/-- A merge places the copies of the uploaded mappings one after the other. -/
theorem mergeOne_foldlM_of_copies {s : Progress} {incoming copies : List MappingConfig} {n : Nat}
    (hd : DistinctIds s.result) (h : copyAll m newIds s.drawn incoming = .ok (copies, n)) :
    ∃ touched, incoming.foldlM (mergeOne m newIds) s =
      .ok ⟨copies.foldl place s.result, touched, n⟩ := by
  induction incoming generalizing s copies with
  | nil =>
    cases h
    exact ⟨s.touched, rfl⟩
  | cons c rest ih =>
    obtain ⟨⟨c', n₁⟩, hcopy, h⟩ := except_bind_eq_ok.1 h
    obtain ⟨⟨tail, n₂⟩, hrest, h⟩ := except_bind_eq_ok.1 h
    cases h
    obtain ⟨touched, hone⟩ := mergeOne_of_copy hd hcopy
    rw [List.foldlM_cons, hone]
    have hd' : DistinctIds (⟨place s.result c', touched, n₁⟩ : Progress).result :=
      place_distinct hd c'
    exact ih hd' hrest

/-- A merge that returns has made all its copies. -/
theorem copyAll_of_mergeOne_foldlM {s s' : Progress} {incoming : List MappingConfig}
    (hd : DistinctIds s.result) (h : incoming.foldlM (mergeOne m newIds) s = .ok s') :
    ∃ copies, copyAll m newIds s.drawn incoming = .ok (copies, s'.drawn) ∧
      s'.result = copies.foldl place s.result := by
  induction incoming generalizing s with
  | nil =>
    cases h
    exact ⟨[], rfl, rfl⟩
  | cons c rest ih =>
    obtain ⟨s₁, hone, h⟩ := except_bind_eq_ok.1 h
    obtain ⟨⟨c', n⟩, hcopy, -⟩ := except_bind_eq_ok.1 hone
    obtain ⟨touched, hone'⟩ := mergeOne_of_copy hd hcopy
    rw [hone'] at hone
    cases hone
    obtain ⟨copies, hcopies, hresult⟩ := ih (place_distinct hd c') h
    have hcons : copyAll m newIds s.drawn (c :: rest) = .ok (c' :: copies, s'.drawn) := by
      rw [copyAll, hcopy]
      show (copyAll m newIds n rest >>= fun p => pure (c' :: p.1, p.2)) = _
      rw [hcopies]
      rfl
    exact ⟨c' :: copies, hcons, hresult⟩

/-- The ids of a replacing list: those of the file, and new ones for the repeated. -/
structure ReplaceInv (newIds : Nat → String) (used : List MappingConfig) (s : Progress) : Prop where
  distinct : DistinctIds s.result
  known : ∀ e ∈ s.result, (∃ c ∈ used, e.id = c.id) ∨ ∃ k < s.drawn, e.id = .str (newIds k)

theorem replaceOne_inv {used : List MappingConfig} (hfresh : Fresh newIds used)
    {s s' : Progress} {c : MappingConfig} (hc : c ∈ used) (hinv : ReplaceInv newIds used s)
    (h : replaceOne m newIds s c = .ok s') : ReplaceInv newIds used s' := by
  obtain ⟨⟨c', n⟩, hcopy, h⟩ := except_bind_eq_ok.1 h
  have hle := drawn_le_of_copy hcopy
  -- ids that were known before are known after
  have hmono : ∀ k, n ≤ k → ∀ e ∈ s.result, (∃ c ∈ used, e.id = c.id) ∨
      ∃ j < k, e.id = .str (newIds j) := by
    intro k hk e he
    rcases hinv.known e he with h | ⟨j, hj, h⟩
    · exact .inl h
    · exact .inr ⟨j, by omega, h⟩
  dsimp only at h
  split at h
  · cases h
  · split at h
    · -- a repeated id is replaced by a new one
      cases h
      constructor
      · refine List.pairwise_append.2 ⟨hinv.distinct, List.pairwise_singleton _ _, ?_⟩
        intro e he d hd
        rw [List.mem_singleton.1 hd]
        refine pyEq_str_of_ne ?_
        rcases hmono n (le_refl n) e he with ⟨c, hc, h⟩ | ⟨k, hk, h⟩
        · rw [h]
          exact hfresh.unused n c hc
        · rw [h]
          intro heq
          have := hfresh.injective (Json.str.inj heq)
          omega
      · intro e he
        rcases List.mem_append.1 he with he | he
        · exact hmono (n + 1) (Nat.le_succ n) e he
        · rw [List.mem_singleton.1 he]
          exact .inr ⟨n, Nat.lt_succ_self n, rfl⟩
    · next hnot =>
      cases h
      constructor
      · refine List.pairwise_append.2 ⟨hinv.distinct, List.pairwise_singleton _ _, ?_⟩
        intro e he d hd
        rw [List.mem_singleton.1 hd]
        by_contra heq
        exact hnot (List.any_eq_true.2 ⟨e, he, by simpa using heq⟩)
      · intro e he
        rcases List.mem_append.1 he with he | he
        · exact hmono n (le_refl n) e he
        · rw [List.mem_singleton.1 he]
          rcases (copyMapping_eq_ok hcopy).2.2 with ⟨hid, -⟩ | ⟨hid, hn⟩
          · exact .inl ⟨c, hc, hid⟩
          · exact .inr ⟨s.drawn, by dsimp only; omega, hid⟩

theorem replaceOne_foldlM_inv {used : List MappingConfig} (hfresh : Fresh newIds used)
    {incoming : List MappingConfig} {s s' : Progress} (hused : ∀ c ∈ incoming, c ∈ used)
    (hinv : ReplaceInv newIds used s)
    (h : incoming.foldlM (replaceOne m newIds) s = .ok s') : ReplaceInv newIds used s' := by
  induction incoming generalizing s with
  | nil =>
    cases h
    exact hinv
  | cons c rest ih =>
    obtain ⟨s₁, hone, h⟩ := except_bind_eq_ok.1 h
    exact ih (fun d hd => hused d (List.mem_cons_of_mem c hd))
      (replaceOne_inv hfresh (hused c List.mem_cons_self) hinv hone) h

/-- What a merge that returns has done: copy, then place. -/
theorem applyImport_merge {current incoming result touched : List MappingConfig}
    (hfresh : Fresh newIds (current ++ incoming)) (hids : DistinctIds current)
    (h : applyImport m newIds current incoming "merge" = .ok (result, touched)) :
    ∃ copies n copies' n', copyAll m newIds 0 current = .ok (copies, n) ∧
      copyAll m newIds n incoming = .ok (copies', n') ∧ DistinctIds copies ∧
      result = copies'.foldl place copies := by
  obtain ⟨-, -, h⟩ := except_bind_eq_ok.1 h
  rw [if_neg (by decide)] at h
  obtain ⟨⟨copies, n⟩, hcopies, h⟩ := except_bind_eq_ok.1 h
  obtain ⟨s', hfold, h⟩ := except_bind_eq_ok.1 h
  cases h
  have hd := copyAll_distinct hfresh (fun c hc => List.mem_append_left _ hc) hids hcopies
  obtain ⟨copies', hcopies', hresult⟩ := copyAll_of_mergeOne_foldlM hd hfold
  exact ⟨copies, n, copies', s'.drawn, hcopies, hcopies', hd, hresult⟩

end

/-- The id and the name of a current mapping occur in no uploaded mapping. -/
def Untouched (incoming : List MappingConfig) (c : MappingConfig) : Prop :=
  ∀ x ∈ incoming, c.id.pyEq x.id = false ∧ c.name.pyEq x.name = false

/-- The copy of an untouched mapping is in the merged list, at the old position. -/
theorem merge_getElem?_of_untouched {m : Platform} {newIds : Nat → String}
    {current incoming result touched : List MappingConfig}
    (hfresh : Fresh newIds (current ++ incoming)) (hids : DistinctIds current)
    (h : applyImport m newIds current incoming "merge" = .ok (result, touched)) {i : Nat}
    {c : MappingConfig} (hi : current[i]? = some c) (hc : Untouched incoming c) :
    ∃ c' n, MappingConfig.fromDict m (newIds n) c.toDict = .ok c' ∧ result[i]? = some c' := by
  obtain ⟨copies, n, copies', n', hcopies, hcopies', hd, rfl⟩ := applyImport_merge hfresh hids h
  obtain ⟨hlen, -, hfrom⟩ := copyAll_eq_ok hcopies
  have hlt : i < copies.length := hlen ▸ (List.getElem?_eq_some_iff.1 hi).1
  obtain ⟨d, k, k', hd, -, hk', hcopy⟩ := hfrom i copies[i] (List.getElem?_eq_getElem hlt)
  rw [hi] at hd
  cases hd
  obtain ⟨hcopied, hname, -⟩ := copyMapping_eq_ok hcopy
  refine ⟨copies[i], k, hcopied, ?_⟩
  refine foldl_place_getElem? (List.getElem?_eq_getElem hlt) fun x' hx' => ?_
  -- the copies of the uploaded mappings have neither its id nor its name
  obtain ⟨j, hj⟩ := List.mem_iff_getElem?.1 hx'
  obtain ⟨x, l, l', hx, hl, -, hxcopy⟩ := (copyAll_eq_ok hcopies').2.2 j x' hj
  have hxmem := List.mem_of_getElem? hx
  obtain ⟨hid, hxname⟩ := hc x hxmem
  constructor
  · exact copy_ids_differ hfresh (List.mem_append_left _ (List.mem_of_getElem? hi))
      (List.mem_append_right _ hxmem) hcopy hxcopy (by omega) hid
  · rwa [hname, (copyMapping_eq_ok hxcopy).2.1]

/-- **Distinct ids, and the rest unchanged.**  For every current list with distinct ids and
    every uploaded list: the list that `apply_import` returns has distinct ids in both modes;
    and in merge mode every current mapping whose id and name are in no uploaded mapping is in
    it unchanged and at its old position, if and only if each of these mappings is normalised
    and has a poll interval other than `0.0`. -/
theorem import_keeps_rest_iff (m : Platform) (newIds : Nat → String)
    (current incoming result touched : List MappingConfig) (mode : String)
    (hfresh : Fresh newIds (current ++ incoming)) (hids : DistinctIds current)
    (h : applyImport m newIds current incoming mode = .ok (result, touched)) :
    DistinctIds result ∧ (mode = "merge" →
      ((∀ (i : Nat) (c : MappingConfig), current[i]? = some c → Untouched incoming c →
          result[i]? = some c) ↔
        ∀ c ∈ current, Untouched incoming c →
          c.Kept m ∧ c.modbusPoll.intervalS ≠ .fin 0)) := by
  constructor
  -- the ids, in both modes
  · obtain ⟨u, hmode, hrun⟩ := except_bind_eq_ok.1 h
    have hmode : mode = "merge" ∨ mode = "replace" := by
      simpa [modes] using require_eq_ok.1 hmode
    rcases hmode with rfl | rfl
    · obtain ⟨copies, n, copies', n', -, -, hd, rfl⟩ := applyImport_merge hfresh hids h
      exact foldl_place_distinct hd
    · rw [if_pos rfl] at hrun
      obtain ⟨s, hfold, hrun⟩ := except_bind_eq_ok.1 hrun
      cases hrun
      have hinit : ReplaceInv newIds (current ++ incoming) ⟨[], [], 0⟩ :=
        ⟨List.Pairwise.nil, fun e he => absurd he List.not_mem_nil⟩
      exact (replaceOne_foldlM_inv hfresh (fun c hc => List.mem_append_right _ hc) hinit
        hfold).distinct
  -- a mapping that no entry touches is copied, and the copy is the mapping when it is kept
  · rintro rfl
    have hself : ∀ (i : Nat) (c : MappingConfig), current[i]? = some c → Untouched incoming c →
        (result[i]? = some c ↔ c.Kept m ∧ c.modbusPoll.intervalS ≠ .fin 0) := by
      intro i c hi hc
      obtain ⟨c', n, hfrom, hresult⟩ := merge_getElem?_of_untouched hfresh hids h hi hc
      have hnew := hfresh.unused n c (List.mem_append_left _ (List.mem_of_getElem? hi))
      rw [hresult, Option.some.injEq, MappingConfig.copy_eq_self_iff hnew hfrom]
    constructor
    · intro hall c hmem hc
      obtain ⟨i, hi⟩ := List.mem_iff_getElem?.1 hmem
      exact (hself i c hi hc).1 (hall i c hi hc)
    · intro hall i c hi hc
      exact (hself i c hi hc).2 (hall c (List.mem_of_getElem? hi) hc)

/-- Ids that `_new_id` might return: one more letter each time. -/
def letters (n : Nat) : String := String.ofList (List.replicate (n + 1) 'x')

theorem fresh_letters {used : List MappingConfig} (ids : List String)
    (hids : used.map MappingConfig.id = ids.map Json.str)
    (h : ∀ s ∈ ids, s.toList.head? ≠ some 'x') : Fresh letters used := by
  constructor
  · intro a b hab
    have := congrArg (fun s : String => s.toList.length) hab
    simpa [letters] using this
  · intro n c hc heq
    obtain ⟨s, hs, hsid⟩ := List.mem_map.1 (hids ▸ List.mem_map_of_mem hc)
    have : s = letters n := Json.str.inj (hsid.trans heq)
    refine h s hs ?_
    rw [this, letters, String.toList_ofList]
    rfl

/-- The members of a mapping with an id, a name and a poll interval. -/
def polled (mid name : String) (interval : Json) : Json :=
  .obj [("id", .str mid), ("name", .str name), ("serial", .obj [("port", .str "/dev/ttyS0")]),
    ("modbus_poll", .obj [("interval_s", interval)])]

/-- What `from_dict` makes of such members. -/
def polledMapping (mid name : String) (interval : PyFloat) : MappingConfig where
  id := .str mid
  name := .str name
  enabled := true
  kind := .str "net"
  serial := SerialSettings.ofMembers [("port", .str "/dev/ttyS0")] []
  serialB := SerialSettings.ofMembers [] []
  network := NetworkSettings.ofMembers []
  options := MappingOptions.ofMembers bareMachine.py [] (.int 0)
  mqtt := MqttSettings.ofMembers []
  modbusPoll := ⟨interval, []⟩

/-- A new mapping is added and the one that is not in the file keeps its place. -/
theorem import_keeps_rest_iff_added :
    ∃ result touched, applyImport bareMachine letters [polledMapping "1" "a" (.ofIntExact 5)]
        [polledMapping "2" "b" (.ofIntExact 5)] "merge" = .ok (result, touched) ∧
      DistinctIds result ∧ result[0]? = some (polledMapping "1" "a" (.ofIntExact 5)) := by
  have hrun : applyImport bareMachine letters [polledMapping "1" "a" (.ofIntExact 5)]
      [polledMapping "2" "b" (.ofIntExact 5)] "merge" =
      .ok ([polledMapping "1" "a" (.ofIntExact 5), polledMapping "2" "b" (.ofIntExact 5)],
        [polledMapping "2" "b" (.ofIntExact 5)]) := by
    decide +kernel
  have hfresh : Fresh letters ([polledMapping "1" "a" (.ofIntExact 5)] ++
      [polledMapping "2" "b" (.ofIntExact 5)]) :=
    fresh_letters ["1", "2"] rfl (by decide)
  have hids : DistinctIds [polledMapping "1" "a" (.ofIntExact 5)] := List.pairwise_singleton _ _
  obtain ⟨hdistinct, hrest⟩ := import_keeps_rest_iff bareMachine letters _ _ _ _ "merge" hfresh
    hids hrun
  have huntouched : Untouched [polledMapping "2" "b" (.ofIntExact 5)]
      (polledMapping "1" "a" (.ofIntExact 5)) := by
    intro x hx
    rw [List.mem_singleton.1 hx]
    decide +kernel
  have hkept : (polledMapping "1" "a" (.ofIntExact 5)).Kept bareMachine :=
    ⟨by decide, by decide +kernel, by decide +kernel⟩
  refine ⟨_, _, hrun, hdistinct, (hrest rfl).2 ?_ 0 _ rfl huntouched⟩
  intro c hc _
  rw [List.mem_singleton.1 hc]
  exact ⟨hkept, by decide +kernel⟩

/-- A mapping loaded with the poll interval `"0"` has the interval `0.0`; a merge of a file
    that has nothing to do with it sets it to `5.0`. -/
theorem merge_resets_poll_interval :
    ∃ c result touched, MappingConfig.load bareMachine "n" (polled "1" "a" (.str "0")) = .ok c ∧
      Fresh letters ([c] ++ []) ∧ DistinctIds [c] ∧ Untouched [] c ∧
      applyImport bareMachine letters [c] [] "merge" = .ok (result, touched) ∧
      result[0]? ≠ some c := by
  refine ⟨polledMapping "1" "a" (.fin 0), [polledMapping "1" "a" (.ofIntExact 5)], [],
    by decide +kernel, fresh_letters ["1"] rfl (by decide), List.pairwise_singleton _ _,
    fun x hx => absurd hx List.not_mem_nil, by decide +kernel, ?_⟩
  intro heq
  have hpoll := congrArg (fun c => c.modbusPoll.intervalS) (Option.some.inj heq)
  exact absurd hpoll (by decide +kernel)

end Ser2Net.Import
