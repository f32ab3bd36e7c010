import Ser2Net.Lib.PyValue

namespace Ser2Net.Lib.Json

/-!
# Equality of parsed values

Python's `==` on JSON values is no equality of the model: `1`, `1.0` and `True` are equal, the
order of the members of an object does not count, and a NaN is not equal to itself.  (Inside a
list or an object Python finds one and the same NaN equal to itself; values of the model have no
identity, so a NaN there is unequal too.)  Code that matches records by such values relies on two of them that are equal to a third being equal to
each other.

* `Keyed` — every object inside has distinct keys, as `json.loads` makes them;
* `pyEq_euclid` — values equal to the same value are equal;
* `pyEq_symm` — `a == b` gives `b == a`;
* `pyEq_member` — equal objects agree on every key.
-/

mutual

/-- Every object inside the value has distinct keys. -/
def Keyed : Json → Prop
  | .arr l => KeyedList l
  | .obj kvs => (kvs.map Prod.fst).Nodup ∧ KeyedMembers kvs
  | _ => True

/-- `Keyed` on lists. -/
def KeyedList : List Json → Prop
  | [] => True
  | a :: as => Keyed a ∧ KeyedList as

/-- `Keyed` on the members of an object. -/
def KeyedMembers : List (String × Json) → Prop
  | [] => True
  | (_, a) :: as => Keyed a ∧ KeyedMembers as

end

/-- The members of an object, one by one. -/
theorem keyedMembers_iff {kvs : List (String × Json)} :
    KeyedMembers kvs ↔ ∀ p ∈ kvs, p.2.Keyed := by
  induction kvs with
  | nil => simp [KeyedMembers]
  | cons p rest ih => simp [KeyedMembers, ih]

/-- The elements of a list, one by one. -/
theorem keyedList_iff {l : List Json} : KeyedList l ↔ ∀ v ∈ l, v.Keyed := by
  induction l with
  | nil => simp [KeyedList]
  | cons v rest ih => simp [KeyedList, ih]

/-- What a lookup gives is a member. -/
theorem mem_of_lookup {kvs : List (String × Json)} {k : String} {v : Json}
    (h : lookup kvs k = some v) : (k, v) ∈ kvs := by
  obtain ⟨⟨k', v'⟩, hfind, rfl⟩ := Option.map_eq_some_iff.1 h
  have hk : k' = k := by simpa using List.find?_some hfind
  exact hk ▸ List.mem_of_find?_eq_some hfind

/-- A key of the object is found. -/
theorem exists_lookup {kvs : List (String × Json)} {k : String} (h : k ∈ kvs.map Prod.fst) :
    ∃ v, lookup kvs k = some v := by
  obtain ⟨p, hp, rfl⟩ := List.mem_map.1 h
  unfold lookup
  cases hfind : kvs.find? fun q => q.1 == p.1 with
  | none => exact absurd (List.find?_eq_none.1 hfind p hp) (by simp)
  | some q => exact ⟨q.2, rfl⟩

/-- With distinct keys a member is what the lookup of its key gives. -/
theorem lookup_of_mem {kvs : List (String × Json)} {k : String} {v : Json}
    (hnodup : (kvs.map Prod.fst).Nodup) (h : (k, v) ∈ kvs) : lookup kvs k = some v := by
  obtain ⟨w, hw⟩ := exists_lookup (List.mem_map_of_mem h)
  have heq := List.inj_on_of_nodup_map hnodup (mem_of_lookup hw) h rfl
  rw [hw, (Prod.mk.inj heq).2]

/-- Members are equal when every key has an equal value. -/
theorem pyEqMembers_iff {as bs : List (String × Json)} :
    pyEqMembers as bs = true ↔
      ∀ p ∈ as, ∃ b, lookup bs p.1 = some b ∧ pyEq p.2 b = true := by
  induction as with
  | nil => simp [pyEqMembers]
  | cons p rest ih =>
    obtain ⟨k, a⟩ := p
    rw [pyEqMembers, Bool.and_eq_true, ih, List.forall_mem_cons]
    refine and_congr_left fun _ => ?_
    cases lookup bs k with
    | none => simp
    | some b => simp

/-- Equal objects have the same keys. -/
theorem mem_keys_of_pyEq {as bs : List (String × Json)} (ha : (as.map Prod.fst).Nodup)
    (hlen : as.length = bs.length) (h : pyEqMembers as bs = true) {k : String}
    (hk : k ∈ bs.map Prod.fst) : k ∈ as.map Prod.fst := by
  have hsub : as.map Prod.fst ⊆ bs.map Prod.fst := by
    intro k hk
    obtain ⟨p, hp, rfl⟩ := List.mem_map.1 hk
    obtain ⟨b, hb, -⟩ := pyEqMembers_iff.1 h p hp
    exact List.mem_map.2 ⟨_, mem_of_lookup hb, rfl⟩
  -- as many distinct keys as the other side has members: a permutation
  have hperm := (List.subperm_of_subset ha hsub).perm_of_length_le (by simp [hlen])
  exact hperm.mem_iff.2 hk

/-- A number is equal to the same number only, and a NaN to nothing. -/
theorem scalarEq_of_number {a b : Json} {x : PyFloat} (h : a.number? = some x) :
    scalarEq a b = true ↔ x ≠ .nan ∧ b.number? = some x := by
  have heq : scalarEq a b = (b.number?.map (numEq x)).getD false := by
    cases a with
    | bool v => cases h; cases b <;> rfl
    | int n => cases h; cases b <;> rfl
    | float y => cases h; cases b <;> rfl
    | _ => cases h
  rw [heq]
  cases b.number? with
  | none => simp
  | some y => simp [numEq, and_comm, @eq_comm _ y]

/-- Two scalars are equal when they are both null, the same text, or the same number. -/
theorem scalarEq_iff {a b : Json} : scalarEq a b = true ↔
    (a = .null ∧ b = .null) ∨ (∃ s, a = .str s ∧ b = .str s) ∨
      ∃ x, x ≠ .nan ∧ a.number? = some x ∧ b.number? = some x := by
  cases ha : a.number? with
  | some x =>
    rw [scalarEq_of_number ha]
    cases a <;> simp_all [number?]
  | none =>
    cases a with
    | str s => cases b <;> simp [scalarEq, number?, @eq_comm _ s]
    | null => cases b <;> simp [scalarEq, number?]
    | arr l => simp [scalarEq, number?]
    | obj kvs => simp [scalarEq, number?]
    | _ => simp [number?] at ha

/-- Values that are equal to the same scalar are equal. -/
theorem scalarEq_euclid {a b c : Json} (hab : scalarEq a b = true) (hac : scalarEq a c = true) :
    pyEq b c = true := by
  have hbc : scalarEq b c = true := by
    rw [scalarEq_iff] at hab hac ⊢
    rcases hab with ⟨rfl, rfl⟩ | ⟨s, rfl, rfl⟩ | ⟨x, hx, hax, hbx⟩
    · exact hac
    · exact hac
    · rcases hac with ⟨rfl, rfl⟩ | ⟨s, rfl, rfl⟩ | ⟨y, -, hay, hcy⟩
      · simp [number?] at hax
      · simp [number?] at hax
      · rw [hax] at hay
        exact .inr (.inr ⟨x, hx, hbx, by rw [hcy, hay]⟩)
  -- no list and no object is equal to a scalar
  cases b with
  | arr l => simp [scalarEq, number?] at hbc
  | obj kvs => simp [scalarEq, number?] at hbc
  | _ => simpa only [pyEq] using hbc

mutual

/-- Values that are equal to the same value are equal. -/
theorem pyEq_euclid : ∀ (a b c : Json), a.Keyed → b.Keyed → pyEq a b = true →
    pyEq a c = true → pyEq b c = true
  | .arr as, b, c, ha, hb, hab, hac => by
    cases b with
    | arr bs =>
      cases c with
      | arr cs => exact pyEqList_euclid as bs cs ha hb hab hac
      | _ => simp [pyEq, scalarEq, number?] at hac
    | _ => simp [pyEq, scalarEq, number?] at hab
  | .obj as, b, c, ha, hb, hab, hac => by
    cases b with
    | obj bs =>
      cases c with
      | obj cs =>
        simp only [pyEq, Bool.and_eq_true, beq_iff_eq] at hab hac ⊢
        refine ⟨hab.1.symm.trans hac.1, pyEqMembers_iff.2 fun p hp => ?_⟩
        -- the member of the first object under the same key
        have hk := mem_keys_of_pyEq ha.1 hab.1 hab.2 (List.mem_map_of_mem hp)
        obtain ⟨q, hq, hkey⟩ := List.mem_map.1 hk
        obtain ⟨v, hv, hqv⟩ := pyEqMembers_iff.1 hab.2 q hq
        obtain ⟨w, hw, hqw⟩ := pyEqMembers_iff.1 hac.2 q hq
        rw [hkey] at hv hw
        rw [lookup_of_mem hb.1 hp] at hv
        have hvp : p.2 = v := Option.some.inj hv
        exact ⟨w, hw, pyEqMembers_euclid as ha.2 q hq p.2 w (keyedMembers_iff.1 hb.2 p hp)
          (hvp ▸ hqv) hqw⟩
      | _ => simp [pyEq, scalarEq, number?] at hac
    | _ => simp [pyEq, scalarEq, number?] at hab
  | .null, b, c, _, _, hab, hac | .bool _, b, c, _, _, hab, hac | .int _, b, c, _, _, hab, hac
  | .float _, b, c, _, _, hab, hac | .str _, b, c, _, _, hab, hac => by
    simp only [pyEq] at hab hac
    exact scalarEq_euclid hab hac

/-- Lists that equal one list equal each other. -/
theorem pyEqList_euclid : ∀ (as bs cs : List Json), KeyedList as → KeyedList bs →
    pyEqList as bs = true → pyEqList as cs = true → pyEqList bs cs = true
  | [], bs, cs, _, _, hab, hac => by
    cases bs <;> cases cs <;> simp_all [pyEqList]
  | a :: as, bs, cs, ha, hb, hab, hac => by
    cases bs with
    | nil => simp [pyEqList] at hab
    | cons b bs =>
      cases cs with
      | nil => simp [pyEqList] at hac
      | cons c cs =>
        rw [pyEqList, Bool.and_eq_true] at hab hac ⊢
        exact ⟨pyEq_euclid a b c ha.1 hb.1 hab.1 hac.1,
          pyEqList_euclid as bs cs ha.2 hb.2 hab.2 hac.2⟩

/-- Members that equal one member equal each other. -/
theorem pyEqMembers_euclid : ∀ (as : List (String × Json)), KeyedMembers as → ∀ p ∈ as,
    ∀ b c : Json, b.Keyed → pyEq p.2 b = true → pyEq p.2 c = true → pyEq b c = true
  | [], _, _, hp, _, _, _, _, _ => absurd hp List.not_mem_nil
  | (k, a) :: as, ha, p, hp, b, c, hb, hab, hac => by
    rcases List.mem_cons.1 hp with rfl | hp
    · exact pyEq_euclid a b c ha.1 hb hab hac
    · exact pyEqMembers_euclid as ha.2 p hp b c hb hab hac

end

mutual

/-- What is equal to some value is equal to itself: it holds no NaN. -/
theorem pyEq_self_left : ∀ (a b : Json), a.Keyed → pyEq a b = true → pyEq a a = true
  | .arr as, b, ha, hab => by
    cases b with
    | arr bs => exact pyEqList_self_left as bs ha hab
    | _ => simp [pyEq, scalarEq, number?] at hab
  | .obj as, b, ha, hab => by
    cases b with
    | obj bs =>
      simp only [pyEq, Bool.and_eq_true] at hab ⊢
      refine ⟨beq_self_eq_true _, pyEqMembers_iff.2 fun p hp => ⟨p.2, lookup_of_mem ha.1 hp, ?_⟩⟩
      obtain ⟨v, -, hv⟩ := pyEqMembers_iff.1 hab.2 p hp
      exact pyEqMembers_self_left as ha.2 p hp v hv
    | _ => simp [pyEq, scalarEq, number?] at hab
  | .null, b, _, hab | .bool _, b, _, hab | .int _, b, _, hab | .float _, b, _, hab
  | .str _, b, _, hab => by
    simp only [pyEq, scalarEq_iff] at hab ⊢
    rcases hab with ⟨h, -⟩ | ⟨s, h, -⟩ | ⟨x, hx, h, -⟩
    · exact .inl ⟨h, h⟩
    · exact .inr (.inl ⟨s, h, h⟩)
    · exact .inr (.inr ⟨x, hx, h, h⟩)

/-- A list that equals another equals itself. -/
theorem pyEqList_self_left : ∀ (as bs : List Json), KeyedList as →
    pyEqList as bs = true → pyEqList as as = true
  | [], _, _, _ => by rw [pyEqList]
  | a :: as, bs, ha, hab => by
    cases bs with
    | nil => simp [pyEqList] at hab
    | cons b bs =>
      rw [pyEqList, Bool.and_eq_true] at hab ⊢
      exact ⟨pyEq_self_left a b ha.1 hab.1, pyEqList_self_left as bs ha.2 hab.2⟩

/-- A member that equals another equals itself. -/
theorem pyEqMembers_self_left : ∀ (as : List (String × Json)), KeyedMembers as → ∀ p ∈ as,
    ∀ b : Json, pyEq p.2 b = true → pyEq p.2 p.2 = true
  | [], _, _, hp, _, _ => absurd hp List.not_mem_nil
  | (k, a) :: as, ha, p, hp, b, hab => by
    rcases List.mem_cons.1 hp with rfl | hp
    · exact pyEq_self_left a b ha.1 hab
    · exact pyEqMembers_self_left as ha.2 p hp b hab

end

/-- `==` is symmetric on keyed values. -/
theorem pyEq_symm {a b : Json} (ha : a.Keyed) (hb : b.Keyed) (h : pyEq a b = true) :
    pyEq b a = true :=
  pyEq_euclid a b a ha hb h (pyEq_self_left a b ha h)

/-- `==` is transitive on keyed values. -/
theorem pyEq_trans {a b c : Json} (ha : a.Keyed) (hb : b.Keyed) (hab : pyEq a b = true)
    (hbc : pyEq b c = true) : pyEq a c = true :=
  pyEq_euclid b a c hb ha (pyEq_symm ha hb hab) hbc

/-- Equal objects agree on a key that both have. -/
theorem pyEq_member {as bs : List (String × Json)} {k : String} {a b : Json}
    (h : pyEq (.obj as) (.obj bs) = true) (ha : lookup as k = some a)
    (hb : lookup bs k = some b) : pyEq a b = true := by
  simp only [pyEq, Bool.and_eq_true] at h
  obtain ⟨v, hv, hav⟩ := pyEqMembers_iff.1 h.2 _ (mem_of_lookup ha)
  rw [hb] at hv
  exact Option.some.inj hv ▸ hav

/-! ### Values inside a value -/

/-- What `for x in v` gives is as well formed as `v`. -/
theorem keyed_of_elements {ε : Type} {v : Json} {l : List Json} (hv : v.Keyed)
    (h : v.elements = (.ok l : PyM ε _)) : ∀ x ∈ l, x.Keyed := by
  intro x hx
  cases v with
  | arr as =>
    cases h
    exact keyedList_iff.1 hv x hx
  | str s =>
    cases h
    obtain ⟨c, -, rfl⟩ := List.mem_map.1 hx
    trivial
  | obj kvs =>
    cases h
    obtain ⟨p, -, rfl⟩ := List.mem_map.1 hx
    trivial
  | _ => cases h

/-- What `dict` makes of pairs is keyed. -/
theorem keyed_of_dictOfPairs {ε : Type} {l : List Json} {d d' : List (String × Json)}
    (hl : ∀ v ∈ l, v.Keyed) (hd : ∀ p ∈ d, p.2.Keyed)
    (h : dictOfPairs d l = (.ok d' : PyM ε _)) : ∀ p ∈ d', p.2.Keyed := by
  induction l generalizing d with
  | nil =>
    cases h
    exact hd
  | cons e rest ih =>
    have hrest := fun w hw => hl w (List.mem_cons_of_mem e hw)
    have he := hl e List.mem_cons_self
    unfold dictOfPairs at h
    split at h
    -- the three kinds of a sequence, then a value that is none
    rotate_right 1
    · cases h
    all_goals
      obtain ⟨seq, hseq, h⟩ := except_bind_eq_ok.1 h
      have hkeyed := keyed_of_elements he hseq
      split at h
      · next k v =>
        split_ifs at h
        refine ih hrest ?_ h
        split
        · intro p hp
          rcases mem_dictSet (l := p.1) (w := p.2) hp with ⟨-, hw⟩ | ⟨-, hp⟩
          · rw [hw]
            exact hkeyed v (by simp)
          · exact hd p hp
        · exact hd
      · cases h

/-- The members of `dict(v or {})` are as well formed as `v`. -/
theorem keyed_of_toDict {ε : Type} {v : Json} {d : List (String × Json)} (hv : v.Keyed)
    (h : v.toDict = (.ok d : PyM ε _)) : ∀ p ∈ d, p.2.Keyed := by
  unfold toDict at h
  split at h
  · split at h
    · cases h
      exact keyedMembers_iff.1 hv.2
    · exact keyed_of_dictOfPairs (keyedList_iff.1 hv) (fun p hp => absurd hp List.not_mem_nil) h
    · cases h
    · cases h
  · cases h
    exact fun p hp => absurd hp List.not_mem_nil

/-- A member of a keyed object is keyed. -/
theorem keyed_get {d : List (String × Json)} {k : String} {default : Json}
    (hd : ∀ p ∈ d, p.2.Keyed) (hdefault : default.Keyed) : (get d k default).Keyed := by
  rw [get]
  cases h : lookup d k with
  | none => exact hdefault
  | some v => exact hd _ (mem_of_lookup h)

end Ser2Net.Lib.Json
