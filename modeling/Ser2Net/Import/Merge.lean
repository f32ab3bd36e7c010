import Ser2Net.Import.Apply

namespace Ser2Net.Import

open Ser2Net.Lib Ser2Net.Config

/-!
# Import — what a merge makes of the file

The list that a merge updates changes while it is matched against: an uploaded mapping that has
the name of a current one is written over it, and a later one that has its id is written over
that.

* `Merged` — every uploaded mapping is in the merged list, with the id of the mapping that it
  updates;
* `Slots` — what a merge has made of each current mapping after a part of the file;
* `Clear` — no current mapping is updated by its name and then again by its id;
* `merged_iff_clear` — the merge keeps the whole file exactly then.
-/

/-- Python's `y in l`: an element is the value or equal to it. -/
def Holds (l : List MappingConfig) (y : MappingConfig) : Prop :=
  ∃ r ∈ l, r = y ∨ y.pyEq r = true

/-- The id of the mapping that `x` updates when it comes after the mappings `before`. -/
def updatedId (m : Platform) (newIds : Nat → String) (current before : List MappingConfig)
    (x : MappingConfig) : Json :=
  match applyImport m newIds current before "merge" with
  | .ok (result, _) => pinnedId result x
  | .error _ => x.id

/-- The merge returns a list with every uploaded mapping, with all its fields. -/
def Merged (m : Platform) (newIds : Nat → String) (current incoming : List MappingConfig) : Prop :=
  ∃ result touched, applyImport m newIds current incoming "merge" = .ok (result, touched) ∧
    ∀ (i : Nat) (x : MappingConfig), incoming[i]? = some x →
      Holds result { x with id := updatedId m newIds current (incoming.take i) x }

/-- The current mapping that `x` updates by its name when it comes after the mappings
    `before`: the first of that name whose id is not the id of one of these. -/
def nameTarget (current before : List MappingConfig) (x : MappingConfig) : Option MappingConfig :=
  current.find? fun c => c.name.pyEq x.name && before.all fun y => !c.id.pyEq y.id

/-- No uploaded mapping updates a current one by its name whose id a later one has. -/
def Clear (current incoming : List MappingConfig) : Prop :=
  ∀ (i : Nat) (x c : MappingConfig), incoming[i]? = some x →
    (∀ e ∈ current, e.id.pyEq x.id = false) → nameTarget current (incoming.take i) x = some c →
      ∀ z ∈ incoming.drop (i + 1), c.id.pyEq z.id = false

/-- The ids of the uploaded mappings are distinct, and so are their names. -/
def DistinctFile (xs : List MappingConfig) : Prop :=
  xs.Pairwise fun a b => a.id.pyEq b.id = false ∧ a.name.pyEq b.name = false

/-- The objects inside the id and the name have distinct keys. -/
def KeyedLabels (c : MappingConfig) : Prop := c.id.Keyed ∧ c.name.Keyed

/-- The labels that `from_dict` takes from a parsed document are well formed. -/
theorem keyedLabels_of_fromDict {m : Platform} {newId : String} {v : Json} {c : MappingConfig}
    (hv : v.Keyed) (h : MappingConfig.fromDict m newId v = .ok c) : KeyedLabels c := by
  obtain ⟨d, hd, hread⟩ := MappingConfig.fromDict_eq_ok h
  have hkeyed := Json.keyed_of_toDict hv hd
  constructor
  · rw [hread.id, orElse]
    split
    · exact Json.keyed_get hkeyed trivial
    · trivial
  · rw [hread.name]
    exact Json.keyed_get hkeyed trivial

/-! ### The name that a slot shows -/

/-- The mapping `r` shows the name of `x`. -/
def Named (r x : MappingConfig) : Prop := r.name = x.name ∨ x.name.pyEq r.name = true

theorem name_of_pyEq {a b : MappingConfig} (h : a.pyEq b = true) :
    a.name.pyEq b.name = true :=
  Json.pyEq_member (k := "name") h rfl rfl

theorem Named.ne {r x z : MappingConfig} (hr : r.name.Keyed) (hx : x.name.Keyed)
    (h : Named r x) (hne : x.name.pyEq z.name = false) : r.name.pyEq z.name = false := by
  rcases h with h | h
  · rwa [h]
  · by_contra heq
    have heq : r.name.pyEq z.name = true := by simpa using heq
    rw [Json.pyEq_trans hx hr h heq] at hne
    cases hne

/-- The first mapping with the id of `z` is the only one. -/
theorem matchTarget_of_id {result : List MappingConfig} (hd : DistinctIds result)
    (hk : ∀ r ∈ result, KeyedLabels r) {z : MappingConfig} (hz : KeyedLabels z) {t : Nat}
    (ht : t < result.length) (hid : result[t].id.pyEq z.id = true) :
    matchTarget result z = some ⟨t, ht⟩ := by
  have hfind : (result.findFinIdx? fun e => e.id.pyEq z.id) = some ⟨t, ht⟩ := by
    refine List.findFinIdx?_eq_some_iff.2 ⟨hid, fun j hj => ?_⟩
    intro hjz
    have hkt := (hk _ (List.getElem_mem ht)).1
    have hkj := (hk _ (List.getElem_mem j.2)).1
    have heq := Json.pyEq_trans hkj hz.1 hjz (Json.pyEq_symm hkt hz.1 hid)
    have hne := List.pairwise_iff_getElem.1 hd j t j.2 ht hj
    exact Bool.false_ne_true (hne.symm.trans heq)
  rw [matchTarget, hfind]
  rfl

/-! ### One step -/

/-- The slot that `x` goes to, and what it then holds. -/
theorem place_target {result : List MappingConfig} {x : MappingConfig} {i : Fin result.length}
    (h : matchTarget result x = some i) : ∃ r, (place result x)[(i : Nat)]? = some r ∧
      r.id = pinnedId result x ∧ Named r x ∧
      (r = { x with id := pinnedId result x } ∨
        ({ x with id := pinnedId result x } : MappingConfig).pyEq r = true) ∧
      ∀ t : Nat, t ≠ i → (place result x)[t]? = result[t]? := by
  have hi : result[(i : Nat)]? = some result[i] := List.getElem?_eq_getElem i.2
  rw [pinnedId_of_some h hi]
  unfold place
  rw [h]
  dsimp only
  split
  · next heq =>
    have hname := name_of_pyEq heq
    exact ⟨result[i], hi, rfl, .inr hname, .inr heq, fun t _ => rfl⟩
  · exact ⟨_, List.getElem?_set_self i.2, rfl, .inl rfl, .inl rfl,
      fun t ht => List.getElem?_set_ne (Ne.symm ht)⟩

theorem place_of_none {result : List MappingConfig} {x : MappingConfig}
    (h : matchTarget result x = none) :
    place result x = result ++ [x] ∧ pinnedId result x = x.id := by
  constructor
  · rw [place, h]
  · rw [pinnedId, h]

theorem keyedLabels_place {result : List MappingConfig} {x : MappingConfig}
    (hk : ∀ r ∈ result, KeyedLabels r) (hx : KeyedLabels x) :
    ∀ r ∈ place result x, KeyedLabels r := by
  intro r hr
  unfold place at hr
  split at hr
  · next i _ =>
    split at hr
    · exact hk r hr
    · rcases List.mem_or_eq_of_mem_set hr with hr | rfl
      · exact hk r hr
      · exact ⟨(hk _ (List.getElem_mem i.2)).1, hx.2⟩
  · rcases List.mem_append.1 hr with hr | hr
    · exact hk r hr
    · exact List.mem_singleton.1 hr ▸ hx

/-! ### After a part of the file -/

/-- What a merge of `ys` has made of the list `cur`: a slot of the list still holds its mapping,
    whose id no `y` has, or it was updated and shows the name of some `y`; further slots show
    the name of some `y` and have the id of one. -/
structure Slots (cur ys result : List MappingConfig) : Prop where
  distinct : DistinctIds result
  keyed : ∀ r ∈ result, KeyedLabels r
  slot : ∀ (t : Nat) (c : MappingConfig), cur[t]? = some c →
    ∃ r, result[t]? = some r ∧ r.id = c.id ∧
      ((r = c ∧ ∀ y ∈ ys, c.id.pyEq y.id = false) ∨
        ∃ y ∈ ys, Named r y ∧
          ((∃ z ∈ ys, c.id.pyEq z.id = true) ∨ c.name.pyEq y.name = true))
  added : ∀ (t : Nat) (r : MappingConfig), cur.length ≤ t → result[t]? = some r →
    ∃ y ∈ ys, Named r y ∧ ∃ z ∈ ys, r.id = z.id

theorem Slots.init {cur : List MappingConfig} (hd : DistinctIds cur)
    (hk : ∀ c ∈ cur, KeyedLabels c) : Slots cur [] cur where
  distinct := hd
  keyed := hk
  slot t c ht := ⟨c, ht, rfl, .inl ⟨rfl, fun y hy => absurd hy List.not_mem_nil⟩⟩
  added t r hle ht := by
    rw [List.getElem?_eq_none hle] at ht
    cases ht

section
variable {cur ys result : List MappingConfig} {x : MappingConfig}

/-- The slot that `x` goes to is one of the current list: it has the id of `x`, or no slot has
    and it holds its mapping still and is the first with the name of `x`. -/
theorem Slots.target (hs : Slots cur ys result) (hys : ∀ y ∈ ys, KeyedLabels y)
    (hx : ∀ y ∈ ys, y.id.pyEq x.id = false ∧ y.name.pyEq x.name = false)
    {i : Fin result.length} (h : matchTarget result x = some i) :
    ∃ c, cur[(i : Nat)]? = some c ∧ pinnedId result x = c.id ∧
      (c.id.pyEq x.id = true ∨
        ((∀ e ∈ result, e.id.pyEq x.id = false) ∧ c.name.pyEq x.name = true ∧
          (∀ y ∈ ys, c.id.pyEq y.id = false) ∧
          ∀ (j : Nat) (r : MappingConfig), j < i → result[j]? = some r →
            r.name.pyEq x.name = false)) := by
  have hi : result[(i : Nat)]? = some result[i] := List.getElem?_eq_getElem i.2
  have hkey := hs.keyed _ (List.getElem_mem i.2)
  -- a slot that shows the name of an earlier mapping does not have the name of `x`
  have hshown : ∀ y ∈ ys, Named result[i] y → result[i].name.pyEq x.name = false :=
    fun y hy hnamed => hnamed.ne hkey.2 (hys y hy).2 (hx y hy).2
  by_cases hlt : (i : Nat) < cur.length
  · have hc : cur[(i : Nat)]? = some cur[(i : Nat)] := List.getElem?_eq_getElem hlt
    obtain ⟨r, hr, hid, hslot⟩ := hs.slot i _ hc
    rw [hi] at hr
    cases hr
    refine ⟨_, hc, (pinnedId_of_some h hi).trans hid, ?_⟩
    rcases matchTarget_eq_some h with ⟨hmid, -⟩ | ⟨hnone, hname, hfirst⟩
    · exact .inl (hid ▸ hmid)
    · rcases hslot with ⟨hsame, hfree⟩ | ⟨y, hy, hnamed, -⟩
      · refine .inr ⟨hnone, hsame ▸ hname, hfree, fun j r hj hr => ?_⟩
        obtain ⟨hlt, rfl⟩ := List.getElem?_eq_some_iff.1 hr
        exact hfirst j hj
      · rw [hshown y hy hnamed] at hname
        cases hname
  · exfalso
    obtain ⟨y, hy, hnamed, z, hz, hzid⟩ := hs.added i _ (Nat.le_of_not_lt hlt) hi
    rcases matchTarget_eq_some h with ⟨hmid, -⟩ | ⟨-, hname, -⟩
    · rw [hzid, (hx z hz).1] at hmid
      cases hmid
    · rw [hshown y hy hnamed] at hname
      cases hname

/-- One more mapping of the file. -/
theorem Slots.step (hs : Slots cur ys result) (hys : ∀ y ∈ ys, KeyedLabels y)
    (hkx : KeyedLabels x)
    (hx : ∀ y ∈ ys, y.id.pyEq x.id = false ∧ y.name.pyEq x.name = false) :
    Slots cur (ys ++ [x]) (place result x) := by
  have hmono : ∀ y ∈ ys, y ∈ ys ++ [x] := fun y hy => List.mem_append_left _ hy
  have hself : x ∈ ys ++ [x] := List.mem_append_right _ (List.mem_singleton_self x)
  -- a slot that `x` does not go to
  have hkeep : ∀ (t : Nat) (c r : MappingConfig), result[t]? = some r → r.id = c.id →
      r.id.pyEq x.id = false →
      ((r = c ∧ ∀ y ∈ ys, c.id.pyEq y.id = false) ∨ ∃ y ∈ ys, Named r y ∧
        ((∃ z ∈ ys, c.id.pyEq z.id = true) ∨ c.name.pyEq y.name = true)) →
      (r = c ∧ ∀ y ∈ ys ++ [x], c.id.pyEq y.id = false) ∨ ∃ y ∈ ys ++ [x], Named r y ∧
        ((∃ z ∈ ys ++ [x], c.id.pyEq z.id = true) ∨ c.name.pyEq y.name = true) := by
    intro t c r _ hid hne hslot
    rcases hslot with ⟨hsame, hfree⟩ | ⟨y, hy, hnamed, hwhy⟩
    · refine .inl ⟨hsame, fun y hy => ?_⟩
      rcases List.mem_append.1 hy with hy | hy
      · exact hfree y hy
      · rw [List.mem_singleton.1 hy, ← hid]
        exact hne
    · refine .inr ⟨y, hmono y hy, hnamed, ?_⟩
      rcases hwhy with ⟨z, hz, hzid⟩ | hname
      · exact .inl ⟨z, hmono z hz, hzid⟩
      · exact .inr hname
  cases hmatch : matchTarget result x with
  | some i =>
    obtain ⟨r', hr', hrid, hnamed, -, hothers⟩ := place_target hmatch
    obtain ⟨d, hd, hdid, hwhy⟩ := hs.target hys hx hmatch
    refine ⟨place_distinct hs.distinct x, keyedLabels_place hs.keyed hkx, ?_, ?_⟩
    · intro t c ht
      by_cases hti : t = i
      · subst hti
        rw [hd] at ht
        cases ht
        refine ⟨r', hr', hrid.trans hdid, .inr ⟨x, hself, hnamed, ?_⟩⟩
        rcases hwhy with hid | ⟨-, hname, -, -⟩
        · exact .inl ⟨x, hself, hid⟩
        · exact .inr hname
      · obtain ⟨r, hr, hid, hslot⟩ := hs.slot t c ht
        refine ⟨r, (hothers t hti).trans hr, hid, hkeep t c r hr hid ?_ hslot⟩
        -- with the id of `x` it would be the slot that `x` goes to
        by_contra heq
        obtain ⟨hlt, rfl⟩ := List.getElem?_eq_some_iff.1 hr
        have := matchTarget_of_id hs.distinct hs.keyed hkx hlt (by simpa using heq)
        rw [hmatch] at this
        exact hti (congrArg Fin.val (Option.some.inj this)).symm
    · intro t r hle ht
      have hti : t ≠ i := by
        rintro rfl
        rw [List.getElem?_eq_none hle] at hd
        cases hd
      rw [hothers t hti] at ht
      obtain ⟨y, hy, hnamed, z, hz, hzid⟩ := hs.added t r hle ht
      exact ⟨y, hmono y hy, hnamed, z, hmono z hz, hzid⟩
  | none =>
    have hnone := matchTarget_eq_none hmatch
    refine ⟨place_distinct hs.distinct x, keyedLabels_place hs.keyed hkx, ?_, ?_⟩
    · intro t c ht
      obtain ⟨r, hr, hid, hslot⟩ := hs.slot t c ht
      have hlt := (List.getElem?_eq_some_iff.1 hr).1
      refine ⟨r, ?_, hid, hkeep t c r hr hid (hnone r (List.mem_of_getElem? hr)).1 hslot⟩
      rw [(place_of_none hmatch).1, List.getElem?_append_left hlt]
      exact hr
    · intro t r hle ht
      rw [(place_of_none hmatch).1] at ht
      by_cases hlt : t < result.length
      · rw [List.getElem?_append_left hlt] at ht
        obtain ⟨y, hy, hnamed, z, hz, hzid⟩ := hs.added t r hle ht
        exact ⟨y, hmono y hy, hnamed, z, hmono z hz, hzid⟩
      · have hrx : r = x := by
          rw [List.getElem?_append_right (Nat.le_of_not_lt hlt)] at ht
          exact List.mem_singleton.1 (List.mem_of_getElem? ht)
        exact ⟨x, hself, .inl (by rw [hrx]), x, hself, by rw [hrx]⟩

/-- The merge of a part of the file, from any slots on. -/
theorem Slots.run {zs : List MappingConfig} (hs : Slots cur ys result)
    (hk : ∀ y ∈ ys ++ zs, KeyedLabels y) (hfile : DistinctFile (ys ++ zs)) :
    Slots cur (ys ++ zs) (zs.foldl place result) := by
  induction zs generalizing ys result with
  | nil => rwa [List.append_nil]
  | cons x zs ih =>
    have happ : ys ++ x :: zs = ys ++ [x] ++ zs := by simp
    have hx : ∀ y ∈ ys, y.id.pyEq x.id = false ∧ y.name.pyEq x.name = false :=
      fun y hy => (List.pairwise_append.1 hfile).2.2 y hy x List.mem_cons_self
    have hstep := hs.step (fun y hy => hk y (List.mem_append_left _ hy))
      (hk x (List.mem_append_right _ List.mem_cons_self)) hx
    rw [happ] at hk hfile ⊢
    exact ih hstep hk hfile

/-- A slot with the id of `x` keeps what it holds after `x`, and so does one whose id no later
    mapping has. -/
theorem foldl_place_slot {zs : List MappingConfig} {r : MappingConfig} {t : Nat}
    (ht : result[t]? = some r) (hr : r.name.Keyed) (hx : x.name.Keyed) (hnamed : Named r x)
    (hids : ∀ z ∈ zs, r.id.pyEq z.id = false) (hnames : ∀ z ∈ zs, x.name.pyEq z.name = false) :
    (zs.foldl place result)[t]? = some r :=
  foldl_place_getElem? ht fun z hz => ⟨hids z hz, hnamed.ne hr hx (hnames z hz)⟩

/-- A slot that is updated by its name is the one that `nameTarget` names. -/
theorem Slots.nameTarget_eq (hs : Slots cur ys result) (hk : ∀ c ∈ cur, KeyedLabels c)
    (hys : ∀ y ∈ ys, KeyedLabels y) (hx : ∀ y ∈ ys, y.name.pyEq x.name = false)
    {c : MappingConfig} {i : Nat} (hi : cur[i]? = some c) (hname : c.name.pyEq x.name = true)
    (hfree : ∀ y ∈ ys, c.id.pyEq y.id = false)
    (hfirst : ∀ (j : Nat) (r : MappingConfig), j < i → result[j]? = some r →
      r.name.pyEq x.name = false) : nameTarget cur ys x = some c := by
  obtain ⟨hlt, rfl⟩ := List.getElem?_eq_some_iff.1 hi
  refine List.find?_eq_some_iff_getElem.2 ⟨?_, i, hlt, rfl, fun j hj => ?_⟩
  · simpa [hname] using hfree
  · -- an earlier slot of that name was updated by an id of the file
    have hjlt : j < cur.length := lt_trans hj hlt
    obtain ⟨r, hr, hid, hslot⟩ := hs.slot j _ (List.getElem?_eq_getElem hjlt)
    have hrname := hfirst j r hj hr
    rw [Bool.not_eq_true', Bool.and_eq_false_iff]
    -- the slot still holds its mapping, or an entry of the file has taken it
    rcases hslot with ⟨rfl, -⟩ | ⟨y, hy, -, ⟨z, hz, hzid⟩ | hyname⟩
    · exact .inl hrname
    · refine .inr (List.all_eq_false.2 ⟨z, hz, by simp [hzid]⟩)
    · refine .inl ?_
      by_contra heq
      have heq : cur[j].name.pyEq x.name = true := by simpa using heq
      have := Json.pyEq_euclid _ _ _ (hk _ (List.getElem_mem hjlt)).2 (hys y hy).2 hyname heq
      rw [hx y hy] at this
      cases this

end

/-! ### The whole file -/

section
variable {cur ys zs : List MappingConfig} {x : MappingConfig}

/-- The merged list holds `x` when no later mapping has the id of the slot it goes to. -/
theorem holds_of_slot {result : List MappingConfig} (hs : Slots cur ys result)
    (hkx : KeyedLabels x) (hids : ∀ z ∈ zs, (pinnedId result x).pyEq z.id = false)
    (hnames : ∀ z ∈ zs, x.name.pyEq z.name = false) :
    Holds (zs.foldl place (place result x)) { x with id := pinnedId result x } := by
  have hkeyed := keyedLabels_place hs.keyed hkx
  cases hmatch : matchTarget result x with
  | some i =>
    obtain ⟨r, hr, hrid, hnamed, hsame, -⟩ := place_target hmatch
    have hfinal := foldl_place_slot hr (hkeyed r (List.mem_of_getElem? hr)).2 hkx.2 hnamed
      (fun z hz => by rw [hrid]; exact hids z hz) hnames
    exact ⟨r, List.mem_of_getElem? hfinal, hsame⟩
  | none =>
    obtain ⟨hplace, hpin⟩ := place_of_none hmatch
    have hr : (place result x)[result.length]? = some x := by
      rw [hplace, List.getElem?_append_right (le_refl _)]
      simp
    have hfinal := foldl_place_slot hr hkx.2 hkx.2 (.inl rfl)
      (fun z hz => hpin ▸ hids z hz) hnames
    refine ⟨x, List.mem_of_getElem? hfinal, .inl ?_⟩
    rw [hpin]

/-- The file around its `i`-th mapping. -/
theorem split_at {xs : List MappingConfig} {i : Nat} (h : xs[i]? = some x) :
    xs = xs.take i ++ x :: xs.drop (i + 1) := by
  obtain ⟨hlt, rfl⟩ := List.getElem?_eq_some_iff.1 h
  rw [List.getElem_cons_drop hlt, List.take_append_drop]

/-- No mapping of the file has the id that `x` takes, when it is `Clear`. -/
theorem pinnedId_ne (hkc : ∀ c ∈ cur, KeyedLabels c) (hk : ∀ y ∈ ys ++ x :: zs, KeyedLabels y)
    (hfile : DistinctFile (ys ++ x :: zs)) {result : List MappingConfig}
    (hs : Slots cur ys result)
    (hclear : ∀ c, (∀ e ∈ cur, e.id.pyEq x.id = false) → nameTarget cur ys x = some c →
      ∀ z ∈ zs, c.id.pyEq z.id = false) :
    ∀ z ∈ zs, (pinnedId result x).pyEq z.id = false := by
  obtain ⟨-, hfile', hbefore⟩ := List.pairwise_append.1 hfile
  have hlater := (List.pairwise_cons.1 hfile').1
  have hys : ∀ y ∈ ys, KeyedLabels y := fun y hy => hk y (List.mem_append_left _ hy)
  have hkx : KeyedLabels x := hk x (List.mem_append_right _ List.mem_cons_self)
  have hx := fun y hy => hbefore y hy x List.mem_cons_self
  intro z hz
  cases hmatch : matchTarget result x with
  | none =>
    rw [(place_of_none hmatch).2]
    exact (hlater z hz).1
  | some i =>
    obtain ⟨c, hc, hid, hwhy⟩ := hs.target hys hx hmatch
    rw [hid]
    -- the target was matched by its id, or by its name
    rcases hwhy with hmid | ⟨hnone, hname, hfree, hfirst⟩
    · by_contra heq
      have heq : c.id.pyEq z.id = true := by simpa using heq
      -- two entries of one file never share an id
      have := Json.pyEq_euclid _ _ _ (hkc c (List.mem_of_getElem? hc)).1 hkx.1 hmid heq
      rw [(hlater z hz).1] at this
      cases this
    · refine hclear c (fun e he => ?_) ?_ z hz
      · obtain ⟨t, ht⟩ := List.mem_iff_getElem?.1 he
        obtain ⟨r, hr, hrid, -⟩ := hs.slot t e ht
        rw [← hrid]
        exact hnone r (List.mem_of_getElem? hr)
      · refine hs.nameTarget_eq hkc hys (fun y hy => (hx y hy).2) hc hname hfree hfirst

/-- `x` takes the id of the mapping that it updates by its name. -/
theorem pinnedId_eq (hkc : ∀ c ∈ cur, KeyedLabels c) (hys : ∀ y ∈ ys, KeyedLabels y)
    (hx : ∀ y ∈ ys, y.id.pyEq x.id = false ∧ y.name.pyEq x.name = false)
    {result : List MappingConfig} (hs : Slots cur ys result) {c : MappingConfig}
    (hnone : ∀ e ∈ cur, e.id.pyEq x.id = false) (htarget : nameTarget cur ys x = some c) :
    pinnedId result x = c.id ∧ c.name.pyEq x.name = true ∧ ∃ t : Nat, cur[t]? = some c := by
  obtain ⟨hp, t, ht, rfl, -⟩ := List.find?_eq_some_iff_getElem.1 htarget
  obtain ⟨hname, hfree⟩ := Bool.and_eq_true_iff.1 hp
  have hfree : ∀ y ∈ ys, cur[t].id.pyEq y.id = false := by simpa using hfree
  obtain ⟨r, hr, hrid, hslot⟩ := hs.slot t _ (List.getElem?_eq_getElem ht)
  -- the slot was not updated, so that it has the name of `x` still
  have hsame : r = cur[t] := by
    rcases hslot with ⟨hsame, -⟩ | ⟨y, hy, -, ⟨z, hz, hzid⟩ | hyname⟩
    · exact hsame
    · rw [hfree z hz] at hzid
      cases hzid
    · have := Json.pyEq_euclid _ _ _ (hkc _ (List.getElem_mem ht)).2 (hys y hy).2 hyname hname
      rw [(hx y hy).2] at this
      cases this
  cases hmatch : matchTarget result x with
  | none =>
    have := (matchTarget_eq_none hmatch r (List.mem_of_getElem? hr)).2
    rw [hsame, hname] at this
    cases this
  | some i =>
    obtain ⟨d, hd, hdid, hwhy⟩ := hs.target hys hx hmatch
    rcases hwhy with hmid | ⟨-, hdname, hdfree, hfirst⟩
    · rw [hnone d (List.mem_of_getElem? hd)] at hmid
      cases hmid
    · have hd' := hs.nameTarget_eq hkc hys (fun y hy => (hx y hy).2) hd hdname hdfree hfirst
      rw [htarget] at hd'
      cases hd'
      exact ⟨hdid, hname, t, List.getElem?_eq_getElem ht⟩

/-- A slot that a mapping `z` of the file has the id of shows the name of `z` at the end. -/
theorem final_slot {xs ws : List MappingConfig} {z c : MappingConfig} {t : Nat}
    (hkc : ∀ c ∈ cur, KeyedLabels c) (hd : DistinctIds cur)
    (hk : ∀ y ∈ xs ++ z :: ws, KeyedLabels y) (hfile : DistinctFile (xs ++ z :: ws))
    (ht : cur[t]? = some c) (hid : c.id.pyEq z.id = true) :
    ∃ r, ((xs ++ z :: ws).foldl place cur)[t]? = some r ∧ r.id = c.id ∧ Named r z := by
  have hkz : KeyedLabels z := hk z (List.mem_append_right _ List.mem_cons_self)
  have hxs : DistinctFile xs := (List.pairwise_append.1 hfile).1
  have hlater := (List.pairwise_cons.1 (List.pairwise_append.1 hfile).2.1).1
  have hs : Slots cur xs (xs.foldl place cur) :=
    (Slots.init hd hkc).run (fun y hy => hk y (List.mem_append_left _ hy)) hxs
  obtain ⟨r, hr, hrid, -⟩ := hs.slot t c ht
  obtain ⟨hlt, rfl⟩ := List.getElem?_eq_some_iff.1 hr
  -- the slot keeps its id, so the entry with that id lands in it
  have hmatch := matchTarget_of_id hs.distinct hs.keyed hkz hlt (hrid ▸ hid)
  obtain ⟨r', hr', hrid', hnamed, -, -⟩ := place_target hmatch
  have hrc : r'.id = c.id := (hrid'.trans (pinnedId_of_some hmatch hr)).trans hrid
  refine ⟨r', ?_, hrc, hnamed⟩
  rw [List.foldl_append, List.foldl_cons]
  -- what comes after has another name and another id
  refine foldl_place_slot hr' (keyedLabels_place hs.keyed hkz r' (List.mem_of_getElem? hr')).2
    hkz.2 hnamed (fun w hw => ?_) (fun w hw => (hlater w hw).2)
  rw [hrc]
  by_contra heq
  have heq : c.id.pyEq w.id = true := by simpa using heq
  have := Json.pyEq_euclid _ _ _ (hkc c (List.mem_of_getElem? ht)).1 hkz.1 hid heq
  rw [(hlater w hw).1] at this
  cases this

/-- A slot whose id a later mapping has does not hold `x` any more. -/
theorem not_holds_of_later {final : List MappingConfig} {r c z : MappingConfig} {t : Nat}
    (hd : DistinctIds final) (hkf : ∀ r ∈ final, KeyedLabels r) (hkc : KeyedLabels c)
    (hkx : KeyedLabels x) (hkz : KeyedLabels z) (ht : final[t]? = some r) (hrid : r.id = c.id)
    (hnamed : Named r z) (hid : c.id.pyEq z.id = true) (hname : c.name.pyEq x.name = true)
    (hne : x.name.pyEq z.name = false) : ¬ Holds final { x with id := c.id } := by
  rintro ⟨q, hq, hsame⟩
  -- neither the id nor the name is a NaN
  have hcid : c.id.pyEq c.id = true := Json.pyEq_self_left _ _ hkc.1 hid
  have hxname : x.name.pyEq x.name = true :=
    Json.pyEq_self_left _ _ hkx.2 (Json.pyEq_symm hkc.2 hkx.2 hname)
  have hqid : c.id.pyEq q.id = true := by
    rcases hsame with rfl | h
    · exact hcid
    · have := MappingConfig.id_of_pyEq h
      exact this
  have hqname : x.name.pyEq q.name = true := by
    rcases hsame with rfl | h
    · exact hxname
    · have := name_of_pyEq h
      exact this
  obtain ⟨s, hs, rfl⟩ := List.mem_iff_getElem.1 hq
  obtain ⟨hlt, rfl⟩ := List.getElem?_eq_some_iff.1 ht
  rcases lt_trichotomy s t with hst | rfl | hst
  · -- two slots with equal ids
    have := Json.pyEq_symm hkc.1 (hkf _ hq).1 hqid
    have hne := List.pairwise_iff_getElem.1 hd s t hs hlt hst
    rw [hrid, this] at hne
    cases hne
  · -- one slot with two names
    have hshown : x.name.pyEq z.name = true := by
      rcases hnamed with h | h
      · rwa [h] at hqname
      · exact Json.pyEq_trans hkx.2 (hkf _ hq).2 hqname (Json.pyEq_symm hkz.2 (hkf _ hq).2 h)
    rw [hshown] at hne
    cases hne
  · have hne := List.pairwise_iff_getElem.1 hd t s hlt hs hst
    rw [hrid, hqid] at hne
    cases hne

/-- Placing the file one mapping after the other keeps all of it exactly when it is `Clear`. -/
theorem holds_all_iff_clear {xs : List MappingConfig} (hd : DistinctIds cur)
    (hkc : ∀ c ∈ cur, KeyedLabels c) (hk : ∀ x ∈ xs, KeyedLabels x) (hfile : DistinctFile xs) :
    (∀ (i : Nat) (x : MappingConfig), xs[i]? = some x → Holds (xs.foldl place cur)
      { x with id := pinnedId ((xs.take i).foldl place cur) x }) ↔ Clear cur xs := by
  -- the slots before the `i`-th mapping
  have hslots : ∀ (i : Nat), Slots cur (xs.take i) ((xs.take i).foldl place cur) := fun i =>
    (Slots.init hd hkc).run (fun y hy => hk y (List.mem_of_mem_take hy))
      (hfile.sublist (List.take_sublist i xs))
  constructor
  · intro hall i x c hi hnone htarget z hz
    have hfinal : Slots cur xs (xs.foldl place cur) := (Slots.init hd hkc).run hk hfile
    have hsplit := split_at hi
    rw [hsplit] at hk hfile
    obtain ⟨-, hfile', hbefore⟩ := List.pairwise_append.1 hfile
    have hxz := (List.pairwise_cons.1 hfile').1 z hz
    have hys := fun y hy => hk y (List.mem_append_left _ hy)
    have hkx := hk x (List.mem_append_right _ List.mem_cons_self)
    obtain ⟨hpin, hname, t, ht⟩ := pinnedId_eq hkc hys
      (fun y hy => hbefore y hy x List.mem_cons_self) (hslots i) hnone htarget
    by_contra heq
    have hid : c.id.pyEq z.id = true := by simpa using heq
    -- the file around `z`
    obtain ⟨us, ws, hz'⟩ := List.append_of_mem hz
    have hxs : xs = (xs.take i ++ x :: us) ++ z :: ws := by
      rw [List.append_assoc, List.cons_append, ← hz']
      exact hsplit
    rw [← hsplit, hxs] at hk hfile
    obtain ⟨r, hr, hrid, hnamed⟩ := final_slot hkc hd hk hfile ht hid
    rw [← hxs] at hr
    have hkz := hk z (List.mem_append_right _ List.mem_cons_self)
    refine not_holds_of_later hfinal.distinct hfinal.keyed (hkc c (List.mem_of_getElem? ht)) hkx
      hkz hr hrid hnamed hid hname hxz.2 ?_
    rw [← hpin]
    exact hall i x hi
  · intro hclear i x hi
    have hsplit := split_at hi
    have hk' := hk
    have hfile' := hfile
    rw [hsplit] at hk' hfile'
    have hlater := (List.pairwise_cons.1 (List.pairwise_append.1 hfile').2.1).1
    have hids := pinnedId_ne hkc hk' hfile' (hslots i) fun c => hclear i x c hi
    have hholds := holds_of_slot (hslots i)
      (hk' x (List.mem_append_right _ List.mem_cons_self)) hids (fun z hz => (hlater z hz).2)
    rw [← List.foldl_cons (f := place), ← List.foldl_append, ← hsplit] at hholds
    exact hholds

end

/-! ### Copies of kept mappings -/

/-- The copy of a kept mapping. -/
def recopy (c : MappingConfig) : MappingConfig := { c with modbusPoll := c.modbusPoll.recopied }

theorem recopy_eq_self {c : MappingConfig} (h : c.modbusPoll.intervalS ≠ .fin 0) :
    recopy c = c := by
  rw [recopy, ModbusPoll.recopied, if_neg h]

theorem recopy_interval (c : MappingConfig) : (recopy c).modbusPoll.intervalS ≠ .fin 0 := by
  have hfive : PyFloat.ofIntExact 5 ≠ .fin 0 := by decide +kernel
  show (if c.modbusPoll.intervalS = .fin 0 then PyFloat.ofIntExact 5 else _) ≠ _
  split
  · exact hfive
  · assumption

theorem place_interval {result : List MappingConfig} {x : MappingConfig}
    (hx : x.modbusPoll.intervalS ≠ .fin 0)
    (h : ∀ r ∈ result, r.modbusPoll.intervalS ≠ .fin 0) :
    ∀ r ∈ place result x, r.modbusPoll.intervalS ≠ .fin 0 := by
  intro r hr
  unfold place at hr
  split at hr
  · split at hr
    · exact h r hr
    · rcases List.mem_or_eq_of_mem_set hr with hr | rfl
      · exact h r hr
      · exact hx
  · rcases List.mem_append.1 hr with hr | hr
    · exact h r hr
    · exact List.mem_singleton.1 hr ▸ hx

theorem foldl_place_interval {xs result : List MappingConfig}
    (hxs : ∀ x ∈ xs, x.modbusPoll.intervalS ≠ .fin 0)
    (h : ∀ r ∈ result, r.modbusPoll.intervalS ≠ .fin 0) :
    ∀ r ∈ xs.foldl place result, r.modbusPoll.intervalS ≠ .fin 0 := by
  induction xs generalizing result with
  | nil => exact h
  | cons x xs ih =>
    exact ih (fun y hy => hxs y (List.mem_cons_of_mem x hy))
      (place_interval (hxs x List.mem_cons_self) h)

/-- Equal mappings have the same poll interval. -/
theorem interval_of_pyEq {a b : MappingConfig} (h : a.pyEq b = true) :
    a.modbusPoll.intervalS = b.modbusPoll.intervalS := by
  have hpoll := Json.pyEq_member (k := "modbus_poll") h rfl rfl
  have hinterval := Json.pyEq_member (k := "interval_s") hpoll rfl rfl
  have hnum : Json.numEq a.modbusPoll.intervalS b.modbusPoll.intervalS = true := hinterval
  simp only [Json.numEq, Bool.and_eq_true, beq_iff_eq] at hnum
  exact hnum.1

section
variable {m : Platform} (newIds : Nat → String)

theorem copyAll_of_kept {l : List MappingConfig} (h : ∀ c ∈ l, c.Kept m) (n : Nat) :
    copyAll m newIds n l = .ok (l.map recopy, n) := by
  induction l with
  | nil => rfl
  | cons c rest ih =>
    have hc := h c List.mem_cons_self
    have hcopy : copyMapping m newIds n c = .ok (recopy c, n) := by
      rw [copyMapping, hc.fromDict_toDict, hc.id]
      rfl
    rw [copyAll, hcopy]
    show (copyAll m newIds n rest >>= fun p => pure (recopy c :: p.1, p.2)) = _
    rw [ih fun d hd => h d (List.mem_cons_of_mem c hd)]
    rfl

theorem distinctIds_recopy {l : List MappingConfig} (h : DistinctIds l) :
    DistinctIds (l.map recopy) :=
  List.pairwise_map.2 h

/-- A merge of kept mappings returns. -/
theorem applyImport_of_kept {current incoming : List MappingConfig} (hids : DistinctIds current)
    (hcur : ∀ c ∈ current, c.Kept m) (hinc : ∀ c ∈ incoming, c.Kept m) :
    ∃ touched, applyImport m newIds current incoming "merge" =
      .ok ((incoming.map recopy).foldl place (current.map recopy), touched) := by
  have hmerge : ∃ touched, incoming.foldlM (mergeOne m newIds) ⟨current.map recopy, [], 0⟩ =
      .ok ⟨(incoming.map recopy).foldl place (current.map recopy), touched, 0⟩ :=
    mergeOne_foldlM_of_copies (distinctIds_recopy hids) (copyAll_of_kept newIds hinc 0)
  obtain ⟨touched, hrun⟩ := hmerge
  refine ⟨touched, ?_⟩
  show (copyAll m newIds 0 current >>= fun p =>
    incoming.foldlM (mergeOne m newIds) ⟨p.1, [], p.2⟩ >>= fun s =>
      pure (s.result, s.touched)) = _
  rw [copyAll_of_kept newIds hcur]
  show (incoming.foldlM (mergeOne m newIds) ⟨current.map recopy, [], 0⟩ >>= fun s =>
    pure (s.result, s.touched)) = _
  rw [hrun]
  rfl

theorem updatedId_of_kept {current before : List MappingConfig} (hids : DistinctIds current)
    (hcur : ∀ c ∈ current, c.Kept m) (hinc : ∀ c ∈ before, c.Kept m) (x : MappingConfig) :
    updatedId m newIds current before x =
      pinnedId ((before.map recopy).foldl place (current.map recopy)) x := by
  obtain ⟨touched, hrun⟩ := applyImport_of_kept newIds hids hcur hinc
  rw [updatedId, hrun]

end

theorem clear_recopy {current incoming : List MappingConfig} :
    Clear (current.map recopy) incoming ↔ Clear current incoming := by
  have htarget : ∀ ys x, nameTarget (current.map recopy) ys x =
      (nameTarget current ys x).map recopy := fun ys x => List.find?_map
  unfold Clear
  simp only [htarget, List.forall_mem_map]
  constructor
  · intro h i x c hi hnone hc
    exact h i x (recopy c) hi hnone (by rw [hc]; rfl)
  · intro h i x c hi hnone hc
    obtain ⟨d, hd, rfl⟩ := Option.map_eq_some_iff.1 hc
    exact h i x d hi hnone hd

/-- **A merge keeps the file.**  For every current list with distinct ids and every uploaded
    list with distinct ids and distinct names: the merge returns a list that holds every
    uploaded mapping, with the id of the mapping that it updates and all its other fields, if
    and only if no uploaded mapping has the poll interval `0.0` and none of them updates by its
    name a current mapping whose id a later one has. -/
theorem merged_iff_clear (m : Platform) (newIds : Nat → String)
    (current incoming : List MappingConfig) (hids : DistinctIds current)
    (hfile : DistinctFile incoming) (hkept : ∀ c ∈ current ++ incoming, c.Kept m)
    (hkeyed : ∀ c ∈ current ++ incoming, KeyedLabels c) :
    Merged m newIds current incoming ↔
      (∀ x ∈ incoming, x.modbusPoll.intervalS ≠ .fin 0) ∧ Clear current incoming := by
  have hcur := fun c hc => hkept c (List.mem_append_left incoming hc)
  have hinc := fun c hc => hkept c (List.mem_append_right current hc)
  obtain ⟨touched, hrun⟩ := applyImport_of_kept newIds hids hcur hinc
  have hupdated := fun i x => updatedId_of_kept newIds hids hcur
    (fun c hc => hinc c (List.mem_of_mem_take (i := i) hc)) x
  -- without the interval `0.0` the uploaded mappings are placed as they are
  have hplace : (∀ x ∈ incoming, x.modbusPoll.intervalS ≠ .fin 0) →
      (Merged m newIds current incoming ↔ Clear current incoming) := by
    intro hintervals
    have hself : ∀ l : List MappingConfig, (∀ x ∈ l, x ∈ incoming) → l.map recopy = l := by
      intro l hl
      have hmap : l.map recopy = l.map id :=
        List.map_congr_left fun x hx => recopy_eq_self (hintervals x (hl x hx))
      rw [hmap, List.map_id]
    have hclear := holds_all_iff_clear (distinctIds_recopy hids)
      (List.forall_mem_map.2 fun c hc => hkeyed c (List.mem_append_left _ hc))
      (fun x hx => hkeyed x (List.mem_append_right _ hx)) hfile
    rw [clear_recopy] at hclear
    rw [← hclear]
    rw [hself incoming fun x hx => hx] at hrun
    constructor
    · rintro ⟨result, touched', hrun', hall⟩ i x hi
      rw [hrun] at hrun'
      cases hrun'
      have := hall i x hi
      rwa [hupdated, hself _ fun x hx => List.mem_of_mem_take hx] at this
    · intro hall
      refine ⟨_, touched, hrun, fun i x hi => ?_⟩
      rw [hupdated, hself _ fun x hx => List.mem_of_mem_take hx]
      exact hall i x hi
  constructor
  · intro hmerged
    have hintervals : ∀ x ∈ incoming, x.modbusPoll.intervalS ≠ .fin 0 := by
      obtain ⟨result, touched', hrun', hall⟩ := hmerged
      rw [hrun] at hrun'
      cases hrun'
      intro x hx
      obtain ⟨i, hi⟩ := List.mem_iff_getElem?.1 hx
      obtain ⟨r, hr, hsame⟩ := hall i x hi
      have hnonzero := foldl_place_interval
        (List.forall_mem_map.2 fun c _ => recopy_interval c)
        (List.forall_mem_map.2 fun c _ => recopy_interval c) r hr
      rcases hsame with rfl | heq
      · exact hnonzero
      · rw [← interval_of_pyEq heq] at hnonzero
        exact hnonzero
    exact ⟨hintervals, (hplace hintervals).1 hmerged⟩
  · rintro ⟨hintervals, hclear⟩
    exact (hplace hintervals).2 hclear

/-- A kept mapping with texts as labels, for the examples below. -/
theorem kept_polledMapping (mid name : String) (h : mid ≠ "") :
    (polledMapping mid name (.ofIntExact 5)).Kept bareMachine ∧
      KeyedLabels (polledMapping mid name (.ofIntExact 5)) := by
  refine ⟨⟨?_, ?_, ?_⟩, trivial, trivial⟩
  · simpa [polledMapping, Json.truthy] using h
  · show legacySeconds (.int 0) = .ok (.int 0)
    decide +kernel
  · show traceFileName bareMachine.py (.str (traceFileName bareMachine.py (.str ""))) =
      traceFileName bareMachine.py (.str "")
    decide +kernel

/-- No mapping of this file has the name of the current one. -/
theorem clear_polledMapping : Clear [polledMapping "1" "a" (.ofIntExact 5)]
    [polledMapping "1" "b" (.ofIntExact 5), polledMapping "2" "c" (.ofIntExact 5)] := by
  intro i x c hi _ htarget
  have hname : ∀ x ∈ [polledMapping "1" "b" (.ofIntExact 5),
      polledMapping "2" "c" (.ofIntExact 5)],
      (polledMapping "1" "a" (.ofIntExact 5)).name.pyEq x.name = false := by
    intro x hx
    simp only [List.mem_cons, List.not_mem_nil, or_false] at hx
    rcases hx with rfl | rfl <;> decide +kernel
  have hfound := List.find?_some htarget
  rw [List.mem_singleton.1 (List.mem_of_find?_eq_some htarget),
    hname x (List.mem_of_getElem? hi)] at hfound
  cases hfound

/-- The file updates one mapping by its id and adds another. -/
theorem merged_iff_clear_update :
    Merged bareMachine letters [polledMapping "1" "a" (.ofIntExact 5)]
      [polledMapping "1" "b" (.ofIntExact 5), polledMapping "2" "c" (.ofIntExact 5)] := by
  have hids : DistinctIds [polledMapping "1" "a" (.ofIntExact 5)] := List.pairwise_singleton _ _
  have hfile : DistinctFile
      [polledMapping "1" "b" (.ofIntExact 5), polledMapping "2" "c" (.ofIntExact 5)] := by
    refine List.pairwise_pair.2 ?_
    decide +kernel
  have hall : ∀ c ∈ [polledMapping "1" "a" (.ofIntExact 5)] ++
      [polledMapping "1" "b" (.ofIntExact 5), polledMapping "2" "c" (.ofIntExact 5)],
      c.Kept bareMachine ∧ KeyedLabels c := by
    intro c hc
    simp only [List.cons_append, List.nil_append, List.mem_cons, List.not_mem_nil, or_false] at hc
    rcases hc with rfl | rfl | rfl <;> exact kept_polledMapping _ _ (by decide)
  refine (merged_iff_clear bareMachine letters _ _ hids hfile (fun c hc => (hall c hc).1)
    fun c hc => (hall c hc).2).2 ⟨?_, ?_⟩
  · intro x hx
    have hfive : PyFloat.ofIntExact 5 ≠ .fin 0 := by decide +kernel
    simp only [List.mem_cons, List.not_mem_nil, or_false] at hx
    rcases hx with rfl | rfl <;> exact hfive
  · exact clear_polledMapping

/-- The first uploaded mapping has the name of the current one, and the second its id: the
    second is written over the first. -/
theorem merge_loses_mapping :
    DistinctIds [polledMapping "1" "a" (.ofIntExact 5)] ∧
    DistinctFile [polledMapping "9" "a" (.ofIntExact 5), polledMapping "1" "b" (.ofIntExact 5)] ∧
    ¬ Merged bareMachine letters [polledMapping "1" "a" (.ofIntExact 5)]
      [polledMapping "9" "a" (.ofIntExact 5), polledMapping "1" "b" (.ofIntExact 5)] := by
  refine ⟨List.pairwise_singleton _ _, List.pairwise_pair.2 (by decide +kernel), ?_⟩
  -- after the merge the name a is gone, and with it the first entry of the file
  rintro ⟨result, touched, hrun, hall⟩
  have hone : (applyImport bareMachine letters [polledMapping "1" "a" (.ofIntExact 5)]
      [polledMapping "9" "a" (.ofIntExact 5), polledMapping "1" "b" (.ofIntExact 5)] "merge").map
        (fun p => p.1.map MappingConfig.name) = .ok [.str "b"] := by
    decide +kernel
  rw [hrun] at hone
  have hnames : result.map MappingConfig.name = [.str "b"] := Except.ok.inj hone
  obtain ⟨r, hr, hsame⟩ := hall 0 _ rfl
  have hname : r.name = .str "b" := by
    have := List.mem_map_of_mem (f := MappingConfig.name) hr
    rw [hnames] at this
    exact List.mem_singleton.1 this
  rcases hsame with rfl | heq
  · exact absurd hname (by decide)
  · have := name_of_pyEq heq
    rw [hname] at this
    exact absurd this (by decide +kernel)

end Ser2Net.Import
