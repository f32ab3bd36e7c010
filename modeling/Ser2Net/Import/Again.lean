import Ser2Net.Import.Preview

namespace Ser2Net.Import

open Ser2Net.Lib Ser2Net.Config

/-!
# Import — files that change nothing

A merge leaves a mapping alone that the list has already.

* `applyImport_of_same` — a file of such mappings changes nothing and restarts nothing;
* `import_again` — the file that was imported is one, unless it updates a mapping twice;
* `configExport`, `planOfDoc` — the export of the mappings, and how an uploaded document is read;
* `export_import` — the export of a configuration is read back as its mappings, and changes
  nothing in either mode.
-/

/-! ### A merge with what is there -/

/-- An object equals itself when its values do. -/
theorem pyEq_obj_self {kvs : List (String × Json)} (hnd : (kvs.map Prod.fst).Nodup) :
    Json.pyEq (.obj kvs) (.obj kvs) = true ↔ ∀ p ∈ kvs, p.2.pyEq p.2 = true := by
  simp only [Json.pyEq, beq_self_eq_true, Bool.true_and, Json.pyEqMembers_iff]
  constructor
  · intro h p hp
    obtain ⟨v, hv, heq⟩ := h p hp
    rw [Json.lookup_of_mem hnd hp] at hv
    exact Option.some.inj hv ▸ heq
  · exact fun h p hp => ⟨p.2, Json.lookup_of_mem hnd hp, h p hp⟩

theorem pyEq_self_iff (x : MappingConfig) : x.pyEq x = true ↔
    x.id.pyEq x.id = true ∧ x.name.pyEq x.name = true ∧ x.kind.pyEq x.kind = true ∧
      x.serial.toDict.pyEq x.serial.toDict = true ∧
      x.serialB.toDict.pyEq x.serialB.toDict = true ∧
      x.network.toDict.pyEq x.network.toDict = true ∧
      x.options.toDict.pyEq x.options.toDict = true ∧ x.mqtt.toDict.pyEq x.mqtt.toDict = true ∧
      x.modbusPoll.toDict.pyEq x.modbusPoll.toDict = true := by
  have hbool : ∀ b, (Json.bool b).pyEq (.bool b) = true := by decide +kernel
  rw [MappingConfig.pyEq, MappingConfig.toDict, pyEq_obj_self (by simp)]
  simp [hbool, ModbusPoll.toDict]

/-- A mapping that equals itself does so with another id, and its copy does. -/
theorem pyEq_withId {x : MappingConfig} {d : Json} (h : x.pyEq x = true) (hd : d.pyEq d = true) :
    ({ x with id := d } : MappingConfig).pyEq { x with id := d } = true := by
  rw [pyEq_self_iff] at h ⊢
  exact ⟨hd, h.2⟩

theorem pyEq_recopy {x : MappingConfig} (h : x.pyEq x = true) :
    (recopy x).pyEq (recopy x) = true := by
  rw [pyEq_self_iff] at h ⊢
  obtain ⟨hid, hname, hkind, hserial, hserialB, hnetwork, hoptions, hmqtt, hpoll⟩ := h
  refine ⟨hid, hname, hkind, hserial, hserialB, hnetwork, hoptions, hmqtt, ?_⟩
  have hfive : (Json.float (.ofIntExact 5)).pyEq (.float (.ofIntExact 5)) = true := by
    decide +kernel
  rw [ModbusPoll.toDict, pyEq_obj_self (by simp)] at hpoll ⊢
  simp only [List.forall_mem_cons] at hpoll ⊢
  refine ⟨?_, hpoll.2⟩
  show (Json.float (if x.modbusPoll.intervalS = .fin 0 then _ else _)).pyEq _ = true
  split
  · next h =>
    rw [recopy, ModbusPoll.recopied, if_pos h]
    exact hfive
  · next h =>
    rw [recopy, ModbusPoll.recopied, if_neg h]
    exact hpoll.1

section
variable {m : Platform} (newIds : Nat → String)

/-- A merge of mappings that the list has. -/
theorem applyImport_of_same {current incoming : List MappingConfig}
    (hcur : ∀ c ∈ current, c.Kept m) (hinc : ∀ c ∈ incoming, c.Kept m)
    (hsame : ∀ x ∈ incoming, ∃ t, verdict (current.map recopy) (recopy x) = .same t) :
    applyImport m newIds current incoming "merge" = .ok (current.map recopy, []) := by
  have hfold : incoming.foldlM (mergeOne m newIds) ⟨current.map recopy, [], 0⟩ =
      .ok ⟨current.map recopy, [], 0⟩ := by
    induction incoming with
    | nil => rfl
    | cons x rest ih =>
      obtain ⟨t, ht⟩ := hsame x List.mem_cons_self
      have hcopy := copyMapping_of_kept newIds (hinc x List.mem_cons_self) 0
      have hone : mergeOne m newIds ⟨current.map recopy, [], 0⟩ x =
          .ok ⟨current.map recopy, [], 0⟩ := mergeOne_of_same newIds hcopy ht
      rw [List.foldlM_cons, hone, except_ok_bind]
      exact ih (fun c hc => hinc c (List.mem_cons_of_mem x hc))
        (fun c hc => hsame c (List.mem_cons_of_mem x hc))
  show (copyAll m newIds 0 current >>= fun p =>
    incoming.foldlM (mergeOne m newIds) ⟨p.1, [], p.2⟩ >>= fun s =>
      pure (s.result, s.touched)) = _
  rw [copyAll_of_kept newIds hcur, except_ok_bind, hfold]
  rfl

end

section
variable {result : List MappingConfig} {x : MappingConfig}

theorem verdict_same {i : Fin result.length} {r : MappingConfig}
    (h : matchTarget result x = some i) (hr : result[(i : Nat)]? = some r)
    (heq : ({ x with id := r.id } : MappingConfig).pyEq r = true) : verdict result x = .same i := by
  rw [verdict_of_some h hr, if_pos heq]

end

/-! ### The same file once more -/

section
variable {cur result : List MappingConfig} {x r : MappingConfig}

/-- The ids after one mapping. -/
theorem mem_place_id (h : r ∈ place result x) :
    (∃ e ∈ result, r.id = e.id) ∨ (matchTarget result x = none ∧ r.id = x.id) := by
  unfold place at h
  split at h
  · next i hi =>
    split at h
    · exact .inl ⟨r, h, rfl⟩
    · rcases List.mem_or_eq_of_mem_set h with h | rfl
      · exact .inl ⟨r, h, rfl⟩
      · exact .inl ⟨result[i], List.getElem_mem i.2, rfl⟩
  · next hnone =>
    rcases List.mem_append.1 h with h | h
    · exact .inl ⟨r, h, rfl⟩
    · exact .inr ⟨hnone, congrArg MappingConfig.id (List.mem_singleton.1 h)⟩

theorem mem_foldl_place_id {zs : List MappingConfig} (h : r ∈ zs.foldl place result) :
    (∃ e ∈ result, r.id = e.id) ∨ ∃ z ∈ zs, r.id = z.id := by
  induction zs generalizing result with
  | nil => exact .inl ⟨r, h, rfl⟩
  | cons z zs ih =>
    rcases ih h with ⟨e, he, hid⟩ | ⟨w, hw, hid⟩
    · rcases mem_place_id he with ⟨e', he', hid'⟩ | ⟨-, hid'⟩
      · exact .inl ⟨e', he', hid.trans hid'⟩
      · exact .inr ⟨z, List.mem_cons_self, hid.trans hid'⟩
    · exact .inr ⟨w, List.mem_cons_of_mem z hw, hid⟩

/-- A slot is left alone, or shows the name of a mapping of the file. -/
theorem foldl_place_named (zs : List MappingConfig) {t : Nat} {c : MappingConfig}
    (hc : result[t]? = some c) :
    ∃ r, (zs.foldl place result)[t]? = some r ∧ (r = c ∨ ∃ z ∈ zs, Named r z) := by
  induction zs generalizing result c with
  | nil => exact ⟨c, hc, .inl rfl⟩
  | cons z zs ih =>
    -- one entry puts down at most its own copy
    obtain ⟨d, hd, hwhy⟩ : ∃ d, (place result z)[t]? = some d ∧ (d = c ∨ Named d z) := by
      have hlt := (List.getElem?_eq_some_iff.1 hc).1
      cases hmatch : matchTarget result z with
      | none =>
        refine ⟨c, ?_, .inl rfl⟩
        rw [(place_of_none hmatch).1, List.getElem?_append_left hlt, hc]
      | some i =>
        obtain ⟨r, hr, -, hnamed, -, hothers⟩ := place_target hmatch
        by_cases hti : t = i
        · exact ⟨r, hti ▸ hr, .inr hnamed⟩
        · exact ⟨c, (hothers t hti).trans hc, .inl rfl⟩
    obtain ⟨r, hr, hwhy'⟩ := ih hd
    refine ⟨r, hr, ?_⟩
    -- what a later entry has put there is named by that entry
    rcases hwhy' with rfl | ⟨w, hw, hnamed⟩
    · rcases hwhy with rfl | hnamed
      · exact .inl rfl
      · exact .inr ⟨z, List.mem_cons_self, hnamed⟩
    · exact .inr ⟨w, List.mem_cons_of_mem z hw, hnamed⟩

end

section
variable {cur ys zs : List MappingConfig} {x : MappingConfig}

/-- What `x` was compared with and its id are equal in a list that holds `x` where it was put. -/
theorem verdict_of_slot {final : List MappingConfig} {r : MappingConfig} {t : Nat}
    (hr : final[t]? = some r) (hmatch : ∀ ht, matchTarget final x = some ⟨t, ht⟩)
    (heq : ({ x with id := r.id } : MappingConfig).pyEq r = true) :
    verdict final x = .same t := by
  obtain ⟨ht, -⟩ := List.getElem?_eq_some_iff.1 hr
  exact verdict_same (hmatch ht) hr heq

/-- No mapping that is left has the id of `x`, when none had it before and `x` took the id of
    another. -/
theorem foldl_place_id_ne {result : List MappingConfig} {i : Fin result.length}
    (hmatch : matchTarget result x = some i) (hnone : ∀ e ∈ result, e.id.pyEq x.id = false)
    (hlater : ∀ z ∈ zs, z.id.pyEq x.id = false) :
    ∀ e ∈ zs.foldl place (place result x), e.id.pyEq x.id = false := by
  intro e he
  rcases mem_foldl_place_id he with ⟨e', he', hid⟩ | ⟨z, hz, hid⟩
  · rcases mem_place_id he' with ⟨e'', he'', hid'⟩ | ⟨habsent, -⟩
    · rw [hid, hid']
      exact hnone e'' he''
    · rw [hmatch] at habsent
      cases habsent
  · rw [hid]
    exact hlater z hz

/-- Before a slot of the current list no slot gets the name of `x` from later mappings. -/
theorem foldl_place_name_ne {result : List MappingConfig} {i : Fin result.length} {j : Nat}
    {r : MappingConfig} (hmatch : matchTarget result x = some i) (hj : j < i)
    (hfirst : ∀ r, result[j]? = some r → r.name.pyEq x.name = false)
    (hr : (zs.foldl place (place result x))[j]? = some r) (hkr : r.name.Keyed)
    (hkz : ∀ z ∈ zs, z.name.Keyed) (hlater : ∀ z ∈ zs, z.name.pyEq x.name = false) :
    r.name.pyEq x.name = false := by
  have hjlt : j < result.length := lt_trans hj i.2
  have hd : (place result x)[j]? = some result[j] := by
    obtain ⟨-, -, -, -, -, hothers⟩ := place_target hmatch
    rw [hothers j (Nat.ne_of_lt hj), List.getElem?_eq_getElem hjlt]
  obtain ⟨r', hr', hwhy⟩ := foldl_place_named zs hd
  rw [hr, Option.some.injEq] at hr'
  subst hr'
  rcases hwhy with rfl | ⟨z, hz, hnamed⟩
  · exact hfirst _ (List.getElem?_eq_getElem hjlt)
  · exact hnamed.ne hkr (hkz z hz) (hlater z hz)

/-- The first slot with the name of `x`, when none has its id. -/
theorem matchTarget_of_name_first {result : List MappingConfig} {t : Nat}
    (ht : t < result.length) (hnone : ∀ e ∈ result, e.id.pyEq x.id = false)
    (hname : result[t].name.pyEq x.name = true)
    (hfirst : ∀ (j : Nat) (r : MappingConfig), j < t → result[j]? = some r →
      r.name.pyEq x.name = false) : matchTarget result x = some ⟨t, ht⟩ := by
  have hid : (result.findFinIdx? fun e => e.id.pyEq x.id) = none :=
    List.findFinIdx?_eq_none_iff.2 fun e he => by simp [hnone e he]
  have hfind : (result.findFinIdx? fun e => e.name.pyEq x.name) = some ⟨t, ht⟩ := by
    refine List.findFinIdx?_eq_some_iff.2 ⟨hname, fun j hj => ?_⟩
    rw [Bool.not_eq_true]
    exact hfirst j _ hj (List.getElem?_eq_getElem j.2)
  rw [matchTarget, hid, hfind]
  rfl

/-- **Once more.**  What a file has put in its place is found there the next time. -/
theorem verdict_again (hd : DistinctIds cur) (hkc : ∀ c ∈ cur, KeyedLabels c)
    (hk : ∀ y ∈ ys ++ x :: zs, KeyedLabels y) (hfile : DistinctFile (ys ++ x :: zs))
    (hids : ∀ c ∈ cur, c.id.pyEq c.id = true) (hself : x.pyEq x = true)
    (hclear : ∀ c, (∀ e ∈ cur, e.id.pyEq x.id = false) → nameTarget cur ys x = some c →
      ∀ z ∈ zs, c.id.pyEq z.id = false) :
    ∃ t, verdict ((ys ++ x :: zs).foldl place cur) x = .same t := by
  obtain ⟨-, hfile', hbefore⟩ := List.pairwise_append.1 hfile
  obtain ⟨hlater, -⟩ := List.pairwise_cons.1 hfile'
  have hys : ∀ y ∈ ys, KeyedLabels y := fun y hy => hk y (List.mem_append_left _ hy)
  have hkx : KeyedLabels x := hk x (List.mem_append_right _ List.mem_cons_self)
  have hkz : ∀ z ∈ zs, KeyedLabels z := fun z hz =>
    hk z (List.mem_append_right _ (List.mem_cons_of_mem x hz))
  have hslots : Slots cur ys (ys.foldl place cur) :=
    (Slots.init hd hkc).run hys (List.pairwise_append.1 hfile).1
  have hfinal : Slots cur (ys ++ x :: zs) ((ys ++ x :: zs).foldl place cur) :=
    (Slots.init hd hkc).run hk hfile
  have hpinned := pinnedId_ne hkc hk hfile hslots hclear
  rw [List.foldl_append, List.foldl_cons] at hfinal ⊢
  -- the ids and names of later mappings are not those of `x`
  have hzid : ∀ z ∈ zs, z.id.pyEq x.id = false := by
    intro z hz
    by_contra heq
    have := Json.pyEq_symm (hkz z hz).1 hkx.1 (by simpa using heq)
    rw [(hlater z hz).1] at this
    cases this
  have hzname : ∀ z ∈ zs, z.name.pyEq x.name = false := by
    intro z hz
    by_contra heq
    have := Json.pyEq_symm (hkz z hz).2 hkx.2 (by simpa using heq)
    rw [(hlater z hz).2] at this
    cases this
  have hxid := ((pyEq_self_iff x).1 hself).1
  have hxname := ((pyEq_self_iff x).1 hself).2.1
  cases hmatch : matchTarget (ys.foldl place cur) x with
  | none =>
    obtain ⟨hplace, hpin⟩ := place_of_none hmatch
    have hr : (place (ys.foldl place cur) x)[(ys.foldl place cur).length]? = some x := by
      rw [hplace, List.getElem?_append_right (le_refl _)]
      simp
    have hend := foldl_place_slot hr hkx.2 hkx.2 (.inl rfl) (fun z hz => hpin ▸ hpinned z hz)
      (fun z hz => (hlater z hz).2)
    obtain ⟨ht, hx⟩ := List.getElem?_eq_some_iff.1 hend
    refine ⟨_, verdict_of_slot hend (fun _ => ?_) hself⟩
    exact matchTarget_of_id hfinal.distinct hfinal.keyed hkx ht (by rw [hx]; exact hxid)
  | some i =>
    obtain ⟨r, hr, hrid, hnamed, hsame, -⟩ := place_target hmatch
    obtain ⟨c, hc, hcid, hwhy⟩ := hslots.target hys
      (fun y hy => hbefore y hy x List.mem_cons_self) hmatch
    have hkr := keyedLabels_place hslots.keyed hkx r (List.mem_of_getElem? hr)
    have hend := foldl_place_slot hr hkr.2 hkx.2 hnamed
      (fun z hz => by rw [hrid]; exact hpinned z hz) (fun z hz => (hlater z hz).2)
    obtain ⟨ht, hx⟩ := List.getElem?_eq_some_iff.1 hend
    have heq : ({ x with id := r.id } : MappingConfig).pyEq r = true := by
      rw [hrid]
      rcases hsame with rfl | h
      · refine pyEq_withId hself ?_
        rw [hcid]
        exact hids c (List.mem_of_getElem? hc)
      · exact h
    refine ⟨_, verdict_of_slot hend (fun _ => ?_) heq⟩
    rcases hwhy with hmid | ⟨hnone, -, -, hfirst⟩
    · refine matchTarget_of_id hfinal.distinct hfinal.keyed hkx ht ?_
      rw [hx, hrid, hcid]
      exact hmid
    · refine matchTarget_of_name_first ht (foldl_place_id_ne hmatch hnone hzid) ?_
        fun j q hj hq => foldl_place_name_ne hmatch hj (fun r hr => hfirst j r hj hr) hq
          (hfinal.keyed q (List.mem_of_getElem? hq)).2 (fun z hz => (hkz z hz).2) hzname
      rw [hx]
      rcases hnamed with h | h
      · rw [h]
        exact hxname
      · exact Json.pyEq_symm hkx.2 hkr.2 h

end

/-! ### Unchanged lists -/

/-- The import of these mappings changes nothing: the rows of the preview say so, and the merge
    returns the list as it is and has touched no mapping. -/
structure Unchanged (m : Platform) (newIds : Nat → String)
    (current incoming : List MappingConfig) : Prop where
  preview : ∃ rows, planRows m newIds current incoming "merge" = .ok rows ∧
    rows.length = incoming.length ∧ ∀ row ∈ rows, row.action = .same
  merge : applyImport m newIds current incoming "merge" = .ok (current, [])

section
variable {m : Platform} {current incoming : List MappingConfig}

theorem map_recopy_eq_self (h : ∀ c ∈ current, c.modbusPoll.intervalS ≠ .fin 0) :
    current.map recopy = current := by
  rw [List.map_congr_left fun c hc => recopy_eq_self (h c hc), List.map_id']

theorem unchanged_of_same (newIds : Nat → String) (hcur : ∀ c ∈ current, c.Kept m)
    (hinc : ∀ c ∈ incoming, c.Kept m) (hpoll : ∀ c ∈ current, c.modbusPoll.intervalS ≠ .fin 0)
    (hsame : ∀ x ∈ incoming, ∃ t, verdict current (recopy x) = .same t) :
    Unchanged m newIds current incoming := by
  have hself := map_recopy_eq_self hpoll
  constructor
  · obtain ⟨rows, hrows, hactions⟩ := planRows_of_kept newIds hcur hinc
    have hlen := congrArg List.length hactions
    simp only [List.length_map] at hlen
    refine ⟨rows, hrows, hlen, fun row hrow => ?_⟩
    have haction := List.mem_map_of_mem (f := Row.action) hrow
    rw [hactions, List.map_map, List.map_map] at haction
    obtain ⟨x, hx, heq⟩ := List.mem_map.1 haction
    obtain ⟨t, ht⟩ := hsame x hx
    rw [← heq, Function.comp_apply, Function.comp_apply, ht]
    rfl
  · have hrun := applyImport_of_same newIds hcur hinc (by rwa [hself])
    rwa [hself] at hrun

theorem kept_recopy {c : MappingConfig} (h : c.Kept m) : (recopy c).Kept m :=
  ⟨h.id, h.idle, h.trace⟩

theorem kept_foldl_place {xs result : List MappingConfig} (hxs : ∀ x ∈ xs, x.Kept m)
    (h : ∀ r ∈ result, r.Kept m) : ∀ r ∈ xs.foldl place result, r.Kept m := by
  induction xs generalizing result with
  | nil => exact h
  | cons x xs ih =>
    have hx := hxs x List.mem_cons_self
    refine ih (fun y hy => hxs y (List.mem_cons_of_mem x hy)) fun r hr => ?_
    unfold place at hr
    split at hr
    · next i _ =>
      split at hr
      · exact h r hr
      · rcases List.mem_or_eq_of_mem_set hr with hr | rfl
        · exact h r hr
        · exact ⟨(h _ (List.getElem_mem i.2)).id, hx.idle, hx.trace⟩
    · rcases List.mem_append.1 hr with hr | hr
      · exact h r hr
      · exact List.mem_singleton.1 hr ▸ hx

end

/-- **A second import.**  A file with distinct ids and names is merged, and then merged again:
    unless one of its mappings has updated by name what a later one updates by id, the second
    merge changes nothing, restarts nothing and says so in its preview. -/
theorem import_again (m : Platform) (newIds : Nat → String) (current incoming : List MappingConfig)
    (hids : DistinctIds current) (hfile : DistinctFile incoming)
    (hkept : ∀ c ∈ current ++ incoming, c.Kept m)
    (hkeyed : ∀ c ∈ current ++ incoming, KeyedLabels c)
    (hself : ∀ c ∈ current ++ incoming, c.pyEq c = true) (hclear : Clear current incoming) :
    ∃ result touched, applyImport m newIds current incoming "merge" = .ok (result, touched) ∧
      ∀ newIds', Unchanged m newIds' result incoming := by
  have hcur := fun c hc => hkept c (List.mem_append_left incoming hc)
  have hinc := fun c hc => hkept c (List.mem_append_right current hc)
  obtain ⟨touched, hrun⟩ := applyImport_of_kept newIds hids hcur hinc
  have hpoll : ∀ r ∈ (incoming.map recopy).foldl place (current.map recopy),
      r.modbusPoll.intervalS ≠ .fin 0 :=
    foldl_place_interval (List.forall_mem_map.2 fun c _ => recopy_interval c)
      (List.forall_mem_map.2 fun c _ => recopy_interval c)
  have hkept' := kept_foldl_place (List.forall_mem_map.2 fun c hc => kept_recopy (hinc c hc))
    (List.forall_mem_map.2 fun c hc => kept_recopy (hcur c hc))
  refine ⟨_, touched, hrun, fun newIds' => unchanged_of_same newIds' hkept' hinc hpoll ?_⟩
  intro x hx
  obtain ⟨i, hi⟩ := List.mem_iff_getElem?.1 (List.mem_map_of_mem (f := recopy) hx)
  have hsplit := split_at hi
  -- the copies are clear of each other because the originals are
  have hclear' : Clear (current.map recopy) (incoming.map recopy) := by
    refine clear_recopy.2 fun i y c hi' hnone htarget z hz => ?_
    rw [List.getElem?_map, Option.map_eq_some_iff] at hi'
    obtain ⟨y, hy, rfl⟩ := hi'
    rw [← List.map_drop] at hz
    obtain ⟨w, hw, rfl⟩ := List.mem_map.1 hz
    refine hclear i y c hy hnone ?_ w hw
    rw [← htarget, nameTarget, nameTarget, ← List.map_take]
    congr 1
    funext c
    rw [List.all_map]
    rfl
  rw [hsplit]
  refine verdict_again (distinctIds_recopy hids)
    (List.forall_mem_map.2 fun c hc => hkeyed c (List.mem_append_left _ hc)) ?_ ?_
    (List.forall_mem_map.2 fun c hc => ?_) (pyEq_recopy (hself x (List.mem_append_right _ hx)))
    (hclear' i _ · hi)
  · rw [← hsplit]
    exact List.forall_mem_map.2 fun c hc => hkeyed c (List.mem_append_right _ hc)
  · rw [← hsplit]
    exact List.pairwise_map.2 hfile
  · exact ((pyEq_self_iff c).1 (hself c (List.mem_append_left _ hc))).1

/-- The file updates a mapping by its id and adds another; the second time it does nothing. -/
theorem import_again_update :
    ∃ result touched, applyImport bareMachine letters [polledMapping "1" "a" (.ofIntExact 5)]
        [polledMapping "1" "b" (.ofIntExact 5), polledMapping "2" "c" (.ofIntExact 5)] "merge" =
          .ok (result, touched) ∧
      ∀ newIds', Unchanged bareMachine newIds' result
        [polledMapping "1" "b" (.ofIntExact 5), polledMapping "2" "c" (.ofIntExact 5)] := by
  have hfile : DistinctFile
      [polledMapping "1" "b" (.ofIntExact 5), polledMapping "2" "c" (.ofIntExact 5)] := by
    refine List.pairwise_pair.2 ?_
    decide +kernel
  have hall : ∀ c ∈ [polledMapping "1" "a" (.ofIntExact 5)] ++
      [polledMapping "1" "b" (.ofIntExact 5), polledMapping "2" "c" (.ofIntExact 5)],
      (c.Kept bareMachine ∧ KeyedLabels c) ∧ c.pyEq c = true := by
    intro c hc
    simp only [List.cons_append, List.nil_append, List.mem_cons, List.not_mem_nil, or_false] at hc
    rcases hc with rfl | rfl | rfl <;>
      exact ⟨kept_polledMapping _ _ (by decide), by decide +kernel⟩
  exact import_again bareMachine letters _ _ (List.pairwise_singleton _ _) hfile
    (fun c hc => (hall c hc).1.1) (fun c hc => (hall c hc).1.2) (fun c hc => (hall c hc).2)
    clear_polledMapping

/-! ### The export -/

/-- `config_export`: the document, before `json.dumps`. -/
def configExport (current : List MappingConfig) : Json :=
  .obj [("version", .int 1), ("mappings", .arr (current.map MappingConfig.toDict))]

/-- `ImportPlan`. -/
structure ImportPlan where
  source : String
  mappings : List MappingConfig
  warnings : List String

section
variable (m : Platform) (newIds : Nat → String)

/-- One mapping of the document, the `i`-th; `str e` is the text of an exception. -/
def planItem (newId : String) (str : PyExc ConfigError → String) (i : Nat) :
    Json → CfgM MappingConfig
  | .obj d =>
    match MappingConfig.fromDict m newId (.obj d) with
    | .ok c => .ok c
    | .error e =>
      if e.isValueError || e = .typeError then
        .error (.user ⟨"Mapping #{0} ({1}): {2}",
          [.value (.int i), .value (Json.get d "name" (.str "?")), .text (str e)]⟩)
      else .error e
  | _ => .error (.user ⟨"Mapping #{0} is not an object.", [.value (.int i)]⟩)

/-- `parse_mappings_file` on a JSON document, after `json.loads`. -/
def planOfDoc (str : PyExc ConfigError → String) : Json → CfgM ImportPlan
  | .obj d =>
    match Json.lookup d "mappings" with
    | some (.arr items) => do
      let mappings ← items.zipIdx.mapM fun p => planItem m (newIds p.2) str (p.2 + 1) p.1
      let whole := (Json.lookup d "users").isSome || (Json.lookup d "admin_ui").isSome
      return {
        source := if whole then "ser2net config.json" else "ser2net export"
        mappings
        warnings := if whole then
            ["Only the mappings are imported from a config.json; users, passwords and settings " ++
              "stay as they are."]
          else [] }
    | _ => .error (.user
        ⟨"Expected a ser2net export: a JSON object with a \"mappings\" list.", []⟩)
  | _ => .error (.user
      ⟨"Expected a ser2net export: a JSON object with a \"mappings\" list.", []⟩)

end

section
variable {m : Platform} {current : List MappingConfig}

/-- The exported mappings, read back. -/
theorem planItems_toDict (newIds : Nat → String) (str : PyExc ConfigError → String)
    {l : List MappingConfig} (h : ∀ c ∈ l, c.Kept m) (k : Nat) :
    ((l.map MappingConfig.toDict).zipIdx k).mapM
      (fun p => planItem m (newIds p.2) str (p.2 + 1) p.1) = .ok (l.map recopy) := by
  induction l generalizing k with
  | nil => rfl
  | cons c rest ih =>
    have hc := (h c List.mem_cons_self).fromDict_toDict (newIds k)
    have hitem : planItem m (newIds k) str (k + 1) c.toDict = .ok (recopy c) := by
      rw [MappingConfig.toDict] at hc ⊢
      rw [planItem, hc]
      rfl
    rw [List.map_cons, List.zipIdx_cons, List.mapM_cons, hitem, except_ok_bind,
      ih (fun d hd => h d (List.mem_cons_of_mem c hd)) (k + 1)]
    rfl

/-- Replacing by mappings with distinct ids takes them as they are. -/
theorem replace_foldlM (newIds : Nat → String) {l : List MappingConfig} {s : Progress}
    (hkept : ∀ c ∈ l, c.Kept m) (hhash : ∀ c ∈ l, c.id.hashable = true) (hids : DistinctIds l)
    (hapart : ∀ r ∈ s.result, ∀ c ∈ l, r.id.pyEq c.id = false) :
    l.foldlM (replaceOne m newIds) s =
      .ok ⟨s.result ++ l.map recopy, s.touched ++ l.map recopy, s.drawn⟩ := by
  induction l generalizing s with
  | nil => simp [pure, Except.pure]
  | cons c rest ih =>
    obtain ⟨hfirst, hids'⟩ := List.pairwise_cons.1 hids
    -- no id so far is this one's, so the copy goes to the end under the id of the file
    have hone : replaceOne m newIds s c =
        .ok ⟨s.result ++ [recopy c], s.touched ++ [recopy c], s.drawn⟩ := by
      have hnew : (s.result.any fun e => e.id.pyEq (recopy c).id) = false :=
        List.any_eq_false.2 fun e he => by
          rw [Bool.not_eq_true]
          exact hapart e he c List.mem_cons_self
      have hkey : (recopy c).id.hashable = true := hhash c List.mem_cons_self
      rw [replaceOne, copyMapping_of_kept newIds (hkept c List.mem_cons_self), except_ok_bind]
      dsimp only
      rw [hkey, hnew]
      rfl
    rw [List.foldlM_cons, hone, except_ok_bind,
      ih (fun d hd => hkept d (List.mem_cons_of_mem c hd))
        (fun d hd => hhash d (List.mem_cons_of_mem c hd)) hids' ?_]
    · simp
    · intro r hr d hd
      rcases List.mem_append.1 hr with hr | hr
      · exact hapart r hr d (List.mem_cons_of_mem c hd)
      · rw [List.mem_singleton.1 hr]
        exact hfirst d hd

end

/-- **Export and import.**  The export of a list of mappings with distinct ids is read back as
    the same mappings.  To import it where it comes from changes nothing, restarts nothing and
    is announced as such; and in replace mode it makes of any list the one that was exported. -/
theorem export_import (m : Platform) (newIds : Nat → String) (str : PyExc ConfigError → String)
    (current other : List MappingConfig) (hids : DistinctIds current)
    (hkept : ∀ c ∈ current, c.Kept m) (hkeyed : ∀ c ∈ current, KeyedLabels c)
    (hself : ∀ c ∈ current, c.pyEq c = true) (hhash : ∀ c ∈ current, c.id.hashable = true)
    (hpoll : ∀ c ∈ current, c.modbusPoll.intervalS ≠ .fin 0) :
    planOfDoc m newIds str (configExport current) = .ok ⟨"ser2net export", current, []⟩ ∧
      (∀ newIds', Unchanged m newIds' current current) ∧
      ∀ newIds', applyImport m newIds' other current "replace" = .ok (current, current) := by
  have hcopy := map_recopy_eq_self hpoll
  refine ⟨?_, fun newIds' => ?_, fun newIds' => ?_⟩
  · show ((current.map MappingConfig.toDict).zipIdx.mapM
      (fun p => planItem m (newIds p.2) str (p.2 + 1) p.1) >>= fun mappings =>
        pure (⟨_, mappings, _⟩ : ImportPlan)) = _
    rw [planItems_toDict newIds str hkept 0, except_ok_bind, hcopy]
    rfl
  -- each mapping of the export finds itself, by its id
  · refine unchanged_of_same newIds' hkept hkept hpoll fun x hx => ?_
    obtain ⟨t, ht, rfl⟩ := List.mem_iff_getElem.1 hx
    have hid := ((pyEq_self_iff _).1 (hself _ hx)).1
    rw [recopy_eq_self (hpoll _ hx)]
    exact ⟨t, verdict_same (matchTarget_of_id hids hkeyed (hkeyed _ hx) ht hid)
      (List.getElem?_eq_getElem ht) (hself _ hx)⟩
  · have hfold := replace_foldlM newIds' (s := ⟨[], [], 0⟩) hkept hhash hids (by simp)
    rw [hcopy] at hfold
    show (current.foldlM (replaceOne m newIds') ⟨[], [], 0⟩ >>= fun s =>
      pure (s.result, s.touched)) = _
    rw [hfold]
    rfl

/-- Two mappings are exported, and replace a third. -/
theorem export_import_two :
    planOfDoc bareMachine letters (fun _ => "") (configExport
        [polledMapping "1" "a" (.ofIntExact 5), polledMapping "2" "c" (.ofIntExact 5)]) =
        .ok ⟨"ser2net export",
          [polledMapping "1" "a" (.ofIntExact 5), polledMapping "2" "c" (.ofIntExact 5)], []⟩ ∧
      applyImport bareMachine letters [polledMapping "3" "b" (.ofIntExact 5)]
        [polledMapping "1" "a" (.ofIntExact 5), polledMapping "2" "c" (.ofIntExact 5)] "replace" =
        .ok ([polledMapping "1" "a" (.ofIntExact 5), polledMapping "2" "c" (.ofIntExact 5)],
          [polledMapping "1" "a" (.ofIntExact 5), polledMapping "2" "c" (.ofIntExact 5)]) := by
  have hids : DistinctIds
      [polledMapping "1" "a" (.ofIntExact 5), polledMapping "2" "c" (.ofIntExact 5)] := by
    refine List.pairwise_pair.2 ?_
    decide +kernel
  have hall : ∀ c ∈ [polledMapping "1" "a" (.ofIntExact 5), polledMapping "2" "c" (.ofIntExact 5)],
      (c.Kept bareMachine ∧ KeyedLabels c) ∧ c.pyEq c = true ∧ c.id.hashable = true ∧
        c.modbusPoll.intervalS ≠ .fin 0 := by
    intro c hc
    simp only [List.mem_cons, List.not_mem_nil, or_false] at hc
    rcases hc with rfl | rfl <;>
      exact ⟨kept_polledMapping _ _ (by decide), by decide +kernel, rfl, by decide +kernel⟩
  obtain ⟨hread, -, hreplace⟩ := export_import bareMachine letters (fun _ => "") _
    [polledMapping "3" "b" (.ofIntExact 5)] hids (fun c hc => (hall c hc).1.1)
    (fun c hc => (hall c hc).1.2) (fun c hc => (hall c hc).2.1) (fun c hc => (hall c hc).2.2.1)
    fun c hc => (hall c hc).2.2.2
  exact ⟨hread, hreplace letters⟩

end Ser2Net.Import
