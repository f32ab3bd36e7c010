import Ser2Net.Import.Merge
import Ser2Net.Lib.Loop

namespace Ser2Net.Import

open Ser2Net.Lib Ser2Net.Config

/-!
# Import — the preview

`plan_rows` shows what an import would do: every uploaded mapping is compared with the current
list.  `apply_import` compares it with the list as the mappings before it have left it.

* `planRows` — the rows of the preview;
* `verdict` — what becomes of an uploaded mapping, given a list: both functions decide it in
  the same way, on different lists;
* `importRounds` — the verdicts of the rounds of `apply_import`;
* `Apart` — an uploaded mapping does not influence a later one;
* `preview_describes_iff` — the preview describes the import exactly when the uploaded
  mappings are apart and no row is an update only for a poll interval of `0.0`.
-/

/-! ### The rows -/

/-- The action of a row. -/
inductive Action
  | add
  | update
  | same
  | remove
  deriving DecidableEq, Repr

/-- A row of the preview. -/
structure Row where
  name : Json
  kind : String
  action : Action
  target : Json
  deriving DecidableEq, Repr

/-- `_kind`. -/
def kindText (py : PyEnv) (c : MappingConfig) : String :=
  if c.kind.eqStr "serialbridge" then
    c.serial.port.toStr py ++ " ↔ " ++ c.serialB.port.toStr py
  else
    let net := c.network
    let place := if net.mode.eqStr "client" then
        "→ " ++ net.remoteHost.toStr py ++ ":" ++ net.remotePort.toStr py
      else net.bindIp.toStr py ++ ":" ++ net.port.toStr py
    c.serial.port.toStr py ++ " · " ++ net.mode.toStr py ++ "/" ++ net.protocol.toStr py ++ " " ++
      place

section
variable (m : Platform) (newIds : Nat → String)

/-- A row without a target. -/
def bareRow (action : Action) (c : MappingConfig) : Row :=
  ⟨c.name, kindText m.py c, action, .str ""⟩

/-- One round of `plan_rows` in merge mode; `newId` is what `_new_id()` would return. -/
def planRow (newId : String) (current : List MappingConfig) (c : MappingConfig) : CfgM Row :=
  match matchTarget current c with
  | none => .ok (bareRow m .add c)
  | some i => do
    let target := current.get i
    let probe ← MappingConfig.fromDict m newId ({ c with id := target.id } : MappingConfig).toDict
    let action := if probe.pyEq target then Action.same else Action.update
    return ⟨c.name, kindText m.py c, action, target.name⟩

/-- `plan_rows`. -/
def planRows (current incoming : List MappingConfig) (mode : String) : CfgM (List Row) := do
  let rows ← incoming.zipIdx.mapM fun p =>
    if mode = "merge" then planRow m (newIds p.2) current p.1 else .ok (bareRow m .add p.1)
  return rows ++ (if mode = "replace" then current.map (bareRow m .remove) else [])

end

/-! ### The rounds -/

/-- What becomes of an uploaded mapping: it is added, is equal to the mapping at a position, or
    is written over it. -/
inductive Verdict
  | add
  | same (t : Nat)
  | update (t : Nat)
  deriving DecidableEq, Repr

/-- The verdict on the copy `c` of an uploaded mapping, given a list. -/
def verdict (existing : List MappingConfig) (c : MappingConfig) : Verdict :=
  match matchTarget existing c with
  | none => .add
  | some i =>
    if ({ c with id := (existing.get i).id } : MappingConfig).pyEq (existing.get i) then .same i
    else .update i

/-- The position that the verdict names. -/
def Verdict.slot : Verdict → Option Nat
  | .add => none
  | .same t => some t
  | .update t => some t

/-- The action of a row with this verdict. -/
def Verdict.action : Verdict → Action
  | .add => .add
  | .same _ => .same
  | .update _ => .update

section
variable (m : Platform) (newIds : Nat → String)

/-- The verdict of each round of the merge loop. -/
def rounds : Progress → List MappingConfig → CfgM (List Verdict)
  | _, [] => .ok []
  | s, c :: rest => do
    let (copy, _) ← copyMapping m newIds s.drawn c
    let s' ← mergeOne m newIds s c
    let more ← rounds s' rest
    return verdict s.result copy :: more

/-- The verdicts of the rounds of `apply_import` in merge mode. -/
def importRounds (current incoming : List MappingConfig) : CfgM (List Verdict) := do
  let (result, n) ← copyAll m newIds 0 current
  rounds m newIds ⟨result, [], n⟩ incoming

/-- The rows of a merge describe what the import does: it grows the list by the rows that add;
    the round of a row that is the same finds the mapping equal to the one that it names, over
    which no round writes, and changes neither the list nor the touched mappings; and the round
    of an update writes over the mapping that the row names, over which no earlier round has
    written.  `done` are the verdicts of the rounds. -/
structure MergeDescribed (current incoming : List MappingConfig) (rows : List Row)
    (done : List Verdict) (result : List MappingConfig) : Prop where
  added : (rows.countP fun r => r.action = .add) + current.length = result.length
  same : ∀ (i : Nat) (x : MappingConfig) (row : Row) (t : Fin current.length),
    incoming[i]? = some x → rows[i]? = some row → matchTarget current x = some t →
    row.action = .same → done[i]? = some (.same t) ∧ Verdict.update t ∉ done ∧
      applyImport m newIds current (incoming.take (i + 1)) "merge" =
        applyImport m newIds current (incoming.take i) "merge"
  updated : ∀ (i : Nat) (x : MappingConfig) (row : Row) (t : Fin current.length),
    incoming[i]? = some x → rows[i]? = some row → matchTarget current x = some t →
    row.action = .update → done[i]? = some (.update t) ∧ Verdict.update t ∉ done.take i

end

/-! ### Verdicts -/

section
variable {existing : List MappingConfig} {x : MappingConfig} {t : Nat}

theorem verdict_of_none (h : matchTarget existing x = none) : verdict existing x = .add := by
  rw [verdict, h]

theorem verdict_of_some {i : Fin existing.length} {c : MappingConfig}
    (h : matchTarget existing x = some i) (hc : existing[(i : Nat)]? = some c) :
    verdict existing x =
      if ({ x with id := c.id } : MappingConfig).pyEq c then .same i else .update i := by
  have hget : existing.get i = c :=
    Option.some.inj ((List.getElem?_eq_getElem i.2).symm.trans hc)
  rw [verdict, h]
  dsimp only
  rw [hget]

theorem slot_verdict (existing : List MappingConfig) (x : MappingConfig) :
    (verdict existing x).slot = (matchTarget existing x).map Fin.val := by
  unfold verdict
  cases matchTarget existing x with
  | none => rfl
  | some i =>
    dsimp only
    split <;> rfl

/-- A mapping that is added has neither the id nor the name of one of the list. -/
theorem verdict_eq_add_iff :
    verdict existing x = .add ↔
      ∀ e ∈ existing, e.id.pyEq x.id = false ∧ e.name.pyEq x.name = false := by
  constructor
  · intro h
    cases hmatch : matchTarget existing x with
    | none => exact matchTarget_eq_none hmatch
    | some i =>
      have hslot := slot_verdict existing x
      rw [h, hmatch] at hslot
      cases hslot
  · intro h
    cases hmatch : matchTarget existing x with
    | none => exact verdict_of_none hmatch
    | some i =>
      have hi := h (existing.get i) (List.get_mem existing i)
      rcases matchTarget_eq_some hmatch with ⟨hid, -⟩ | ⟨-, hname, -⟩
      · exact absurd (hi.1.symm.trans hid) Bool.false_ne_true
      · exact absurd (hi.2.symm.trans hname) Bool.false_ne_true

/-- The position that a verdict names: it has the id of `x`, or no position has and it is the
    first with the name of `x`. -/
theorem of_slot (h : (verdict existing x).slot = some t) : ∃ c, existing[t]? = some c ∧
    (c.id.pyEq x.id = true ∨
      ((∀ e ∈ existing, e.id.pyEq x.id = false) ∧ c.name.pyEq x.name = true ∧
        ∀ (j : Nat) (e : MappingConfig), j < t → existing[j]? = some e →
          e.name.pyEq x.name = false)) := by
  rw [slot_verdict] at h
  obtain ⟨i, hi, rfl⟩ := Option.map_eq_some_iff.1 h
  refine ⟨existing.get i, List.getElem?_eq_getElem i.2, ?_⟩
  rcases matchTarget_eq_some hi with ⟨hid, -⟩ | ⟨hnone, hname, hfirst⟩
  · exact .inl hid
  · refine .inr ⟨hnone, hname, fun j e hj he => ?_⟩
    obtain ⟨hlt, rfl⟩ := List.getElem?_eq_some_iff.1 he
    exact hfirst j hj

theorem matchTarget_of_verdict (h : (verdict existing x).slot = some t) :
    ∃ i : Fin existing.length, (i : Nat) = t ∧ matchTarget existing x = some i := by
  rw [slot_verdict] at h
  obtain ⟨i, hi, rfl⟩ := Option.map_eq_some_iff.1 h
  exact ⟨i, rfl, hi⟩

/-- The first position with the name, when no position has the id. -/
theorem matchTarget_of_name {c : MappingConfig} (hnone : ∀ e ∈ existing, e.id.pyEq x.id = false)
    (hc : existing[t]? = some c) (hname : c.name.pyEq x.name = true)
    (hfirst : ∀ (j : Nat) (e : MappingConfig), j < t → existing[j]? = some e →
      e.name.pyEq x.name = false) :
    ∃ i : Fin existing.length, (i : Nat) = t ∧ matchTarget existing x = some i := by
  obtain ⟨hlt, rfl⟩ := List.getElem?_eq_some_iff.1 hc
  refine ⟨⟨t, hlt⟩, rfl, ?_⟩
  have hids : (existing.findFinIdx? fun e => e.id.pyEq x.id) = none :=
    List.findFinIdx?_eq_none_iff.2 fun e he => by simpa using hnone e he
  have hnames : (existing.findFinIdx? fun e => e.name.pyEq x.name) = some ⟨t, hlt⟩ := by
    refine List.findFinIdx?_eq_some_iff.2 ⟨hname, fun j hj => ?_⟩
    have hj' := hfirst j _ hj (List.getElem?_eq_getElem j.2)
    simpa using hj'
  rw [matchTarget, hids, hnames]
  rfl

/-- The list after a round, by the verdict of the round. -/
theorem place_of_verdict (existing : List MappingConfig) (x : MappingConfig) :
    place existing x = match verdict existing x with
      | .add => existing ++ [x]
      | .same _ => existing
      | .update t => existing.set t { x with id := pinnedId existing x } := by
  cases hmatch : matchTarget existing x with
  | none => rw [verdict_of_none hmatch, place, hmatch]
  | some i =>
    have hi : existing[(i : Nat)]? = some (existing.get i) := List.getElem?_eq_getElem i.2
    have hplace : place existing x =
        if ({ x with id := (existing.get i).id } : MappingConfig).pyEq (existing.get i) then existing
        else existing.set i { x with id := (existing.get i).id } := by
      rw [place, hmatch]
      rfl
    rw [hplace, verdict_of_some hmatch hi, pinnedId_of_some hmatch hi]
    by_cases heq : ({ x with id := (existing.get i).id } : MappingConfig).pyEq (existing.get i) = true
    · rw [if_pos heq, if_pos heq]
    · rw [if_neg heq, if_neg heq]

end

/-- A round leaves the positions alone that it does not update. -/
theorem place_getElem?_of_verdict {r : MappingConfig} (h : verdict existing x ≠ .update t)
    (hr : existing[t]? = some r) : (place existing x)[t]? = some r := by
  rw [place_of_verdict]
  cases hverdict : verdict existing x with
  | add =>
    rw [List.getElem?_append_left (List.getElem?_eq_some_iff.1 hr).1]
    exact hr
  | same t' => exact hr
  | update t' =>
    have hne : t' ≠ t := fun heq => h (heq ▸ hverdict)
    rw [List.getElem?_set_ne hne]
    exact hr

/-! ### Mappings that do not get in each other's way -/

/-- The two do not update one position, nor is one of them the same as a mapping that the other
    updates. -/
def SlotsApart (current : List MappingConfig) (y x : MappingConfig) : Prop :=
  ∀ t, (verdict current y).slot = some t → (verdict current x).slot = some t →
    verdict current y = .same t ∧ verdict current x = .same t

/-- `y` comes before `x` in the file and does not change what becomes of `x`: an added `y` has
    another id, and another name than an added `x`; they do not update one position; and a
    mapping that `y` has updated does not have the name of `x` now, unless `x` is found by its
    id, or at an earlier position. -/
structure Apart (current : List MappingConfig) (y x : MappingConfig) : Prop where
  id : verdict current y = .add → y.id.pyEq x.id = false
  name : verdict current y = .add → verdict current x = .add → y.name.pyEq x.name = false
  slot : SlotsApart current y x
  renamed : ∀ t, verdict current y = .update t → (∀ e ∈ current, e.id.pyEq x.id = false) →
    (∀ t', (verdict current x).slot = some t' → t < t') → y.name.pyEq x.name = false

/-- An update is one still when the mapping is compared with the copy of its target, whose poll
    interval is not `0.0`. -/
def RealUpdate (current : List MappingConfig) (x : MappingConfig) : Prop :=
  ∀ t c, verdict current x = .update t → current[t]? = some c →
    ({ x with id := c.id } : MappingConfig).pyEq (recopy c) = false

/-- The list `result` is what the preview makes of `current` with the mappings `ys`. -/
structure Planned (current ys result : List MappingConfig) : Prop where
  distinct : DistinctIds result
  keyed : ∀ r ∈ result, KeyedLabels r
  kept : ∀ (t : Nat) (c : MappingConfig), current[t]? = some c →
    (∀ y ∈ ys, verdict current y ≠ .update t) → result[t]? = some (recopy c)
  updated : ∀ y ∈ ys, ∀ t, verdict current y = .update t →
    ∃ c, current[t]? = some c ∧ result[t]? = some { y with id := c.id }
  added : ∀ (t : Nat) (r : MappingConfig), current.length ≤ t → result[t]? = some r →
    r ∈ ys ∧ verdict current r = .add
  present : ∀ y ∈ ys, verdict current y = .add →
    ∃ t : Nat, current.length ≤ t ∧ result[t]? = some y

section
variable {current ys result : List MappingConfig} {x : MappingConfig}

/-- A position of the current list: untouched, or updated by one of `ys`. -/
theorem Planned.slot (h : Planned current ys result) {t : Nat} {c : MappingConfig}
    (hc : current[t]? = some c) : ∃ r, result[t]? = some r ∧ r.id = c.id ∧
      (r = recopy c ∨ ∃ y ∈ ys, verdict current y = .update t ∧ r.name = y.name) := by
  by_cases hupdated : ∃ y ∈ ys, verdict current y = .update t
  · obtain ⟨y, hy, hverdict⟩ := hupdated
    obtain ⟨c', hc', hr⟩ := h.updated y hy t hverdict
    obtain rfl := Option.some.inj (hc.symm.trans hc')
    exact ⟨_, hr, rfl, .inr ⟨y, hy, hverdict, rfl⟩⟩
  · refine ⟨_, h.kept t c hc fun y hy hverdict => hupdated ⟨y, hy, hverdict⟩, rfl, .inl rfl⟩

/-- No mapping of the list has the id of `x`, when no current and no added one has. -/
theorem Planned.ids_ne (h : Planned current ys result)
    (hcurrent : ∀ e ∈ current, e.id.pyEq x.id = false)
    (hadded : ∀ y ∈ ys, verdict current y = .add → y.id.pyEq x.id = false) :
    ∀ e ∈ result, e.id.pyEq x.id = false := by
  intro e he
  obtain ⟨t, ht⟩ := List.mem_iff_getElem?.1 he
  rcases Nat.lt_or_ge t current.length with hlt | hge
  · have hc := List.getElem?_eq_getElem hlt
    obtain ⟨r, hr, hid, -⟩ := h.slot hc
    obtain rfl := Option.some.inj (hr.symm.trans ht)
    rw [hid]
    exact hcurrent _ (List.mem_of_getElem? hc)
  · obtain ⟨hy, hadd⟩ := h.added t e hge ht
    exact hadded e hy hadd

/-- A position that `x` and none of `ys` updates holds the copy of its mapping. -/
theorem Planned.untouched (h : Planned current ys result)
    (hslots : ∀ y ∈ ys, SlotsApart current y x) {t : Nat} {c : MappingConfig}
    (hslot : (verdict current x).slot = some t) (hc : current[t]? = some c) :
    result[t]? = some (recopy c) := by
  refine h.kept t c hc fun y hy hupdate => ?_
  have hsame := (hslots y hy t (by rw [hupdate]; rfl) hslot).1
  rw [hupdate] at hsame
  cases hsame

/-- Where an uploaded mapping that is apart from those before it goes. -/
theorem Planned.target (h : Planned current ys result) (hx : KeyedLabels x)
    (hapart : ∀ y ∈ ys, Apart current y x) {t : Nat}
    (hslot : (verdict current x).slot = some t) :
    ∃ c, ∃ i : Fin result.length, current[t]? = some c ∧ (i : Nat) = t ∧
      result[t]? = some (recopy c) ∧ matchTarget result x = some i := by
  obtain ⟨c, hc, hwhy⟩ := of_slot hslot
  have hr := h.untouched (fun y hy => (hapart y hy).slot) hslot hc
  -- matched by its id, which no round before has moved
  rcases hwhy with hid | ⟨hnone, hname, hfirst⟩
  · obtain ⟨hlt, heq⟩ := List.getElem?_eq_some_iff.1 hr
    have hid' : result[t].id.pyEq x.id = true := by
      rw [heq]
      exact hid
    exact ⟨c, ⟨t, hlt⟩, hc, rfl, hr, matchTarget_of_id h.distinct h.keyed hx hlt hid'⟩
  · have hnames : ∀ (j : Nat) (e : MappingConfig), j < t → result[j]? = some e →
        e.name.pyEq x.name = false := by
      -- an earlier slot has its own name, or that of an entry that updated it
      intro j e hj he
      have hlt : j < current.length := lt_trans hj (List.getElem?_eq_some_iff.1 hc).1
      have hcj := List.getElem?_eq_getElem hlt
      obtain ⟨r, hr, -, hwhat⟩ := h.slot hcj
      obtain rfl := Option.some.inj (hr.symm.trans he)
      rcases hwhat with hcopy | ⟨y, hy, hupdate, hyname⟩
      · rw [hcopy]
        show (current[j]).name.pyEq x.name = false
        exact hfirst j _ hj hcj
      · rw [hyname]
        refine (hapart y hy).renamed j hupdate hnone fun t' ht' => ?_
        rw [hslot] at ht'
        exact Option.some.inj ht' ▸ hj
    have hids := h.ids_ne hnone fun y hy hadd => (hapart y hy).id hadd
    obtain ⟨i, hi, hmatch⟩ := matchTarget_of_name hids hr hname hnames
    exact ⟨c, i, hc, hi, hr, hmatch⟩

/-- A mapping that is apart from those before it has the verdict of the preview. -/
theorem Planned.verdict_eq (h : Planned current ys result) (hx : KeyedLabels x)
    (hinterval : x.modbusPoll.intervalS ≠ .fin 0) (hapart : ∀ y ∈ ys, Apart current y x)
    (hreal : RealUpdate current x) : verdict result x = verdict current x := by
  cases hverdict : verdict current x with
  | add =>
    have hcurrent := verdict_eq_add_iff.1 hverdict
    have hids := h.ids_ne (fun e he => (hcurrent e he).1) fun y hy hadd => (hapart y hy).id hadd
    refine verdict_eq_add_iff.2 fun e he => ⟨hids e he, ?_⟩
    obtain ⟨t, ht⟩ := List.mem_iff_getElem?.1 he
    rcases Nat.lt_or_ge t current.length with hlt | hge
    · have hc := List.getElem?_eq_getElem hlt
      obtain ⟨r, hr, -, hwhat⟩ := h.slot hc
      obtain rfl := Option.some.inj (hr.symm.trans ht)
      rcases hwhat with hcopy | ⟨y, hy, hupdate, hyname⟩
      · rw [hcopy]
        exact (hcurrent _ (List.mem_of_getElem? hc)).2
      · rw [hyname]
        refine (hapart y hy).renamed t hupdate (fun e he => (hcurrent e he).1) fun t' ht' => ?_
        rw [hverdict] at ht'
        cases ht'
    · obtain ⟨hy, hadd⟩ := h.added t e hge ht
      exact (hapart e hy).name hadd hverdict
  | same t =>
    obtain ⟨c, i, hc, rfl, hr, hmatch⟩ := h.target hx hapart (by rw [hverdict]; rfl)
    obtain ⟨i', hi', hmatch'⟩ := matchTarget_of_verdict (t := i) (by rw [hverdict]; rfl)
    -- equal to the target, which then has another interval than `0.0`
    have heq : ({ x with id := c.id } : MappingConfig).pyEq c = true := by
      have hsame := verdict_of_some hmatch' (hi'.symm ▸ hc)
      rw [hverdict] at hsame
      by_contra hne
      rw [if_neg hne] at hsame
      cases hsame
    have hcopy : recopy c = c := recopy_eq_self (interval_of_pyEq heq ▸ hinterval)
    rw [verdict_of_some hmatch hr, hcopy, if_pos heq]
  | update t =>
    obtain ⟨c, i, hc, rfl, hr, hmatch⟩ := h.target hx hapart (by rw [hverdict]; rfl)
    have hne : ¬ ({ x with id := (recopy c).id } : MappingConfig).pyEq (recopy c) = true := by
      rw [Bool.not_eq_true]
      exact hreal i c hverdict hc
    rw [verdict_of_some hmatch hr, if_neg hne]

/-- A mapping with the verdict of the preview is apart from those before it. -/
theorem Planned.apart (h : Planned current ys result) (hx : KeyedLabels x)
    (hsame : verdict result x = verdict current x) (hslots : ∀ y ∈ ys, SlotsApart current y x) :
    ∀ y ∈ ys, Apart current y x := by
  -- the position that `x` goes to is one of the current list
  have hold : ∀ t, (verdict result x).slot = some t → t < current.length := by
    intro t ht
    rw [hsame] at ht
    obtain ⟨i, rfl, -⟩ := matchTarget_of_verdict ht
    exact i.2
  intro y hy
  constructor
  case id =>
    intro hadd
    by_contra heq
    obtain ⟨t, hge, ht⟩ := h.present y hy hadd
    obtain ⟨hlt, hget⟩ := List.getElem?_eq_some_iff.1 ht
    have hid : result[t].id.pyEq x.id = true := by
      rw [hget]
      simpa using heq
    have hmatch := matchTarget_of_id h.distinct h.keyed hx hlt hid
    have hslot : (verdict result x).slot = some t := by
      rw [slot_verdict, hmatch]
      rfl
    exact absurd (hold t hslot) (Nat.not_lt.2 hge)
  case name =>
    intro hadd hxadd
    obtain ⟨t, -, ht⟩ := h.present y hy hadd
    rw [hxadd] at hsame
    exact (verdict_eq_add_iff.1 hsame y (List.mem_of_getElem? ht)).2
  case slot => exact hslots y hy
  case renamed =>
    intro t hupdate hnone hbefore
    obtain ⟨c, -, hr⟩ := h.updated y hy t hupdate
    cases hslot : (verdict result x).slot with
    | none =>
      have hadd : verdict result x = .add := by
        cases hverdict : verdict result x with
        | add => rfl
        | same t => rw [hverdict] at hslot; cases hslot
        | update t => rw [hverdict] at hslot; cases hslot
      exact (verdict_eq_add_iff.1 hadd _ (List.mem_of_getElem? hr)).2
    | some t' =>
      have hlt := hbefore t' (hsame ▸ hslot)
      obtain ⟨r, hr', hwhy⟩ := of_slot hslot
      rcases hwhy with hid | ⟨-, -, hfirst⟩
      · -- the ids of the current positions have not changed
        have hc := List.getElem?_eq_getElem (hold t' hslot)
        obtain ⟨r', hr'', hrid, -⟩ := h.slot hc
        obtain rfl := Option.some.inj (hr'.symm.trans hr'')
        rw [hrid, hnone _ (List.mem_of_getElem? hc)] at hid
        cases hid
      · have hname := hfirst t _ hlt hr
        exact hname

theorem Planned.realUpdate (h : Planned current ys result)
    (hsame : verdict result x = verdict current x) (hslots : ∀ y ∈ ys, SlotsApart current y x) :
    RealUpdate current x := by
  intro t c hupdate hc
  have hr := h.untouched hslots (by rw [hupdate]; rfl) hc
  rw [hupdate] at hsame
  obtain ⟨i, rfl, hmatch⟩ := matchTarget_of_verdict (t := t) (by rw [hsame]; rfl)
  rw [verdict_of_some hmatch hr] at hsame
  by_contra heq
  have heq : ({ x with id := (recopy c).id } : MappingConfig).pyEq (recopy c) = true :=
    (Bool.not_eq_false _).mp heq
  rw [if_pos heq] at hsame
  cases hsame

theorem Planned.length_le (h : Planned current ys result) : current.length ≤ result.length := by
  by_contra hlt
  obtain ⟨r, hr, -⟩ := h.slot (List.getElem?_eq_getElem (Nat.lt_of_not_le hlt))
  rw [List.getElem?_eq_none (Nat.le_refl _)] at hr
  cases hr

/-- One more mapping of the file, with the verdict of the preview. -/
theorem Planned.step (h : Planned current ys result) (hx : KeyedLabels x)
    (hsame : verdict result x = verdict current x) (hslots : ∀ y ∈ ys, SlotsApart current y x) :
    Planned current (ys ++ [x]) (place result x) := by
  have hmem : ∀ y, y ∈ ys ++ [x] ↔ y ∈ ys ∨ y = x := by simp
  have hplace := place_of_verdict result x
  rw [hsame] at hplace
  -- a position that `x` does not update
  have hstays : ∀ (t : Nat) (r : MappingConfig), verdict current x ≠ .update t →
      result[t]? = some r → (place result x)[t]? = some r := fun t r hne hr =>
    place_getElem?_of_verdict (hsame ▸ hne) hr
  have hupdates : ∀ t, verdict current x = .update t → t < current.length := by
    intro t hupdate
    obtain ⟨i, rfl, -⟩ := matchTarget_of_verdict (t := t) (by rw [hupdate]; rfl)
    exact i.2
  constructor
  case distinct => exact place_distinct h.distinct x
  case keyed => exact keyedLabels_place h.keyed hx
  case kept =>
    intro t c hc hfree
    refine hstays t _ (hfree x ((hmem x).2 (.inr rfl))) ?_
    exact h.kept t c hc fun y hy => hfree y ((hmem y).2 (.inl hy))
  case updated =>
    intro y hy t hupdate
    rcases (hmem y).1 hy with hy | rfl
    · obtain ⟨c, hc, hr⟩ := h.updated y hy t hupdate
      refine ⟨c, hc, hstays t _ (fun hxupdate => ?_) hr⟩
      -- two updates of one position
      have hboth := (hslots y hy t (by rw [hupdate]; rfl) (by rw [hxupdate]; rfl)).1
      rw [hupdate] at hboth
      cases hboth
    · have hc := List.getElem?_eq_getElem (hupdates t hupdate)
      have hr := h.untouched hslots (by rw [hupdate]; rfl) hc
      rw [hupdate] at hsame hplace
      obtain ⟨i, rfl, hmatch⟩ := matchTarget_of_verdict (t := t) (by rw [hsame]; rfl)
      refine ⟨_, hc, ?_⟩
      rw [hplace, pinnedId_of_some hmatch hr]
      exact List.getElem?_set_self i.2
  case added =>
    intro t r hge hr
    cases hverdict : verdict current x with
    | add =>
      rw [hplace, hverdict] at hr
      rcases Nat.lt_or_ge t result.length with hlt | hend
      · obtain ⟨hy, hadd⟩ := h.added t r hge ((List.getElem?_append_left hlt).symm.trans hr)
        exact ⟨(hmem r).2 (.inl hy), hadd⟩
      · rw [List.getElem?_append_right hend] at hr
        obtain rfl := List.mem_singleton.1 (List.mem_of_getElem? hr)
        exact ⟨(hmem r).2 (.inr rfl), hverdict⟩
    | same t' =>
      rw [hplace, hverdict] at hr
      obtain ⟨hy, hadd⟩ := h.added t r hge hr
      exact ⟨(hmem r).2 (.inl hy), hadd⟩
    | update t' =>
      have hne : t' ≠ t := fun heq => by
        have := hupdates t' hverdict
        omega
      rw [hplace, hverdict] at hr
      obtain ⟨hy, hadd⟩ := h.added t r hge ((List.getElem?_set_ne hne).symm.trans hr)
      exact ⟨(hmem r).2 (.inl hy), hadd⟩
  case present =>
    intro y hy hadd
    rcases (hmem y).1 hy with hy | rfl
    · obtain ⟨t, hge, ht⟩ := h.present y hy hadd
      refine ⟨t, hge, hstays t y (fun hupdate => ?_) ht⟩
      have := hupdates t hupdate
      omega
    · refine ⟨result.length, h.length_le, ?_⟩
      rw [hplace, hadd]
      exact List.getElem?_concat_length

/-- Before the first mapping of the file. -/
theorem Planned.init (hids : DistinctIds current) (hkeyed : ∀ c ∈ current, KeyedLabels c) :
    Planned current [] (current.map recopy) where
  distinct := distinctIds_recopy hids
  keyed := List.forall_mem_map.2 hkeyed
  kept t c hc _ := by rw [List.getElem?_map, hc]; rfl
  updated y hy := absurd hy List.not_mem_nil
  added t r hge hr := by
    rw [List.getElem?_eq_none (by rwa [List.length_map])] at hr
    cases hr
  present y hy := absurd hy List.not_mem_nil

end

/-! ### A whole file -/

/-- The verdicts of mappings that are placed one after the other. -/
def placements : List MappingConfig → List MappingConfig → List Verdict
  | _, [] => []
  | result, x :: xs => verdict result x :: placements (place result x) xs

section
variable {current ys result : List MappingConfig}

/-- The file has the verdicts of the preview and updates no position twice exactly when its
    mappings are apart. -/
theorem Planned.placements_iff {xs : List MappingConfig} (h : Planned current ys result)
    (hkeyed : ∀ x ∈ xs, KeyedLabels x) (hintervals : ∀ x ∈ xs, x.modbusPoll.intervalS ≠ .fin 0) :
    (placements result xs = xs.map (verdict current) ∧
        (∀ y ∈ ys, ∀ x ∈ xs, SlotsApart current y x) ∧ xs.Pairwise (SlotsApart current)) ↔
      (∀ y ∈ ys, ∀ x ∈ xs, Apart current y x) ∧ xs.Pairwise (Apart current) ∧
        ∀ x ∈ xs, RealUpdate current x := by
  induction xs generalizing ys result with
  | nil => simp [placements]
  | cons x xs ih =>
    have hx := hkeyed x List.mem_cons_self
    have ih := fun hstep : Planned current (ys ++ [x]) (place result x) => ih hstep
      (fun z hz => hkeyed z (List.mem_cons_of_mem x hz))
      fun z hz => hintervals z (List.mem_cons_of_mem x hz)
    have hmem : ∀ y, y ∈ ys ++ [x] ↔ y ∈ ys ∨ y = x := by simp
    constructor
    -- the rounds do what the plan says: read off the heads, then the tails
    · rintro ⟨hverdicts, hslots, hpairs⟩
      obtain ⟨hhead, htail⟩ := List.cons.inj hverdicts
      obtain ⟨hxs, hpairs⟩ := List.pairwise_cons.1 hpairs
      have hslots' := fun y hy => hslots y hy x List.mem_cons_self
      have hapart := h.apart hx hhead hslots'
      have hreal := h.realUpdate hhead hslots'
      obtain ⟨hall, hpairs, hreals⟩ := (ih (h.step hx hhead hslots')).1 ⟨htail, fun y hy z hz => by
        rcases (hmem y).1 hy with hy | rfl
        · exact hslots y hy z (List.mem_cons_of_mem x hz)
        · exact hxs z hz, hpairs⟩
      refine ⟨fun y hy z hz => ?_, List.pairwise_cons.2 ⟨fun z hz => ?_, hpairs⟩, fun z hz => ?_⟩
      · rcases List.mem_cons.1 hz with rfl | hz
        · exact hapart y hy
        · exact hall y ((hmem y).2 (.inl hy)) z hz
      · exact hall x ((hmem x).2 (.inr rfl)) z hz
      · rcases List.mem_cons.1 hz with rfl | hz
        · exact hreal
        · exact hreals z hz
    -- and back: what the plan says of the first entry makes its round the planned one
    · rintro ⟨hall, hpairs, hreals⟩
      obtain ⟨hxs, hpairs⟩ := List.pairwise_cons.1 hpairs
      have hapart := fun y hy => hall y hy x List.mem_cons_self
      have hhead := h.verdict_eq hx (hintervals x List.mem_cons_self) hapart
        (hreals x List.mem_cons_self)
      obtain ⟨htail, hslots, hpairs⟩ := (ih (h.step hx hhead fun y hy => (hapart y hy).slot)).2
        ⟨fun y hy z hz => by
          rcases (hmem y).1 hy with hy | rfl
          · exact hall y hy z (List.mem_cons_of_mem x hz)
          · exact hxs z hz, hpairs, fun z hz => hreals z (List.mem_cons_of_mem x hz)⟩
      refine ⟨?_, fun y hy z hz => ?_, List.pairwise_cons.2 ⟨fun z hz => (hxs z hz).slot, hpairs⟩⟩
      · rw [placements, List.map_cons, hhead, htail]
      · rcases List.mem_cons.1 hz with rfl | hz
        · exact (hapart y hy).slot
        · exact hslots y ((hmem y).2 (.inl hy)) z hz

end

theorem length_placements (result xs : List MappingConfig) :
    (placements result xs).length = xs.length := by
  induction xs generalizing result with
  | nil => rfl
  | cons x xs ih => rw [placements, List.length_cons, List.length_cons, ih]

theorem placements_getElem? (result xs : List MappingConfig) (i : Nat) :
    (placements result xs)[i]? = xs[i]?.map (verdict ((xs.take i).foldl place result)) := by
  induction xs generalizing result i with
  | nil => rfl
  | cons x xs ih =>
    cases i with
    | zero => rfl
    | succ i =>
      show (placements (place result x) xs)[i]? = _
      rw [ih]
      rfl

/-- The list grows by the mappings that are added. -/
theorem length_foldl_place (result xs : List MappingConfig) :
    (xs.foldl place result).length = (placements result xs).count .add + result.length := by
  induction xs generalizing result with
  | nil => simp [placements]
  | cons x xs ih =>
    rw [List.foldl_cons, ih, placements, List.count_cons, place_of_verdict]
    cases verdict result x with
    | add =>
      rw [List.length_append, List.length_singleton]
      simp
      omega
    | same t => simp
    | update t => simp

/-- Verdicts that agree with others wherever these do not add, and add as often, are the
    same. -/
theorem verdicts_eq {done planned : List Verdict} (hlen : done.length = planned.length)
    (h : ∀ (i : Nat) (v : Verdict), planned[i]? = some v → v ≠ .add → done[i]? = some v)
    (hcount : planned.count .add = done.count .add) : done = planned := by
  -- there are at most as many that add
  have hle : ∀ {done planned : List Verdict}, done.length = planned.length →
      (∀ (i : Nat) (v : Verdict), planned[i]? = some v → v ≠ .add → done[i]? = some v) →
      done.count .add ≤ planned.count .add := by
    intro done
    induction done with
    | nil => simp
    | cons d done ih =>
      intro planned hlen h
      cases planned with
      | nil => cases hlen
      | cons v planned =>
        have htail := ih (Nat.succ.inj hlen) fun i => h (i + 1)
        by_cases hv : v = .add
        · subst hv
          have := List.count_cons_self (a := Verdict.add) (l := planned)
          have := @List.count_cons Verdict _ .add d done
          split at this <;> omega
        · obtain rfl := Option.some.inj (h 0 v rfl hv)
          rw [List.count_cons_of_ne hv, List.count_cons_of_ne hv]
          exact htail
  induction done generalizing planned with
  | nil => exact (List.eq_nil_of_length_eq_zero hlen.symm).symm
  | cons d done ih =>
    cases planned with
    | nil => cases hlen
    | cons v planned =>
      have htail := hle (Nat.succ.inj hlen) fun i => h (i + 1)
      have hd : d = v := by
        by_cases hv : v = .add
        · subst hv
          by_contra hne
          rw [List.count_cons_self, List.count_cons_of_ne hne] at hcount
          omega
        · exact Option.some.inj (h 0 v rfl hv)
      subst hd
      rw [List.count_cons, List.count_cons] at hcount
      rw [ih (Nat.succ.inj hlen) (fun i => h (i + 1)) (by omega)]

/-- The rounds do what the preview says and write over no mapping twice, in terms of the
    verdicts alone. -/
theorem verdicts_agree_iff {done planned : List Verdict} (hlen : done.length = planned.length) :
    (planned.count .add = done.count .add ∧
      (∀ i t : Nat, planned[i]? = some (.same t) →
        done[i]? = some (.same t) ∧ Verdict.update t ∉ done) ∧
      ∀ i t : Nat, planned[i]? = some (.update t) →
        done[i]? = some (.update t) ∧ Verdict.update t ∉ done.take i) ↔
    done = planned ∧ planned.Pairwise fun a b => ∀ t, a.slot = some t → b.slot = some t →
      a = .same t ∧ b = .same t := by
  constructor
  · rintro ⟨hcount, hsame, hupdate⟩
    have heq : done = planned := by
      refine verdicts_eq hlen (fun i v hv hne => ?_) hcount
      cases v with
      | add => exact absurd rfl hne
      | same t => exact (hsame i t hv).1
      | update t => exact (hupdate i t hv).1
    subst heq
    refine ⟨rfl, List.pairwise_iff_getElem.2 fun i j hi hj hij t hti htj => ?_⟩
    have hi' := List.getElem?_eq_getElem hi
    have hj' := List.getElem?_eq_getElem hj
    cases hv : done[i] with
    | add => rw [hv] at hti; cases hti
    | same t₁ =>
      rw [hv] at hi' hti
      cases hti
      cases hw : done[j] with
      | add => rw [hw] at htj; cases htj
      | same t₂ =>
        rw [hw] at htj
        cases htj
        exact ⟨rfl, rfl⟩
      | update t₂ =>
        rw [hw] at hj' htj
        cases htj
        exact absurd (List.mem_of_getElem? hj') (hsame i t hi').2
    | update t₁ =>
      rw [hv] at hi' hti
      cases hti
      cases hw : done[j] with
      | add => rw [hw] at htj; cases htj
      | same t₂ =>
        rw [hw] at hj' htj
        cases htj
        exact absurd (List.mem_of_getElem? hi') (hsame j t hj').2
      | update t₂ =>
        rw [hw] at hj' htj
        cases htj
        refine absurd ?_ (hupdate j t hj').2
        rw [← List.getElem?_take_of_lt hij] at hi'
        exact List.mem_of_getElem? hi'
  · rintro ⟨rfl, hpairs⟩
    have hpairs := List.pairwise_iff_getElem.1 hpairs
    -- an update of a position before or after another verdict on it
    have hne : ∀ i j t : Nat, i < j → done[i]? = some (.update t) → ∀ v, done[j]? = some v →
        v.slot ≠ some t := by
      intro i j t hij hi v hj hslot
      obtain ⟨hi', hvi⟩ := List.getElem?_eq_some_iff.1 hi
      obtain ⟨hj', rfl⟩ := List.getElem?_eq_some_iff.1 hj
      have := (hpairs i j hi' hj' hij t (by rw [hvi]; rfl) hslot).1
      rw [hvi] at this
      cases this
    have hne' : ∀ i j t : Nat, i < j → done[j]? = some (.update t) → ∀ v, done[i]? = some v →
        v.slot ≠ some t := by
      intro i j t hij hj v hi hslot
      obtain ⟨hj', hvj⟩ := List.getElem?_eq_some_iff.1 hj
      obtain ⟨hi', rfl⟩ := List.getElem?_eq_some_iff.1 hi
      have := (hpairs i j hi' hj' hij t hslot (by rw [hvj]; rfl)).2
      rw [hvj] at this
      cases this
    refine ⟨rfl, fun i t hi => ⟨hi, fun hmem => ?_⟩, fun i t hi => ⟨hi, fun hmem => ?_⟩⟩
    · obtain ⟨j, hj⟩ := List.mem_iff_getElem?.1 hmem
      rcases Nat.lt_trichotomy i j with hij | rfl | hij
      · exact hne' i j t hij hj _ hi rfl
      · rw [hi] at hj
        cases hj
      · exact hne j i t hij hj _ hi rfl
    · obtain ⟨j, hj⟩ := List.mem_iff_getElem?.1 hmem
      rw [List.getElem?_take] at hj
      split at hj
      · next hlt => exact hne j i t hlt hj _ hi rfl
      · cases hj

/-! ### The preview and the import of kept mappings -/

section
variable {m : Platform} (newIds : Nat → String)

theorem copyMapping_of_kept {c : MappingConfig} (h : c.Kept m) (n : Nat) :
    copyMapping m newIds n c = .ok (recopy c, n) := by
  rw [copyMapping, h.fromDict_toDict, h.id]
  rfl

/-- The verdicts of the rounds of the merge loop. -/
theorem rounds_of_kept {l : List MappingConfig} (hl : ∀ c ∈ l, c.Kept m) {s : Progress}
    (hd : DistinctIds s.result) :
    rounds m newIds s l = .ok (placements s.result (l.map recopy)) := by
  induction l generalizing s with
  | nil => rfl
  | cons c rest ih =>
    have hcopy := copyMapping_of_kept newIds (hl c List.mem_cons_self) s.drawn
    obtain ⟨touched, hmerge⟩ := mergeOne_of_copy hd hcopy
    have hrest := ih (fun d hd => hl d (List.mem_cons_of_mem c hd))
      (s := ⟨place s.result (recopy c), touched, s.drawn⟩) (place_distinct hd _)
    rw [rounds, hcopy]
    show (mergeOne m newIds s c >>= fun s' => rounds m newIds s' rest >>= fun more =>
      pure (verdict s.result (recopy c) :: more)) = _
    rw [hmerge, except_ok_bind, hrest]
    rfl

theorem importRounds_of_kept {current incoming : List MappingConfig} (hids : DistinctIds current)
    (hcur : ∀ c ∈ current, c.Kept m) (hinc : ∀ c ∈ incoming, c.Kept m) :
    importRounds m newIds current incoming =
      .ok (placements (current.map recopy) (incoming.map recopy)) := by
  rw [importRounds, copyAll_of_kept newIds hcur]
  exact rounds_of_kept newIds hinc (s := ⟨_, [], 0⟩) (distinctIds_recopy hids)

/-- A round that finds the mapping equal changes nothing. -/
theorem mergeOne_of_same {s : Progress} {c c' : MappingConfig} {t n : Nat}
    (hcopy : copyMapping m newIds s.drawn c = .ok (c', n))
    (h : verdict s.result c' = .same t) : mergeOne m newIds s c = .ok { s with drawn := n } := by
  obtain ⟨i, rfl, hmatch⟩ := matchTarget_of_verdict (t := t) (by rw [h]; rfl)
  have hi : s.result[(i : Nat)]? = some (s.result.get i) := List.getElem?_eq_getElem i.2
  rw [verdict_of_some hmatch hi] at h
  have heq : ({ c' with id := (s.result.get i).id } : MappingConfig).pyEq (s.result.get i) =
      true := by
    by_contra hne
    rw [if_neg hne] at h
    cases h
  unfold mergeOne
  rw [hcopy, except_ok_bind]
  dsimp only
  rw [hmatch]
  exact if_pos heq

/-- Such a round changes neither what the import returns nor what it has touched. -/
theorem applyImport_take_of_same {current incoming : List MappingConfig}
    (hids : DistinctIds current) (hcur : ∀ c ∈ current, c.Kept m)
    (hinc : ∀ c ∈ incoming, c.Kept m) {i t : Nat}
    (h : (placements (current.map recopy) (incoming.map recopy))[i]? = some (.same t)) :
    applyImport m newIds current (incoming.take (i + 1)) "merge" =
      applyImport m newIds current (incoming.take i) "merge" := by
  rw [placements_getElem?, List.getElem?_map, Option.map_map] at h
  obtain ⟨x, hx, hverdict⟩ := Option.map_eq_some_iff.1 h
  have hkept := fun c hc => hinc c (List.mem_of_mem_take (i := i) hc)
  have hbefore : ∃ touched,
      (incoming.take i).foldlM (mergeOne m newIds) ⟨current.map recopy, [], 0⟩ =
        .ok ⟨((incoming.take i).map recopy).foldl place (current.map recopy), touched, 0⟩ :=
    mergeOne_foldlM_of_copies (distinctIds_recopy hids) (copyAll_of_kept newIds hkept 0)
  obtain ⟨touched, hrun⟩ := hbefore
  -- the round of this entry changes nothing
  have hround : mergeOne m newIds
      ⟨((incoming.take i).map recopy).foldl place (current.map recopy), touched, 0⟩ x = .ok
      ⟨((incoming.take i).map recopy).foldl place (current.map recopy), touched, 0⟩ := by
    refine mergeOne_of_same newIds (t := t)
      (copyMapping_of_kept newIds (hinc x (List.mem_of_getElem? hx)) 0) ?_
    rw [List.map_take]
    exact hverdict
  have htake : incoming.take (i + 1) = incoming.take i ++ [x] := by
    rw [List.take_add_one, hx]
    rfl
  have hfold : (incoming.take (i + 1)).foldlM (mergeOne m newIds) ⟨current.map recopy, [], 0⟩ =
      (incoming.take i).foldlM (mergeOne m newIds) ⟨current.map recopy, [], 0⟩ := by
    rw [htake, List.foldlM_append, hrun, except_ok_bind, List.foldlM_cons, hround]
    rfl
  have happly : ∀ l : List MappingConfig, applyImport m newIds current l "merge" =
      (l.foldlM (mergeOne m newIds) ⟨current.map recopy, [], 0⟩ >>= fun s =>
        pure (s.result, s.touched)) := by
    intro l
    show (copyAll m newIds 0 current >>= fun p => l.foldlM (mergeOne m newIds) ⟨p.1, [], p.2⟩ >>=
      fun s => pure (s.result, s.touched)) = _
    rw [copyAll_of_kept newIds hcur]
    rfl
  rw [happly, happly, hfold]

/-- The action of a row is the verdict on the current list. -/
theorem planRow_of_kept {current : List MappingConfig} (hcur : ∀ c ∈ current, c.Kept m)
    {c : MappingConfig} (hc : c.Kept m) (newId : String) :
    ∃ row, planRow m newId current c = .ok row ∧
      row.action = (verdict current (recopy c)).action := by
  have hmatched : matchTarget current (recopy c) = matchTarget current c := rfl
  unfold planRow
  cases hmatch : matchTarget current c with
  | none =>
    rw [hmatch] at hmatched
    exact ⟨_, rfl, by rw [verdict_of_none hmatched]; rfl⟩
  | some i =>
    rw [hmatch] at hmatched
    have hi : current[(i : Nat)]? = some (current.get i) := List.getElem?_eq_getElem i.2
    have hkept : ({ c with id := (current.get i).id } : MappingConfig).Kept m :=
      ⟨(hcur _ (List.get_mem current i)).id, hc.idle, hc.trace⟩
    dsimp only
    rw [hkept.fromDict_toDict newId, except_ok_bind]
    refine ⟨_, rfl, ?_⟩
    -- the row compares under the id of the current mapping, as the import does
    rw [verdict_of_some hmatched hi]
    show (if ({ recopy c with id := (current.get i).id } : MappingConfig).pyEq (current.get i) =
      true then Action.same else Action.update) = _
    split <;> rfl

theorem planRows_of_kept {current : List MappingConfig} (hcur : ∀ c ∈ current, c.Kept m)
    {incoming : List MappingConfig} (hinc : ∀ c ∈ incoming, c.Kept m) :
    ∃ rows, planRows m newIds current incoming "merge" = .ok rows ∧
      rows.map Row.action = ((incoming.map recopy).map (verdict current)).map Verdict.action := by
  have hrows : ∀ n : Nat, ∃ rows : List Row,
      ((incoming.zipIdx n).mapM fun p => if "merge" = "merge" then
        planRow m (newIds p.2) current p.1 else .ok (bareRow m .add p.1)) = .ok rows ∧
      rows.map Row.action =
        ((incoming.map recopy).map (verdict current)).map Verdict.action := by
    induction incoming with
    | nil => exact fun n => ⟨[], rfl, rfl⟩
    | cons c rest ih =>
      intro n
      obtain ⟨row, hrow, haction⟩ := planRow_of_kept hcur (hinc c List.mem_cons_self) (newIds n)
      obtain ⟨rows, hrows, hactions⟩ := ih (fun d hd => hinc d (List.mem_cons_of_mem c hd)) (n + 1)
      refine ⟨row :: rows, ?_, ?_⟩
      · rw [List.zipIdx_cons, List.mapM_cons, hrows]
        show (planRow m (newIds n) current c >>= _) = _
        rw [hrow]
        rfl
      · rw [List.map_cons, haction, hactions]
        rfl
  obtain ⟨rows, hrun, hactions⟩ := hrows 0
  refine ⟨rows, ?_, hactions⟩
  unfold planRows
  rw [hrun]
  show Except.ok (rows ++ []) = _
  rw [List.append_nil]

/-- The rows describe the merge exactly when its rounds have the verdicts of the preview and no
    two of them update one position. -/
theorem mergeDescribed_iff {current incoming : List MappingConfig} (hids : DistinctIds current)
    (hcur : ∀ c ∈ current, c.Kept m) (hinc : ∀ c ∈ incoming, c.Kept m) {rows : List Row}
    (hrows : rows.map Row.action =
      ((incoming.map recopy).map (verdict current)).map Verdict.action) :
    MergeDescribed m newIds current incoming rows
        (placements (current.map recopy) (incoming.map recopy))
        ((incoming.map recopy).foldl place (current.map recopy)) ↔
      placements (current.map recopy) (incoming.map recopy) =
          (incoming.map recopy).map (verdict current) ∧
        (incoming.map recopy).Pairwise (SlotsApart current) := by
  -- the rows, one by one
  have hrow : ∀ i : Nat, rows[i]?.map Row.action =
      incoming[i]?.map fun x => (verdict current (recopy x)).action := by
    intro i
    have hi := congrArg (fun l : List Action => l[i]?) hrows
    simp only [List.getElem?_map, Option.map_map] at hi
    exact hi
  have hplanned : ∀ (i : Nat) (v : Verdict),
      ((incoming.map recopy).map (verdict current))[i]? = some v ↔
      ∃ x, incoming[i]? = some x ∧ verdict current (recopy x) = v := by
    intro i v
    simp only [List.getElem?_map, Option.map_map, Option.map_eq_some_iff]
    rfl
  have hcount : (rows.countP fun r => r.action = .add) =
      ((incoming.map recopy).map (verdict current)).count .add := by
    have hadds := congrArg (List.countP fun a => decide (a = Action.add)) hrows
    rw [List.countP_map, List.countP_map] at hadds
    refine hadds.trans (List.countP_congr fun v _ => ?_)
    cases v with
    | add => decide
    | same t => exact iff_of_false Bool.false_ne_true Bool.false_ne_true
    | update t => exact iff_of_false Bool.false_ne_true Bool.false_ne_true
  have hlen := length_placements (current.map recopy) (incoming.map recopy)
  have hagree := verdicts_agree_iff (hlen.trans (List.length_map (verdict current)).symm)
  rw [List.pairwise_map] at hagree
  refine Iff.trans ?_ hagree
  constructor
  · intro h
    refine ⟨?_, fun i t hi => ?_, fun i t hi => ?_⟩
    · have hadded := h.added
      rw [hcount, length_foldl_place, List.length_map] at hadded
      omega
    · obtain ⟨x, hx, hverdict⟩ := (hplanned i _).1 hi
      obtain ⟨j, rfl, hmatch⟩ := matchTarget_of_verdict (t := t) (by rw [hverdict]; rfl)
      have hi' := hrow i
      rw [hx, Option.map_some, hverdict] at hi'
      obtain ⟨row, hrow', haction⟩ := Option.map_eq_some_iff.1 hi'
      obtain ⟨hdone, hfree, -⟩ := h.same i x row j hx hrow' hmatch haction
      exact ⟨hdone, hfree⟩
    · obtain ⟨x, hx, hverdict⟩ := (hplanned i _).1 hi
      obtain ⟨j, rfl, hmatch⟩ := matchTarget_of_verdict (t := t) (by rw [hverdict]; rfl)
      have hi' := hrow i
      rw [hx, Option.map_some, hverdict] at hi'
      obtain ⟨row, hrow', haction⟩ := Option.map_eq_some_iff.1 hi'
      exact h.updated i x row j hx hrow' hmatch haction
  · rintro ⟨hadds, hsame, hupdate⟩
    -- the verdict behind a row
    have hbehind : ∀ (i : Nat) (x : MappingConfig) (row : Row) (t : Fin current.length),
        incoming[i]? = some x → rows[i]? = some row → matchTarget current x = some t →
        (verdict current (recopy x)).action = row.action ∧
          (verdict current (recopy x)).slot = some (t : Nat) := by
      intro i x row t hx hr hmatch
      have hi := hrow i
      rw [hx, hr] at hi
      have hslot := slot_verdict current (recopy x)
      have hmatched : matchTarget current (recopy x) = matchTarget current x := rfl
      rw [hmatched, hmatch] at hslot
      exact ⟨(Option.some.inj hi).symm, hslot⟩
    constructor
    case added =>
      rw [hcount, length_foldl_place, List.length_map]
      omega
    case same =>
      intro i x row t hx hr hmatch haction
      obtain ⟨hact, hslot⟩ := hbehind i x row t hx hr hmatch
      have hverdict : verdict current (recopy x) = .same t := by
        cases hv : verdict current (recopy x) with
        | add => rw [hv, haction] at hact; cases hact
        | same t' => rw [hv] at hslot; cases hslot; rfl
        | update t' => rw [hv, haction] at hact; cases hact
      obtain ⟨hdone, hfree⟩ := hsame i t ((hplanned i _).2 ⟨x, hx, hverdict⟩)
      exact ⟨hdone, hfree, applyImport_take_of_same newIds hids hcur hinc hdone⟩
    case updated =>
      intro i x row t hx hr hmatch haction
      obtain ⟨hact, hslot⟩ := hbehind i x row t hx hr hmatch
      have hverdict : verdict current (recopy x) = .update t := by
        cases hv : verdict current (recopy x) with
        | add => rw [hv, haction] at hact; cases hact
        | same t' => rw [hv, haction] at hact; cases hact
        | update t' => rw [hv] at hslot; cases hslot; rfl
      exact hupdate i t ((hplanned i _).2 ⟨x, hx, hverdict⟩)

/-- The rows of a replacement describe what the import does: the new list has the mappings of
    the rows that add, in their order, and all of them are touched; the other rows remove the
    current mappings. -/
structure ReplaceDescribed (current : List MappingConfig) (rows : List Row)
    (result touched : List MappingConfig) : Prop where
  added : result.map MappingConfig.name =
    (rows.filter fun r => r.action = .add).map Row.name
  removed : current.map MappingConfig.name =
    (rows.filter fun r => r.action = .remove).map Row.name
  others : ∀ r ∈ rows, r.action = .add ∨ r.action = .remove
  touched : touched = result

theorem replaceOne_foldlM_names {l : List MappingConfig} {s s' : Progress}
    (h : l.foldlM (replaceOne m newIds) s = .ok s') (htouched : s.touched = s.result) :
    s'.result.map MappingConfig.name = s.result.map MappingConfig.name ++
      l.map MappingConfig.name ∧ s'.touched = s'.result := by
  induction l generalizing s with
  | nil =>
    obtain rfl := Except.ok.inj h
    exact ⟨(List.append_nil _).symm, htouched⟩
  | cons c rest ih =>
    rw [List.foldlM_cons] at h
    obtain ⟨s₁, hone, hrest⟩ := except_bind_eq_ok.1 h
    -- one round appends one mapping, with the name of the uploaded one
    have hround : ∃ c', c'.name = c.name ∧ s₁.result = s.result ++ [c'] ∧
        s₁.touched = s.touched ++ [c'] := by
      obtain ⟨⟨c', n⟩, hcopy, hone⟩ := except_bind_eq_ok.1 hone
      have hname := (copyMapping_eq_ok hcopy).2.1
      dsimp only at hone
      split at hone
      · cases hone
      · split at hone
        · obtain rfl := Except.ok.inj hone
          exact ⟨{ c' with id := .str (newIds n) }, hname, rfl, rfl⟩
        · obtain rfl := Except.ok.inj hone
          exact ⟨_, hname, rfl, rfl⟩
    obtain ⟨c', hname, hresult, htouched'⟩ := hround
    obtain ⟨hnames, hall⟩ := ih hrest (by rw [hresult, htouched', htouched])
    refine ⟨?_, hall⟩
    rw [hnames, hresult]
    simp [hname]

/-- In replace mode the preview is always right. -/
theorem replaceDescribed (current incoming : List MappingConfig) :
    ∃ rows, planRows m newIds current incoming "replace" = .ok rows ∧
      ∀ result touched, applyImport m newIds current incoming "replace" = .ok (result, touched) →
        ReplaceDescribed current rows result touched := by
  have hrows : ∀ n : Nat, ((incoming.zipIdx n).mapM fun p => if "replace" = "merge" then
      planRow m (newIds p.2) current p.1 else .ok (bareRow m .add p.1)) =
        .ok (incoming.map (bareRow m .add)) := by
    induction incoming with
    | nil => exact fun n => rfl
    | cons c rest ih =>
      intro n
      rw [List.zipIdx_cons, List.mapM_cons, ih]
      rfl
  refine ⟨incoming.map (bareRow m .add) ++ current.map (bareRow m .remove), ?_, ?_⟩
  · unfold planRows
    rw [hrows]
    rfl
  · intro result touched h
    obtain ⟨u, -, hrun⟩ := except_bind_eq_ok.1 h
    rw [if_pos rfl] at hrun
    obtain ⟨s, hfold, hrun⟩ := except_bind_eq_ok.1 hrun
    cases hrun
    obtain ⟨hnames, htouched⟩ := replaceOne_foldlM_names newIds hfold rfl
    refine ⟨?_, ?_, ?_, htouched⟩
    -- what is added is the file in its order
    · rw [hnames]
      simp [List.filter_append, List.filter_map, bareRow, Function.comp_def]
    · simp [List.filter_append, List.filter_map, bareRow, Function.comp_def]
    · intro r hr
      rcases List.mem_append.1 hr with hr | hr
      · obtain ⟨c, -, rfl⟩ := List.mem_map.1 hr
        exact .inl rfl
      · obtain ⟨c, -, rfl⟩ := List.mem_map.1 hr
        exact .inr rfl

end

/-- The rows of the preview describe what the import does, in both modes. -/
def PreviewDescribes (m : Platform) (newIds : Nat → String)
    (current incoming : List MappingConfig) : Prop :=
  (∃ rows done result touched, planRows m newIds current incoming "merge" = .ok rows ∧
    importRounds m newIds current incoming = .ok done ∧
    applyImport m newIds current incoming "merge" = .ok (result, touched) ∧
    MergeDescribed m newIds current incoming rows done result) ∧
  ∃ rows, planRows m newIds current incoming "replace" = .ok rows ∧
    ∀ result touched, applyImport m newIds current incoming "replace" = .ok (result, touched) →
      ReplaceDescribed current rows result touched

/-- **The preview agrees with the import.**  For every current list with distinct ids and every
    uploaded list: the rows of the preview describe what the import does, in both modes, if and
    only if no uploaded mapping gets in the way of a later one, and none is an update only for
    the poll interval `0.0` of its target. -/
theorem preview_describes_iff (m : Platform) (newIds : Nat → String)
    (current incoming : List MappingConfig) (hids : DistinctIds current)
    (hkept : ∀ c ∈ current ++ incoming, c.Kept m)
    (hkeyed : ∀ c ∈ current ++ incoming, KeyedLabels c) :
    PreviewDescribes m newIds current incoming ↔
      (incoming.map recopy).Pairwise (Apart current) ∧
        ∀ x ∈ incoming.map recopy, RealUpdate current x := by
  have hcur := fun c hc => hkept c (List.mem_append_left incoming hc)
  have hinc := fun c hc => hkept c (List.mem_append_right current hc)
  obtain ⟨rows, hrows, hactions⟩ := planRows_of_kept newIds hcur hinc
  have hrounds := importRounds_of_kept newIds hids hcur hinc
  obtain ⟨touched, hrun⟩ := applyImport_of_kept newIds hids hcur hinc
  have hinit := Planned.init hids fun c hc => hkeyed c (List.mem_append_left incoming hc)
  have hkeyed' : ∀ x ∈ incoming.map recopy, KeyedLabels x :=
    List.forall_mem_map.2 fun c hc => hkeyed c (List.mem_append_right current hc)
  have hplan := hinit.placements_iff hkeyed' (List.forall_mem_map.2 fun c _ => recopy_interval c)
  have hmerge := mergeDescribed_iff newIds hids hcur hinc hactions
  constructor
  -- both runs are the ones computed above
  · rintro ⟨⟨rows', done, result, touched', hrows', hrounds', hrun', hdescribed⟩, -⟩
    rw [hrows] at hrows'
    rw [hrounds] at hrounds'
    rw [hrun] at hrun'
    cases hrows'
    cases hrounds'
    cases hrun'
    obtain ⟨hverdicts, hslots⟩ := hmerge.1 hdescribed
    exact (hplan.1 ⟨hverdicts, fun y hy => absurd hy List.not_mem_nil, hslots⟩).2
  · rintro ⟨hapart, hreal⟩
    obtain ⟨hverdicts, -, hslots⟩ :=
      hplan.2 ⟨fun y hy => absurd hy List.not_mem_nil, hapart, hreal⟩
    refine ⟨⟨rows, _, _, touched, hrows, hrounds, hrun, hmerge.2 ⟨hverdicts, hslots⟩⟩, ?_⟩
    exact replaceDescribed newIds current incoming

/-- The file updates one mapping by its id and adds another. -/
theorem preview_describes_iff_update :
    PreviewDescribes bareMachine letters [polledMapping "1" "a" (.ofIntExact 5)]
      [polledMapping "1" "b" (.ofIntExact 5), polledMapping "2" "c" (.ofIntExact 5)] := by
  have hall : ∀ c ∈ [polledMapping "1" "a" (.ofIntExact 5)] ++
      [polledMapping "1" "b" (.ofIntExact 5), polledMapping "2" "c" (.ofIntExact 5)],
      c.Kept bareMachine ∧ KeyedLabels c := by
    intro c hc
    simp only [List.cons_append, List.nil_append, List.mem_cons, List.not_mem_nil, or_false] at hc
    rcases hc with rfl | rfl | rfl <;> exact kept_polledMapping _ _ (by decide)
  refine (preview_describes_iff bareMachine letters _ _ (List.pairwise_singleton _ _)
    (fun c hc => (hall c hc).1) fun c hc => (hall c hc).2).2 ⟨?_, ?_⟩
  -- an update by id and an addition under a new name stay clear of each other
  · refine List.pairwise_pair.2 ?_
    have hfirst : verdict [polledMapping "1" "a" (.ofIntExact 5)]
        (recopy (polledMapping "1" "b" (.ofIntExact 5))) = .update 0 := by decide +kernel
    have hsecond : verdict [polledMapping "1" "a" (.ofIntExact 5)]
        (recopy (polledMapping "2" "c" (.ofIntExact 5))) = .add := by decide +kernel
    constructor
    case id =>
      rw [hfirst]
      intro h
      cases h
    case name =>
      rw [hfirst]
      intro h
      cases h
    case slot =>
      intro t _ h
      rw [hsecond] at h
      cases h
    case renamed =>
      intro t _ _ _
      decide +kernel
  · intro x hx t c hupdate hc
    simp only [List.map_cons, List.map_nil, List.mem_cons, List.not_mem_nil, or_false] at hx
    rw [List.mem_singleton.1 (List.mem_of_getElem? hc)]
    rcases hx with rfl | rfl <;> decide +kernel

/-- Two uploaded mappings have the same new name: the preview adds both, and the import writes
    the second over the first. -/
theorem preview_adds_one_too_many :
    DistinctIds [polledMapping "1" "a" (.ofIntExact 5)] ∧
    ¬ PreviewDescribes bareMachine letters [polledMapping "1" "a" (.ofIntExact 5)]
      [polledMapping "2" "b" (.ofIntExact 5), polledMapping "3" "b" (.ofIntExact 5)] := by
  refine ⟨List.pairwise_singleton _ _, ?_⟩
  rintro ⟨⟨rows, done, result, touched, hrows, -, hrun, hdescribed⟩, -⟩
  have hadds : (planRows bareMachine letters [polledMapping "1" "a" (.ofIntExact 5)]
      [polledMapping "2" "b" (.ofIntExact 5), polledMapping "3" "b" (.ofIntExact 5)]
        "merge").map (List.countP fun r => decide (r.action = .add)) = .ok 2 := by
    decide +kernel
  have hlength : (applyImport bareMachine letters [polledMapping "1" "a" (.ofIntExact 5)]
      [polledMapping "2" "b" (.ofIntExact 5), polledMapping "3" "b" (.ofIntExact 5)]
        "merge").map (fun p => p.1.length) = .ok 2 := by
    decide +kernel
  rw [hrows] at hadds
  rw [hrun] at hlength
  have hlength : result.length = 2 := Except.ok.inj hlength
  have hadded := hdescribed.added
  rw [Except.ok.inj hadds, hlength] at hadded
  exact absurd hadded (by decide)

end Ser2Net.Import
