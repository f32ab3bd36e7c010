import Ser2Net.Engine.Settle
import Ser2Net.Web.Ops

namespace Ser2Net.Web.Reconcile

open Ser2Net.Lib Ser2Net.Config Ser2Net.Web.Ops
open Ser2Net.Engine.Supervisor

/-!
# Web — mapping requests and the runners they leave behind

`save_mapping_from_form`, `apply_action` and `delete_mapping` change the configuration under
`config_lock`, save it, release the lock and only then call the supervisor.  A request is a
task that stops at the lock, at the save and at every await of the supervisor call; an
interleaving is a list of arrivals and resumptions.

The stored mappings are objects that the configuration and the runners share, and an action
writes the enabled flag of such an object: a `Handle` stands for an object, and the flags
are part of the state.

* `State`, `step` — configuration, lock, supervisor and the requests under way;
* `InTurn` — the condition: a request takes the lock only when no other request of its id is
  in its supervisor call, and no save fails that would have to be undone;
* `running_matches_config` — in the runs that meet it, once all requests have finished, what
  runs is what the configuration says;
* `overlapping_saves_stale` — two saves of one mapping of which the first one ends last.
-/

/-- A `MappingConfig` object: `config` holds its fields as they were when it was made, of
    which only `enabled` is assigned later.  Its id is a text, as the class declares. -/
structure Handle where
  ref : Nat
  id : String
  config : MappingConfig
  textId : config.id = .str id
  deriving DecidableEq

/-- Where a request stands.  `was` is the flag that an action has replaced. -/
inductive Task
  | saveWait (h : Handle)
  | saveSaving (h : Handle) (backup : List Handle)
  | actionWait (mid : String) (act : Action)
  | actionSaving (h : Handle) (act : Action) (was : Bool)
  | deleteWait (mid : String)
  | deleteSaving (h : Handle)
  | calling (c : Call String Handle)
  | finished
  deriving DecidableEq

/-- The application: the configuration with its mappings as objects, the objects' flags where
    they were assigned, `config_lock`, the supervisor and the requests under way. -/
structure State where
  base : AppConfig
  mappings : List Handle
  flags : Handle → Option Bool
  nextRef : Nat
  locked : Bool
  sup : Sup String Handle
  tasks : List Task

/-- `m.enabled`. -/
def State.enabled (s : State) (h : Handle) : Bool := (s.flags h).getD h.config.enabled

/-- The object's fields now. -/
def State.content (s : State) (h : Handle) : MappingConfig :=
  { h.config with enabled := s.enabled h }

/-- The configuration in memory. -/
def State.config (s : State) : AppConfig := { s.base with mappings := s.mappings.map s.content }

/-- What the supervisor reads of a mapping object. -/
def State.view (s : State) : View String Handle := ⟨Handle.id, s.enabled⟩

/-- `get_mapping`. -/
def getMapping (l : List Handle) (mid : String) : Option Handle := l.find? fun h => h.id = mid

/-- `mappings[mappings.index(existing)] = mapping`. -/
def replaceMapping (h : Handle) : List Handle → List Handle
  | [] => []
  | x :: rest => if x.id = h.id then h :: rest else x :: replaceMapping h rest

/-- The mapping list after a save from the form: replaced, or appended. -/
def putMapping (h : Handle) (l : List Handle) : List Handle :=
  if (getMapping l h.id).isSome then replaceMapping h l else l ++ [h]

/-- The supervisor call of an action. -/
def actionCall (h : Handle) : Action → Call String Handle
  | .start => .apply h
  | .stop => .stop h.id
  | .restart => .restart h

/-- A supervisor call that has come to its end ends the request. -/
def ofCall : Call String Handle → Task
  | .done => .finished
  | c => .calling c

/-- A request arrives, or the event loop resumes request `i`. -/
inductive Event
  | save (mid : String) (c : MappingConfig)
  | action (mid : String) (act : Action)
  | delete (mid : String)
  | resume (i : Nat)

/-- Request `i` moves on to `t`. -/
def State.setTask (s : State) (i : Nat) (t : Task) : State := { s with tasks := s.tasks.set i t }

/-- What a request does from where it stands to its next await.  Starting a runner
    succeeds. -/
def resume (m : Platform) (s : State) (i : Nat) : Task → Option State
  | .saveWait h =>
    if s.locked then none
    else some { s.setTask i (.saveSaving h s.mappings) with
      locked := true, mappings := putMapping h s.mappings }
  | .saveSaving h backup =>
    match s.config.validate m with
    | .ok () => some { s.setTask i (.calling (.apply h)) with locked := false }
    | .error (.user _) =>
      some { s.setTask i .finished with locked := false, mappings := backup }
    | .error _ => some { s.setTask i .finished with locked := false }
  | .actionWait mid act =>
    if s.locked then none
    else
      match getMapping s.mappings mid with
      | none => some (s.setTask i .finished)
      | some h => some { s.setTask i (.actionSaving h act (s.enabled h)) with
          locked := true, flags := Function.update s.flags h (some act.enables) }
  | .actionSaving h act _ =>
    match s.config.validate m with
    | .ok () => some { s.setTask i (.calling (actionCall h act)) with locked := false }
    | .error _ => some { s.setTask i .finished with locked := false }
  | .deleteWait mid =>
    if s.locked then none
    else
      match getMapping s.mappings mid with
      | none => some (s.setTask i .finished)
      | some h => some { s.setTask i (.deleteSaving h) with
          locked := true, mappings := s.mappings.eraseP fun x => x.id = mid }
  | .deleteSaving h =>
    match s.config.validate m with
    | .ok () => some { s.setTask i (.calling (.remove h.id)) with locked := false }
    | .error _ => some { s.setTask i .finished with locked := false }
  | .calling c =>
    some { s.setTask i (ofCall (advance s.view s.sup true c).2) with
      sup := (advance s.view s.sup true c).1 }
  | .finished => none

/-- The object that a form makes: the id of the form, or the new one it was given. -/
def formMapping (mid : String) (c : MappingConfig) : MappingConfig := { c with id := .str mid }

/-- One piece of one request.  A form that does not validate ends at once. -/
def step (m : Platform) (s : State) : Event → Option State
  | .save mid c =>
    match (formMapping mid c).validate m with
    | .ok () => some { s with
        nextRef := s.nextRef + 1
        tasks := s.tasks ++ [.saveWait ⟨s.nextRef, mid, formMapping mid c, rfl⟩] }
    | .error _ => some s
  | .action mid act => some { s with tasks := s.tasks ++ [.actionWait mid act] }
  | .delete mid => some { s with tasks := s.tasks ++ [.deleteWait mid] }
  | .resume i => (s.tasks[i]?).bind (resume m s i)

/-- The object of a mapping that the configuration was loaded with. -/
def loadHandle (ref : Nat) (c : MappingConfig) : Option Handle :=
  match h : c.id with
  | .str mid => some ⟨ref, mid, c, h⟩
  | _ => none

/-- The objects of the loaded mappings, in order. -/
def loadHandles : Nat → List MappingConfig → List Handle
  | _, [] => []
  | n, c :: rest => (loadHandle n c).toList ++ loadHandles (n + 1) rest

/-- The application after `start_engine` on a loaded configuration. -/
def State.start (c : AppConfig) : State :=
  let handles := loadHandles 0 c.mappings
  { base := c
    mappings := handles
    flags := fun _ => none
    nextRef := c.mappings.length
    locked := false
    sup := startAll ⟨Handle.id, fun h => h.config.enabled⟩
      { Sup.init with order := handles.map Handle.id } handles
    tasks := [] }

/-- The ids of the loaded mappings are texts, no two of them the same. -/
def DistinctIds (c : AppConfig) : Prop :=
  (∀ mapping ∈ c.mappings, ∃ mid, mapping.id = .str mid) ∧
    (c.mappings.map fun mapping => mapping.id).Nodup

/-- All requests have finished. -/
def State.AllDone (s : State) : Prop := ∀ t ∈ s.tasks, t = .finished

instance (s : State) : Decidable s.AllDone :=
  inferInstanceAs (Decidable (∀ t ∈ s.tasks, t = .finished))

/-- `R`, the runner object at `r`, is live for the id `x`. -/
def State.Runs (s : State) (x : String) (r : Nat) (R : Runner Handle) : Prop :=
  s.sup.heap[r]? = some R ∧ R.mapping.id = x ∧ R.live = true

/-! ### The condition -/

/-- The id of a mapping object; the id of a call depends on nothing else. -/
def idView : View String Handle := ⟨Handle.id, fun _ => false⟩

/-- A request of the id is in its supervisor call. -/
def State.callsFor (s : State) (x : String) : Bool :=
  s.tasks.any fun t =>
    match t with
    | .calling c => c.mid idView = some x
    | _ => false

/-- The condition on a step.  A request takes the lock only when no other request of its id
    is in its supervisor call (a request that finds no mapping changes nothing).  The save of
    a form is accepted or rejected with `ConfigError`, which is undone.  The save of an
    action is accepted, or the action changed no flag; that of a deletion is accepted, or
    the mapping was switched off. -/
def InTurn (m : Platform) (s : State) : Event → Prop
  | .resume i =>
    match s.tasks[i]? with
    | some (.saveWait h) => s.callsFor h.id = false
    | some (.actionWait mid _) | some (.deleteWait mid) =>
      (getMapping s.mappings mid).isSome = true → s.callsFor mid = false
    | some (.saveSaving _ _) =>
      s.config.validate m = .ok () ∨ ∃ e, s.config.validate m = .error (.user e)
    | some (.actionSaving _ act was) => s.config.validate m = .ok () ∨ was = act.enables
    | some (.deleteSaving h) => s.config.validate m = .ok () ∨ s.enabled h = false
    | _ => True
  | _ => True

/-! ### The mapping list -/

/-- What is found has the id that was looked for. -/
theorem getMapping_id {l : List Handle} {x : String} {h : Handle} (hf : getMapping l x = some h) :
    h.id = x := by
  simpa using List.find?_some hf

/-- The first mapping is looked at first. -/
theorem getMapping_cons (a : Handle) (l : List Handle) (x : String) :
    getMapping (a :: l) x = if a.id = x then some a else getMapping l x := by
  unfold getMapping
  rw [List.find?_cons]
  split <;> simp_all

/-- A list is searched before what is appended to it. -/
theorem getMapping_append (l l' : List Handle) (x : String) :
    getMapping (l ++ l') x = (getMapping l x).or (getMapping l' x) := by
  unfold getMapping
  rw [List.find?_append]

/-- Nothing is found of an id that is not there. -/
theorem getMapping_eq_none {l : List Handle} {x : String} :
    getMapping l x = none ↔ x ∉ l.map Handle.id := by
  simp [getMapping]

/-- With distinct ids every mapping is found by its own. -/
theorem getMapping_of_mem {l : List Handle} (hids : (l.map Handle.id).Nodup) {h : Handle}
    (hm : h ∈ l) : getMapping l h.id = some h := by
  induction l with
  | nil => exact absurd hm (by simp)
  | cons a rest ih =>
    rw [List.map_cons, List.nodup_cons] at hids
    rw [getMapping_cons]
    rcases List.mem_cons.1 hm with rfl | hm
    · rw [if_pos rfl]
    · have hne : a.id ≠ h.id := fun e => hids.1 (e ▸ List.mem_map_of_mem hm)
      rw [if_neg hne]
      exact ih hids.2 hm

/-- The mapping that was written over another is found. -/
theorem getMapping_replace_self {h : Handle} {l : List Handle}
    (hs : (getMapping l h.id).isSome = true) : getMapping (replaceMapping h l) h.id = some h := by
  induction l with
  | nil => exact absurd hs (by simp [getMapping])
  | cons a rest ih =>
    unfold replaceMapping
    split
    · rw [getMapping_cons, if_pos rfl]
    · next hne =>
      rw [getMapping_cons, if_neg hne] at hs
      rw [getMapping_cons, if_neg hne]
      exact ih hs

/-- A write under one id leaves the others. -/
theorem getMapping_replace_ne {h : Handle} {l : List Handle} {y : String} (hy : y ≠ h.id) :
    getMapping (replaceMapping h l) y = getMapping l y := by
  induction l with
  | nil => rfl
  | cons a rest ih =>
    unfold replaceMapping
    split
    · next heq =>
      rw [getMapping_cons, getMapping_cons, if_neg (Ne.symm hy), if_neg (by rw [heq]; exact Ne.symm hy)]
    · rw [getMapping_cons, getMapping_cons, ih]

/-- A write keeps the ids in their places. -/
theorem replace_ids (h : Handle) (l : List Handle) :
    (replaceMapping h l).map Handle.id = l.map Handle.id := by
  induction l with
  | nil => rfl
  | cons a rest ih =>
    unfold replaceMapping
    split
    · next heq => rw [List.map_cons, List.map_cons, heq]
    · rw [List.map_cons, List.map_cons, ih]

/-- The mapping that was put is found. -/
theorem getMapping_put_self (h : Handle) (l : List Handle) :
    getMapping (putMapping h l) h.id = some h := by
  unfold putMapping
  split
  · next hs => exact getMapping_replace_self hs
  · next hs =>
    rw [getMapping_append, Option.not_isSome_iff_eq_none.1 hs, getMapping_cons, if_pos rfl]
    rfl

/-- Putting a mapping leaves the other ids. -/
theorem getMapping_put_ne {h : Handle} {l : List Handle} {y : String} (hy : y ≠ h.id) :
    getMapping (putMapping h l) y = getMapping l y := by
  unfold putMapping
  split
  · exact getMapping_replace_ne hy
  · rw [getMapping_append, getMapping_cons, if_neg (Ne.symm hy)]
    exact Option.or_none

/-- Putting a mapping keeps the ids distinct. -/
theorem nodup_put {h : Handle} {l : List Handle} (hids : (l.map Handle.id).Nodup) :
    ((putMapping h l).map Handle.id).Nodup := by
  unfold putMapping
  split
  · rw [replace_ids]
    exact hids
  · next hs =>
    rw [List.map_append, List.map_singleton, List.nodup_append]
    refine ⟨hids, List.nodup_singleton _, fun a ha b hb heq => ?_⟩
    obtain rfl := List.mem_singleton.1 hb
    exact getMapping_eq_none.1 (Option.not_isSome_iff_eq_none.1 hs) (heq ▸ ha)

/-- A deletion leaves the other ids. -/
theorem getMapping_erase_ne {l : List Handle} {x y : String} (hy : y ≠ x) :
    getMapping (l.eraseP fun h => h.id = x) y = getMapping l y := by
  induction l with
  | nil => rfl
  | cons a rest ih =>
    by_cases ha : a.id = x
    · have hay : a.id ≠ y := fun e => hy (e.symm.trans ha)
      rw [List.eraseP_cons_of_pos (by simpa using ha), getMapping_cons, if_neg hay]
    · rw [List.eraseP_cons_of_neg (by simpa using ha), getMapping_cons, getMapping_cons, ih]

/-- What was deleted is gone, when the ids are distinct. -/
theorem getMapping_erase_self {l : List Handle} (hids : (l.map Handle.id).Nodup) (x : String) :
    getMapping (l.eraseP fun h => h.id = x) x = none := by
  induction l with
  | nil => rfl
  | cons a rest ih =>
    rw [List.map_cons, List.nodup_cons] at hids
    by_cases ha : a.id = x
    · rw [List.eraseP_cons_of_pos (by simpa using ha)]
      exact getMapping_eq_none.2 (ha ▸ hids.1)
    · rw [List.eraseP_cons_of_neg (by simpa using ha), getMapping_cons, if_neg ha]
      exact ih hids.2

/-- A deletion keeps the ids distinct. -/
theorem nodup_erase {l : List Handle} {p : Handle → Bool} (hids : (l.map Handle.id).Nodup) :
    ((l.eraseP p).map Handle.id).Nodup :=
  hids.sublist ((List.eraseP_sublist).map Handle.id)

/-! ### The invariant -/

/-- What should be running under an id: its mapping in the configuration, if enabled. -/
def State.want (s : State) (x : String) : Option Handle :=
  (getMapping s.mappings x).bind (wanted s.view)

/-- The request holds the lock and is saving. -/
def Task.saving : Task → Bool
  | .saveSaving _ _ | .actionSaving _ _ _ | .deleteSaving _ => true
  | _ => false

/-- The id that a request past the lock works on. -/
def Task.busy : Task → Option String
  | .saveSaving h _ | .actionSaving h _ _ | .deleteSaving h => some h.id
  | .calling c => c.mid idView
  | _ => none

/-- The request waits for the lock, or has finished. -/
def Task.idle : Task → Bool
  | .saveWait _ | .actionWait _ _ | .deleteWait _ | .finished => true
  | _ => false

/-- What holds while a request stands where it does.  A form that is being saved keeps the
    list to go back to; an action and a deletion have none. -/
def TaskOk (s : State) : Task → Prop
  | .saveSaving h backup =>
    getMapping s.mappings h.id = some h ∧ (backup.map Handle.id).Nodup ∧
      (∀ y, y ≠ h.id → getMapping backup y = getMapping s.mappings y) ∧
      Settled s.view s.sup h.id ((getMapping backup h.id).bind (wanted s.view))
  | .actionSaving h act was =>
    getMapping s.mappings h.id = some h ∧ s.enabled h = act.enables ∧
      Reach s.view s.sup h.id ∧ (was = act.enables → Settled s.view s.sup h.id (s.want h.id))
  | .deleteSaving h =>
    getMapping s.mappings h.id = none ∧ Reach s.view s.sup h.id ∧
      (s.enabled h = false → NoLive s.view s.sup h.id)
  | .calling c => c ≠ .done ∧ ∃ x, CallOk s.view s.sup x (s.want x) c
  | _ => True

/-- **The invariant.**  The mapping list has distinct ids; at most one request is saving, and
    it has the lock; at most one request of an id is past the lock, and it finds everything
    as it left it; and what no request is working on is settled. -/
structure Inv (s : State) : Prop where
  filed : Filed s.view s.sup
  ids : (s.mappings.map Handle.id).Nodup
  lock : ∀ (i : Nat) (t : Task), s.tasks[i]? = some t → t.saving = true → s.locked = true
  one : ∀ (i j : Nat) (t u : Task), s.tasks[i]? = some t → s.tasks[j]? = some u →
    t.saving = true → u.saving = true → i = j
  alone : ∀ (i j : Nat) (t u : Task) (x : String), s.tasks[i]? = some t →
    s.tasks[j]? = some u → t.busy = some x → u.busy = some x → i = j
  phase : ∀ (i : Nat) (t : Task), s.tasks[i]? = some t → TaskOk s t
  settled : ∀ x, (∀ t ∈ s.tasks, t.busy ≠ some x) → Settled s.view s.sup x (s.want x)

/-- The id a supervisor operation is about does not depend on the configuration. -/
theorem mid_view (s : State) (c : Call String Handle) : c.mid s.view = c.mid idView := by
  cases c <;> rfl

/-- A request that waits is in no supervisor call. -/
theorem Task.busy_of_idle {t : Task} (h : t.idle = true) : t.busy = none := by
  cases t <;> simp [Task.idle, Task.busy] at h ⊢

/-- A request that waits saves nothing. -/
theorem Task.saving_of_idle {t : Task} (h : t.idle = true) : t.saving = false := by
  cases t <;> simp [Task.idle, Task.saving] at h ⊢

/-- A request that waits holds nothing that could be outdated. -/
theorem taskOk_of_idle {s : State} {t : Task} (h : t.idle = true) : TaskOk s t := by
  cases t <;> simp [Task.idle, TaskOk] at h ⊢

/-- A call under way makes its request busy with its id. -/
theorem busy_calling {s : State} {x : String} {c : Call String Handle}
    (hc : CallOk s.view s.sup x (s.want x) c) (hd : c ≠ .done) :
    (Task.calling c).busy = some x := by
  rcases hc.mid with h | h
  · exact absurd h hd
  · rw [mid_view] at h
    exact h

/-! ### Frames -/

/-- Nothing about an id other than `x` differs between the two states. -/
structure Frame (x : String) (s s' : State) : Prop where
  sup : ∀ y, y ≠ x → SameAt s.view y s.sup s'.sup
  enabled : ∀ h : Handle, h.id ≠ x → s'.enabled h = s.enabled h
  current : ∀ y, y ≠ x → getMapping s'.mappings y = getMapping s.mappings y

/-- What is wanted for another id is unchanged. -/
theorem Frame.bind_wanted {x : String} {s s' : State} (hf : Frame x s s') {l : List Handle}
    {y : String} (hy : y ≠ x) :
    (getMapping l y).bind (wanted s'.view) = (getMapping l y).bind (wanted s.view) := by
  cases hg : getMapping l y with
  | none => rfl
  | some h =>
    have hen : s'.enabled h = s.enabled h := hf.enabled h (by rw [getMapping_id hg]; exact hy)
    show (if s'.enabled h then some h else none) = if s.enabled h then some h else none
    rw [hen]

/-- The same, looked up in the configuration. -/
theorem Frame.want {x : String} {s s' : State} (hf : Frame x s s') {y : String} (hy : y ≠ x) :
    s'.want y = s.want y := by
  unfold State.want
  rw [hf.current y hy, hf.bind_wanted hy]

/-- Another id stays settled. -/
theorem Frame.settled {x : String} {s s' : State} (hf : Frame x s s') {y : String} (hy : y ≠ x)
    {want : Option Handle} (h : Settled s.view s.sup y want) : Settled s'.view s'.sup y want :=
  ((hf.sup y hy).settled h).congr

/-- A request of another id finds everything as it left it.  One that is saving relies on
    the whole mapping list, for the list it may have to go back to. -/
theorem Frame.taskOk {x : String} {s s' : State} (hf : Frame x s s') {u : Task}
    (hu : u.busy ≠ some x) (hsav : u.saving = true → s'.mappings = s.mappings)
    (h : TaskOk s u) : TaskOk s' u := by
  cases u with
  | saveSaving h₁ backup =>
    -- the mapping the task works on is not x, so the frame covers it
    have hne : h₁.id ≠ x := fun e => hu (by rw [← e]; rfl)
    obtain ⟨hcur, hnd, hback, hset⟩ := h
    have hm := hsav rfl
    refine ⟨by rw [hm]; exact hcur, hnd, fun y hy => by rw [hm]; exact hback y hy, ?_⟩
    rw [hf.bind_wanted hne]
    exact hf.settled hne hset
  | actionSaving h₁ act was =>
    have hne : h₁.id ≠ x := fun e => hu (by rw [← e]; rfl)
    obtain ⟨hcur, hen, hreach, hset⟩ := h
    refine ⟨by rw [hsav rfl]; exact hcur, by rw [hf.enabled h₁ hne]; exact hen,
      (hf.sup _ hne).reach hreach, fun hw => ?_⟩
    rw [hf.want hne]
    exact hf.settled hne (hset hw)
  | deleteSaving h₁ =>
    have hne : h₁.id ≠ x := fun e => hu (by rw [← e]; rfl)
    obtain ⟨hcur, hreach, hno⟩ := h
    refine ⟨by rw [hsav rfl]; exact hcur, (hf.sup _ hne).reach hreach, fun hd => ?_⟩
    rw [hf.enabled h₁ hne] at hd
    exact (hf.sup _ hne).noLive (hno hd)
  | calling c =>
    obtain ⟨hd, y, hc⟩ := h
    have hne : y ≠ x := fun e => hu (by rw [← e]; exact busy_calling hc hd)
    refine ⟨hd, y, ?_⟩
    rw [hf.want hne]
    refine callOk_frame (fun m hm => ?_) (hf.sup y hne) hc
    exact hf.enabled m (by rw [hm]; exact hne)
  | _ => trivial

/-- **Frame rule.**  Request `i` moves on from `t` to `t'` and works on the id `x`: what
    remains to show is about `t'`, and that no other request is past the lock with `x`. -/
theorem Inv.move {s s' : State} (h : Inv s) {i : Nat} {t t' : Task} {x : String}
    (hi : s.tasks[i]? = some t) (htasks : s'.tasks = s.tasks.set i t') (hf : Frame x s s')
    (hfiled : Filed s'.view s'.sup) (hids : (s'.mappings.map Handle.id).Nodup)
    (hsav : t'.saving = true → s'.locked = true)
    (hothers : ∀ (j : Nat) (u : Task), j ≠ i → s.tasks[j]? = some u → u.busy ≠ some x ∧
      (u.saving = true → s'.mappings = s.mappings ∧ s'.locked = true ∧ t'.saving = false))
    (hold : t.busy = some x ∨ t.busy = none) (hphase : TaskOk s' t')
    (hself : t'.busy = some x ∨ (t'.busy = none ∧ Settled s'.view s'.sup x (s'.want x))) :
    Inv s' := by
  have hlt : i < s.tasks.length := (List.getElem?_eq_some_iff.mp hi).1
  have hget : s'.tasks[i]? = some t' := by rw [htasks]; simp [hlt]
  -- a request read after the move is `t'` at `i`, or an old one elsewhere
  have hread : ∀ {j : Nat} {u : Task}, s'.tasks[j]? = some u →
      (j = i ∧ u = t') ∨ (j ≠ i ∧ s.tasks[j]? = some u) := by
    intro j u hu
    by_cases hj : j = i
    · subst hj
      rw [hget, Option.some.injEq] at hu
      exact Or.inl ⟨rfl, hu.symm⟩
    · rw [htasks, List.getElem?_set_ne (Ne.symm hj)] at hu
      exact Or.inr ⟨hj, hu⟩
  have hbusy : ∀ {y : String}, t'.busy = some y → y = x := by
    intro y hy
    rcases hself with he | ⟨he, -⟩
    · exact Option.some.inj (hy.symm.trans he)
    · exact absurd (he.symm.trans hy) (by simp)
  refine ⟨hfiled, hids, ?_, ?_, ?_, ?_, ?_⟩
  · intro j u hu hus
    rcases hread hu with ⟨rfl, rfl⟩ | ⟨hj, hu⟩
    · exact hsav hus
    · exact ((hothers j u hj hu).2 hus).2.1
  · intro j k u v hu hv hus hvs
    rcases hread hu with ⟨rfl, rfl⟩ | ⟨hj, hu⟩ <;> rcases hread hv with ⟨rfl, rfl⟩ | ⟨hk, hv⟩
    · rfl
    · exact absurd hus (by simp [((hothers k v hk hv).2 hvs).2.2])
    · exact absurd hvs (by simp [((hothers j u hj hu).2 hus).2.2])
    · exact h.one j k u v hu hv hus hvs
  · intro j k u v y hu hv huy hvy
    rcases hread hu with ⟨rfl, rfl⟩ | ⟨hj, hu⟩ <;> rcases hread hv with ⟨rfl, rfl⟩ | ⟨hk, hv⟩
    · rfl
    · exact absurd (hbusy huy ▸ hvy) (hothers k v hk hv).1
    · exact absurd (hbusy hvy ▸ huy) (hothers j u hj hu).1
    · exact h.alone j k u v y hu hv huy hvy
  · intro j u hu
    rcases hread hu with ⟨rfl, rfl⟩ | ⟨hj, hu⟩
    · exact hphase
    · obtain ⟨hne, hsame⟩ := hothers j u hj hu
      exact hf.taskOk hne (fun hus => (hsame hus).1) (h.phase j u hu)
  · intro y hy
    by_cases hyx : y = x
    · subst hyx
      rcases hself with he | ⟨-, hset⟩
      · exact absurd he (hy t' (List.mem_of_getElem? hget))
      · exact hset
    · rw [hf.want hyx]
      refine hf.settled hyx (h.settled y fun u hu huy => ?_)
      obtain ⟨j, hj⟩ := List.mem_iff_getElem?.1 hu
      by_cases hji : j = i
      · subst hji
        rw [hi, Option.some.injEq] at hj
        subst hj
        rcases hold with ho | ho
        · exact hyx (Option.some.inj (huy.symm.trans ho))
        · exact absurd (ho.symm.trans huy) (by simp)
      · refine hy u (List.mem_of_getElem? (i := j) ?_) huy
        rw [htasks, List.getElem?_set_ne (Ne.symm hji)]
        exact hj

/-- Requests that wait or have finished come and go without effect. -/
theorem Inv.idle {s : State} (h : Inv s) {l : List Task} (n : Nat)
    (hl : ∀ (j : Nat) (u : Task), l[j]? = some u → s.tasks[j]? = some u ∨ u.idle = true)
    (hkeep : ∀ t ∈ s.tasks, t.idle = true ∨ t ∈ l) :
    Inv { s with tasks := l, nextRef := n } := by
  refine ⟨h.filed, h.ids, ?_, ?_, ?_, ?_, ?_⟩
  -- an idle task saves nothing and is busy with nothing
  · intro j u hu hus
    rcases hl j u hu with hu | hu
    · exact h.lock j u hu hus
    · exact absurd hus (by simp [Task.saving_of_idle hu])
  · intro j k u v hu hv hus hvs
    rcases hl j u hu with hu | hu
    · rcases hl k v hv with hv | hv
      · exact h.one j k u v hu hv hus hvs
      · exact absurd hvs (by simp [Task.saving_of_idle hv])
    · exact absurd hus (by simp [Task.saving_of_idle hu])
  · intro j k u v y hu hv huy hvy
    rcases hl j u hu with hu | hu
    · rcases hl k v hv with hv | hv
      · exact h.alone j k u v y hu hv huy hvy
      · exact absurd hvy (by simp [Task.busy_of_idle hv])
    · exact absurd huy (by simp [Task.busy_of_idle hu])
  · intro j u hu
    rcases hl j u hu with hu | hu
    · exact h.phase j u hu
    · exact taskOk_of_idle hu
  · intro y hy
    refine h.settled y fun t ht hty => ?_
    rcases hkeep t ht with hidle | hmem
    · exact absurd hty (by simp [Task.busy_of_idle hidle])
    · exact hy t hmem hty

/-! ### One lemma per kind of piece -/

/-- Nobody is saving while the lock is free. -/
theorem Inv.not_saving {s : State} (h : Inv s) (hlock : s.locked = false) {j : Nat} {u : Task}
    (hu : s.tasks[j]? = some u) : u.saving = false := by
  cases hus : u.saving with
  | false => rfl
  | true => exact absurd (h.lock j u hu hus) (by simp [hlock])

/-- With the lock free and no supervisor call of the id under way, no request is past the
    lock with it. -/
theorem Inv.not_busy {s : State} (h : Inv s) (hlock : s.locked = false) {x : String}
    (hturn : s.callsFor x = false) {j : Nat} {u : Task} (hu : s.tasks[j]? = some u) :
    u.busy ≠ some x := by
  have hus := h.not_saving hlock hu
  cases u with
  | saveSaving h₁ backup => exact absurd hus (by simp [Task.saving])
  | actionSaving h₁ act was => exact absurd hus (by simp [Task.saving])
  | deleteSaving h₁ => exact absurd hus (by simp [Task.saving])
  | calling c =>
    intro hb
    have := List.any_eq_false.1 hturn _ (List.mem_of_getElem? hu)
    exact this (decide_eq_true hb)
  | _ => simp [Task.busy]

/-- A request takes the lock for the id `x`. -/
theorem Inv.take {s s' : State} (h : Inv s) {i : Nat} {t t' : Task} {x : String}
    (hi : s.tasks[i]? = some t) (hidle : t.idle = true) (hlock : s.locked = false)
    (hturn : s.callsFor x = false) (htasks : s'.tasks = s.tasks.set i t')
    (hsup : s'.sup = s.sup) (hlocked : s'.locked = true)
    (hen : ∀ h : Handle, h.id ≠ x → s'.enabled h = s.enabled h)
    (hcur : ∀ y, y ≠ x → getMapping s'.mappings y = getMapping s.mappings y)
    (hids : (s'.mappings.map Handle.id).Nodup) (hb : t'.busy = some x)
    (hphase : Settled s.view s.sup x (s.want x) → TaskOk s' t') : Inv s' := by
  have hset : Settled s.view s.sup x (s.want x) := by
    refine h.settled x fun u hu => ?_
    obtain ⟨j, hj⟩ := List.mem_iff_getElem?.1 hu
    exact h.not_busy hlock hturn hj
  refine h.move hi htasks ⟨fun y _ => by rw [hsup]; exact SameAt.refl _ y _, hen, hcur⟩ ?_ hids
    (fun _ => hlocked) ?_ (Or.inr (Task.busy_of_idle hidle)) (hphase hset) (Or.inl hb)
  · rw [hsup]
    exact h.filed
  · intro j u _ hu
    refine ⟨h.not_busy hlock hturn hu, fun hus => ?_⟩
    exact absurd hus (by simp [h.not_saving hlock hu])

/-- A request that has been saving the id `x` gives the lock back. -/
theorem Inv.release {s s' : State} (h : Inv s) {i : Nat} {t t' : Task} {x : String}
    (hi : s.tasks[i]? = some t) (hsaving : t.saving = true) (hb : t.busy = some x)
    (htasks : s'.tasks = s.tasks.set i t') (hsup : s'.sup = s.sup) (hflags : s'.flags = s.flags)
    (hcur : ∀ y, y ≠ x → getMapping s'.mappings y = getMapping s.mappings y)
    (hids : (s'.mappings.map Handle.id).Nodup) (hsav' : t'.saving = false)
    (hphase : TaskOk s' t')
    (hself : t'.busy = some x ∨ (t'.busy = none ∧ Settled s'.view s'.sup x (s'.want x))) :
    Inv s' := by
  refine h.move hi htasks ⟨fun y _ => by rw [hsup]; exact SameAt.refl _ y _, ?_, hcur⟩ ?_ hids
    (fun ht => absurd ht (by simp [hsav'])) ?_ (Or.inl hb) hphase hself
  · intro h₁ _
    simp only [State.enabled, hflags]
  · rw [hsup]
    exact h.filed
  · intro j u hj hu
    refine ⟨fun hub => hj (h.alone j i u t x hu hi hub hb), fun hus => ?_⟩
    exact absurd (h.one j i u t hu hi hus hsaving) hj

/-- The wanted mapping of an id whose mapping is `h`. -/
theorem want_of_current {s : State} {h : Handle} (hc : getMapping s.mappings h.id = some h) :
    s.want h.id = wanted s.view h := by
  unfold State.want
  rw [hc]
  rfl

/-- For an id that is not in the configuration nothing is wanted. -/
theorem want_of_missing {s : State} {x : String} (hc : getMapping s.mappings x = none) :
    s.want x = none := by
  unfold State.want
  rw [hc]
  rfl

/-- A form save takes the lock and puts its mapping. -/
theorem inv_saveWait {s : State} (h : Inv s) {i : Nat} {h₁ : Handle}
    (hi : s.tasks[i]? = some (.saveWait h₁)) (hlock : s.locked = false)
    (hturn : s.callsFor h₁.id = false) :
    Inv { s.setTask i (.saveSaving h₁ s.mappings) with
      locked := true, mappings := putMapping h₁ s.mappings } := by
  refine h.take hi rfl hlock hturn rfl rfl rfl (fun _ _ => rfl)
    (fun y hy => getMapping_put_ne hy) (nodup_put h.ids) rfl fun hset => ?_
  exact ⟨getMapping_put_self h₁ s.mappings, h.ids,
    fun y hy => (getMapping_put_ne hy).symm, hset.congr⟩

/-- The save of a form ends: accepted, or taken back. -/
theorem inv_saveSaving {m : Platform} {s s' : State} (h : Inv s) {i : Nat} {h₁ : Handle}
    {backup : List Handle} (hi : s.tasks[i]? = some (.saveSaving h₁ backup))
    (hturn : s.config.validate m = .ok () ∨ ∃ e, s.config.validate m = .error (.user e))
    (hstep : resume m s i (.saveSaving h₁ backup) = some s') : Inv s' := by
  obtain ⟨hcur, hnd, hback, hset⟩ := h.phase i _ hi
  simp only [resume] at hstep
  rcases hturn with hv | ⟨e, hv⟩
  · -- accepted: the supervisor is called for the new object
    rw [hv] at hstep
    cases hstep
    refine h.release hi rfl rfl rfl rfl rfl (fun _ _ => rfl) h.ids rfl ?_ (Or.inl rfl)
    exact ⟨by simp, h₁.id, rfl, want_of_current hcur, hset.reach⟩
  · -- rejected: the old list is put back, and it was settled
    rw [hv] at hstep
    cases hstep
    exact h.release hi rfl rfl rfl rfl rfl hback hnd rfl trivial (Or.inr ⟨rfl, hset.congr⟩)

/-- An action takes the lock and sets the flag. -/
theorem inv_actionWait {s : State} (h : Inv s) {i : Nat} {mid : String} {act : Action}
    {h₁ : Handle} (hi : s.tasks[i]? = some (.actionWait mid act)) (hlock : s.locked = false)
    (hfind : getMapping s.mappings mid = some h₁) (hturn : s.callsFor mid = false) :
    Inv { s.setTask i (.actionSaving h₁ act (s.enabled h₁)) with
      locked := true, flags := Function.update s.flags h₁ (some act.enables) } := by
  obtain rfl := getMapping_id hfind
  -- only the flag of this mapping changes
  have hflag : ∀ h₂ : Handle, h₂ ≠ h₁ →
      (Function.update s.flags h₁ (some act.enables)) h₂ = s.flags h₂ :=
    fun h₂ hne => Function.update_of_ne hne _ _
  refine h.take hi rfl hlock hturn rfl rfl rfl (fun h₂ hne => ?_) (fun _ _ => rfl) h.ids rfl
    fun hset => ⟨hfind, ?_, hset.reach, fun hwas => ?_⟩
  · show ((Function.update s.flags h₁ (some act.enables)) h₂).getD _ = _
    rw [hflag h₂ fun e => hne (by rw [e])]
    rfl
  · show ((Function.update s.flags h₁ (some act.enables)) h₁).getD _ = _
    rw [Function.update_self]
    rfl
  · -- the flag is the one it was, so that nothing has changed
    have hsame : State.want { s.setTask i (.actionSaving h₁ act (s.enabled h₁)) with
        locked := true, flags := Function.update s.flags h₁ (some act.enables) } h₁.id =
        s.want h₁.id := by
      rw [want_of_current hfind, want_of_current (s := { s.setTask i _ with
        locked := true, flags := Function.update s.flags h₁ (some act.enables) }) hfind]
      show (if ((Function.update s.flags h₁ (some act.enables)) h₁).getD _ then some h₁ else none) =
        if s.enabled h₁ then some h₁ else none
      rw [Function.update_self, hwas]
      rfl
    rw [hsame]
    exact hset.congr

/-- The save of an action ends: accepted, or the flag was as it is. -/
theorem inv_actionSaving {m : Platform} {s s' : State} (h : Inv s) {i : Nat} {h₁ : Handle}
    {act : Action} {was : Bool} (hi : s.tasks[i]? = some (.actionSaving h₁ act was))
    (hturn : s.config.validate m = .ok () ∨ was = act.enables)
    (hstep : resume m s i (.actionSaving h₁ act was) = some s') : Inv s' := by
  obtain ⟨hcur, hen, hreach, hset⟩ := h.phase i _ hi
  have hw : s.want h₁.id = if act.enables then some h₁ else none := by
    rw [want_of_current hcur, ← hen]
    rfl
  simp only [resume] at hstep
  -- the save succeeds and the call begins, or it fails and the flag stays behind
  split at hstep
  · cases hstep
    have hcall : CallOk s.view s.sup h₁.id (s.want h₁.id) (actionCall h₁ act) := by
      cases act with
      | start => exact ⟨rfl, want_of_current hcur, hreach⟩
      | stop => exact ⟨rfl, hw, hreach⟩
      | restart => exact ⟨rfl, want_of_current hcur, hreach⟩
    have hnd : actionCall h₁ act ≠ .done := by cases act <;> simp [actionCall]
    refine h.release hi rfl rfl rfl rfl rfl (fun _ _ => rfl) h.ids rfl ⟨hnd, h₁.id, hcall⟩ ?_
    exact Or.inl (busy_calling hcall hnd)
  · next e he =>
    cases hstep
    rcases hturn with hv | hwas
    · exact absurd (he.symm.trans hv) (by simp)
    · exact h.release hi rfl rfl rfl rfl rfl (fun _ _ => rfl) h.ids rfl trivial
        (Or.inr ⟨rfl, (hset hwas).congr⟩)

/-- A delete takes the lock and removes the mapping. -/
theorem inv_deleteWait {s : State} (h : Inv s) {i : Nat} {mid : String} {h₁ : Handle}
    (hi : s.tasks[i]? = some (.deleteWait mid)) (hlock : s.locked = false)
    (hfind : getMapping s.mappings mid = some h₁) (hturn : s.callsFor mid = false) :
    Inv { s.setTask i (.deleteSaving h₁) with
      locked := true, mappings := s.mappings.eraseP fun x => x.id = mid } := by
  obtain rfl := getMapping_id hfind
  refine h.take hi rfl hlock hturn rfl rfl rfl (fun _ _ => rfl)
    (fun y hy => getMapping_erase_ne hy) (nodup_erase h.ids) rfl fun hset => ?_
  refine ⟨getMapping_erase_self h.ids h₁.id, hset.reach, fun hd => ?_⟩
  have hnone : s.want h₁.id = none := by
    rw [want_of_current hfind]
    exact if_neg (by rw [show s.view.enabled h₁ = false from hd]; simp)
  rw [hnone] at hset
  exact hset.noLive

/-- The save of a delete ends: accepted, or nothing ran for the id. -/
theorem inv_deleteSaving {m : Platform} {s s' : State} (h : Inv s) {i : Nat} {h₁ : Handle}
    (hi : s.tasks[i]? = some (.deleteSaving h₁))
    (hturn : s.config.validate m = .ok () ∨ s.enabled h₁ = false)
    (hstep : resume m s i (.deleteSaving h₁) = some s') : Inv s' := by
  obtain ⟨hcur, hreach, hno⟩ := h.phase i _ hi
  have hw := want_of_missing hcur
  simp only [resume] at hstep
  split at hstep
  · cases hstep
    refine h.release hi rfl rfl rfl rfl rfl (fun _ _ => rfl) h.ids rfl ?_ (Or.inl rfl)
    exact ⟨by simp, h₁.id, rfl, hw, hreach⟩
  · next e he =>
    cases hstep
    rcases hturn with hv | hd
    · exact absurd (he.symm.trans hv) (by simp)
    · refine h.release hi rfl rfl rfl rfl rfl (fun _ _ => rfl) h.ids rfl trivial
        (Or.inr ⟨rfl, ?_⟩)
      show Settled s.view s.sup h₁.id (s.want h₁.id)
      rw [hw]
      exact (hno hd).settled

/-- The task of a supervisor operation is past its save. -/
theorem ofCall_saving (c : Call String Handle) : (ofCall c).saving = false := by
  cases c <;> rfl

/-- A piece of a supervisor call. -/
theorem inv_calling {s : State} (h : Inv s) {i : Nat} {c : Call String Handle}
    (hi : s.tasks[i]? = some (.calling c)) :
    Inv { s.setTask i (ofCall (advance s.view s.sup true c).2) with
      sup := (advance s.view s.sup true c).1 } := by
  obtain ⟨hd, x, hc⟩ := h.phase i _ hi
  have hb : (Task.calling c).busy = some x := busy_calling hc hd
  have hadv := callOk_advance h.filed hc
  refine h.move (x := x) hi rfl
    ⟨fun y hy => advance_sameAt h.filed hc (Ne.symm hy), fun _ _ => rfl, fun _ _ => rfl⟩
    (filed_advance true c h.filed) h.ids
    (fun hs => absurd hs (by simp [ofCall_saving])) ?_ (Or.inl hb) ?_ ?_
  · intro j u hj hu
    refine ⟨fun hub => hj (h.alone j i u _ x hu hi hub hb), fun hus => ?_⟩
    exact ⟨rfl, h.lock j u hu hus, ofCall_saving _⟩
  -- the call goes on with its next piece, or it has ended and the mapping is settled
  · generalize hc' : (advance s.view s.sup true c).2 = c' at hadv
    cases c' with
    | done => trivial
    | _ => exact ⟨by simp, x, hadv⟩
  · generalize hc' : (advance s.view s.sup true c).2 = c' at hadv
    by_cases hdone : c' = .done
    · subst hdone
      exact Or.inr ⟨rfl, hadv.congr⟩
    · refine Or.inl ?_
      have hcall : ofCall c' = .calling c' := by
        cases c' <;> first | rfl | exact absurd rfl hdone
      rw [hcall]
      rcases hadv.mid with he | he
      · exact absurd he hdone
      · rw [mid_view] at he
        exact he

/-- A request that waits ends without having done anything. -/
theorem inv_nothing {s : State} (h : Inv s) {i : Nat} {t : Task} (hi : s.tasks[i]? = some t)
    (hidle : t.idle = true) : Inv (s.setTask i .finished) := by
  have hlt : i < s.tasks.length := (List.getElem?_eq_some_iff.mp hi).1
  refine h.idle s.nextRef (l := s.tasks.set i .finished) ?_ ?_
  · intro j u hu
    by_cases hj : j = i
    · subst hj
      rw [List.getElem?_set_self hlt, Option.some.injEq] at hu
      exact Or.inr (hu ▸ rfl)
    · rw [List.getElem?_set_ne (Ne.symm hj)] at hu
      exact Or.inl hu
  · intro u hu
    obtain ⟨j, hj⟩ := List.mem_iff_getElem?.1 hu
    by_cases hji : j = i
    · subst hji
      rw [hi, Option.some.injEq] at hj
      exact Or.inl (hj ▸ hidle)
    · refine Or.inr (List.mem_of_getElem? (i := j) ?_)
      rw [List.getElem?_set_ne (Ne.symm hji)]
      exact hj

/-- A request arrives. -/
theorem inv_arrive {s : State} (h : Inv s) (n : Nat) {t : Task} (hidle : t.idle = true) :
    Inv { s with tasks := s.tasks ++ [t], nextRef := n } := by
  refine h.idle n ?_ fun u hu => Or.inr (List.mem_append_left _ hu)
  intro j u hu
  by_cases hj : j < s.tasks.length
  · rw [List.getElem?_append_left hj] at hu
    exact Or.inl hu
  · rw [List.getElem?_append_right (Nat.le_of_not_lt hj), List.getElem?_singleton] at hu
    split at hu
    · rw [Option.some.injEq] at hu
      exact Or.inr (hu ▸ hidle)
    · exact absurd hu (by simp)

/-- **Step lemma.** -/
theorem inv_step (m : Platform) (s : State) (e : Event) (s' : State) (h : Inv s)
    (hturn : InTurn m s e) (hstep : step m s e = some s') : Inv s' := by
  cases e with
  | save mid c =>
    simp only [step] at hstep
    split at hstep
    · cases hstep
      exact inv_arrive h (s.nextRef + 1) rfl
    · cases hstep
      exact h
  | action mid act =>
    cases hstep
    exact inv_arrive h s.nextRef rfl
  | delete mid =>
    cases hstep
    exact inv_arrive h s.nextRef rfl
  | resume i =>
    -- a handler resumes where it awaited: at the lock, at the save, or in the supervisor
    obtain ⟨t, hi, hstep⟩ := Option.bind_eq_some_iff.1 hstep
    simp only [InTurn, hi] at hturn
    cases t with
    | saveWait h₁ =>
      simp only [resume] at hstep
      split at hstep
      · exact absurd hstep (by simp)
      · next hlock =>
        cases hstep
        exact inv_saveWait h hi (by simpa using hlock) hturn
    | saveSaving h₁ backup => exact inv_saveSaving h hi hturn hstep
    | actionWait mid act =>
      simp only [resume] at hstep
      split at hstep
      · exact absurd hstep (by simp)
      · next hlock =>
        split at hstep
        · cases hstep
          exact inv_nothing h hi rfl
        · next h₁ hfind =>
          cases hstep
          exact inv_actionWait h hi (by simpa using hlock) hfind (hturn (by rw [hfind]; rfl))
    | actionSaving h₁ act was => exact inv_actionSaving h hi hturn hstep
    | deleteWait mid =>
      simp only [resume] at hstep
      split at hstep
      · exact absurd hstep (by simp)
      · next hlock =>
        split at hstep
        · cases hstep
          exact inv_nothing h hi rfl
        · next h₁ hfind =>
          cases hstep
          exact inv_deleteWait h hi (by simpa using hlock) hfind (hturn (by rw [hfind]; rfl))
    | deleteSaving h₁ => exact inv_deleteSaving h hi hturn hstep
    | calling c =>
      cases hstep
      exact inv_calling h hi
    | finished => exact absurd hstep (by simp [resume])

/-! ### Start-up -/

/-- A mapping whose id is a text is loaded as an object. -/
theorem loadHandle_text (n : Nat) (c : MappingConfig) {mid : String} (h : c.id = .str mid) :
    loadHandle n c = some ⟨n, mid, c, h⟩ := by
  unfold loadHandle
  split
  · next mid' h' =>
    obtain rfl : mid = mid' := Json.str.inj (h.symm.trans h')
    rfl
  · next hno => exact absurd h (hno mid)

/-- The loaded objects have the ids of the loaded mappings. -/
theorem loadHandles_ids {l : List MappingConfig} (h : ∀ c ∈ l, ∃ mid, c.id = .str mid) (n : Nat) :
    ((loadHandles n l).map Handle.id).map Json.str = l.map fun c => c.id := by
  induction l generalizing n with
  | nil => rfl
  | cons c rest ih =>
    obtain ⟨mid, hmid⟩ := h c (by simp)
    have hrest := ih (fun c' hc' => h c' (by simp [hc'])) (n + 1)
    rw [loadHandles, loadHandle_text n c hmid]
    show Json.str mid :: ((loadHandles (n + 1) rest).map Handle.id).map Json.str = _
    rw [hrest, List.map_cons, hmid]

/-- The application after the start. -/
theorem inv_start {c : AppConfig} (hids : DistinctIds c) : Inv (State.start c) := by
  have hnd : ((loadHandles 0 c.mappings).map Handle.id).Nodup := by
    have := hids.2
    rw [← loadHandles_ids hids.1 0] at this
    exact List.Nodup.of_map _ this
  -- nothing runs before the first mapping is started
  have hempty : ∀ x, NoLive (State.start c).view
      ({ Sup.init with order := (loadHandles 0 c.mappings).map Handle.id } : Sup String Handle) x := by
    rintro x r ⟨R, hR, -⟩
    exact absurd hR (by simp [Sup.init])
  obtain ⟨hfiled, hset, hsame⟩ := settled_startAll (V := (State.start c).view)
    (l := loadHandles 0 c.mappings)
    (s := { Sup.init with order := (loadHandles 0 c.mappings).map Handle.id })
    (fun x r hr => absurd hr (by simp [Sup.init])) hnd (fun h _ => ⟨rfl, hempty _⟩)
  refine ⟨hfiled, hnd, ?_, ?_, ?_, ?_, fun x _ => ?_⟩
  · intro i t ht
    exact absurd ht (by simp [State.start])
  · intro i j t u ht
    exact absurd ht (by simp [State.start])
  · intro i j t u y ht
    exact absurd ht (by simp [State.start])
  · intro i t ht
    exact absurd ht (by simp [State.start])
  · cases hg : getMapping (loadHandles 0 c.mappings) x with
    | none =>
      rw [want_of_missing (s := State.start c) hg]
      exact ((hsame x (getMapping_eq_none.1 hg)).noLive (hempty x)).settled
    | some h =>
      obtain rfl := getMapping_id hg
      rw [want_of_current (s := State.start c) hg]
      exact hset h (List.mem_of_find?_eq_some hg)

/-! ### Whole runs -/

/-- The lookup in the configuration goes through the objects. -/
theorem getMapping_config (s : State) (x : String) :
    s.config.getMapping (.str x) = (getMapping s.mappings x).map s.content := by
  have hid : ∀ h : Handle, ((s.content h).id.pyEq (.str x)) = decide (h.id = x) := by
    intro h
    rw [Json.pyEq_str]
    show (h.config.id == .str x) = decide (h.id = x)
    rw [h.textId]
    by_cases hx : h.id = x
    · subst hx
      simp
    · simp [hx]
  show (s.mappings.map s.content).find? (fun mapping => mapping.id.pyEq (.str x)) = _
  rw [List.find?_map]
  congr 1
  unfold getMapping
  congr 1
  funext h
  exact hid h

/-- A mapping that is wanted is in the configuration and enabled. -/
theorem want_eq_some {s : State} {x : String} {h : Handle} :
    s.want x = some h ↔ getMapping s.mappings x = some h ∧ s.enabled h = true := by
  unfold State.want
  cases hg : getMapping s.mappings x with
  | none => simp
  | some h' =>
    show (if s.enabled h' then some h' else none) = some h ↔ some h' = some h ∧ s.enabled h = true
    split
    · next hen =>
      constructor
      · rintro ⟨⟩
        exact ⟨rfl, hen⟩
      · exact fun hh => hh.1
    · next hen =>
      constructor
      · exact fun hh => absurd hh (by simp)
      · rintro ⟨⟨⟩, hen'⟩
        exact absurd hen' hen

/-- **What runs is what the configuration says.**  From any configuration with distinct
    textual ids, in every run whose steps meet `InTurn`: once all requests have finished, a
    runner is live for an id if and only if the configuration holds an enabled mapping with
    that id, and the runner was built from that very object, whose fields are those of the
    configuration's current mapping. -/
theorem running_matches_config (m : Platform) (c : AppConfig) (es : List Event) (s : State)
    (hids : DistinctIds c) (hturn : Along (step m) (InTurn m) (State.start c) es)
    (hrun : run (step m) (State.start c) es = some s) (hdone : s.AllDone) (x : String) :
    ((∃ r R, s.Runs x r R) ↔
        ∃ mapping ∈ s.config.mappings, mapping.id = .str x ∧ mapping.enabled = true) ∧
      ∀ r R, s.Runs x r R →
        R.mapping ∈ s.mappings ∧ s.config.getMapping (.str x) = some (s.content R.mapping) := by
  have h : Inv s := run_invariant Inv (inv_step m) (inv_start hids) hturn hrun
  have hset : Settled s.view s.sup x (s.want x) :=
    h.settled x fun t ht => by rw [hdone t ht]; simp [Task.busy]
  -- a live runner of the id runs the wanted object
  have hlive : ∀ r R, s.Runs x r R →
      getMapping s.mappings x = some R.mapping ∧ s.enabled R.mapping = true :=
    fun r R ⟨hR, hx, hl⟩ => want_eq_some.1 (hset.runs r R hR hx hl).2
  refine ⟨⟨?_, ?_⟩, ?_⟩
  · rintro ⟨r, R, hruns⟩
    obtain ⟨hg, hen⟩ := hlive r R hruns
    refine ⟨s.content R.mapping, List.mem_map_of_mem (List.mem_of_find?_eq_some hg), ?_, hen⟩
    rw [← hruns.2.1]
    exact R.mapping.textId
  · rintro ⟨mapping, hm, hid, hen⟩
    obtain ⟨h₁, hmem, rfl⟩ := List.mem_map.1 hm
    obtain rfl : h₁.id = x := Json.str.inj (h₁.textId.symm.trans hid)
    have hw : s.want h₁.id = some h₁ := want_eq_some.2 ⟨getMapping_of_mem h.ids hmem, hen⟩
    obtain ⟨r, R, hR, hx, hl⟩ := hset.running (by rw [hw]; rfl)
    exact ⟨r, R, hR, hx, hl⟩
  · intro r R hruns
    obtain ⟨hg, -⟩ := hlive r R hruns
    refine ⟨List.mem_of_find?_eq_some hg, ?_⟩
    rw [getMapping_config, hg]
    rfl

/-! ### Two runs -/

/-- The test of `InTurn`. -/
def inTurnCheck (m : Platform) (s : State) : Event → Bool
  | .resume i =>
    match s.tasks[i]? with
    | some (.saveWait h) => !s.callsFor h.id
    | some (.actionWait mid _) | some (.deleteWait mid) => !s.callsFor mid
    | some (.saveSaving _ _) | some (.actionSaving _ _ _) | some (.deleteSaving _) =>
      s.config.validate m = .ok ()
    | _ => true
  | _ => true

/-- The test finds only steps that meet the condition. -/
theorem inTurn_of_check (m : Platform) (s : State) (e : Event)
    (h : inTurnCheck m s e = true) : InTurn m s e := by
  cases e with
  | resume i =>
    simp only [inTurnCheck] at h
    simp only [InTurn]
    split at h
    · simpa using h
    · exact fun _ => by simpa using h
    · exact fun _ => by simpa using h
    · exact Or.inl (by simpa using h)
    · exact Or.inl (by simpa using h)
    · exact Or.inl (by simpa using h)
    · trivial
  | _ => trivial

/-- One enabled mapping. -/
def oneMapping : AppConfig :=
  { AppConfig.fresh "key" "node" with mappings := [rawMapping "m" "/dev/ttyS0" 4001 true] }

/-- The configuration of the examples. -/
theorem distinctIds_oneMapping : DistinctIds oneMapping := by
  constructor
  · intro mapping hm
    obtain rfl := List.mem_singleton.1 hm
    exact ⟨"m", rfl⟩
  · exact List.nodup_singleton _

/-- An edit of the mapping to another port, while a second mapping is saved and then stopped;
    the stop waits for its turn. -/
def editAndStop : List Event :=
  [.save "m" (rawMapping "m" "/dev/ttyS0" 4002 true),
    .save "n" (rawMapping "n" "/dev/ttyS1" 4003 true), .resume 0, .resume 0, .resume 0, .resume 1,
    .resume 1, .resume 0, .resume 1, .resume 0, .action "n" .stop, .resume 1, .resume 0,
    .resume 1, .resume 0, .resume 1, .resume 2, .resume 2, .resume 2, .resume 2, .resume 0,
    .resume 2]

/-- The state after a sequence of events, for evaluation. -/
def endState (es : List Event) : State :=
  (run (step bareMachine) (State.start oneMapping) es).getD (State.start oneMapping)

/-- The run of the examples, from its last state. -/
theorem run_endState (es : List Event)
    (h : (run (step bareMachine) (State.start oneMapping) es).isSome = true) :
    run (step bareMachine) (State.start oneMapping) es = some (endState es) := by
  obtain ⟨s, hs⟩ := Option.isSome_iff_exists.1 h
  rw [endState, hs]
  rfl

/-- The run ends with the edited mapping alone running. -/
theorem running_matches_config_editAndStop :
    ∃ s, run (step bareMachine) (State.start oneMapping) editAndStop = some s ∧ s.AllDone ∧
      ((∃ r R, s.Runs "m" r R) ↔
        ∃ mapping ∈ s.config.mappings, mapping.id = .str "m" ∧ mapping.enabled = true) ∧
      ∀ r R, s.Runs "m" r R →
        R.mapping ∈ s.mappings ∧ s.config.getMapping (.str "m") = some (s.content R.mapping) := by
  have hrun := run_endState editAndStop (by decide +kernel)
  have hdone : (endState editAndStop).AllDone := by decide +kernel
  have hturn : Along (step bareMachine) (InTurn bareMachine) (State.start oneMapping) editAndStop :=
    along_of_check (inTurn_of_check bareMachine) (by decide +kernel)
  exact ⟨_, hrun, hdone, running_matches_config bareMachine oneMapping editAndStop _
    distinctIds_oneMapping hturn hrun hdone "m"⟩

/-- Two saves of one mapping.  The first one has stored its object and is stopping the old
    runner when the second one stores its own, finds nothing to stop and starts it. -/
def overlappingSaves : List Event :=
  [.save "m" (rawMapping "m" "/dev/ttyS0" 4002 true),
    .save "m" (rawMapping "m" "/dev/ttyS0" 4003 true), .resume 0, .resume 0, .resume 0,
    .resume 1, .resume 1, .resume 1, .resume 1, .resume 1, .resume 1, .resume 0, .resume 0,
    .resume 0, .resume 0, .resume 0]

/-- Afterwards a runner is live that was built from the first save's object, which the
    configuration no longer holds. -/
theorem overlapping_saves_stale :
    ∃ s, run (step bareMachine) (State.start oneMapping) overlappingSaves = some s ∧
      s.AllDone ∧ ∃ r R, s.Runs "m" r R ∧ R.mapping ∉ s.mappings ∧
        s.config.getMapping (.str "m") ≠ some (s.content R.mapping) := by
  have hrun := run_endState overlappingSaves (by decide +kernel)
  have hstale : ∃ R ∈ (endState overlappingSaves).sup.heap, R.mapping.id = "m" ∧ R.live = true ∧
      R.mapping ∉ (endState overlappingSaves).mappings ∧
      (endState overlappingSaves).config.getMapping (.str "m") ≠
        some ((endState overlappingSaves).content R.mapping) := by
    decide +kernel
  obtain ⟨R, hmem, hid, hl, hnot, hne⟩ := hstale
  obtain ⟨r, hr⟩ := List.mem_iff_getElem?.1 hmem
  exact ⟨_, hrun, by decide +kernel, r, R, ⟨hr, hid, hl⟩, hnot, hne⟩

end Ser2Net.Web.Reconcile
