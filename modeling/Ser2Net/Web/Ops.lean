import Ser2Net.Config.App

namespace Ser2Net.Web.Ops

open Ser2Net.Lib Ser2Net.Config

/-!
# Web — operations on the stored mappings

`create_mapping` and `update_mapping` of the REST API, and `save_mapping_from_form` and
`apply_action` of `routes/ops.py`: each changes `AppConfig.mappings` in place, under the
configuration lock, and then saves, which validates the whole configuration first.  A
`ConfigError` of that validation is the `rejected` reply; what each operation undoes then is
its own affair.

* `createMapping` takes the appended mapping out again, `updateMapping` and
  `saveMappingFromForm` put the list back, `applyAction` undoes nothing;
* `rejected_keeps_config_iff` — a rejected operation leaves the configuration as it was
  exactly when it is not an action that switches a mapping on or off;
* `rejected_start_stays_enabled` — starting a mapping whose device another one uses.
-/

/-- How an operation ends. -/
inductive Reply
  /-- Saved; the mapping's name. -/
  | saved (name : Json)
  /-- The request itself is refused, before the configuration is touched. -/
  | refused (e : PyExc ConfigError)
  /-- No mapping has the id. -/
  | notFound
  /-- The validation inside the save raised `ConfigError`. -/
  | rejected (e : ConfigError)
  /-- Any other exception, passed on to the server. -/
  | raised (e : PyExc ConfigError)
  deriving DecidableEq

/-- The mapping action of the UI, the API and the cluster. -/
inductive Action
  | start
  | stop
  | restart
  deriving DecidableEq, Repr

/-- `action != "stop"`. -/
def Action.enables : Action → Bool
  | .stop => false
  | _ => true

/-- `mappings[mappings.index(existing)] = mapping`.  The first mapping that is equal to
    `existing` has its id, so it is `existing` itself. -/
def setMapping (mid : Json) (new : MappingConfig) : List MappingConfig → List MappingConfig
  | [] => []
  | c :: rest => if c.id.pyEq mid then new :: rest else c :: setMapping mid new rest

/-- `m.enabled = flag` on the mapping that `get_mapping` returns. -/
def setEnabled (mid : Json) (flag : Bool) : List MappingConfig → List MappingConfig
  | [] => []
  | c :: rest =>
    if c.id.pyEq mid then { c with enabled := flag } :: rest else c :: setEnabled mid flag rest

/-- `mappings.append(mapping)` followed by `mappings.remove(mapping)`: the first mapping that
    is equal to it goes, which is the appended one if no other is. -/
def removeAppended (mappings : List MappingConfig) (mapping : MappingConfig) :
    List MappingConfig :=
  if mappings.any (·.pyEq mapping) then mappings.eraseP (·.pyEq mapping) ++ [mapping]
  else mappings

/-- `state.asave()` of the configuration `c`: the reply, and the configuration afterwards,
    which is `undo` when the validation raises `ConfigError`. -/
def asave (m : Platform) (name : Json) (c undo : AppConfig) : Reply × AppConfig :=
  match c.validate m with
  | .ok () => (.saved name, c)
  | .error (.user e) => (.rejected e, undo)
  | .error e => (.raised e, c)

/-- The outcome of the `try` block in front of the lock: `except (ValueError, ConfigError)`
    makes it a refusal. -/
def refusal (e : PyExc ConfigError) : Reply := if e.isValueError then .refused e else .raised e

/-- `create_mapping` of the REST API; `newId` is the id that the server assigns. -/
def createMapping (m : Platform) (newId : String) (body : Json) (c : AppConfig) :
    Reply × AppConfig :=
  match body with
  | .obj kvs =>
    match MappingConfig.load m newId (.obj (kvs.filter fun p => p.1 ≠ "id" && p.1 ≠ "status")) with
    | .error e => (refusal e, c)
    | .ok mapping =>
      asave m mapping.name { c with mappings := c.mappings ++ [mapping] }
        { c with mappings := removeAppended c.mappings mapping }
  | _ => (.refused .valueError, c)

/-- `update_mapping` of the REST API: `PUT` of the mapping with id `mid`. -/
def updateMapping (m : Platform) (newId mid : String) (body : Json) (c : AppConfig) :
    Reply × AppConfig :=
  match body with
  | .obj kvs =>
    match MappingConfig.load m newId
        (.obj ((dictSet kvs "id" (.str mid)).filter fun p => p.1 ≠ "status")) with
    | .error e => (refusal e, c)
    | .ok mapping =>
      match c.getMapping (.str mid) with
      | none => (.notFound, c)
      | some _ =>
        asave m mapping.name { c with mappings := setMapping (.str mid) mapping c.mappings } c
  | _ => (.refused .valueError, c)

/-- `save_mapping_from_form`; `parsed` is the outcome of its `try` block, which reads the
    form and changes nothing. -/
def saveMappingFromForm (m : Platform) (parsed : CfgM MappingConfig) (c : AppConfig) :
    Reply × AppConfig :=
  match parsed with
  | .error e => (refusal e, c)
  | .ok mapping =>
    match c.getMapping mapping.id with
    | some _ =>
      asave m mapping.name { c with mappings := setMapping mapping.id mapping c.mappings } c
    | none => asave m mapping.name { c with mappings := c.mappings ++ [mapping] } c

/-- `apply_action`: the flag is set on the stored mapping and stays set whatever the save
    does. -/
def applyAction (m : Platform) (mid : String) (action : Action) (c : AppConfig) :
    Reply × AppConfig :=
  match c.getMapping (.str mid) with
  | none => (.notFound, c)
  | some mapping =>
    let c' := { c with mappings := setEnabled (.str mid) action.enables c.mappings }
    asave m mapping.name c' c'

/-- A mapping operation with its arguments. -/
inductive Operation
  | create (newId : String) (body : Json)
  | update (newId mid : String) (body : Json)
  | saveForm (parsed : CfgM MappingConfig)
  | action (mid : String) (act : Action)

/-- Run an operation on the configuration in memory. -/
def Operation.run (m : Platform) (op : Operation) (c : AppConfig) : Reply × AppConfig :=
  match op with
  | .create newId body => createMapping m newId body c
  | .update newId mid body => updateMapping m newId mid body c
  | .saveForm parsed => saveMappingFromForm m parsed c
  | .action mid act => applyAction m mid act c

/-- The id that `_new_id` makes up for a new mapping is no mapping's id yet. -/
def Operation.FreshId (op : Operation) (c : AppConfig) : Prop :=
  match op with
  | .create newId _ => ∀ mapping ∈ c.mappings, mapping.id.pyEq (.str newId) = false
  | _ => True

/-- The operation is an action that switches the mapping it finds on or off. -/
def Operation.Switches (op : Operation) (c : AppConfig) : Prop :=
  match op with
  | .action mid act =>
    ∃ mapping, c.getMapping (.str mid) = some mapping ∧ mapping.enabled ≠ act.enables
  | _ => False

/-! ### What is undone -/

/-- A rejected save leaves what the operation undoes. -/
theorem asave_rejected {m : Platform} {name : Json} {c undo : AppConfig} {e : ConfigError}
    (h : (asave m name c undo).1 = .rejected e) : (asave m name c undo).2 = undo := by
  unfold asave at h ⊢
  split at h
  · exact absurd h (by simp)
  · rfl
  · exact absurd h (by simp)

theorem refusal_ne_rejected (e : PyExc ConfigError) (e' : ConfigError) :
    refusal e ≠ .rejected e' := by
  unfold refusal
  split <;> simp

/-- A mapping that the server gives an id of its own carries that id. -/
theorem fromDict_newId {m : Platform} {newId : String} {kvs : List (String × Json)}
    {mapping : MappingConfig} (hid : Json.lookup kvs "id" = none)
    (h : MappingConfig.fromDict m newId (.obj kvs) = .ok mapping) : mapping.id = .str newId := by
  obtain ⟨d, hd, hread⟩ := MappingConfig.fromDict_eq_ok h
  have hd : d = kvs := by
    unfold Json.toDict at hd
    split at hd
    · cases hd; rfl
    · next hempty =>
      cases hd
      simpa [Json.truthy] using hempty
  rw [hread.id, hd, Json.get, hid]
  rfl

/-- With an id of its own the appended mapping is the one that `remove` takes out. -/
theorem removeAppended_of_fresh {mappings : List MappingConfig} {mapping : MappingConfig}
    (h : ∀ x ∈ mappings, x.id.pyEq mapping.id = false) :
    removeAppended mappings mapping = mappings := by
  refine if_neg fun hany => ?_
  obtain ⟨x, hx, heq⟩ := List.any_eq_true.1 hany
  have := MappingConfig.id_of_pyEq heq
  rw [h x hx] at this
  exact absurd this (by simp)

/-- Setting the flag of the mapping with an id changes the list exactly when it changes the
    flag. -/
theorem setEnabled_eq_iff {mid : Json} (flag : Bool) {l : List MappingConfig}
    {mapping : MappingConfig} (h : l.find? (fun c => c.id.pyEq mid) = some mapping) :
    setEnabled mid flag l = l ↔ mapping.enabled = flag := by
  induction l with
  | nil => exact absurd h (by simp)
  | cons c rest ih =>
    unfold setEnabled
    by_cases hc : c.id.pyEq mid
    · simp only [List.find?_cons, hc, Option.some.injEq] at h
      subst h
      rw [if_pos hc, List.cons.injEq]
      constructor
      · intro heq
        exact congrArg MappingConfig.enabled heq.1.symm
      · intro heq
        exact ⟨by rw [← heq], rfl⟩
    · simp only [List.find?_cons, hc] at h
      rw [if_neg hc, List.cons.injEq]
      exact (and_iff_right rfl).trans (ih h)

theorem createMapping_rejected {m : Platform} {newId : String} {body : Json} {c : AppConfig}
    {e : ConfigError} (hfresh : ∀ mapping ∈ c.mappings, mapping.id.pyEq (.str newId) = false)
    (h : (createMapping m newId body c).1 = .rejected e) : (createMapping m newId body c).2 = c := by
  unfold createMapping at h ⊢
  split at h
  · next kvs =>
    split at h
    · exact absurd h (refusal_ne_rejected _ e)
    · next mapping hload =>
      obtain ⟨mapping', hdict, hload⟩ := except_bind_eq_ok.1 hload
      obtain ⟨-, -, hload⟩ := except_bind_eq_ok.1 hload
      cases hload
      have hid : mapping.id = .str newId := by
        refine fromDict_newId ?_ hdict
        rw [Json.lookup, Option.map_eq_none_iff, List.find?_eq_none]
        intro p hp
        have := (List.mem_filter.1 hp).2
        simp_all
      rw [asave_rejected h, removeAppended_of_fresh (by rw [hid]; exact hfresh)]
  · exact absurd h (by simp)

theorem updateMapping_rejected {m : Platform} {newId mid : String} {body : Json} {c : AppConfig}
    {e : ConfigError} (h : (updateMapping m newId mid body c).1 = .rejected e) :
    (updateMapping m newId mid body c).2 = c := by
  unfold updateMapping at h ⊢
  split at h
  · split at h
    · exact absurd h (refusal_ne_rejected _ e)
    · split at h
      · exact absurd h (by simp)
      · exact asave_rejected h
  · exact absurd h (by simp)

theorem saveMappingFromForm_rejected {m : Platform} {parsed : CfgM MappingConfig} {c : AppConfig}
    {e : ConfigError} (h : (saveMappingFromForm m parsed c).1 = .rejected e) :
    (saveMappingFromForm m parsed c).2 = c := by
  unfold saveMappingFromForm at h ⊢
  split at h
  · exact absurd h (refusal_ne_rejected _ e)
  · split at h
    · exact asave_rejected h
    · exact asave_rejected h

/-- An action keeps the configuration exactly when the flag is set already. -/
theorem applyAction_rejected {m : Platform} {mid : String} {action : Action} {c : AppConfig}
    {e : ConfigError} (h : (applyAction m mid action c).1 = .rejected e) :
    (applyAction m mid action c).2 = c ↔
      ∀ mapping, c.getMapping (.str mid) = some mapping → mapping.enabled = action.enables := by
  unfold applyAction at h ⊢
  split at h
  · exact absurd h (by simp)
  · next mapping hfind =>
    rw [asave_rejected h]
    have hset := setEnabled_eq_iff action.enables hfind
    constructor
    · intro heq other hother
      cases hfind.symm.trans hother
      exact hset.1 (congrArg AppConfig.mappings heq)
    · intro hall
      show { c with mappings := setEnabled (.str mid) action.enables c.mappings } = c
      rw [hset.2 (hall mapping hfind)]

/-! ### Rejected operations -/

/-- **Rollback.**  Whatever the configuration and the arguments: when the validation inside
    the save rejects an operation, the configuration in memory is afterwards what it was
    before if and only if the operation is not an action that switches a mapping on or off.
    The id that the server makes up for a new mapping is assumed to be unused. -/
theorem rejected_keeps_config_iff (m : Platform) (op : Operation) (c : AppConfig)
    (e : ConfigError) (hfresh : op.FreshId c) (h : (op.run m c).1 = .rejected e) :
    (op.run m c).2 = c ↔ ¬ op.Switches c := by
  cases op with
  | create newId body => exact iff_of_true (createMapping_rejected hfresh h) id
  | update newId mid body => exact iff_of_true (updateMapping_rejected h) id
  | saveForm parsed => exact iff_of_true (saveMappingFromForm_rejected h) id
  | action mid act =>
    show (applyAction m mid act c).2 = c ↔
      ¬ ∃ mapping, c.getMapping (.str mid) = some mapping ∧ mapping.enabled ≠ act.enables
    rw [applyAction_rejected h]
    constructor
    · rintro hall ⟨mapping, hfind, hne⟩
      exact hne (hall mapping hfind)
    · intro hnone mapping hfind
      by_contra hne
      exact hnone ⟨mapping, hfind, hne⟩

/-- A raw TCP mapping of a serial device. -/
def rawMapping (mid device : String) (port : Int) (enabled : Bool) : MappingConfig where
  id := .str mid
  name := .str mid
  enabled := enabled
  kind := .str "net"
  serial := SerialSettings.ofMembers [("port", .str device)] []
  serialB := SerialSettings.ofMembers [] []
  network := NetworkSettings.ofMembers [("port", .int port)]
  options := MappingOptions.ofMembers bareMachine.py [] (.int 0)
  mqtt := MqttSettings.ofMembers []
  modbusPoll := ⟨.ofIntExact 5, []⟩

/-- Two mappings of one device; the second one is switched off, so the file is valid. -/
def sharedDevice : AppConfig :=
  { AppConfig.fresh "key" "node" with
    mappings := [rawMapping "a" "/dev/ttyS0" 4001 true, rawMapping "b" "/dev/ttyS0" 4002 false] }

/-- `POST` of a third mapping of the device. -/
def thirdMapping : Operation :=
  .create "c" (.obj [("name", .str "c"), ("serial", .obj [("port", .str "/dev/ttyS0")]),
    ("network", .obj [("port", .int 4003)])])

/-- The third mapping is rejected and leaves no trace. -/
theorem rejected_keeps_config_iff_create :
    ∃ e, (thirdMapping.run bareMachine sharedDevice).1 = .rejected e ∧
      ((thirdMapping.run bareMachine sharedDevice).2 = sharedDevice ↔
        ¬ thirdMapping.Switches sharedDevice) := by
  have h : (thirdMapping.run bareMachine sharedDevice).1 = .rejected
      ⟨"Mappings '{0}' and '{1}' both use serial port {2} — a serial port can only be opened by one mapping.",
        [.value (.str "a"), .value (.str "c"), .value (.str "/dev/ttyS0")]⟩ := by
    decide +kernel
  have hfresh : thirdMapping.FreshId sharedDevice := by
    show ∀ mapping ∈ sharedDevice.mappings, mapping.id.pyEq (.str "c") = false
    decide +kernel
  exact ⟨_, h, rejected_keeps_config_iff bareMachine thirdMapping sharedDevice _ hfresh h⟩

/-- Starting the second mapping of the device is rejected, but the mapping stays switched on;
    the configuration in memory is then invalid, so that every later save fails too. -/
theorem rejected_start_stays_enabled :
    ∃ e, ((Operation.action "b" .start).run bareMachine sharedDevice).1 = .rejected e ∧
      ((Operation.action "b" .start).run bareMachine sharedDevice).2 ≠ sharedDevice ∧
      sharedDevice.validate bareMachine = .ok () ∧
      ((Operation.action "b" .start).run bareMachine sharedDevice).2.validate bareMachine =
        .error (.user e) :=
  ⟨⟨"Mappings '{0}' and '{1}' both use serial port {2} — a serial port can only be opened by one mapping.",
      [.value (.str "a"), .value (.str "b"), .value (.str "/dev/ttyS0")]⟩,
    by decide +kernel, by decide +kernel, by decide +kernel, by decide +kernel⟩

end Ser2Net.Web.Ops
