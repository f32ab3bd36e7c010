import Ser2Net.Lib.Trace
import Mathlib.Logic.Function.Basic
import Mathlib.Tactic.Common

namespace Ser2Net.Engine.Supervisor

open Ser2Net.Lib

/-!
# Engine — the supervisor's runners (`Supervisor`)

The supervisor keeps one runner per mapping id in `_runners`.  Every operation is a
coroutine: `_lock` only guards the single dictionary access inside it, and the awaits of
`runner.stop()` and `runner.start()` are outside the lock, so two operations on one id
may overlap.

* `Runner` — what a runner holds: its serial task and its listening socket;
* `Call` — where an operation stands between two awaits, `advance` — what it does up to
  its next await;
* `State`, `step` — any number of operations, resumed in any order;
* `live_unique_and_registered` — apply, restart and remove calls of one id that do not
  overlap leave at most one live runner at every moment, and none out of reach at rest;
* `overlapping_applies_orphan` — two overlapping saves leave two live runners.

The mapping type is a parameter: the supervisor only reads its id and its enabled flag.
-/

/-- What the supervisor reads of a mapping. -/
structure View (ι μ : Type) where
  id : μ → ι
  enabled : μ → Bool

/-- A runner object: the mapping it was built from, whether its serial task (the main
    task of a connect-out or serial-to-serial mapping) exists, and whether its network
    side (listening socket, UDP endpoint) is open. -/
structure Runner (μ : Type) where
  mapping : μ
  serialTask : Bool
  network : Bool
  deriving DecidableEq, Repr

namespace Runner

variable {μ : Type}

/-- A runner holds the serial device or the TCP port: started and not yet stopped. -/
def live (r : Runner μ) : Bool := r.serialTask || r.network

/-- `make_runner`. -/
def make (m : μ) : Runner μ := ⟨m, false, false⟩

/-- `start` up to its await: the serial task is created. -/
def startBegin (r : Runner μ) : Runner μ := { r with serialTask := true }

/-- `start` after its await: the port is open. -/
def startEnd (r : Runner μ) : Runner μ := { r with network := true }

/-- `stop` up to its first await: the listening socket is closed. -/
def stopBegin (r : Runner μ) : Runner μ := { r with network := false }

/-- `stop` from there to its end: the serial task is cancelled and the device closed. -/
def stopEnd (r : Runner μ) : Runner μ := { r with serialTask := false }

end Runner

variable {ι μ : Type}

/-- A supervisor operation between two awaits.  `begun` says whether the awaited `stop`
    has run its first part. -/
inductive Call (ι μ : Type)
  | apply (m : μ)
  | applyStop (m : μ) (old : Nat) (begun : Bool)
  | applyBuild (m : μ)
  | applyStart (m : μ) (runner : Nat)
  | applyStarting (m : μ) (runner : Nat)
  | applyFailed (m : μ) (runner : Nat) (begun : Bool)
  | stop (mid : ι)
  | stopStop (mid : ι) (runner : Nat) (begun : Bool)
  | restart (m : μ)
  | restartStop (m : μ) (runner : Nat) (begun : Bool)
  | remove (mid : ι)
  | removeStop (mid : ι) (runner : Nat) (begun : Bool)
  | done
  deriving DecidableEq, Repr

/-- The supervisor: the runner objects ever made, `_runners` and `_order`. -/
structure Sup (ι μ : Type) where
  heap : List (Runner μ)
  runners : ι → Option Nat
  order : List ι

/-- A supervisor without runners. -/
def Sup.init : Sup ι μ := ⟨[], fun _ => none, []⟩

/-- Run a piece of a runner's method on the object `r`. -/
def Sup.onRunner (s : Sup ι μ) (r : Nat) (f : Runner μ → Runner μ) : Sup ι μ :=
  { s with heap := s.heap.modify r f }

section
variable [DecidableEq ι]

/-- `self._runners.pop(mid, None)`, under the lock. -/
def Sup.pop (s : Sup ι μ) (mid : ι) : Sup ι μ :=
  { s with runners := Function.update s.runners mid none }

/-- A new runner object, registered under its id. -/
def Sup.build (V : View ι μ) (s : Sup ι μ) (m : μ) : Sup ι μ :=
  { heap := s.heap ++ [Runner.make m]
    runners := Function.update s.runners (V.id m) (some s.heap.length)
    order := if V.id m ∈ s.order then s.order else s.order ++ [V.id m] }

/-- An awaited `stop` of runner `r`: first or second part; `k` is the call afterwards. -/
def stopping (s : Sup ι μ) (r : Nat) (begun : Bool) (again k : Call ι μ) :
    Sup ι μ × Call ι μ :=
  if begun then (s.onRunner r Runner.stopEnd, k) else (s.onRunner r Runner.stopBegin, again)

/-- What an operation does from where it stands to its next await.  `startOk` is the
    outcome of opening the port, read where `start` awaits it. -/
def advance (V : View ι μ) (s : Sup ι μ) (startOk : Bool) : Call ι μ → Sup ι μ × Call ι μ
  | .apply m =>
    match s.runners (V.id m) with
    | some old => (s.pop (V.id m), .applyStop m old false)
    | none => (s.pop (V.id m), .applyBuild m)
  | .applyStop m old begun => stopping s old begun (.applyStop m old true) (.applyBuild m)
  | .applyBuild m => (s.build V m, .applyStart m s.heap.length)
  | .applyStart m r =>
    if V.enabled m then (s.onRunner r Runner.startBegin, .applyStarting m r) else (s, .done)
  | .applyStarting m r =>
    if startOk then (s.onRunner r Runner.startEnd, .done) else (s, .applyFailed m r false)
  | .applyFailed m r begun => stopping s r begun (.applyFailed m r true) .done
  | .stop mid =>
    match s.runners mid with
    | some r => (s, .stopStop mid r false)
    | none => (s, .done)
  | .stopStop mid r begun => stopping s r begun (.stopStop mid r true) .done
  | .restart m =>
    match s.runners (V.id m) with
    | some r => (s, .restartStop m r false)
    | none => (s, .apply m)
  | .restartStop m r begun => stopping s r begun (.restartStop m r true) (.apply m)
  | .remove mid =>
    let s' := { s.pop mid with order := s.order.erase mid }
    match s.runners mid with
    | some r => (s', .removeStop mid r false)
    | none => (s', .done)
  | .removeStop mid r begun => stopping s r begun (.removeStop mid r true) .done
  | .done => (s, .done)

end

/-- The supervisor together with the operations under way. -/
structure State (ι μ : Type) where
  sup : Sup ι μ
  calls : List (Call ι μ)

/-- A supervisor at rest without runners. -/
def State.init : State ι μ := ⟨Sup.init, []⟩

/-- The calls a caller can make. -/
inductive Request (ι μ : Type)
  | applyMapping (m : μ)
  | stopMapping (mid : ι)
  | restartMapping (m : μ)
  | removeMapping (mid : ι)
  deriving DecidableEq, Repr

/-- The operation a request starts. -/
def Request.call : Request ι μ → Call ι μ
  | .applyMapping m => .apply m
  | .stopMapping mid => .stop mid
  | .restartMapping m => .restart m
  | .removeMapping mid => .remove mid

/-- A new call arrives, or the event loop resumes operation `i`. -/
inductive Event (ι μ : Type)
  | request (q : Request ι μ)
  | resume (i : Nat) (startOk : Bool)
  deriving DecidableEq, Repr

/-- One piece of one operation. -/
def step [DecidableEq ι] (V : View ι μ) (s : State ι μ) : Event ι μ → Option (State ι μ)
  | .request q => some { s with calls := s.calls ++ [q.call] }
  | .resume i startOk => (s.calls[i]?).map fun c =>
      let (sup, c') := advance V s.sup startOk c
      ⟨sup, s.calls.set i c'⟩

/-! ### Reading a call -/

/-- The mapping id an operation works on. -/
def Call.mid (V : View ι μ) : Call ι μ → Option ι
  | .apply m | .applyStop m _ _ | .applyBuild m | .applyStart m _ | .applyStarting m _
  | .applyFailed m _ _ | .restart m | .restartStop m _ _ => some (V.id m)
  | .stop mid | .stopStop mid _ _ | .remove mid | .removeStop mid _ _ => some mid
  | .done => none

/-- The operation is an apply (or the restart that leads to one) under way. -/
def Call.builds : Call ι μ → Bool
  | .apply _ | .applyStop _ _ _ | .applyBuild _ | .applyStart _ _ | .applyStarting _ _
  | .applyFailed _ _ _ | .restart _ | .restartStop _ _ _ => true
  | _ => false

/-- The operation is a remove under way. -/
def Call.removes : Call ι μ → Bool
  | .remove _ | .removeStop _ _ _ => true
  | _ => false

/-- The runner a call has taken out of `_runners` and is stopping. -/
def Call.popped : Call ι μ → Option Nat
  | .applyStop _ old _ => some old
  | .removeStop _ r _ => some r
  | _ => none

/-- `r` is a live runner of mapping id `x`. -/
def LiveAt (V : View ι μ) (s : Sup ι μ) (x : ι) (r : Nat) : Prop :=
  ∃ R, s.heap[r]? = some R ∧ V.id R.mapping = x ∧ R.live = true

/-- `r` is a runner built for mapping id `x`. -/
def BuiltFor (V : View ι μ) (s : Sup ι μ) (x : ι) (r : Nat) : Prop :=
  ∃ R, s.heap[r]? = some R ∧ V.id R.mapping = x

/-- The network side of runner `r` is closed. -/
def PortClosed (s : Sup ι μ) (r : Nat) : Prop := ∀ R, s.heap[r]? = some R → R.network = false

/-- No operation is under way. -/
def State.AtRest (s : State ι μ) : Prop := ∀ c ∈ s.calls, c = .done

instance [DecidableEq ι] [DecidableEq μ] (s : State ι μ) : Decidable s.AtRest :=
  inferInstanceAs (Decidable (∀ c ∈ s.calls, c = .done))

/-- The condition on a step: an apply or a restart does not start while another apply,
    restart or remove of the same id is under way, and a remove not while an apply or a
    restart of it is.  Stops may overlap with everything, removes with removes. -/
def NoOverlap (V : View ι μ) (s : State ι μ) : Event ι μ → Prop
  | .request q => ∀ c ∈ s.calls, c.mid V = q.call.mid V →
      (q.call.builds = true → c.builds = false ∧ c.removes = false) ∧
      (q.call.removes = true → c.builds = false)
  | .resume _ _ => True

/-! ### What the runner pieces do to the heap -/

/-- A piece of a runner's method that keeps its mapping and opens nothing. -/
def Lowers (f : Runner μ → Runner μ) : Prop :=
  ∀ R, (f R).mapping = R.mapping ∧ ((f R).live = true → R.live = true) ∧
    ((f R).network = true → R.network = true)

theorem lowers_stopBegin : Lowers (Runner.stopBegin (μ := μ)) := by
  intro R
  refine ⟨rfl, ?_, ?_⟩ <;> simp [Runner.stopBegin, Runner.live]
  exact fun h => Or.inl h

theorem lowers_stopEnd : Lowers (Runner.stopEnd (μ := μ)) := by
  intro R
  refine ⟨rfl, ?_, ?_⟩ <;> simp [Runner.stopEnd, Runner.live]
  exact fun h => Or.inr h

theorem onRunner_heap (s : Sup ι μ) (r : Nat) (f : Runner μ → Runner μ) (j : Nat) :
    (s.onRunner r f).heap[j]? = (s.heap[j]?).map fun R => if r = j then f R else R := by
  simp only [Sup.onRunner, List.getElem?_modify]
  rfl

@[simp] theorem onRunner_runners (s : Sup ι μ) (r : Nat) (f : Runner μ → Runner μ) :
    (s.onRunner r f).runners = s.runners := rfl

/-- Runner pieces never change what a runner was built for. -/
theorem builtFor_onRunner (V : View ι μ) {s : Sup ι μ} {r : Nat} {f : Runner μ → Runner μ}
    (hf : ∀ R, (f R).mapping = R.mapping) {x : ι} {j : Nat} (h : BuiltFor V s x j) :
    BuiltFor V (s.onRunner r f) x j := by
  obtain ⟨R, hR, hx⟩ := h
  refine ⟨if r = j then f R else R, by rw [onRunner_heap, hR]; rfl, ?_⟩
  split
  · rw [hf]; exact hx
  · exact hx

/-- A lowering piece makes no runner live. -/
theorem liveAt_of_lowers {V : View ι μ} {s : Sup ι μ} {r : Nat} {f : Runner μ → Runner μ}
    (hf : Lowers f) {x : ι} {j : Nat} (h : LiveAt V (s.onRunner r f) x j) : LiveAt V s x j := by
  obtain ⟨R, hR, hx, hl⟩ := h
  rw [onRunner_heap, Option.map_eq_some_iff] at hR
  obtain ⟨R₀, hR₀, rfl⟩ := hR
  refine ⟨R₀, hR₀, ?_, ?_⟩
  · split at hx
    · rw [(hf R₀).1] at hx; exact hx
    · exact hx
  · split at hl
    · exact (hf R₀).2.1 hl
    · exact hl

/-- Another piece than `r`'s own can only make `r` live. -/
theorem liveAt_onRunner {V : View ι μ} {s : Sup ι μ} {r : Nat} {f : Runner μ → Runner μ}
    {x : ι} {j : Nat} (h : LiveAt V (s.onRunner r f) x j) : j = r ∨ LiveAt V s x j := by
  obtain ⟨R, hR, hx, hl⟩ := h
  rw [onRunner_heap, Option.map_eq_some_iff] at hR
  obtain ⟨R₀, hR₀, rfl⟩ := hR
  by_cases hj : r = j
  · exact Or.inl hj.symm
  · rw [if_neg hj] at hx hl
    exact Or.inr ⟨R₀, hR₀, hx, hl⟩

/-- Once the port is closed, the end of `stop` leaves nothing live. -/
theorem not_liveAt_stopEnd {V : View ι μ} {s : Sup ι μ} {r : Nat}
    (hnet : PortClosed s r) (x : ι) :
    ¬ LiveAt V (s.onRunner r Runner.stopEnd) x r := by
  rintro ⟨R, hR, -, hl⟩
  rw [onRunner_heap, Option.map_eq_some_iff] at hR
  obtain ⟨R₀, hR₀, rfl⟩ := hR
  rw [if_pos rfl] at hl
  simp [Runner.live, Runner.stopEnd, hnet R₀ hR₀] at hl

/-- The first part of `stop` closes the port. -/
theorem portClosed_stopBegin (s : Sup ι μ) (r : Nat) :
    PortClosed (s.onRunner r Runner.stopBegin) r := by
  intro R hR
  rw [onRunner_heap, Option.map_eq_some_iff] at hR
  obtain ⟨R₀, -, rfl⟩ := hR
  rw [if_pos rfl]
  rfl

/-! ### The invariant -/

/-- What holds of the supervisor while a call stands where it does. -/
def PhaseOk (V : View ι μ) (s : Sup ι μ) : Call ι μ → Prop
  | .applyStop m old begun => s.runners (V.id m) = none ∧ BuiltFor V s (V.id m) old ∧
      (begun = true → PortClosed s old)
  | .applyBuild m => s.runners (V.id m) = none
  | .applyStart m r | .applyStarting m r | .applyFailed m r _ => s.runners (V.id m) = some r
  | .removeStop mid r begun => BuiltFor V s mid r ∧
      (begun = true → PortClosed s r)
  | _ => True

/-- **The invariant.**  Registered runners are filed under their own id; apply and restart
    calls of an id are alone; every call finds the supervisor as it left it; a live runner
    is registered or being stopped by the call that took it out; and there is at most one
    live runner per id. -/
structure Inv (V : View ι μ) (s : State ι μ) : Prop where
  built : ∀ x r, s.sup.runners x = some r → BuiltFor V s.sup x r
  alone : ∀ (i j : Nat) (c d : Call ι μ), s.calls[i]? = some c → s.calls[j]? = some d →
    c.mid V = d.mid V → c.builds = true → (d.builds = true ∨ d.removes = true) → i = j
  phase : ∀ (i : Nat) (c : Call ι μ), s.calls[i]? = some c → PhaseOk V s.sup c
  owned : ∀ x r, LiveAt V s.sup x r → s.sup.runners x = some r ∨
    ∃ (i : Nat) (c : Call ι μ), s.calls[i]? = some c ∧ c.mid V = some x ∧ c.popped = some r
  unique : ∀ x r r', LiveAt V s.sup x r → LiveAt V s.sup x r' → r = r'

theorem inv_init (V : View ι μ) : Inv V (State.init : State ι μ) where
  built := by intro x r h; simp [State.init, Sup.init] at h
  alone := by intro i j c d h; simp [State.init] at h
  phase := by intro i c h; simp [State.init] at h
  owned := by rintro x r ⟨R, hR, -⟩; simp [State.init, Sup.init] at hR
  unique := by rintro x r r' ⟨R, hR, -⟩; simp [State.init, Sup.init] at hR

/-- What a call may turn into: it keeps its id and its kind, or it is done. -/
def Becomes (V : View ι μ) (c c' : Call ι μ) : Prop :=
  c' = .done ∨ (c'.mid V = c.mid V ∧ c'.builds = c.builds ∧ c'.removes = c.removes)

/-- **Frame rule.**  Call `i` moves on to `c'` and the supervisor to `sup`: what remains
    to show is about `c'`, the other calls' phases and the runners that are live now. -/
theorem Inv.move {V : View ι μ} {s : State ι μ} (h : Inv V s) {i : Nat} {c c' : Call ι μ}
    {sup : Sup ι μ} (hi : s.calls[i]? = some c) (hc : Becomes V c c')
    (hbuilt : ∀ x r, sup.runners x = some r → BuiltFor V sup x r)
    (hphase : PhaseOk V sup c')
    (hothers : ∀ (j : Nat) (d : Call ι μ), j ≠ i → s.calls[j]? = some d → PhaseOk V sup d)
    (howned : ∀ x r, LiveAt V sup x r → sup.runners x = some r ∨
      (c'.mid V = some x ∧ c'.popped = some r) ∨
      ∃ (j : Nat) (d : Call ι μ), j ≠ i ∧ s.calls[j]? = some d ∧ d.mid V = some x ∧
        d.popped = some r)
    (hunique : ∀ x r r', LiveAt V sup x r → LiveAt V sup x r' → r = r') :
    Inv V ⟨sup, s.calls.set i c'⟩ := by
  have hlt : i < s.calls.length := (List.getElem?_eq_some_iff.mp hi).1
  have hself : (s.calls.set i c')[i]? = some c' := by simp [hlt]
  have hother : ∀ j, j ≠ i → (s.calls.set i c')[j]? = s.calls[j]? := fun j hj =>
    List.getElem?_set_ne (Ne.symm hj)
  -- a call read after the move is `c'` at `i`, or an old one elsewhere
  have hread : ∀ {j : Nat} {d : Call ι μ}, (s.calls.set i c')[j]? = some d →
      (j = i ∧ d = c') ∨ (j ≠ i ∧ s.calls[j]? = some d) := by
    intro j d hd
    by_cases hj : j = i
    · subst hj
      rw [hself, Option.some.injEq] at hd
      exact Or.inl ⟨rfl, hd.symm⟩
    · rw [hother j hj] at hd
      exact Or.inr ⟨hj, hd⟩
  refine ⟨hbuilt, ?_, ?_, ?_, hunique⟩
  · intro j k d e hd he hmid hb hbr
    -- `c'` stands for `c`, which was alone before
    rcases hread hd with ⟨rfl, rfl⟩ | ⟨hj, hd'⟩ <;> rcases hread he with ⟨rfl, rfl⟩ | ⟨hk, he'⟩
    · rfl
    · rcases hc with rfl | ⟨hm, hbc, hrc⟩
      · simp [Call.builds] at hb
      · exact h.alone _ k _ _ hi he' (hm ▸ hmid) (hbc ▸ hb) hbr
    · rcases hc with rfl | ⟨hm, hbc, hrc⟩
      · simp [Call.builds, Call.removes] at hbr
      · exact h.alone j _ _ _ hd' hi (hmid.trans hm) hb (by rw [← hbc, ← hrc]; exact hbr)
    · exact h.alone j k d e hd' he' hmid hb hbr
  · intro j d hd
    rcases hread hd with ⟨rfl, rfl⟩ | ⟨hj, hd'⟩
    · exact hphase
    · exact hothers j d hj hd'
  · intro x r hl
    rcases howned x r hl with hr | ⟨hm, hp⟩ | ⟨j, d, hj, hd, hm, hp⟩
    · exact Or.inl hr
    · exact Or.inr ⟨i, c', hself, hm, hp⟩
    · exact Or.inr ⟨j, d, by rw [hother j hj]; exact hd, hm, hp⟩

/-! ### One lemma per kind of piece -/

theorem builtFor_unique {V : View ι μ} {s : Sup ι μ} {x y : ι} {r : Nat}
    (hx : BuiltFor V s x r) (hy : BuiltFor V s y r) : x = y := by
  obtain ⟨R, hR, rfl⟩ := hx
  obtain ⟨R', hR', rfl⟩ := hy
  rw [hR, Option.some.injEq] at hR'
  rw [hR']

theorem lt_of_builtFor {V : View ι μ} {s : Sup ι μ} {x : ι} {r : Nat} (h : BuiltFor V s x r) :
    r < s.heap.length :=
  let ⟨_, hR, _⟩ := h
  (List.getElem?_eq_some_iff.mp hR).1

theorem LiveAt.builtFor {V : View ι μ} {s : Sup ι μ} {x : ι} {r : Nat}
    (h : LiveAt V s x r) : BuiltFor V s x r :=
  let ⟨R, hR, hx, _⟩ := h
  ⟨R, hR, hx⟩

theorem builds_or_removes_of_popped {c : Call ι μ} {r : Nat} (h : c.popped = some r) :
    c.builds = true ∨ c.removes = true := by
  cases c <;> simp [Call.popped, Call.builds, Call.removes] at h ⊢

/-- A call other than the apply or restart `i` that has taken a runner out, or that is an
    apply, works on another id. -/
theorem Inv.mid_ne {V : View ι μ} {s : State ι μ} (h : Inv V s) {i j : Nat} {c d : Call ι μ}
    {x : ι} (hi : s.calls[i]? = some c) (hj : s.calls[j]? = some d) (hne : j ≠ i)
    (hm : c.mid V = some x)
    (hkind : (c.builds = true ∧ (d.builds = true ∨ d.removes = true)) ∨
      (c.removes = true ∧ d.builds = true)) : d.mid V ≠ some x := by
  intro hd
  rcases hkind with ⟨hc, hdk⟩ | ⟨hc, hdb⟩
  · exact hne (h.alone i j c d hi hj (hm.trans hd.symm) hc hdk).symm
  · exact hne (h.alone j i d c hj hi (hd.trans hm.symm) hdb (Or.inr hc))

/-- Phases survive a lowering piece. -/
theorem phaseOk_lowers {V : View ι μ} {s : Sup ι μ} {r : Nat} {f : Runner μ → Runner μ}
    (hf : Lowers f) {d : Call ι μ} (h : PhaseOk V s d) : PhaseOk V (s.onRunner r f) d := by
  have hnet : ∀ k, PortClosed s k → PortClosed (s.onRunner r f) k := by
    intro k hk R hR
    rw [onRunner_heap, Option.map_eq_some_iff] at hR
    obtain ⟨R₀, hR₀, rfl⟩ := hR
    have h₀ := hk R₀ hR₀
    split
    · cases hn : (f R₀).network with
      | false => rfl
      | true => rw [(hf R₀).2.2 hn] at h₀; exact h₀
    · exact h₀
  have hmap : ∀ R, (f R).mapping = R.mapping := fun R => (hf R).1
  cases d with
  | applyStop m old begun =>
    exact ⟨h.1, builtFor_onRunner V hmap h.2.1, fun hb => hnet old (h.2.2 hb)⟩
  | removeStop mid k begun =>
    exact ⟨builtFor_onRunner V hmap h.1, fun hb => hnet k (h.2 hb)⟩
  | _ => exact h

/-- A piece that opens nothing and leaves the registrations alone keeps the invariant. -/
theorem Inv.lower {V : View ι μ} {s : State ι μ} (h : Inv V s) {i : Nat} {c c' : Call ι μ}
    {sup : Sup ι μ} (hi : s.calls[i]? = some c) (hc : Becomes V c c')
    (hreg : sup.runners = s.sup.runners)
    (hb : ∀ x r, BuiltFor V s.sup x r → BuiltFor V sup x r)
    (hlive : ∀ x r, LiveAt V sup x r → LiveAt V s.sup x r)
    (hph : ∀ d, PhaseOk V s.sup d → PhaseOk V sup d) (hphase : PhaseOk V sup c')
    (hpop : ∀ x r, c.mid V = some x → c.popped = some r → LiveAt V sup x r →
      c'.mid V = some x ∧ c'.popped = some r) :
    Inv V ⟨sup, s.calls.set i c'⟩ := by
  refine h.move hi hc ?_ hphase (fun j d _ hd => hph d (h.phase j d hd)) ?_ ?_
  · intro x r hr
    rw [hreg] at hr
    exact hb x r (h.built x r hr)
  · intro x r hl
    -- the owner is this call, whose new phase keeps it, or another one
    rcases h.owned x r (hlive x r hl) with hr | ⟨j, d, hd, hm, hp⟩
    · exact Or.inl (by rw [hreg]; exact hr)
    · by_cases hj : j = i
      · subst hj
        rw [hi, Option.some.injEq] at hd
        subst hd
        exact Or.inr (Or.inl (hpop x r hm hp hl))
      · exact Or.inr (Or.inr ⟨j, d, hj, hd, hm, hp⟩)
  · exact fun x r r' hr hr' => h.unique x r r' (hlive x r hr) (hlive x r' hr')

/-- The call moves on without touching the supervisor. -/
theorem Inv.stay {V : View ι μ} {s : State ι μ} (h : Inv V s) {i : Nat} {c c' : Call ι μ}
    (hi : s.calls[i]? = some c) (hc : Becomes V c c') (hphase : PhaseOk V s.sup c')
    (hpop : c.popped = none) : Inv V ⟨s.sup, s.calls.set i c'⟩ :=
  h.lower hi hc rfl (fun _ _ hb => hb) (fun _ _ hl => hl) (fun _ hd => hd) hphase
    (fun _ _ _ hp => absurd hp (by simp [hpop]))

/-- An awaited `stop`, first or second part. -/
theorem Inv.stopping {V : View ι μ} {s : State ι μ} (h : Inv V s) {i r : Nat}
    {c again k : Call ι μ} {begun : Bool} (hi : s.calls[i]? = some c)
    (hagain : Becomes V c again) (hk : Becomes V c k)
    (hphA : PhaseOk V (s.sup.onRunner r Runner.stopBegin) again)
    (hphK : PhaseOk V (s.sup.onRunner r Runner.stopEnd) k)
    (hpopA : ∀ r', c.popped = some r' → again.mid V = c.mid V ∧ again.popped = some r')
    (hpopK : begun = true → ∀ r', c.popped = some r' →
      r' = r ∧ PortClosed s.sup r) :
    Inv V ⟨(Supervisor.stopping s.sup r begun again k).1,
      s.calls.set i (Supervisor.stopping s.sup r begun again k).2⟩ := by
  have hlow : ∀ {f : Runner μ → Runner μ}, Lowers f →
      ∀ x j, BuiltFor V s.sup x j → BuiltFor V (s.sup.onRunner r f) x j :=
    fun hf x j hb => builtFor_onRunner V (fun R => (hf R).1) hb
  unfold Supervisor.stopping
  -- before the runner's `stop` has begun, and when it ends
  cases begun with
  | false =>
    refine h.lower hi hagain rfl (hlow lowers_stopBegin)
      (fun _ _ hl => liveAt_of_lowers lowers_stopBegin hl)
      (fun _ hd => phaseOk_lowers lowers_stopBegin hd) hphA ?_
    intro x r' hm hp _
    exact ⟨(hpopA r' hp).1.trans hm, (hpopA r' hp).2⟩
  | true =>
    refine h.lower hi hk rfl (hlow lowers_stopEnd)
      (fun _ _ hl => liveAt_of_lowers lowers_stopEnd hl)
      (fun _ hd => phaseOk_lowers lowers_stopEnd hd) hphK ?_
    intro x r' _ hp hl
    obtain ⟨rfl, hnet⟩ := hpopK rfl r' hp
    exact absurd hl (not_liveAt_stopEnd hnet x)

/-- Opening the runner a call has just registered: `start`, first or second part. -/
theorem Inv.starting {V : View ι μ} {s : State ι μ} (h : Inv V s) {i r : Nat}
    {c c' : Call ι μ} {x : ι} {f : Runner μ → Runner μ} (hi : s.calls[i]? = some c)
    (hc : Becomes V c c') (hf : ∀ R, (f R).mapping = R.mapping) (hb : c.builds = true)
    (hm : c.mid V = some x) (hpop : c.popped = none) (hreg : s.sup.runners x = some r)
    (hphase : PhaseOk V (s.sup.onRunner r f) c') :
    Inv V ⟨s.sup.onRunner r f, s.calls.set i c'⟩ := by
  have hbr : BuiltFor V s.sup x r := h.built x r hreg
  -- a runner some other call has taken out is not this one
  have hother : ∀ {j : Nat} {d : Call ι μ} {y : ι} {k : Nat}, s.calls[j]? = some d →
      d.mid V = some y → d.popped = some k → y ≠ x := by
    intro j d y k hd hdm hp hy
    by_cases hj : j = i
    · subst hj
      rw [hi, Option.some.injEq] at hd
      subst hd
      simp [hpop] at hp
    · exact h.mid_ne hi hd hj hm (Or.inl ⟨hb, builds_or_removes_of_popped hp⟩) (hy ▸ hdm)
  have honly : ∀ j, LiveAt V s.sup x j → j = r := by
    intro j hl
    rcases h.owned x j hl with hr | ⟨k, d, hd, hdm, hp⟩
    · rw [hreg, Option.some.injEq] at hr
      exact hr.symm
    · exact absurd rfl (hother hd hdm hp)
  have hx : ∀ {y : ι}, LiveAt V (s.sup.onRunner r f) y r → y = x := fun hl =>
    builtFor_unique hl.builtFor (builtFor_onRunner V hf hbr)
  have hnet : ∀ {y : ι} {k : Nat}, BuiltFor V s.sup y k → y ≠ x → PortClosed s.sup k →
      PortClosed (s.sup.onRunner r f) k := by
    intro y k hyk hyx hk R hR
    have hrk : r ≠ k := fun e => hyx (builtFor_unique hyk (e ▸ hbr))
    rw [onRunner_heap, Option.map_eq_some_iff] at hR
    obtain ⟨R₀, hR₀, rfl⟩ := hR
    rw [if_neg hrk]
    exact hk R₀ hR₀
  refine h.move hi hc ?_ hphase ?_ ?_ ?_
  · exact fun y k hk => builtFor_onRunner V hf (h.built y k hk)
  · intro j d hj hd
    have hph := h.phase j d hd
    cases d with
    | applyStop m old begun =>
      exact ⟨hph.1, builtFor_onRunner V hf hph.2.1,
        fun hbg => hnet hph.2.1 (hother hd rfl rfl) (hph.2.2 hbg)⟩
    | removeStop mid k begun =>
      exact ⟨builtFor_onRunner V hf hph.1,
        fun hbg => hnet hph.1 (hother hd rfl rfl) (hph.2 hbg)⟩
    | _ => exact hph
  · intro y j hl
    rcases liveAt_onRunner hl with rfl | hl₀
    · exact Or.inl (hx hl ▸ hreg)
    · rcases h.owned y j hl₀ with hr | ⟨k, d, hd, hdm, hp⟩
      · exact Or.inl hr
      · refine Or.inr (Or.inr ⟨k, d, fun e => ?_, hd, hdm, hp⟩)
        subst e
        rw [hi, Option.some.injEq] at hd
        subst hd
        simp [hpop] at hp
  · intro y j j' hl hl'
    rcases liveAt_onRunner hl with rfl | hl₀ <;> rcases liveAt_onRunner hl' with rfl | hl₀'
    · rfl
    · exact (honly j' (hx hl ▸ hl₀')).symm
    · exact honly j (hx hl' ▸ hl₀)
    · exact h.unique y j j' hl₀ hl₀'

section
variable [DecidableEq ι]

/-- Taking the registered runner of `x` out of `_runners`: an apply's or a remove's first
    piece.  The call that took it out owns it from now on. -/
theorem Inv.pop {V : View ι μ} {s : State ι μ} (h : Inv V s) {i : Nat} {c c' : Call ι μ}
    {x : ι} {sup : Sup ι μ} (hi : s.calls[i]? = some c) (hc : Becomes V c c')
    (hheap : sup.heap = s.sup.heap) (hreg : sup.runners = Function.update s.sup.runners x none)
    (hkind : c.builds = true ∨ c.removes = true) (hm : c.mid V = some x)
    (hpop : c.popped = none) (hphase : PhaseOk V sup c')
    (hown : ∀ r, s.sup.runners x = some r → c'.mid V = some x ∧ c'.popped = some r) :
    Inv V ⟨sup, s.calls.set i c'⟩ := by
  have hlive : ∀ {y r}, LiveAt V sup y r ↔ LiveAt V s.sup y r := by
    intro y r
    simp only [LiveAt, hheap]
  have hbuilt : ∀ {y r}, BuiltFor V sup y r ↔ BuiltFor V s.sup y r := by
    intro y r
    simp only [BuiltFor, hheap]
  have hclosed : ∀ {r}, PortClosed s.sup r → PortClosed sup r := by
    intro r hr
    simpa only [PortClosed, hheap] using hr
  have hnone : ∀ {y}, s.sup.runners y = none → sup.runners y = none := by
    intro y hy
    rw [hreg]
    by_cases hyx : y = x
    · rw [hyx, Function.update_self]
    · rw [Function.update_of_ne hyx, hy]
  -- an apply that relies on its registration works on another id
  have hkeep : ∀ {j d m r}, j ≠ i → s.calls[j]? = some d → d.builds = true →
      d.mid V = some (V.id m) → s.sup.runners (V.id m) = some r →
      sup.runners (V.id m) = some r := by
    intro j d m r hj hd hb hdm hr
    have hne : V.id m ≠ x := by
      intro e
      refine h.mid_ne hi hd hj hm ?_ (e ▸ hdm)
      rcases hkind with hk | hk
      · exact Or.inl ⟨hk, Or.inl hb⟩
      · exact Or.inr ⟨hk, hb⟩
    rw [hreg, Function.update_of_ne hne, hr]
  refine h.move hi hc ?_ hphase ?_ ?_ ?_
  · intro y r hr
    rw [hreg] at hr
    by_cases hyx : y = x
    · subst hyx
      simp at hr
    · rw [Function.update_of_ne hyx] at hr
      exact hbuilt.mpr (h.built y r hr)
  · intro j d hj hd
    have hph := h.phase j d hd
    cases d with
    | applyStop m old begun =>
      exact ⟨hnone hph.1, hbuilt.mpr hph.2.1, fun hb => hclosed (hph.2.2 hb)⟩
    | applyBuild m => exact hnone hph
    | applyStart m r => exact hkeep hj hd rfl rfl hph
    | applyStarting m r => exact hkeep hj hd rfl rfl hph
    | applyFailed m r begun => exact hkeep hj hd rfl rfl hph
    | removeStop mid r begun => exact ⟨hbuilt.mpr hph.1, fun hb => hclosed (hph.2 hb)⟩
    | _ => trivial
  · intro y r hl
    rcases h.owned y r (hlive.mp hl) with hr | ⟨j, d, hd, hdm, hp⟩
    · by_cases hyx : y = x
      · subst hyx
        exact Or.inr (Or.inl (hown r hr))
      · exact Or.inl (by rw [hreg, Function.update_of_ne hyx, hr])
    · refine Or.inr (Or.inr ⟨j, d, fun e => ?_, hd, hdm, hp⟩)
      subst e
      rw [hi, Option.some.injEq] at hd
      subst hd
      simp [hpop] at hp
  · exact fun y r r' hr hr' => h.unique y r r' (hlive.mp hr) (hlive.mp hr')

theorem build_heap_lt (V : View ι μ) {s : Sup ι μ} (m : μ) {r : Nat} (hr : r < s.heap.length) :
    (s.build V m).heap[r]? = s.heap[r]? := by
  simp only [Sup.build]
  exact List.getElem?_append_left hr

theorem builtFor_build (V : View ι μ) {s : Sup ι μ} (m : μ) {x : ι} {r : Nat}
    (h : BuiltFor V s x r) : BuiltFor V (s.build V m) x r := by
  have hlt := lt_of_builtFor h
  obtain ⟨R, hR, hx⟩ := h
  exact ⟨R, by rw [build_heap_lt V m hlt]; exact hR, hx⟩

/-- A new runner is not live. -/
theorem liveAt_build {V : View ι μ} {s : Sup ι μ} {m : μ} {x : ι} {r : Nat}
    (h : LiveAt V (s.build V m) x r) : LiveAt V s x r := by
  obtain ⟨R, hR, hx, hl⟩ := h
  by_cases hlt : r < s.heap.length
  · rw [build_heap_lt V m hlt] at hR
    exact ⟨R, hR, hx, hl⟩
  · simp only [Sup.build] at hR
    rw [List.getElem?_append_right (Nat.le_of_not_lt hlt), List.getElem?_singleton] at hR
    split at hR
    · rw [Option.some.injEq] at hR
      subst hR
      simp [Runner.make, Runner.live] at hl
    · exact absurd hR (by simp)

/-- An apply builds and registers its runner: no runner of the id is live then. -/
theorem Inv.build {V : View ι μ} {s : State ι μ} (h : Inv V s) {i : Nat} {m : μ}
    (hi : s.calls[i]? = some (.applyBuild m)) :
    Inv V ⟨s.sup.build V m, s.calls.set i (.applyStart m s.sup.heap.length)⟩ := by
  have hnone : s.sup.runners (V.id m) = none := h.phase i _ hi
  have hupd : ∀ {y}, y ≠ V.id m → (s.sup.build V m).runners y = s.sup.runners y := by
    intro y hy
    -- another call that builds or removes works on another mapping
    simp only [Sup.build, Function.update_of_ne hy]
  have hself : (s.sup.build V m).runners (V.id m) = some s.sup.heap.length := by
    simp only [Sup.build, Function.update_self]
  have hother : ∀ {j d}, j ≠ i → s.calls[j]? = some d →
      (d.builds = true ∨ d.removes = true) → d.mid V ≠ some (V.id m) := fun hj hd hk =>
    h.mid_ne hi hd hj rfl (Or.inl ⟨rfl, hk⟩)
  have hclosed : ∀ {y r}, BuiltFor V s.sup y r → PortClosed s.sup r →
      PortClosed (s.sup.build V m) r := by
    intro y r hb hr R hR
    rw [build_heap_lt V m (lt_of_builtFor hb)] at hR
    exact hr R hR
  -- the new runner is registered under its own mapping, all others stay where they are
  refine h.move hi (Or.inr ⟨rfl, rfl, rfl⟩) ?_ hself ?_ ?_ ?_
  · intro y r hr
    by_cases hy : y = V.id m
    · subst hy
      rw [hself, Option.some.injEq] at hr
      subst hr
      exact ⟨Runner.make m, by simp [Sup.build], rfl⟩
    · rw [hupd hy] at hr
      exact builtFor_build V m (h.built y r hr)
  · intro j d hj hd
    have hph := h.phase j d hd
    have hne : ∀ {m'}, d.builds = true → d.mid V = some (V.id m') → V.id m' ≠ V.id m :=
      fun hb hm e => hother hj hd (Or.inl hb) (e ▸ hm)
    cases d with
    | applyStop m' old begun =>
      exact ⟨(hupd (hne rfl rfl)).trans hph.1, builtFor_build V m hph.2.1,
        fun hb => hclosed hph.2.1 (hph.2.2 hb)⟩
    | applyBuild m' => exact (hupd (hne rfl rfl)).trans hph
    | applyStart m' r => exact (hupd (hne rfl rfl)).trans hph
    | applyStarting m' r => exact (hupd (hne rfl rfl)).trans hph
    | applyFailed m' r begun => exact (hupd (hne rfl rfl)).trans hph
    | removeStop mid r begun =>
      exact ⟨builtFor_build V m hph.1, fun hb => hclosed hph.1 (hph.2 hb)⟩
    | _ => trivial
  -- the new runner has no port yet, so whatever is live was live before
  · intro y r hl
    rcases h.owned y r (liveAt_build hl) with hr | ⟨j, d, hd, hdm, hp⟩
    · have hy : y ≠ V.id m := fun e => by rw [e, hnone] at hr; exact absurd hr (by simp)
      exact Or.inl ((hupd hy).trans hr)
    · refine Or.inr (Or.inr ⟨j, d, fun e => ?_, hd, hdm, hp⟩)
      subst e
      rw [hi, Option.some.injEq] at hd
      subst hd
      simp [Call.popped] at hp
  · exact fun y r r' hr hr' => h.unique y r r' (liveAt_build hr) (liveAt_build hr')

/-- **Resume lemma.**  Whatever operation goes on, the invariant is kept. -/
theorem inv_advance {V : View ι μ} {s : State ι μ} (h : Inv V s) {i : Nat} {c : Call ι μ}
    (startOk : Bool) (hi : s.calls[i]? = some c) :
    Inv V ⟨(advance V s.sup startOk c).1, s.calls.set i (advance V s.sup startOk c).2⟩ := by
  have hph := h.phase i c hi
  -- a call goes on as itself when its mapping, what it builds and what it removes stay
  have same : ∀ {c'}, c'.mid V = c.mid V ∧ c'.builds = c.builds ∧ c'.removes = c.removes →
      Becomes V c c' := Or.inr
  cases c with
  | apply m =>
    simp only [advance]
    cases hr : s.sup.runners (V.id m) with
    | some old =>
      refine h.pop hi (same ⟨rfl, rfl, rfl⟩) rfl rfl (Or.inl rfl) rfl rfl ?_ ?_
      · exact ⟨by simp [Sup.pop], h.built _ _ hr, by simp⟩
      · intro r hr'
        rw [hr] at hr'
        exact ⟨rfl, hr'⟩
    | none =>
      refine h.pop hi (same ⟨rfl, rfl, rfl⟩) rfl rfl (Or.inl rfl) rfl rfl ?_ ?_
      · simp [PhaseOk, Sup.pop]
      · intro r hr'
        rw [hr] at hr'
        exact absurd hr' (by simp)
  | applyStop m old begun =>
    -- the runner is out of the registry and still owned by this call until its stop returns
    refine h.stopping hi (same ⟨rfl, rfl, rfl⟩) (same ⟨rfl, rfl, rfl⟩) ?_ hph.1 ?_ ?_
    · exact ⟨hph.1, builtFor_onRunner V (fun R => (lowers_stopBegin R).1) hph.2.1,
        fun _ => portClosed_stopBegin s.sup old⟩
    · intro r' hr'
      exact ⟨rfl, hr'⟩
    · intro hb r' hr'
      rw [Call.popped, Option.some.injEq] at hr'
      exact ⟨hr'.symm, hph.2.2 hb⟩
  | applyBuild m => exact h.build hi
  | applyStart m r =>
    simp only [advance]
    split
    · exact h.starting hi (same ⟨rfl, rfl, rfl⟩) (fun _ => rfl) rfl rfl rfl hph hph
    · exact h.stay hi (Or.inl rfl) trivial rfl
  | applyStarting m r =>
    simp only [advance]
    split
    · exact h.starting hi (Or.inl rfl) (fun _ => rfl) rfl rfl rfl hph trivial
    · exact h.stay hi (same ⟨rfl, rfl, rfl⟩) hph rfl
  | applyFailed m r begun =>
    exact h.stopping hi (same ⟨rfl, rfl, rfl⟩) (Or.inl rfl) hph trivial (by simp [Call.popped])
      (by simp [Call.popped])
  | stop mid =>
    simp only [advance]
    split
    · exact h.stay hi (same ⟨rfl, rfl, rfl⟩) trivial rfl
    · exact h.stay hi (Or.inl rfl) trivial rfl
  | stopStop mid r begun =>
    exact h.stopping hi (same ⟨rfl, rfl, rfl⟩) (Or.inl rfl) trivial trivial
      (by simp [Call.popped]) (by simp [Call.popped])
  | restart m =>
    simp only [advance]
    split
    · exact h.stay hi (same ⟨rfl, rfl, rfl⟩) trivial rfl
    · exact h.stay hi (same ⟨rfl, rfl, rfl⟩) trivial rfl
  | restartStop m r begun =>
    exact h.stopping hi (same ⟨rfl, rfl, rfl⟩) (same ⟨rfl, rfl, rfl⟩) trivial trivial
      (by simp [Call.popped]) (by simp [Call.popped])
  | remove mid =>
    simp only [advance]
    cases hr : s.sup.runners mid with
    | some r =>
      refine h.pop hi (same ⟨rfl, rfl, rfl⟩) rfl rfl (Or.inr rfl) rfl rfl ?_ ?_
      · exact ⟨h.built _ _ hr, by simp⟩
      · intro r' hr'
        rw [hr] at hr'
        exact ⟨rfl, hr'⟩
    | none =>
      refine h.pop hi (Or.inl rfl) rfl rfl (Or.inr rfl) rfl rfl trivial ?_
      intro r' hr'
      rw [hr] at hr'
      exact absurd hr' (by simp)
  | removeStop mid r begun =>
    refine h.stopping hi (same ⟨rfl, rfl, rfl⟩) (Or.inl rfl) ?_ trivial ?_ ?_
    · exact ⟨builtFor_onRunner V (fun R => (lowers_stopBegin R).1) hph.1,
        fun _ => portClosed_stopBegin s.sup r⟩
    · intro r' hr'
      exact ⟨rfl, hr'⟩
    · intro hb r' hr'
      rw [Call.popped, Option.some.injEq] at hr'
      exact ⟨hr'.symm, hph.2 hb⟩
  | done => exact h.stay hi (Or.inl rfl) trivial rfl

end

/-- A call that does not overlap joins the operations under way. -/
theorem inv_request {V : View ι μ} {s : State ι μ} (h : Inv V s) {q : Request ι μ}
    (hno : NoOverlap V s (.request q)) : Inv V { s with calls := s.calls ++ [q.call] } := by
  -- the new call is the last one, all others keep their place
  have hread : ∀ {j : Nat} {d : Call ι μ}, (s.calls ++ [q.call])[j]? = some d →
      s.calls[j]? = some d ∨ (j = s.calls.length ∧ d = q.call) := by
    intro j d hd
    by_cases hj : j < s.calls.length
    · rw [List.getElem?_append_left hj] at hd
      exact Or.inl hd
    · rw [List.getElem?_append_right (Nat.le_of_not_lt hj), List.getElem?_singleton] at hd
      split at hd
      · rename_i hz
        rw [Option.some.injEq] at hd
        exact Or.inr ⟨by omega, hd.symm⟩
      · exact absurd hd (by simp)
  refine ⟨h.built, ?_, ?_, ?_, h.unique⟩
  · intro j k c d hc hd hmid hb hbr
    rcases hread hc with hc' | ⟨rfl, rfl⟩ <;> rcases hread hd with hd' | ⟨rfl, rfl⟩
    · exact h.alone j k c d hc' hd' hmid hb hbr
    -- the guard: no other call about this mapping is under way
    · have hov := hno c (List.mem_of_getElem? hc') hmid
      rcases hbr with hq | hq
      · exact absurd hb (by simp [(hov.1 hq).1])
      · exact absurd hb (by simp [hov.2 hq])
    · have hov := (hno d (List.mem_of_getElem? hd') hmid.symm).1 hb
      rcases hbr with hq | hq
      · exact absurd hq (by simp [hov.1])
      · exact absurd hq (by simp [hov.2])
    · rfl
  · intro j d hd
    rcases hread hd with hd' | ⟨rfl, rfl⟩
    · exact h.phase j d hd'
    · cases q <;> trivial
  · intro x r hl
    rcases h.owned x r hl with hr | ⟨j, d, hd, hm, hp⟩
    · exact Or.inl hr
    · have hlt := (List.getElem?_eq_some_iff.mp hd).1
      exact Or.inr ⟨j, d, by rw [List.getElem?_append_left hlt]; exact hd, hm, hp⟩

/-- **Step lemma.** -/
theorem inv_step [DecidableEq ι] (V : View ι μ) (s : State ι μ) (e : Event ι μ) (s' : State ι μ)
    (h : Inv V s) (hno : NoOverlap V s e) (hstep : step V s e = some s') : Inv V s' := by
  cases e with
  | request q =>
    simp only [step, Option.some.injEq] at hstep
    exact hstep ▸ inv_request h hno
  | resume i startOk =>
    simp only [step, Option.map_eq_some_iff] at hstep
    obtain ⟨c, hc, rfl⟩ := hstep
    exact inv_advance h startOk hc

/-! ### Whole runs -/

/-- **One runner per mapping.**  In every run in which the apply, restart and remove calls
    of an id do not overlap, at every moment at most one runner of the id is live, and at
    rest every live runner is the one registered under its id. -/
theorem live_unique_and_registered [DecidableEq ι] (V : View ι μ) (es : List (Event ι μ))
    (s : State ι μ) (hno : Along (step V) (NoOverlap V) State.init es)
    (hrun : run (step V) State.init es = some s) (x : ι) :
    (∀ r r', LiveAt V s.sup x r → LiveAt V s.sup x r' → r = r') ∧
      (s.AtRest → ∀ r, LiveAt V s.sup x r → s.sup.runners x = some r) := by
  have h : Inv V s := run_invariant (Inv V) (inv_step V) (inv_init V) hno hrun
  refine ⟨h.unique x, fun hrest r hl => ?_⟩
  rcases h.owned x r hl with hr | ⟨i, c, hi, -, hp⟩
  · exact hr
  · rw [hrest c (List.mem_of_getElem? hi)] at hp
    exact absurd hp (by simp [Call.popped])

/-- A mapping given by its id, its enabled flag and its TCP port. -/
def portView : View String (String × Bool × Nat) := ⟨fun m => m.1, fun m => m.2.1⟩

/-- A mapping is started; then a stop and an edit to another port overlap. -/
theorem live_unique_and_registered_edit :
    ∃ s, run (step portView) State.init
        [.request (.applyMapping ("m", true, 4001)), .resume 0 true, .resume 0 true,
          .resume 0 true, .resume 0 true, .request (.stopMapping "m"),
          .request (.applyMapping ("m", true, 4002)), .resume 1 true, .resume 2 true] = some s ∧
      (∀ r r', LiveAt portView s.sup "m" r → LiveAt portView s.sup "m" r' → r = r') ∧
      (s.AtRest → ∀ r, LiveAt portView s.sup "m" r → s.sup.runners "m" = some r) := by
  refine ⟨_, rfl, live_unique_and_registered portView
    [.request (.applyMapping ("m", true, 4001)), .resume 0 true, .resume 0 true,
      .resume 0 true, .resume 0 true, .request (.stopMapping "m"),
      .request (.applyMapping ("m", true, 4002)), .resume 1 true, .resume 2 true] _ ?_ rfl "m"⟩
  simp [Along, NoOverlap, step, State.init, Sup.init, Request.call, advance, Call.mid,
    Call.builds, Call.removes, portView, Sup.pop, Sup.build]

/-- Two saves of one mapping overlap: the first takes the running runner out and waits for
    it to stop, the second finds none, starts its own, and is then replaced in `_runners`
    by the first one's.  At rest both new runners are live and only one is registered. -/
theorem overlapping_applies_orphan :
    ∃ s, run (step portView) State.init
        [.request (.applyMapping ("m", true, 4001)), .resume 0 true, .resume 0 true,
          .resume 0 true, .resume 0 true,
          .request (.applyMapping ("m", true, 4002)), .resume 1 true, .resume 1 true,
          .request (.applyMapping ("m", true, 4003)), .resume 2 true, .resume 2 true,
          .resume 2 true, .resume 2 true,
          .resume 1 true, .resume 1 true, .resume 1 true, .resume 1 true] = some s ∧
      s.AtRest ∧ LiveAt portView s.sup "m" 1 ∧ LiveAt portView s.sup "m" 2 ∧
      s.sup.runners "m" = some 2 := by
  refine ⟨_, rfl, ?_, ?_, ?_, ?_⟩
  · decide
  · exact ⟨_, rfl, rfl, rfl⟩
  · exact ⟨_, rfl, rfl, rfl⟩
  · decide

end Ser2Net.Engine.Supervisor
