import Ser2Net.Engine.Supervisor

namespace Ser2Net.Engine.Supervisor

/-!
# Engine — one supervisor operation at a time

What an operation of the supervisor leaves behind for its mapping id when no other operation
of that id interferes.  `want` is the mapping that should be running under the id, if any.

* `Settled` — the only live runner of the id is the registered one and runs `want`;
* `CallOk` — what holds for the id while an operation stands where it does, `Settled` being
  the case of an operation that is done;
* `callOk_advance` — every piece of an operation keeps it (a start that is attempted
  succeeds);
* `SameAt`, `advance_sameAt`, `callOk_frame` — an operation of another id changes nothing;
* `startAll` — the runners of a configuration at start-up, and `settled_startAll`.
-/

variable {ι μ : Type}

/-- Registered runners are filed under their own id. -/
def Filed (V : View ι μ) (s : Sup ι μ) : Prop :=
  ∀ x r, s.runners x = some r → BuiltFor V s x r

/-- Every live runner of the id can be reached through `_runners`. -/
def Reach (V : View ι μ) (s : Sup ι μ) (x : ι) : Prop :=
  ∀ r, LiveAt V s x r → s.runners x = some r

/-- No runner of the id is live. -/
def NoLive (V : View ι μ) (s : Sup ι μ) (x : ι) : Prop := ∀ r, ¬ LiveAt V s x r

/-- Runner `r` of the id is being stopped, and no other is live. -/
structure Stopping (V : View ι μ) (s : Sup ι μ) (x : ι) (r : Nat) (begun : Bool) : Prop where
  built : BuiltFor V s x r
  only : ∀ r', LiveAt V s x r' → r' = r
  closed : begun = true → PortClosed s r

/-- The live runners of the id are exactly what `want` asks for: one that is registered and
    was built from `want`, or none. -/
structure Settled (V : View ι μ) (s : Sup ι μ) (x : ι) (want : Option μ) : Prop where
  runs : ∀ r R, s.heap[r]? = some R → V.id R.mapping = x → R.live = true →
    s.runners x = some r ∧ want = some R.mapping
  running : want.isSome = true → ∃ r, LiveAt V s x r

/-- What the supervisor should run for a mapping. -/
def wanted (V : View ι μ) (m : μ) : Option μ := if V.enabled m then some m else none

/-- Runner `r` is the registered one and was built from `m`. -/
def Registered (V : View ι μ) (s : Sup ι μ) (r : Nat) (m : μ) : Prop :=
  s.runners (V.id m) = some r ∧ ∃ R, s.heap[r]? = some R ∧ R.mapping = m

/-- What holds for the id `x` while an operation on it stands where it does. -/
def CallOk (V : View ι μ) (s : Sup ι μ) (x : ι) (want : Option μ) : Call ι μ → Prop
  | .apply m | .restart m => V.id m = x ∧ want = wanted V m ∧ Reach V s x
  | .applyStop m r begun | .restartStop m r begun =>
    V.id m = x ∧ want = wanted V m ∧ Stopping V s x r begun
  | .applyBuild m => V.id m = x ∧ want = wanted V m ∧ NoLive V s x
  | .applyStart m r => V.id m = x ∧ want = wanted V m ∧ Registered V s r m ∧ NoLive V s x
  | .applyStarting m r =>
    V.id m = x ∧ want = some m ∧ Registered V s r m ∧ ∀ r', LiveAt V s x r' → r' = r
  | .applyFailed _ _ _ => False
  | .stop mid | .remove mid => mid = x ∧ want = none ∧ Reach V s x
  | .stopStop mid r begun | .removeStop mid r begun =>
    mid = x ∧ want = none ∧ Stopping V s x r begun
  | .done => Settled V s x want

/-! ### From one stage to the next -/

/-- Without live runners every live runner is reached. -/
theorem NoLive.reach {V : View ι μ} {s : Sup ι μ} {x : ι} (h : NoLive V s x) : Reach V s x :=
  fun r hr => absurd hr (h r)

/-- Without live runners nothing is wanted. -/
theorem NoLive.settled {V : View ι μ} {s : Sup ι μ} {x : ι} (h : NoLive V s x) :
    Settled V s x none :=
  ⟨fun r R hR hx hl => absurd ⟨R, hR, hx, hl⟩ (h r), fun hn => absurd hn (by simp)⟩

/-- Where the wanted runner is live, it is reached. -/
theorem Settled.reach {V : View ι μ} {s : Sup ι μ} {x : ι} {want : Option μ}
    (h : Settled V s x want) : Reach V s x :=
  fun r ⟨R, hR, hx, hl⟩ => (h.runs r R hR hx hl).1

/-- Where nothing is wanted, nothing is live. -/
theorem Settled.noLive {V : View ι μ} {s : Sup ι μ} {x : ι} (h : Settled V s x none) :
    NoLive V s x :=
  fun r ⟨R, hR, hx, hl⟩ => absurd (h.runs r R hR hx hl).2 (by simp)

/-- With nothing registered, nothing is live. -/
theorem Reach.noLive {V : View ι μ} {s : Sup ι μ} {x : ι} (h : Reach V s x)
    (hnone : s.runners x = none) : NoLive V s x := by
  intro r hr
  have := h r hr
  rw [hnone] at this
  exact absurd this (by simp)

/-- The registered runner is the one to stop. -/
theorem Reach.stopping {V : View ι μ} {s s' : Sup ι μ} {x : ι} {r : Nat} (h : Reach V s x)
    (hb : BuiltFor V s x r) (hr : s.runners x = some r) (hheap : s'.heap = s.heap) :
    Stopping V s' x r false := by
  refine ⟨by simpa only [BuiltFor, hheap] using hb, ?_, by simp⟩
  intro r' hl
  have hl : LiveAt V s x r' := by simpa only [LiveAt, hheap] using hl
  exact Option.some.inj ((h r' hl).symm.trans hr)

/-- The first part of `stop`. -/
theorem Stopping.begin {V : View ι μ} {s : Sup ι μ} {x : ι} {r : Nat} {begun : Bool}
    (h : Stopping V s x r begun) : Stopping V (s.onRunner r Runner.stopBegin) x r true where
  built := builtFor_onRunner V (fun R => (lowers_stopBegin R).1) h.built
  only := fun r' hl => h.only r' (liveAt_of_lowers lowers_stopBegin hl)
  closed := fun _ => portClosed_stopBegin s r

/-- The second part of `stop` leaves nothing live. -/
theorem Stopping.finish {V : View ι μ} {s : Sup ι μ} {x : ι} {r : Nat}
    (h : Stopping V s x r true) : NoLive V (s.onRunner r Runner.stopEnd) x := by
  intro r' hl
  obtain rfl := h.only r' (liveAt_of_lowers lowers_stopEnd hl)
  exact not_liveAt_stopEnd (h.closed rfl) x hl

/-- An awaited `stop`: whatever stage it has reached, the call goes on as it should. -/
theorem callOk_stopping {V : View ι μ} {s : Sup ι μ} {x : ι} {want : Option μ} {r : Nat}
    {begun : Bool} {again k : Call ι μ} (h : Stopping V s x r begun)
    (hagain : ∀ s', Stopping V s' x r true → CallOk V s' x want again)
    (hk : ∀ s', NoLive V s' x → CallOk V s' x want k) :
    CallOk V (stopping s r begun again k).1 x want (stopping s r begun again k).2 := by
  unfold stopping
  cases begun with
  | false => exact hagain _ h.begin
  | true => exact hk _ h.finish

/-- A piece of `start` on the registered runner: only that one can become live. -/
theorem only_onRunner {V : View ι μ} {s : Sup ι μ} {x : ι} {r : Nat} {f : Runner μ → Runner μ}
    (h : ∀ r', LiveAt V s x r' → r' = r) : ∀ r', LiveAt V (s.onRunner r f) x r' → r' = r := by
  intro r' hl
  rcases liveAt_onRunner hl with rfl | hl
  · rfl
  · exact h r' hl

/-- A piece of a runner's method leaves it registered. -/
theorem Registered.onRunner {V : View ι μ} {s : Sup ι μ} {r : Nat} {m : μ}
    {f : Runner μ → Runner μ} (h : Registered V s r m) (hf : ∀ R, (f R).mapping = R.mapping) :
    Registered V (s.onRunner r f) r m := by
  obtain ⟨hr, R, hR, hm⟩ := h
  exact ⟨hr, f R, by rw [onRunner_heap, hR]; simp, by rw [hf, hm]⟩

/-- The end of `start`: the registered runner is live and runs its mapping. -/
theorem settled_startEnd {V : View ι μ} {s : Sup ι μ} {x : ι} {r : Nat} {m : μ}
    (hx : V.id m = x) (hreg : Registered V s r m) (honly : ∀ r', LiveAt V s x r' → r' = r) :
    Settled V (s.onRunner r Runner.startEnd) x (some m) := by
  have hreg' := hreg.onRunner (f := Runner.startEnd) (fun _ => rfl)
  constructor
  · intro r' R hR hid hl
    obtain rfl := only_onRunner honly r' ⟨R, hR, hid, hl⟩
    obtain ⟨hr, R', hR', hm⟩ := hreg'
    rw [hR, Option.some.injEq] at hR'
    subst hR'
    exact ⟨hx ▸ hr, by rw [hm]⟩
  · intro _
    obtain ⟨-, R, hR, hm⟩ := hreg
    refine ⟨r, R.startEnd, by rw [onRunner_heap, hR]; simp, ?_, by simp [Runner.live, Runner.startEnd]⟩
    show V.id R.mapping = x
    rw [hm, hx]

section
variable [DecidableEq ι]

/-- A new runner is the registered one. -/
theorem registered_build (V : View ι μ) (s : Sup ι μ) (m : μ) :
    Registered V (s.build V m) s.heap.length m :=
  ⟨by simp [Sup.build], Runner.make m, by simp [Sup.build], rfl⟩

/-- **Advance lemma.**  Every piece of an operation whose start succeeds keeps what holds
    for its id. -/
theorem callOk_advance {V : View ι μ} {s : Sup ι μ} {x : ι} {want : Option μ} {c : Call ι μ}
    (hfiled : Filed V s) (h : CallOk V s x want c) :
    CallOk V (advance V s true c).1 x want (advance V s true c).2 := by
  cases c with
  | apply m =>
    obtain ⟨rfl, hw, hreach⟩ := h
    simp only [advance]
    cases hr : s.runners (V.id m) with
    | some old => exact ⟨rfl, hw, hreach.stopping (hfiled _ _ hr) hr rfl⟩
    | none => exact ⟨rfl, hw, hreach.noLive hr⟩
  | applyStop m old begun =>
    obtain ⟨hx, hw, hstop⟩ := h
    exact callOk_stopping hstop (fun _ hs => ⟨hx, hw, hs⟩) (fun _ hn => ⟨hx, hw, hn⟩)
  | applyBuild m =>
    obtain ⟨rfl, hw, hnone⟩ := h
    exact ⟨rfl, hw, registered_build V s m, fun r hl => hnone r (liveAt_build hl)⟩
  | applyStart m r =>
    obtain ⟨hx, hw, hreg, hnone⟩ := h
    simp only [advance]
    split
    · next hen =>
      -- an enabled mapping is to run, a disabled one to be absent
      rw [wanted, if_pos hen] at hw
      refine ⟨hx, hw, hreg.onRunner (fun _ => rfl), ?_⟩
      exact only_onRunner fun r' hl => absurd hl (hnone r')
    · next hen =>
      rw [wanted, if_neg hen] at hw
      exact hw ▸ hnone.settled
  | applyStarting m r =>
    obtain ⟨hx, rfl, hreg, honly⟩ := h
    exact settled_startEnd hx hreg honly
  | applyFailed m r begun => exact absurd h id
  | stop mid =>
    obtain ⟨rfl, hw, hreach⟩ := h
    simp only [advance]
    cases hr : s.runners mid with
    | some r => exact ⟨rfl, hw, hreach.stopping (hfiled _ _ hr) hr rfl⟩
    | none => exact hw ▸ (hreach.noLive hr).settled
  | stopStop mid r begun =>
    obtain ⟨hx, hw, hstop⟩ := h
    exact callOk_stopping hstop (fun _ hs => ⟨hx, hw, hs⟩) (fun _ hn => hw ▸ hn.settled)
  | restart m =>
    obtain ⟨rfl, hw, hreach⟩ := h
    simp only [advance]
    cases hr : s.runners (V.id m) with
    | some r => exact ⟨rfl, hw, hreach.stopping (hfiled _ _ hr) hr rfl⟩
    | none => exact ⟨rfl, hw, hreach⟩
  | restartStop m r begun =>
    obtain ⟨hx, hw, hstop⟩ := h
    exact callOk_stopping hstop (fun _ hs => ⟨hx, hw, hs⟩) (fun _ hn => ⟨hx, hw, hn.reach⟩)
  | remove mid =>
    obtain ⟨rfl, hw, hreach⟩ := h
    simp only [advance]
    cases hr : s.runners mid with
    | some r => exact ⟨rfl, hw, hreach.stopping (hfiled _ _ hr) hr rfl⟩
    | none =>
      have hnone : NoLive V s mid := hreach.noLive hr
      have : Settled V { s.pop mid with order := s.order.erase mid } mid none :=
        NoLive.settled (fun r hl => hnone r hl)
      exact hw ▸ this
  | removeStop mid r begun =>
    obtain ⟨hx, hw, hstop⟩ := h
    exact callOk_stopping hstop (fun _ hs => ⟨hx, hw, hs⟩) (fun _ hn => hw ▸ hn.settled)
  | done => exact h

end

/-- The id of an operation under way is the one its facts are about. -/
theorem CallOk.mid {V : View ι μ} {s : Sup ι μ} {x : ι} {want : Option μ} {c : Call ι μ}
    (h : CallOk V s x want c) : c = .done ∨ c.mid V = some x := by
  cases c with
  | applyFailed m r begun => exact absurd h id
  | done => exact Or.inl rfl
  | _ => exact Or.inr (congrArg some h.1)

/-! ### Other ids -/

/-- Nothing about the id `y` differs between the two supervisors: neither its registration
    nor the runners built for it. -/
structure SameAt (V : View ι μ) (y : ι) (s s' : Sup ι μ) : Prop where
  runners : s'.runners y = s.runners y
  heap : ∀ (r : Nat) (R : Runner μ), V.id R.mapping = y → (s'.heap[r]? = some R ↔ s.heap[r]? = some R)

/-- Nothing has happened. -/
theorem SameAt.refl (V : View ι μ) (y : ι) (s : Sup ι μ) : SameAt V y s s :=
  ⟨rfl, fun _ _ _ => Iff.rfl⟩

/-- One thing after another. -/
theorem SameAt.trans {V : View ι μ} {y : ι} {s s' s'' : Sup ι μ} (h : SameAt V y s s')
    (h' : SameAt V y s' s'') : SameAt V y s s'' :=
  ⟨h'.runners.trans h.runners, fun r R hy => (h'.heap r R hy).trans (h.heap r R hy)⟩

/-- A piece of a method of a runner of another id. -/
theorem sameAt_onRunner {V : View ι μ} {s : Sup ι μ} {x y : ι} {r : Nat}
    {f : Runner μ → Runner μ} (hf : ∀ R, (f R).mapping = R.mapping) (hb : BuiltFor V s x r)
    (hxy : x ≠ y) : SameAt V y s (s.onRunner r f) := by
  refine ⟨rfl, fun j R hy => ?_⟩
  obtain ⟨R₀, hR₀, hx⟩ := hb
  rw [onRunner_heap]
  by_cases hj : r = j
  · -- the runner at `r` is of id `x` before and after, so it is not `R`
    subst hj
    rw [hR₀, Option.map_some, if_pos rfl]
    constructor
    · intro h
      rw [Option.some.injEq] at h
      exact absurd (hx.symm.trans (by rw [← hf R₀, h]; exact hy)) hxy
    · intro h
      rw [Option.some.injEq] at h
      exact absurd (hx.symm.trans (by rw [h]; exact hy)) hxy
  · simp [hj]

/-- A stop is about the id of its runner. -/
theorem sameAt_stopping {V : View ι μ} {s : Sup ι μ} {x y : ι} {r : Nat} {begun : Bool}
    {again k : Call ι μ} (hb : BuiltFor V s x r) (hxy : x ≠ y) :
    SameAt V y s (stopping s r begun again k).1 := by
  unfold stopping
  split
  · exact sameAt_onRunner (fun R => (lowers_stopEnd R).1) hb hxy
  · exact sameAt_onRunner (fun R => (lowers_stopBegin R).1) hb hxy

section
variable [DecidableEq ι]

/-- A runner is taken out under its own id. -/
theorem sameAt_pop {V : View ι μ} {s : Sup ι μ} {x y : ι} (hxy : x ≠ y) :
    SameAt V y s (s.pop x) :=
  ⟨Function.update_of_ne (Ne.symm hxy) _ _, fun _ _ _ => Iff.rfl⟩

/-- A runner is built under its own id. -/
theorem sameAt_build {V : View ι μ} {s : Sup ι μ} {m : μ} {y : ι} (hxy : V.id m ≠ y) :
    SameAt V y s (s.build V m) := by
  refine ⟨Function.update_of_ne (Ne.symm hxy) _ _, fun r R hy => ?_⟩
  by_cases hlt : r < s.heap.length
  · rw [build_heap_lt V m hlt]
  · -- the only other place is the new runner's, which is of another id
    have hnone : s.heap[r]? = none := List.getElem?_eq_none (Nat.le_of_not_lt hlt)
    rw [hnone]
    show (s.heap ++ [Runner.make m])[r]? = some R ↔ none = some R
    rw [List.getElem?_append_right (Nat.le_of_not_lt hlt), List.getElem?_singleton]
    split
    · constructor
      · intro h
        rw [Option.some.injEq] at h
        exact absurd (by rw [← h] at hy; exact hy) hxy
      · intro h
        exact absurd h (by simp)
    · exact Iff.rfl

/-- **Frame.**  An operation on `x` changes nothing about another id. -/
theorem advance_sameAt {V : View ι μ} {s : Sup ι μ} {x y : ι} {want : Option μ} {c : Call ι μ}
    (hfiled : Filed V s) (h : CallOk V s x want c)
    (hxy : x ≠ y) : SameAt V y s (advance V s true c).1 := by
  -- another mapping is touched by none of the pieces of a call
  cases c with
  | apply m =>
    obtain ⟨rfl, -⟩ := h
    simp only [advance]
    cases s.runners (V.id m) with
    | some old => exact sameAt_pop hxy
    | none => exact sameAt_pop hxy
  | applyStop m old begun => exact sameAt_stopping h.2.2.built hxy
  | applyBuild m =>
    obtain ⟨rfl, -⟩ := h
    exact sameAt_build hxy
  | applyStart m r =>
    obtain ⟨rfl, -, hreg, -⟩ := h
    simp only [advance]
    split
    · exact sameAt_onRunner (fun _ => rfl) (hfiled _ _ hreg.1) hxy
    · exact SameAt.refl V y s
  | applyStarting m r =>
    obtain ⟨rfl, -, hreg, -⟩ := h
    exact sameAt_onRunner (fun _ => rfl) (hfiled _ _ hreg.1) hxy
  -- a call about a mapping that has failed is no longer checked, so it is no call at all
  | applyFailed m r begun => exact absurd h id
  | stop mid =>
    simp only [advance]
    split <;> exact SameAt.refl V y s
  | stopStop mid r begun => exact sameAt_stopping h.2.2.built hxy
  | restart m =>
    simp only [advance]
    split <;> exact SameAt.refl V y s
  | restartStop m r begun => exact sameAt_stopping h.2.2.built hxy
  | remove mid =>
    obtain ⟨rfl, -⟩ := h
    have hpop : SameAt V y s { s.pop mid with order := s.order.erase mid } :=
      ⟨(sameAt_pop (V := V) hxy).runners, fun _ _ _ => Iff.rfl⟩
    -- leaving the order removes one id, which is not y
    simp only [advance]
    split <;> exact hpop
  | removeStop mid r begun => exact sameAt_stopping h.2.2.built hxy
  | done => exact SameAt.refl V y s

omit [DecidableEq ι] in
/-- A piece of a runner's method leaves the runners filed. -/
theorem filed_onRunner {V : View ι μ} {s : Sup ι μ} {r : Nat} {f : Runner μ → Runner μ}
    (hf : ∀ R, (f R).mapping = R.mapping) (h : Filed V s) : Filed V (s.onRunner r f) :=
  fun x j hj => builtFor_onRunner V hf (h x j hj)

omit [DecidableEq ι] in
/-- A stop leaves the runners filed. -/
theorem filed_stopping {V : View ι μ} {s : Sup ι μ} {r : Nat} {begun : Bool}
    {again k : Call ι μ} (h : Filed V s) : Filed V (stopping s r begun again k).1 := by
  unfold stopping
  split
  · exact filed_onRunner (fun R => (lowers_stopEnd R).1) h
  · exact filed_onRunner (fun R => (lowers_stopBegin R).1) h

/-- A runner that was taken out leaves the others filed. -/
theorem filed_pop {V : View ι μ} {s s' : Sup ι μ} {x : ι} (h : Filed V s)
    (hheap : s'.heap = s.heap) (hreg : s'.runners = Function.update s.runners x none) :
    Filed V s' := by
  intro y r hr
  rw [hreg] at hr
  have hy : y ≠ x := by
    rintro rfl
    simp at hr
  rw [Function.update_of_ne hy] at hr
  simpa only [BuiltFor, hheap] using h y r hr

/-- A new runner is filed under its id. -/
theorem filed_build {V : View ι μ} {s : Sup ι μ} (m : μ) (h : Filed V s) :
    Filed V (s.build V m) := by
  intro y r hr
  by_cases hy : y = V.id m
  · subst hy
    obtain ⟨hreg, R, hR, hm⟩ := registered_build V s m
    rw [hreg, Option.some.injEq] at hr
    exact ⟨R, hr ▸ hR, by rw [hm]⟩
  · have : (s.build V m).runners y = s.runners y := Function.update_of_ne hy _ _
    rw [this] at hr
    exact builtFor_build V m (h y r hr)

/-- Registered runners stay filed under their own id. -/
theorem filed_advance {V : View ι μ} {s : Sup ι μ} (startOk : Bool) (c : Call ι μ)
    (h : Filed V s) : Filed V (advance V s startOk c).1 := by
  -- runners are filed when they are built and taken off again, at no other place
  cases c with
  | apply m =>
    simp only [advance]
    split <;> exact filed_pop h rfl rfl
  | applyBuild m => exact filed_build m h
  | applyStart m r =>
    simp only [advance]
    split
    · exact filed_onRunner (fun _ => rfl) h
    · exact h
  | applyStarting m r =>
    simp only [advance]
    split
    · exact filed_onRunner (fun _ => rfl) h
    · exact h
  | stop mid =>
    simp only [advance]
    split <;> exact h
  | restart m =>
    simp only [advance]
    split <;> exact h
  | remove mid =>
    simp only [advance]
    split <;> exact filed_pop h rfl rfl
  | done => exact h
  | applyStop m r begun => exact filed_stopping h
  | applyFailed m r begun => exact filed_stopping h
  | stopStop mid r begun => exact filed_stopping h
  | restartStop m r begun => exact filed_stopping h
  | removeStop mid r begun => exact filed_stopping h

end

/-- The live runners of an id that nothing happened to. -/
theorem SameAt.liveAt {V : View ι μ} {y : ι} {s s' : Sup ι μ} (h : SameAt V y s s') (r : Nat) :
    LiveAt V s' y r ↔ LiveAt V s y r := by
  constructor
  · rintro ⟨R, hR, hy, hl⟩
    exact ⟨R, (h.heap r R hy).1 hR, hy, hl⟩
  · rintro ⟨R, hR, hy, hl⟩
    exact ⟨R, (h.heap r R hy).2 hR, hy, hl⟩

/-- They are reached as before. -/
theorem SameAt.reach {V : View ι μ} {y : ι} {s s' : Sup ι μ} (h : SameAt V y s s')
    (hr : Reach V s y) : Reach V s' y :=
  fun r hl => h.runners.trans (hr r ((h.liveAt r).1 hl))

/-- No runner of it has come to life. -/
theorem SameAt.noLive {V : View ι μ} {y : ι} {s s' : Sup ι μ} (h : SameAt V y s s')
    (hn : NoLive V s y) : NoLive V s' y :=
  fun r hl => hn r ((h.liveAt r).1 hl)

/-- An id that nothing happened to stays settled. -/
theorem SameAt.settled {V : View ι μ} {y : ι} {s s' : Sup ι μ} {want : Option μ}
    (h : SameAt V y s s') (hs : Settled V s y want) : Settled V s' y want := by
  constructor
  · intro r R hR hy hl
    obtain ⟨hr, hw⟩ := hs.runs r R ((h.heap r R hy).1 hR) hy hl
    exact ⟨h.runners.trans hr, hw⟩
  · intro hw
    obtain ⟨r, hl⟩ := hs.running hw
    exact ⟨r, (h.liveAt r).2 hl⟩

/-- A runner of it that is being stopped still is. -/
theorem SameAt.stopping {V : View ι μ} {y : ι} {s s' : Sup ι μ} {r : Nat} {begun : Bool}
    (h : SameAt V y s s') (hs : Stopping V s y r begun) : Stopping V s' y r begun := by
  obtain ⟨R, hR, hy⟩ := hs.built
  have hR' : s'.heap[r]? = some R := (h.heap r R hy).2 hR
  refine ⟨⟨R, hR', hy⟩, fun r' hl => hs.only r' ((h.liveAt r').1 hl), fun hb R' hR'' => ?_⟩
  rw [hR', Option.some.injEq] at hR''
  exact hR'' ▸ hs.closed hb R hR

/-- Its registered runner still is. -/
theorem SameAt.registered {V : View ι μ} {s s' : Sup ι μ} {r : Nat} {m : μ}
    (h : SameAt V (V.id m) s s') (hr : Registered V s r m) : Registered V s' r m := by
  obtain ⟨hreg, R, hR, hm⟩ := hr
  exact ⟨h.runners.trans hreg, R, (h.heap r R (by rw [hm])).2 hR, hm⟩

/-- The enabled flags play no part in what is being stopped. -/
theorem Stopping.congr {id : μ → ι} {enabled enabled' : μ → Bool} {s : Sup ι μ} {x : ι} {r : Nat}
    {begun : Bool} (h : Stopping ⟨id, enabled⟩ s x r begun) :
    Stopping ⟨id, enabled'⟩ s x r begun :=
  ⟨h.built, h.only, h.closed⟩

/-- The enabled flags play a part in what is settled only through `want`. -/
theorem Settled.congr {id : μ → ι} {enabled enabled' : μ → Bool} {s : Sup ι μ} {x : ι}
    {want : Option μ} (h : Settled ⟨id, enabled⟩ s x want) : Settled ⟨id, enabled'⟩ s x want :=
  ⟨h.runs, h.running⟩

/-- What holds for an id survives changes that are not about it, those of the enabled flags
    of other mappings included. -/
theorem callOk_frame {id : μ → ι} {enabled enabled' : μ → Bool} {y : ι} {s s' : Sup ι μ}
    {want : Option μ} {c : Call ι μ} (hen : ∀ m, id m = y → enabled' m = enabled m)
    (h : SameAt ⟨id, enabled⟩ y s s') (hc : CallOk ⟨id, enabled⟩ s y want c) :
    CallOk ⟨id, enabled'⟩ s' y want c := by
  have hwanted : ∀ m, id m = y → wanted ⟨id, enabled'⟩ m = wanted ⟨id, enabled⟩ m := by
    intro m hm
    simp only [wanted, hen m hm]
  -- what the call holds is spelled with runners of this mapping, which the frame keeps
  cases c with
  | apply m => exact ⟨hc.1, hc.2.1.trans (hwanted m hc.1).symm, h.reach hc.2.2⟩
  | restart m => exact ⟨hc.1, hc.2.1.trans (hwanted m hc.1).symm, h.reach hc.2.2⟩
  | applyStop m r begun => exact ⟨hc.1, hc.2.1.trans (hwanted m hc.1).symm, (h.stopping hc.2.2).congr⟩
  | restartStop m r begun => exact ⟨hc.1, hc.2.1.trans (hwanted m hc.1).symm, (h.stopping hc.2.2).congr⟩
  | applyBuild m => exact ⟨hc.1, hc.2.1.trans (hwanted m hc.1).symm, h.noLive hc.2.2⟩
  | applyStart m r =>
    obtain ⟨rfl, hw, hreg, hnone⟩ := hc
    exact ⟨rfl, hw.trans (hwanted m rfl).symm, h.registered hreg, h.noLive hnone⟩
  | applyStarting m r =>
    obtain ⟨rfl, hw, hreg, honly⟩ := hc
    exact ⟨rfl, hw, h.registered hreg, fun r' hl => honly r' ((h.liveAt r').1 hl)⟩
  | applyFailed m r begun => exact hc
  | stop mid => exact ⟨hc.1, hc.2.1, h.reach hc.2.2⟩
  | remove mid => exact ⟨hc.1, hc.2.1, h.reach hc.2.2⟩
  | stopStop mid r begun => exact ⟨hc.1, hc.2.1, (h.stopping hc.2.2).congr⟩
  | removeStop mid r begun => exact ⟨hc.1, hc.2.1, (h.stopping hc.2.2).congr⟩
  | done => exact (h.settled hc).congr

/-! ### Start-up -/

section
variable [DecidableEq ι]

/-- An operation that runs alone: `n` pieces of it, every start succeeding. -/
def runCall (V : View ι μ) : Nat → Sup ι μ → Call ι μ → Sup ι μ × Call ι μ
  | 0, s, c => (s, c)
  | n + 1, s, c => runCall V n (advance V s true c).1 (advance V s true c).2

/-- `apply_mapping` run alone to its end: six pieces at most. -/
def applyMapping (V : View ι μ) (s : Sup ι μ) (m : μ) : Sup ι μ := (runCall V 6 s (.apply m)).1

/-- `_ensure_stopped_placeholder`. -/
def ensureStoppedPlaceholder (V : View ι μ) (s : Sup ι μ) (m : μ) : Sup ι μ :=
  if (s.runners (V.id m)).isSome then s else s.build V m

/-- The loop of `start_all` over the mappings of the configuration. -/
def startAll (V : View ι μ) : Sup ι μ → List μ → Sup ι μ
  | s, [] => s
  | s, m :: rest =>
    startAll V (if V.enabled m then applyMapping V s m else ensureStoppedPlaceholder V s m) rest

/-- The advance lemma over several pieces. -/
theorem callOk_runCall {V : View ι μ} {x : ι} {want : Option μ} (n : Nat) {s : Sup ι μ}
    {c : Call ι μ} (hfiled : Filed V s) (h : CallOk V s x want c) :
    Filed V (runCall V n s c).1 ∧ CallOk V (runCall V n s c).1 x want (runCall V n s c).2 ∧
      ∀ y, x ≠ y → SameAt V y s (runCall V n s c).1 := by
  induction n generalizing s c with
  | zero => exact ⟨hfiled, h, fun y _ => SameAt.refl V y s⟩
  | succ n ih =>
    obtain ⟨hf, hc, hsame⟩ := ih (filed_advance true c hfiled) (callOk_advance hfiled h)
    exact ⟨hf, hc, fun y hy => (advance_sameAt hfiled h hy).trans (hsame y hy)⟩

/-- Six pieces bring an apply to its end. -/
theorem runCall_apply (V : View ι μ) (s : Sup ι μ) (m : μ) :
    (runCall V 6 s (.apply m)).2 = .done := by
  cases hr : s.runners (V.id m) <;> by_cases he : V.enabled m = true <;>
    simp [runCall, advance, stopping, hr, he]

/-- A mapping whose id has no runner yet is settled by its turn of `start_all`, and nothing
    else changes. -/
theorem settled_startOne {V : View ι μ} {s : Sup ι μ} {m : μ} (hfiled : Filed V s)
    (hnone : s.runners (V.id m) = none) (hlive : NoLive V s (V.id m)) {s' : Sup ι μ}
    (hs' : s' = if V.enabled m then applyMapping V s m else ensureStoppedPlaceholder V s m) :
    Filed V s' ∧ Settled V s' (V.id m) (wanted V m) ∧ ∀ y, V.id m ≠ y → SameAt V y s s' := by
  subst hs'
  split
  · next hen =>
    have happly : CallOk V s (V.id m) (wanted V m) (.apply m) := ⟨rfl, rfl, hlive.reach⟩
    obtain ⟨hf, hc, hsame⟩ := callOk_runCall 6 hfiled happly
    rw [runCall_apply] at hc
    exact ⟨hf, hc, hsame⟩
  · next hen =>
    rw [ensureStoppedPlaceholder, hnone, wanted, if_neg hen]
    refine ⟨filed_build m hfiled, ?_, fun y hy => sameAt_build hy⟩
    exact NoLive.settled fun r hl => hlive r (liveAt_build hl)

/-- **Start-up.**  After `start_all` every mapping of a list with distinct ids is settled. -/
theorem settled_startAll {V : View ι μ} {l : List μ} {s : Sup ι μ} (hfiled : Filed V s)
    (hids : (l.map V.id).Nodup)
    (hnew : ∀ m ∈ l, s.runners (V.id m) = none ∧ NoLive V s (V.id m)) :
    Filed V (startAll V s l) ∧
      (∀ m ∈ l, Settled V (startAll V s l) (V.id m) (wanted V m)) ∧
      ∀ y, y ∉ l.map V.id → SameAt V y s (startAll V s l) := by
  induction l generalizing s with
  | nil => exact ⟨hfiled, by simp, fun y _ => SameAt.refl V y s⟩
  | cons m rest ih =>
    rw [List.map_cons, List.nodup_cons] at hids
    obtain ⟨hnone, hlive⟩ := hnew m (by simp)
    obtain ⟨hf₁, hset₁, hsame₁⟩ := settled_startOne hfiled hnone hlive rfl
    -- the mappings still to come are untouched by this one
    have hnew₁ : ∀ m' ∈ rest, SameAt V (V.id m') s
        (if V.enabled m then applyMapping V s m else ensureStoppedPlaceholder V s m) := by
      intro m' hm'
      refine hsame₁ _ fun heq => hids.1 ?_
      rw [heq]
      exact List.mem_map_of_mem hm'
    obtain ⟨hf, hset, hsame⟩ := ih hf₁ hids.2 fun m' hm' =>
      ⟨(hnew₁ m' hm').runners.trans (hnew m' (by simp [hm'])).1,
        (hnew₁ m' hm').noLive (hnew m' (by simp [hm'])).2⟩
    refine ⟨hf, ?_, ?_⟩
    · intro m' hm'
      rcases List.mem_cons.1 hm' with rfl | hm'
      · exact (hsame _ hids.1).settled hset₁
      · exact hset m' hm'
    · intro y hy
      rw [List.map_cons, List.mem_cons, not_or] at hy
      exact (hsame₁ y (Ne.symm hy.1)).trans (hsame y hy.2)

end

end Ser2Net.Engine.Supervisor
