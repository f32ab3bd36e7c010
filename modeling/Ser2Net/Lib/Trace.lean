import Mathlib.Data.List.Basic
import Mathlib.Tactic.Common

namespace Ser2Net.Lib

/-!
# Labelled machines, their runs and guarded runs

A machine is a partial step function `step : σ → ε → Option σ`: `none` says that the
event is not possible in that state.  Nondeterminism (who is scheduled next, what the
network delivers) is carried by the events, so that a run is an executable fold and an
interleaving is a list of events.

* `run step s es` — the state after the events `es`;
* `Along step P s es` — every step of that run meets the condition `P` on the state
  before the step and the event;
* `run_invariant` — what one step preserves, every run preserves; the only induction on
  runs a development needs;
* `along_of_states` — a run through good states only is guarded, when a step against the guard
  leaves them;
* `run_filter` — events that change nothing can be left out of a run;
* `spared` — the events of a run but for some that are skipped;
* `run_simulated` — a run is matched by the run of another machine along the spared events;
* `along_of_check` — a guarded run by evaluation of a test.
-/

variable {σ ε : Type*}

/-- The state reached from `s` by the events `es`; `none` as soon as one is impossible. -/
def run (step : σ → ε → Option σ) : σ → List ε → Option σ
  | s, [] => some s
  | s, e :: es => (step s e).bind fun s' => run step s' es

/-- Every step of the run from `s` along `es` meets `P` (state before the step, event). -/
def Along (step : σ → ε → Option σ) (P : σ → ε → Prop) : σ → List ε → Prop
  | _, [] => True
  | s, e :: es => P s e ∧ ∀ s', step s e = some s' → Along step P s' es

variable {step : σ → ε → Option σ} {P : σ → ε → Prop}

@[simp] theorem run_nil (s : σ) : run step s [] = some s := rfl

@[simp] theorem run_cons (s : σ) (e : ε) (es : List ε) :
    run step s (e :: es) = (step s e).bind fun s' => run step s' es := rfl

@[simp] theorem along_nil (s : σ) : Along step P s [] := trivial

@[simp] theorem along_cons (s : σ) (e : ε) (es : List ε) :
    Along step P s (e :: es) ↔ P s e ∧ ∀ s', step s e = some s' → Along step P s' es :=
  Iff.rfl

/-- **Invariant rule.**  A property that every guarded step preserves holds at the end of
    every run all of whose steps meet the guard.  A state in the middle of a run is the
    end of a shorter one, so this covers every state reached. -/
theorem run_invariant (Inv : σ → Prop)
    (hstep : ∀ s e s', Inv s → P s e → step s e = some s' → Inv s')
    {s s' : σ} {es : List ε} (hs : Inv s) (hP : Along step P s es)
    (hrun : run step s es = some s') : Inv s' := by
  induction es generalizing s with
  | nil =>
    rw [run_nil, Option.some.injEq] at hrun
    exact hrun ▸ hs
  | cons e es ih =>
    rw [run_cons, Option.bind_eq_some_iff] at hrun
    obtain ⟨t, ht, hrest⟩ := hrun
    exact ih (hstep s e t hs hP.1 ht) (hP.2 t ht) hrest

/-- A condition on the events alone. -/
theorem along_of_forall {es : List ε} (h : ∀ e ∈ es, ∀ s, P s e) (s : σ) : Along step P s es := by
  induction es generalizing s with
  | nil => trivial
  | cons e es ih =>
    exact ⟨h e List.mem_cons_self s, fun s' _ => ih (fun e' he' => h e' (List.mem_cons_of_mem _ he')) s'⟩

/-- Two guards of one run. -/
theorem along_and {Q : σ → ε → Prop} {s : σ} {es : List ε} :
    Along step (fun s e => P s e ∧ Q s e) s es ↔ Along step P s es ∧ Along step Q s es := by
  induction es generalizing s with
  | nil => simp
  | cons e es ih =>
    simp only [along_cons, ih]
    constructor
    · rintro ⟨⟨hp, hq⟩, hrest⟩
      exact ⟨⟨hp, fun s' hs' => (hrest s' hs').1⟩, hq, fun s' hs' => (hrest s' hs').2⟩
    · rintro ⟨⟨hp, hprest⟩, hq, hqrest⟩
      exact ⟨⟨hp, hq⟩, fun s' hs' => ⟨hprest s' hs', hqrest s' hs'⟩⟩

/-- A guarded run is a guarded run up to any state of it, and one from there. -/
theorem along_append {s t : σ} {es es' : List ε} (hrun : run step s es = some t)
    (h : Along step P s (es ++ es')) : Along step P s es ∧ Along step P t es' := by
  induction es generalizing s with
  | nil =>
    rw [run_nil, Option.some.injEq] at hrun
    exact ⟨trivial, hrun ▸ h⟩
  | cons e es ih =>
    rw [run_cons, Option.bind_eq_some_iff] at hrun
    obtain ⟨u, hu, hrest⟩ := hrun
    rw [List.cons_append, along_cons] at h
    refine ⟨⟨h.1, fun s' hs' => ?_⟩, (ih hrest (h.2 u hu)).2⟩
    rw [hu, Option.some.injEq] at hs'
    exact hs' ▸ (ih hrest (h.2 u hu)).1

/-- The invariant rule for runs without a guard. -/
theorem run_invariant_of_step (Inv : σ → Prop)
    (hstep : ∀ s e s', Inv s → step s e = some s' → Inv s') {s s' : σ} {es : List ε} (hs : Inv s)
    (hrun : run step s es = some s') : Inv s' :=
  run_invariant Inv (fun s e s' h _ => hstep s e s' h) hs
    (along_of_forall (P := fun _ _ => True) (fun _ _ _ => trivial) s) hrun

/-- A guarded run is guarded up to every point of it. -/
theorem along_of_isPrefix {s : σ} {pre es : List ε} (hpre : pre <+: es) (h : Along step P s es) :
    Along step P s pre := by
  induction pre generalizing s es with
  | nil => trivial
  | cons e pre ih =>
    obtain ⟨post, rfl⟩ := hpre
    exact ⟨h.1, fun s' hs' => ih ⟨post, rfl⟩ (h.2 s' hs')⟩

/-- **Necessity of a guard.**  When a step against the guard leads to a state that is not good,
    a run through good states only is guarded. -/
theorem along_of_states (Inv Good : σ → Prop)
    (hstep : ∀ s e s', Inv s → step s e = some s' → Inv s')
    (hguard : ∀ s e, Inv s → (∀ s', step s e = some s' → Good s') → P s e)
    {s : σ} {es : List ε} (hs : Inv s)
    (hgood : ∀ pre s', pre <+: es → run step s pre = some s' → Good s') : Along step P s es := by
  induction es generalizing s with
  | nil => trivial
  | cons e es ih =>
    refine ⟨hguard s e hs fun s' hs' => ?_, fun s' hs' => ih (hstep s e s' hs hs') ?_⟩
    · exact hgood [e] s' ⟨es, rfl⟩ (by rw [run_cons, hs']; rfl)
    · rintro pre s'' ⟨post, rfl⟩ hrun
      exact hgood (e :: pre) s'' ⟨post, rfl⟩ (by rw [run_cons, hs']; exact hrun)

/-- **Stuttering.**  When the events that `keep` rejects are possible everywhere and change
    nothing, a run and the run of the events that are left end alike. -/
theorem run_filter (keep : ε → Bool) (hskip : ∀ s e, keep e = false → step s e = some s) (s : σ)
    (es : List ε) : run step s (es.filter keep) = run step s es := by
  induction es generalizing s with
  | nil => rfl
  | cons e es ih =>
    cases hkeep : keep e with
    | true =>
      rw [List.filter_cons_of_pos hkeep, run_cons, run_cons]
      exact Option.bind_congr fun s' _ => ih s'
    | false =>
      have hneg : ¬ keep e = true := by simp [hkeep]
      rw [List.filter_cons_of_neg hneg, run_cons, hskip s e hkeep, ih]
      rfl

/-- The events of a run but for those that `skip` picks out in the state they happen in. -/
def spared (step : σ → ε → Option σ) (skip : σ → ε → Bool) : σ → List ε → List ε
  | _, [] => []
  | s, e :: es =>
    match step s e with
    | none => []
    | some s' => if skip s e then spared step skip s' es else e :: spared step skip s' es

theorem spared_cons {skip : σ → ε → Bool} {s s' : σ} {e : ε} (h : step s e = some s')
    (es : List ε) : spared step skip s (e :: es) =
      if skip s e then spared step skip s' es else e :: spared step skip s' es := by
  rw [spared, h]

/-- **Simulation with skipped events.**  When a step that is not to be skipped is a step of the
    other machine by the same event, and one that is to be skipped is matched by none, a run is
    matched by the run of the other machine along the events that are left.  `R n` counts the
    events skipped. -/
theorem run_simulated {τ : Type*} {step' : τ → ε → Option τ} (skip : σ → ε → Bool)
    (R : Nat → τ → σ → Prop)
    (hskip : ∀ n t s e s', R n t s → step s e = some s' → skip s e = true → R (n + 1) t s')
    (hstep : ∀ n t s e s', R n t s → step s e = some s' → skip s e = false →
      ∃ t', step' t e = some t' ∧ R n t' s')
    {n : Nat} {t : τ} {s s' : σ} {es : List ε} (h : R n t s) (hrun : run step s es = some s') :
    ∃ t' m, run step' t (spared step skip s es) = some t' ∧ R m t' s' ∧
      (spared step skip s es).length + m = es.length + n := by
  -- the count grows with each step left out
  induction es generalizing n t s with
  | nil =>
    rw [run_nil, Option.some.injEq] at hrun
    exact ⟨t, n, rfl, hrun ▸ h, rfl⟩
  | cons e es ih =>
    rw [run_cons, Option.bind_eq_some_iff] at hrun
    obtain ⟨u, hu, hrest⟩ := hrun
    rw [spared_cons hu, List.length_cons]
    cases hs : skip s e with
    | true =>
      rw [if_pos rfl]
      obtain ⟨t', m, hrun', hR, hlen⟩ := ih (hskip n t s e u h hu hs) hrest
      exact ⟨t', m, hrun', hR, by omega⟩
    | false =>
      rw [if_neg Bool.false_ne_true]
      obtain ⟨t₁, ht₁, hmatch⟩ := hstep n t s e u h hu hs
      obtain ⟨t', m, hrun', hR, hlen⟩ := ih hmatch hrest
      refine ⟨t', m, by rw [run_cons, ht₁]; exact hrun', hR, ?_⟩
      rw [List.length_cons]
      omega

/-- A test of a guarded run: `check` at every step. -/
def alongCheck (step : σ → ε → Option σ) (check : σ → ε → Bool) : σ → List ε → Bool
  | _, [] => true
  | s, e :: es =>
    check s e &&
      match step s e with
      | none => true
      | some s' => alongCheck step check s' es

/-- A run whose steps all pass a test for the guard is guarded. -/
theorem along_of_check {check : σ → ε → Bool} (hcheck : ∀ s e, check s e = true → P s e)
    {s : σ} {es : List ε} (h : alongCheck step check s es = true) : Along step P s es := by
  induction es generalizing s with
  | nil => trivial
  | cons e es ih =>
    rw [alongCheck, Bool.and_eq_true] at h
    refine ⟨hcheck s e h.1, fun s' hs' => ih ?_⟩
    simpa [hs'] using h.2

end Ser2Net.Lib
