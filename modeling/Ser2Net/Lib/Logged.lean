import Mathlib.Data.List.Basic
import Mathlib.Tactic.Common

namespace Ser2Net.Lib

/-!
# Code that raises, with a record of what it converts

`Logged ε ω α` is code that may raise an `ε` and that keeps a record of the values `ω` it hands
to partial operations (a conversion of a text to a number, say).  The record has no influence
on a run; it says afterwards which values the run depended on.

* `Returns` — the code returns a value; `returns_bind` takes a run apart;
* `Clean` — the code raises an exception of some kind exactly when it records a value that its
  operation does not accept; what it returns has a property.
-/

/-- Code that may raise and that keeps a record. -/
def Logged (ε ω α : Type) : Type := List ω → Except ε α × List ω

namespace Logged

variable {ε ω α β : Type}

/-- Run one piece of code after another. -/
def andThen (x : Logged ε ω α) (f : α → Logged ε ω β) : Logged ε ω β := fun log =>
  match x log with
  | (.ok a, log) => f a log
  | (.error e, log) => (.error e, log)

instance : Monad (Logged ε ω) where
  pure a := fun log => (.ok a, log)
  bind := andThen

instance : LawfulMonad (Logged ε ω) := by
  refine LawfulMonad.mk' _ ?_ ?_ ?_
  · intro α x
    funext log
    show andThen x (fun a log => (.ok a, log)) log = x log
    unfold andThen
    split
    next heq => exact heq.symm
    next heq => exact heq.symm
  · intro α β a f
    rfl
  · intro α β γ x f g
    funext log
    show andThen (andThen x f) g log = andThen x (fun a => andThen (f a) g) log
    unfold andThen
    rcases x log with ⟨r, log'⟩
    cases r with
    | ok a => rfl
    | error e => rfl

/-- Raise. -/
def raise (e : ε) : Logged ε ω α := fun log => (.error e, log)

/-- Hand `w` to a partial operation with the outcome `r`. -/
def convert (w : ω) (r : Except ε α) : Logged ε ω α := fun log => (r, log ++ [w])

/-- `try x except e: h(e)`; what `x` records is marked. -/
def handle (x : Logged ε ω α) (mark : ω → ω) (h : ε → ε) : Logged ε ω α := fun log =>
  match x [] with
  | (.ok a, new) => (.ok a, log ++ new.map mark)
  | (.error e, new) => (.error (h e), log ++ new.map mark)

/-! ### What is returned -/

/-- The code returns `a`. -/
def Returns (x : Logged ε ω α) (a : α) : Prop := ∃ log log', x log = (.ok a, log')

/-- A value is returned. -/
theorem returns_pure {a b : α} : Returns (pure a : Logged ε ω α) b ↔ a = b := by
  constructor
  · rintro ⟨log, log', h⟩
    exact Except.ok.inj (Prod.mk.inj h).1
  · rintro rfl
    exact ⟨[], [], rfl⟩

/-- Two pieces of code return one after the other. -/
theorem returns_bind {x : Logged ε ω α} {f : α → Logged ε ω β} {b : β}
    (h : Returns (x >>= f) b) : ∃ a, Returns x a ∧ Returns (f a) b := by
  obtain ⟨log, log', h⟩ := h
  change andThen x f log = _ at h
  unfold andThen at h
  split at h
  · next a log₁ heq => exact ⟨a, ⟨log, log₁, heq⟩, log₁, log', h⟩
  · next e log₁ heq => cases h

/-- What was returned is turned into something else. -/
theorem returns_bind_pure {x : Logged ε ω α} {a : α} (h : Returns x a) (f : α → β) :
    Returns (x >>= fun a => pure (f a)) (f a) := by
  obtain ⟨log, log', h⟩ := h
  refine ⟨log, log', ?_⟩
  show andThen x (fun a => pure (f a)) log = _
  rw [andThen, h]
  rfl

/-- What raises does not return. -/
theorem not_returns_raise {e : ε} {a : α} : ¬ Returns (raise e : Logged ε ω α) a := by
  rintro ⟨log, log', h⟩
  cases h

/-- One of the branches returns. -/
theorem returns_ite {p : Prop} [Decidable p] {x y : Logged ε ω α} {a : α}
    (h : Returns (if p then x else y) a) : (p ∧ Returns x a) ∨ (¬ p ∧ Returns y a) := by
  by_cases hp : p
  · rw [if_pos hp] at h
    exact .inl ⟨hp, h⟩
  · rw [if_neg hp] at h
    exact .inr ⟨hp, h⟩

/-- What a guarded piece of code returns is what it returns by itself, on an empty record. -/
theorem run_of_returns_handle {x : Logged ε ω α} {mark : ω → ω} {h : ε → ε} {a : α}
    (hr : Returns (handle x mark h) a) : (x []).1 = .ok a := by
  obtain ⟨log, log', hr⟩ := hr
  unfold handle at hr
  split at hr
  · next b new heq =>
    cases hr
    rw [heq]
  · cases hr

/-- A run that returns, by evaluating it. -/
theorem exists_returns {x : Logged ε ω α} {p : α → Bool} (h : (x []).1.toOption.any p = true) :
    ∃ a, Returns x a ∧ p a = true := by
  rcases hrun : x [] with ⟨r, log⟩
  rw [hrun] at h
  cases r with
  | ok a => exact ⟨a, ⟨[], log, hrun⟩, h⟩
  | error e => cases h

/-- What every step of a loop keeps holds behind the loop. -/
theorem returns_foldlM {γ : Type} {I : β → Prop} {f : β → γ → Logged ε ω β} {l : List γ} {b b' : β}
    (hf : ∀ b c b', c ∈ l → I b → Returns (f b c) b' → I b') (hb : I b)
    (h : Returns (l.foldlM f b) b') : I b' := by
  induction l generalizing b with
  | nil =>
    obtain rfl := returns_pure.1 h
    exact hb
  | cons c rest ih =>
    rw [List.foldlM_cons] at h
    obtain ⟨b₁, hc, h⟩ := returns_bind h
    refine ih (fun b c b' hmem => hf b c b' (List.mem_cons_of_mem _ hmem)) ?_ h
    exact hf b c b₁ List.mem_cons_self hb hc

/-! ### Clean code -/

variable {foreign : ε → Prop} {bad : ω → Prop} {P : α → Prop} {Q : β → Prop}

/-- The code raises a foreign exception exactly when it records a bad value, and what it returns
    satisfies `P`. -/
def Clean (foreign : ε → Prop) (bad : ω → Prop) (P : α → Prop) (x : Logged ε ω α) : Prop :=
  ∀ log, ∃ new, (x log).2 = log ++ new ∧
    ((∃ e, (x log).1 = .error e ∧ foreign e) ↔ ∃ w ∈ new, bad w) ∧ ∀ a, (x log).1 = .ok a → P a

/-- A value of the right kind. -/
theorem clean_pure {a : α} (h : P a) : Clean foreign bad P (pure a : Logged ε ω α) := by
  intro log
  refine ⟨[], (List.append_nil log).symm, ⟨?_, ?_⟩, ?_⟩
  · rintro ⟨e, h, -⟩
    cases h
  · rintro ⟨w, h, -⟩
    cases h
  · intro b hb
    obtain rfl := Except.ok.inj hb
    exact h

/-- An exception of another kind. -/
theorem clean_raise {e : ε} (h : ¬ foreign e) : Clean foreign bad P (raise e : Logged ε ω α) := by
  intro log
  refine ⟨[], (List.append_nil log).symm, ⟨?_, ?_⟩, ?_⟩
  · rintro ⟨e', he, hf⟩
    cases he
    exact absurd hf h
  · rintro ⟨w, hw, -⟩
    cases hw
  · intro a ha
    cases ha

/-- A weaker property of what is returned. -/
theorem Clean.mono {P' : α → Prop} {x : Logged ε ω α} (hx : Clean foreign bad P x)
    (h : ∀ a, P a → P' a) : Clean foreign bad P' x := by
  intro log
  obtain ⟨new, hnew, hiff, hok⟩ := hx log
  exact ⟨new, hnew, hiff, fun a ha => h a (hok a ha)⟩

/-- Clean code after clean code. -/
theorem clean_bind {x : Logged ε ω α} {f : α → Logged ε ω β} (hx : Clean foreign bad P x)
    (hf : ∀ a, P a → Clean foreign bad Q (f a)) : Clean foreign bad Q (x >>= f) := by
  intro log
  change ∃ new, (andThen x f log).2 = log ++ new ∧
    ((∃ e, (andThen x f log).1 = .error e ∧ foreign e) ↔ ∃ w ∈ new, bad w) ∧
      ∀ b, (andThen x f log).1 = .ok b → Q b
  obtain ⟨new, hnew, hiff, hok⟩ := hx log
  unfold andThen
  rcases hrun : x log with ⟨r, log'⟩
  rw [hrun] at hnew hiff hok
  cases r with
  | error e =>
    refine ⟨new, hnew, Iff.trans ?_ hiff, fun b hb => by cases hb⟩
    constructor
    · rintro ⟨e', he, hf⟩
      cases he
      exact ⟨e, rfl, hf⟩
    · rintro ⟨e', he, hf⟩
      cases he
      exact ⟨e, rfl, hf⟩
  | ok a =>
    -- the first part has raised nothing, so its record has no bad value
    have hgood : ¬ ∃ w ∈ new, bad w := by
      rw [← hiff]
      rintro ⟨e, h, -⟩
      cases h
    obtain ⟨new', hnew', hiff', hok'⟩ := hf a (hok a rfl) log'
    dsimp only at hnew ⊢
    refine ⟨new ++ new', by rw [hnew', hnew, List.append_assoc], hiff'.trans ?_, hok'⟩
    constructor
    · rintro ⟨w, hw, hb⟩
      exact ⟨w, List.mem_append_right _ hw, hb⟩
    · rintro ⟨w, hw, hb⟩
      rcases List.mem_append.1 hw with hw | hw
      · exact absurd ⟨w, hw, hb⟩ hgood
      · exact ⟨w, hw, hb⟩

/-- A conversion that raises a foreign exception exactly on bad values. -/
theorem clean_convert {w : ω} {r : Except ε α} (h : (∃ e, r = .error e ∧ foreign e) ↔ bad w)
    (hok : ∀ a, r = .ok a → P a) : Clean foreign bad P (convert w r) := by
  intro log
  refine ⟨[w], rfl, ?_, hok⟩
  show (∃ e, r = .error e ∧ foreign e) ↔ _
  rw [h]
  simp

/-- A handler turns exceptions into others, and the record is marked accordingly. -/
theorem clean_handle {foreign' : ε → Prop} {bad' : ω → Prop} {x : Logged ε ω α} {mark : ω → ω}
    {h : ε → ε} (hx : Clean foreign' bad' P x) (hh : ∀ e, foreign (h e) ↔ foreign' e)
    (hm : ∀ w, bad (mark w) ↔ bad' w) : Clean foreign bad P (handle x mark h) := by
  intro log
  obtain ⟨new, hnew, hiff, hok⟩ := hx []
  unfold handle
  rcases hrun : x [] with ⟨r, new'⟩
  rw [hrun] at hnew hiff hok
  have hnew : new' = new := hnew
  subst hnew
  -- a bad value in the marked record was bad for the code inside
  have hbad : (∃ w ∈ new'.map mark, bad w) ↔ ∃ w ∈ new', bad' w := by
    simp [hm]
  cases r with
  | ok a =>
    refine ⟨new'.map mark, rfl, ?_, fun b hb => hok b (by cases hb; rfl)⟩
    rw [hbad, ← hiff]
    constructor
    · rintro ⟨e, he, -⟩
      cases he
    · rintro ⟨e, he, -⟩
      cases he
  | error e =>
    refine ⟨new'.map mark, rfl, ?_, fun b hb => by cases hb⟩
    rw [hbad, ← hiff]
    constructor
    · rintro ⟨e', he, hf⟩
      cases he
      exact ⟨e, rfl, (hh e).1 hf⟩
    · rintro ⟨e', he, hf⟩
      cases he
      exact ⟨h e, rfl, (hh e).2 hf⟩

/-- Both branches of a test. -/
theorem clean_ite {c : Prop} [Decidable c] {x y : Logged ε ω α} (hx : c → Clean foreign bad P x)
    (hy : ¬ c → Clean foreign bad P y) : Clean foreign bad P (if c then x else y) := by
  by_cases h : c
  · rw [if_pos h]
    exact hx h
  · rw [if_neg h]
    exact hy h

/-- A loop over a list, with an invariant. -/
theorem clean_foldlM {γ : Type} {I : β → Prop} {f : β → γ → Logged ε ω β} {l : List γ}
    (hf : ∀ b, ∀ c ∈ l, I b → Clean foreign bad I (f b c)) {b : β} (hb : I b) :
    Clean foreign bad I (l.foldlM f b) := by
  induction l generalizing b with
  | nil => exact clean_pure hb
  | cons c rest ih =>
    rw [List.foldlM_cons]
    refine clean_bind (hf b c List.mem_cons_self hb) fun b' hb' => ?_
    exact ih (fun b c hc => hf b c (List.mem_cons_of_mem _ hc)) hb'

end Logged

end Ser2Net.Lib
