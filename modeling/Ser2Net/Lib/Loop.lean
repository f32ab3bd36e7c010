import Ser2Net.Lib.Binary

namespace Ser2Net.Lib

/-!
# Loops that may raise

A `for` loop whose rounds return or raise is `List.mapM` of `Except`.  It returned exactly when
every round did, and then its results are related one by one to what it ran over.  A `while` loop
runs for a number of rounds that a measure of its state bounds (`runFor_eq`).
-/

section
variable {α β : Type} {R : α → β → Prop} {l : List α} {l' : List β}

/-- An element on the right has one on the left. -/
theorem exists_of_mem_right {b : β} (h : List.Forall₂ R l l') (hb : b ∈ l') :
    ∃ a ∈ l, R a b := by
  induction h with
  | nil => cases hb
  | cons hab _ ih =>
    rcases List.mem_cons.1 hb with rfl | hb
    · exact ⟨_, List.mem_cons_self, hab⟩
    · obtain ⟨a, ha, hr⟩ := ih hb
      exact ⟨a, List.mem_cons_of_mem _ ha, hr⟩

end

section
variable {ε α β : Type} {f : α → Except ε β} {l : List α} {l' : List β}

/-- A loop that may raise returned exactly when each of its rounds did. -/
theorem mapM_eq_ok_iff :
    l.mapM f = .ok l' ↔ List.Forall₂ (fun a b => f a = .ok b) l l' := by
  induction l generalizing l' with
  | nil =>
    constructor
    · intro h
      obtain rfl := Except.ok.inj h
      exact .nil
    · intro h
      cases h
      rfl
  -- one round of the loop, then the rest
  | cons a rest ih =>
    rw [List.mapM_cons]
    constructor
    · intro h
      obtain ⟨b, hb, h⟩ := except_bind_eq_ok.1 h
      obtain ⟨bs, hbs, h⟩ := except_bind_eq_ok.1 h
      obtain rfl := Except.ok.inj h
      exact .cons hb (ih.1 hbs)
    · intro h
      cases h with
      | cons hb hbs =>
        rw [hb, except_ok_bind, ih.2 hbs]
        rfl

/-- What a loop returns has a property that each round gives. -/
theorem forall_of_mapM {p : β → Prop} (hround : ∀ a b, f a = .ok b → p b)
    (h : l.mapM f = .ok l') : ∀ b ∈ l', p b := by
  intro b hb
  obtain ⟨a, -, hab⟩ := exists_of_mem_right (mapM_eq_ok_iff.1 h) hb
  exact hround a b hab

end

/-! ### `while` loops -/

section
variable {ε σ β : Type}

/-- A `while` loop for at most `n` rounds: a round goes on with a new state, leaves the loop or
    raises.  `none` says that the rounds ran out. -/
def runFor (round : σ → Except ε (σ ⊕ β)) : Nat → σ → Option (Except ε β)
  | 0, _ => none
  | n + 1, s =>
    match round s with
    | .error e => some (.error e)
    | .ok (.inl s') => runFor round n s'
    | .ok (.inr b) => some (.ok b)

/-- A loop whose rounds lower a measure ends, within one round more than the measure, and does
    what any function does that unfolds like it. -/
theorem runFor_eq {round : σ → Except ε (σ ⊕ β)} {spec : σ → Except ε β} {μ : σ → Nat}
    (hspec : ∀ s, spec s = round s >>= fun r => r.elim spec .ok)
    (hdec : ∀ s s', round s = .ok (.inl s') → μ s' < μ s) {n : Nat} {s : σ} (hn : μ s < n) :
    runFor round n s = some (spec s) := by
  induction n generalizing s with
  | zero => omega
  | succ n ih =>
    rw [runFor, hspec]
    rcases hr : round s with e | s' | b
    · rfl
    · have := hdec s s' hr
      exact ih (by omega)
    · rfl

end

end Ser2Net.Lib
