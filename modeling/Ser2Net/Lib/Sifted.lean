import Mathlib.Data.List.Basic
import Mathlib.Data.List.Forall2

namespace Ser2Net.Lib

/-!
# Lists made from lists

`Sifted R as bs`: `bs` is made from `as` in order, with at most one element from each.  What
becomes of an element `a` is said by `R a`: `R a (some b)` where it gives `b`, and `R a none`
where it gives nothing.

* `Sifted.comp` — sifting what was sifted.
-/

variable {α β γ : Type}

/-- The second list is made from the first, in order and at most one from each. -/
inductive Sifted (R : α → Option β → Prop) : List α → List β → Prop
  | nil : Sifted R [] []
  | keep {a : α} {b : β} {as : List α} {bs : List β} (h : R a (some b)) (hrest : Sifted R as bs) :
    Sifted R (a :: as) (b :: bs)
  | drop {a : α} {as : List α} {bs : List β} (h : R a none) (hrest : Sifted R as bs) :
    Sifted R (a :: as) bs

namespace Sifted

variable {R R' : α → Option β → Prop} {S : β → Option γ → Prop} {T : α → Option γ → Prop}
  {as as' : List α} {bs bs' : List β} {cs : List γ}

theorem imp (h : Sifted R as bs) (himp : ∀ a o, R a o → R' a o) : Sifted R' as bs := by
  induction h with
  | nil => exact .nil
  | keep h _ ih => exact .keep (himp _ _ h) ih
  | drop h _ ih => exact .drop (himp _ _ h) ih

/-- An element that gives `o`, in front. -/
theorem cons {a : α} {o : Option β} (h : R a o) (hrest : Sifted R as bs) :
    Sifted R (a :: as) (o.toList ++ bs) := by
  cases o with
  | none => exact .drop h hrest
  | some b => exact .keep h hrest

/-- Nothing is lost where every element gives one. -/
theorem of_forall₂ {Q : α → β → Prop} (h : List.Forall₂ Q as bs)
    (hgives : ∀ a b, Q a b → R a (some b)) : Sifted R as bs := by
  induction h with
  | nil => exact .nil
  | cons h _ ih => exact .keep (hgives _ _ h) ih

/-- Sifting what was sifted. -/
theorem comp (h : Sifted R as bs) (h' : Sifted S bs cs) (hnone : ∀ a, R a none → T a none)
    (hsome : ∀ a b o, R a (some b) → S b o → T a o) : Sifted T as cs := by
  induction h generalizing cs with
  | nil =>
    cases h'
    exact .nil
  | keep hab _ ih =>
    cases h' with
    | keep hbc hrest => exact .keep (hsome _ _ _ hab hbc) (ih hrest)
    | drop hb hrest => exact .drop (hsome _ _ _ hab hb) (ih hrest)
  | drop ha _ ih => exact .drop (hnone _ ha) (ih h')

/-- What was made is turned into something else. -/
theorem map {f : β → γ} (h : Sifted R as bs) (hmap : ∀ a o, R a o → T a (o.map f)) :
    Sifted T as (bs.map f) := by
  induction h with
  | nil => exact .nil
  | keep h _ ih => exact .keep (hmap _ _ h) ih
  | drop h _ ih => exact .drop (hmap _ _ h) ih

end Sifted

end Ser2Net.Lib
