import Mathlib.Algebra.Order.Group.Defs
import Mathlib.Algebra.Order.Group.Basic
import Mathlib.Data.List.Basic
import Mathlib.Data.List.Sort
import Mathlib.Tactic.Common

namespace Ser2Net.Lib

/-!
# Sliding windows

A queue of times in the order of a clock that never goes back, pruned from the front, holds
exactly the times of the last `w` seconds.  Times are the elements of any ordered group.

* `prune w now q` — the queue without the times more than `w` before `now`;
* `recent w now l` — how many times of `l` are at most `w` before `now`;
* `within w t l` — how many times of `l` lie in the window from `t` to `t + w`;
* `within_append_le` — a time added at `now` fills no window beyond what is recent then.
-/

section
variable {T : Type*} [AddCommGroup T] [LinearOrder T]

/-- Drop the times more than `w` before `now` from the front. -/
def prune (w now : T) (q : List T) : List T := q.dropWhile fun t => w < now - t

/-- The number of times at most `w` before `now`. -/
def recent (w now : T) (l : List T) : Nat := l.countP fun t => now - t ≤ w

/-- The number of times in the window of length `w` that begins at `t`. -/
def within (w t : T) (l : List T) : Nat := l.countP fun x => t ≤ x ∧ x ≤ t + w

theorem recent_append (w now : T) (l l' : List T) :
    recent w now (l ++ l') = recent w now l + recent w now l' := List.countP_append

/-- Times that are too old are not recent. -/
theorem recent_eq_zero {w now : T} {l : List T} (h : ∀ t ∈ l, w < now - t) :
    recent w now l = 0 := by
  rw [recent, List.countP_eq_zero]
  intro t ht
  rw [decide_eq_true_eq, not_le]
  exact h t ht

/-- What pruning drops was too old. -/
theorem exists_prune (w now : T) (q : List T) :
    ∃ old, q = old ++ prune w now q ∧ ∀ t ∈ old, w < now - t := by
  refine ⟨q.takeWhile fun t => w < now - t, ?_, ?_⟩
  · exact (List.takeWhile_append_dropWhile (p := fun t => decide (w < now - t)) (l := q)).symm
  · intro t ht
    exact of_decide_eq_true (List.all_eq_true.mp List.all_takeWhile t ht)

variable [IsOrderedAddMonoid T]

/-- What is too old stays too old. -/
theorem lt_sub_of_le {w now now' t : T} (hle : now ≤ now') (h : w < now - t) : w < now' - t :=
  h.trans_le (sub_le_sub_right hle t)

/-- As the clock goes on, fewer times are recent. -/
theorem recent_anti {w now now' : T} (hle : now ≤ now') (l : List T) :
    recent w now' l ≤ recent w now l := by
  refine List.countP_mono_left fun t _ ht => ?_
  simp only [decide_eq_true_eq] at ht ⊢
  exact (sub_le_sub_right hle t).trans ht

/-- A queue in order, pruned, holds the recent times. -/
theorem length_prune {w now : T} {q : List T} (hq : q.Pairwise (· ≤ ·)) :
    (prune w now q).length = recent w now q := by
  induction q with
  | nil => rfl
  | cons t rest ih =>
    obtain ⟨hhead, hrest⟩ := List.pairwise_cons.mp hq
    unfold prune recent
    -- an old time is dropped, and it does not count either
    by_cases hold : w < now - t
    · have := ih hrest
      unfold prune recent at this
      have hnot : ¬ decide (now - t ≤ w) = true := by
        rw [decide_eq_true_eq, not_le]
        exact hold
      rw [List.dropWhile_cons_of_pos (by simpa using hold), this, List.countP_cons,
        if_neg hnot, Nat.add_zero]
    · -- the first time that stays is followed by later ones only
      have hall : ∀ x ∈ t :: rest, now - x ≤ w := by
        intro x hx
        rcases List.mem_cons.mp hx with rfl | hx
        · exact not_lt.mp hold
        · exact (sub_le_sub_left (hhead x hx) now).trans (not_lt.mp hold)
      have hcount : (t :: rest).countP (fun x => now - x ≤ w) = (t :: rest).length := by
        rw [List.countP_eq_length]
        intro x hx
        simpa using hall x hx
      rw [hcount]
      simp [hold]

/-- A window that holds a time of now holds only recent times besides. -/
theorem within_le_recent {w now t : T} {l : List T} (ht : now ≤ t + w) :
    within w t l ≤ recent w now l := by
  refine List.countP_mono_left fun x _ hx => ?_
  simp only [decide_eq_true_eq] at hx ⊢
  have : now - x ≤ t + w - t := sub_le_sub ht hx.1
  rwa [add_sub_cancel_left] at this

/-- A time added at `now`: no window holds more than it did, or than is recent now. -/
theorem within_append_le {w now t : T} {l : List T} {n : Nat} (hl : within w t l ≤ n)
    (hnow : recent w now (l ++ [now]) ≤ n) : within w t (l ++ [now]) ≤ n := by
  by_cases ht : now ≤ t + w
  · exact (within_le_recent ht).trans hnow
  · have : within w t (l ++ [now]) = within w t l := by
      simp [within, ht]
    rwa [this]

end

end Ser2Net.Lib
