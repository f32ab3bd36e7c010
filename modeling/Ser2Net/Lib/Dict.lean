import Mathlib.Data.List.Nodup
import Mathlib.Tactic.Common

namespace Ser2Net.Lib

/-!
# Dictionaries in insertion order

A Python dictionary as the list of its items: `List.lookup` reads a key and `dictSet` is the
assignment `d[k] = v`, which keeps the position of a key that is there already.

* `mem_of_lookup`, `lookup_of_mem`, `lookup_eq_none` — reading, with distinct keys;
* `dictSet_nodup`, `mem_dictSet`, `lookup_dictSet` — what an assignment keeps and adds;
* `foldl_dictSet` — assignments of distinct keys, one after the other.
-/

variable {κ υ : Type}

/-- A key has a value. -/
theorem mem_keys {d : List (κ × υ)} {k : κ} : k ∈ d.map Prod.fst ↔ ∃ v, (k, v) ∈ d := by
  simp

section
variable [BEq κ] [LawfulBEq κ]

/-- What a lookup finds is an item. -/
theorem mem_of_lookup {d : List (κ × υ)} {k : κ} {v : υ} (h : d.lookup k = some v) :
    (k, v) ∈ d := by
  obtain ⟨before, after, rfl, -⟩ := List.lookup_eq_some_iff.1 h
  simp

/-- With distinct keys an item is what a lookup of its key finds. -/
theorem lookup_of_mem {d : List (κ × υ)} (hnd : (d.map Prod.fst).Nodup) {k : κ} {v : υ}
    (h : (k, v) ∈ d) : d.lookup k = some v := by
  induction d with
  | nil => cases h
  | cons e rest ih =>
    rw [List.map_cons, List.nodup_cons] at hnd
    rcases List.mem_cons.1 h with rfl | h
    · simp
    · have hne : k ≠ e.1 := fun he => hnd.1 (he ▸ List.mem_map_of_mem h)
      rw [List.lookup_cons, beq_false_of_ne hne]
      exact ih hnd.2 h

/-- What is not found is no key. -/
theorem lookup_eq_none {d : List (κ × υ)} {k : κ} :
    d.lookup k = none ↔ k ∉ d.map Prod.fst := by
  rw [List.lookup_eq_none_iff, List.mem_map]
  constructor
  · rintro h ⟨e, he, rfl⟩
    simpa using h e he
  · intro h e he
    rw [bne_iff_ne]
    rintro rfl
    exact h ⟨e, he, rfl⟩

end

variable [DecidableEq κ]

/-- `d[k] = v`. -/
def dictSet (d : List (κ × υ)) (k : κ) (v : υ) : List (κ × υ) :=
  if k ∈ d.map Prod.fst then d.map fun e => if e.1 = k then (k, v) else e else d ++ [(k, v)]

/-- A key keeps its place, or comes last. -/
theorem dictSet_keys (d : List (κ × υ)) (k : κ) (v : υ) :
    (dictSet d k v).map Prod.fst =
      if k ∈ d.map Prod.fst then d.map Prod.fst else d.map Prod.fst ++ [k] := by
  unfold dictSet
  split
  · rw [List.map_map]
    refine List.map_congr_left fun e _ => ?_
    simp only [Function.comp_apply]
    split
    next h => exact h.symm
    next => rfl
  · simp

/-- The keys stay distinct. -/
theorem dictSet_nodup {d : List (κ × υ)} (h : (d.map Prod.fst).Nodup) (k : κ) (v : υ) :
    ((dictSet d k v).map Prod.fst).Nodup := by
  rw [dictSet_keys]
  split
  · exact h
  next hk => exact List.nodup_append_comm.1 (List.nodup_cons.2 ⟨hk, h⟩)

/-- The items after an assignment. -/
theorem mem_dictSet {d : List (κ × υ)} {k l : κ} {v w : υ} (h : (l, w) ∈ dictSet d k v) :
    (l = k ∧ w = v) ∨ (l ≠ k ∧ (l, w) ∈ d) := by
  unfold dictSet at h
  split at h
  · obtain ⟨e, he, heq⟩ := List.mem_map.1 h
    split at heq
    next hn =>
      simp only [Prod.mk.injEq] at heq
      exact Or.inl ⟨heq.1.symm, heq.2.symm⟩
    next hn =>
      subst heq
      exact Or.inr ⟨hn, he⟩
  next hk =>
    rcases List.mem_append.1 h with h | h
    · refine Or.inr ⟨fun hl => hk ?_, h⟩
      exact hl ▸ List.mem_map_of_mem (f := Prod.fst) h
    · simp only [List.mem_singleton, Prod.mk.injEq] at h
      exact Or.inl h

/-- The other keys of a dictionary in which the items of one key are replaced. -/
theorem lookup_replace_of_ne [BEq κ] [LawfulBEq κ] (d : List (κ × υ)) {k l : κ} (v : υ)
    (hl : l ≠ k) : (d.map fun e => if e.1 = k then (k, v) else e).lookup l = d.lookup l := by
  induction d with
  | nil => rfl
  | cons e rest ih =>
    rw [List.map_cons, List.lookup_cons, List.lookup_cons, ih]
    by_cases he : e.1 = k
    · rw [if_pos he, he, beq_false_of_ne hl]
    · rw [if_neg he]

/-- The value that was written over another. -/
theorem lookup_replace_self [BEq κ] [LawfulBEq κ] {d : List (κ × υ)} {k : κ} (v : υ)
    (hk : k ∈ d.map Prod.fst) :
    (d.map fun e => if e.1 = k then (k, v) else e).lookup k = some v := by
  induction d with
  | nil => simp at hk
  | cons e rest ih =>
    rw [List.map_cons, List.lookup_cons]
    by_cases he : e.1 = k
    · rw [if_pos he, beq_self_eq_true]
    · have hne : k ≠ e.1 := fun h => he h.symm
      rw [if_neg he, beq_false_of_ne hne]
      rw [List.map_cons, List.mem_cons] at hk
      exact ih (hk.resolve_left hne)

/-- Reading a dictionary after an assignment. -/
theorem lookup_dictSet [BEq κ] [LawfulBEq κ] (d : List (κ × υ)) (k l : κ) (v : υ) :
    (dictSet d k v).lookup l = if l = k then some v else d.lookup l := by
  unfold dictSet
  by_cases hl : l = k
  · subst hl
    rw [if_pos rfl]
    split
    next hk => exact lookup_replace_self v hk
    next hk =>
      rw [List.lookup_append, lookup_eq_none.2 hk]
      simp
  · rw [if_neg hl]
    split
    next => exact lookup_replace_of_ne d v hl
    next =>
      rw [List.lookup_append, List.lookup_cons, beq_false_of_ne hl]
      simp

/-- A dictionary filled from values with distinct keys holds them in their order. -/
theorem foldl_dictSet (key : υ → κ) (l : List υ) (d : List (κ × υ))
    (hnd : (d.map Prod.fst ++ l.map key).Nodup) :
    l.foldl (fun t v => dictSet t (key v) v) d = d ++ l.map fun v => (key v, v) := by
  induction l generalizing d with
  | nil => simp
  | cons v l ih =>
    have hnew : key v ∉ d.map Prod.fst := by
      intro hmem
      exact (List.disjoint_of_nodup_append hnd) hmem (by simp)
    have hset : dictSet d (key v) v = d ++ [(key v, v)] := by
      rw [dictSet, if_neg hnew]
    rw [List.foldl_cons, hset, ih _ (by simpa using hnd)]
    simp

end Ser2Net.Lib
