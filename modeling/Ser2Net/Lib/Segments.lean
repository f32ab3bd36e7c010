import Mathlib.Data.List.Basic
import Mathlib.Algebra.BigOperators.Group.List.Basic
import Mathlib.Algebra.GroupWithZero.Nat
import Mathlib.Tactic.Common

namespace Ser2Net.Lib

/-!
# A stream cut into segments

Records are appended to an open segment, which is closed as soon as it weighs at least
`limit`.

* `Segments.add`, `Segments.addAll` — one record and a list of records;
* `Segments.records_addAll` — no record is lost, doubled or moved;
* `Segments.full_addAll` — whatever the first segment is, what gets closed weighs `limit`;
* `Segments.Cut` — the invariant: a closed segment reached the limit with its last record, the
  open one has not reached it.
-/

variable {α : Type*} (size : α → Nat) (limit : Nat)

/-- The weight of a list of records. -/
def weight (xs : List α) : Nat := (xs.map size).sum

@[simp] theorem weight_nil : weight size ([] : List α) = 0 := rfl

/-- Weights add up. -/
@[simp] theorem weight_append (xs ys : List α) :
    weight size (xs ++ ys) = weight size xs + weight size ys := by
  simp [weight]

@[simp] theorem weight_singleton (x : α) : weight size [x] = size x := by simp [weight]

/-- The closed segments, oldest first, and the open one. -/
structure Segments (α : Type*) where
  closed : List (List α)
  current : List α

namespace Segments

/-- Append a record. -/
def add (s : Segments α) (x : α) : Segments α :=
  if limit ≤ weight size (s.current ++ [x]) then ⟨s.closed ++ [s.current ++ [x]], []⟩
  else ⟨s.closed, s.current ++ [x]⟩

/-- Append records, one after the other. -/
def addAll (s : Segments α) (xs : List α) : Segments α := xs.foldl (add size limit) s

/-- All records, oldest first. -/
def records (s : Segments α) : List α := s.closed.flatten ++ s.current

@[simp] theorem addAll_nil (s : Segments α) : s.addAll size limit [] = s := rfl

@[simp] theorem addAll_cons (s : Segments α) (x : α) (xs : List α) :
    s.addAll size limit (x :: xs) = (s.add size limit x).addAll size limit xs := rfl

/-- Records in two parts: the second one goes behind the first. -/
theorem addAll_append (s : Segments α) (xs ys : List α) :
    s.addAll size limit (xs ++ ys) = (s.addAll size limit xs).addAll size limit ys :=
  List.foldl_append

/-- One record more at the end of the stream, wherever it is put. -/
theorem records_add (s : Segments α) (x : α) :
    (s.add size limit x).records = s.records ++ [x] := by
  unfold add records
  split
  · simp
  · simp

/-- The segments are the stream, cut. -/
theorem records_addAll (s : Segments α) (xs : List α) :
    (s.addAll size limit xs).records = s.records ++ xs := by
  induction xs generalizing s with
  | nil => simp
  | cons x xs ih =>
    rw [addAll_cons, ih, records_add, List.append_assoc, List.singleton_append]

/-- A record closes only a segment that weighs enough. -/
theorem full_add (s : Segments α) (x : α) (h : ∀ seg ∈ s.closed, limit ≤ weight size seg) :
    ∀ seg ∈ (s.add size limit x).closed, limit ≤ weight size seg := by
  unfold add
  split
  · next hfull =>
    intro seg hseg
    rcases List.mem_append.1 hseg with hseg | hseg
    · exact h seg hseg
    · rw [List.mem_singleton.1 hseg]
      exact hfull
  · exact h

/-- So do records, one after the other. -/
theorem full_addAll (s : Segments α) (xs : List α)
    (h : ∀ seg ∈ s.closed, limit ≤ weight size seg) :
    ∀ seg ∈ (s.addAll size limit xs).closed, limit ≤ weight size seg := by
  induction xs generalizing s with
  | nil => exact h
  | cons x xs ih => exact ih (s.add size limit x) (full_add size limit s x h)

/-- A closed segment reached the limit with its last record; the open one has not reached it. -/
structure Cut (s : Segments α) : Prop where
  full : ∀ seg ∈ s.closed, limit ≤ weight size seg ∧ weight size seg.dropLast < limit
  current_lt : weight size s.current < limit

variable {size limit}

/-- A record keeps the cut: either it closes the open segment, which had not reached the limit
    before it, or the segment with it still has not. -/
theorem Cut.add {s : Segments α} (h : s.Cut size limit) (x : α) :
    (s.add size limit x).Cut size limit := by
  have hpos : 0 < limit := Nat.lt_of_le_of_lt (Nat.zero_le _) h.current_lt
  unfold Segments.add
  split
  · next hfull =>
    refine ⟨fun seg hseg => ?_, hpos⟩
    rcases List.mem_append.1 hseg with hseg | hseg
    · exact h.full seg hseg
    · rw [List.mem_singleton.1 hseg, List.dropLast_concat]
      exact ⟨hfull, h.current_lt⟩
  · next hfull => exact ⟨h.full, Nat.lt_of_not_le hfull⟩

/-- The cut holds behind every stream. -/
theorem Cut.addAll {s : Segments α} (h : s.Cut size limit) (xs : List α) :
    (s.addAll size limit xs).Cut size limit := by
  induction xs generalizing s with
  | nil => exact h
  | cons x xs ih => exact ih (h.add x)

end Segments

end Ser2Net.Lib
