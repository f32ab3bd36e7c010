import Mathlib.Data.List.Basic
import Mathlib.Tactic.Common

namespace Ser2Net.Lib

/-!
# Streams of terminated pieces

A stream in which every piece ends with a delimiter, up to an unterminated rest: the pieces are
what `List.splitOn` makes of it, the last of them being the rest.

* `terminated` — pieces, each with its delimiter;
* `exists_terminated` — every stream is such pieces and a rest;
* `splitOn_terminated` — cutting takes the pieces off;
* `splitOn_cons_prefix` — what stands before the first delimiter begins the first piece.
-/

variable {α : Type*}

/-- The pieces one after another, each with the delimiter at its end. -/
def terminated (d : α) (pieces : List (List α)) : List α := pieces.flatMap (· ++ [d])

/-- Every stream is terminated pieces and a rest. -/
theorem exists_terminated (d : α) (bs : List α) :
    ∃ pieces rest, bs = terminated d pieces ++ rest ∧ (∀ p ∈ pieces, d ∉ p) ∧ d ∉ rest := by
  induction bs with
  | nil => exact ⟨[], [], rfl, by simp, by simp⟩
  | cons b bs ih =>
    obtain ⟨pieces, rest, rfl, hpieces, hrest⟩ := ih
    by_cases hb : b = d
    · refine ⟨[] :: pieces, rest, by simp [terminated, hb], ?_, hrest⟩
      intro p hp
      rcases List.mem_cons.1 hp with rfl | hp
      · simp
      · exact hpieces p hp
    -- another symbol goes to the front of the first piece, or of the rest
    · have hne : d ≠ b := fun h => hb h.symm
      cases pieces with
      | nil => exact ⟨[], b :: rest, by simp [terminated], by simp, by simp [hne, hrest]⟩
      | cons p pieces =>
        refine ⟨(b :: p) :: pieces, rest, by simp [terminated], ?_, hrest⟩
        intro q hq
        rcases List.mem_cons.1 hq with rfl | hq
        · simpa [hne] using hpieces p List.mem_cons_self
        · exact hpieces q (List.mem_cons_of_mem _ hq)

variable [BEq α] [LawfulBEq α] {d : α}

/-- Cutting takes the terminated pieces off. -/
theorem splitOn_terminated {pieces : List (List α)} (h : ∀ p ∈ pieces, d ∉ p) (rest : List α) :
    (terminated d pieces ++ rest).splitOn d = pieces ++ rest.splitOn d := by
  induction pieces with
  | nil => rfl
  | cons p pieces ih =>
    have hp : p.splitOn d = [p] := List.splitOn_eq_singleton (h p List.mem_cons_self)
    have hstream : terminated d (p :: pieces) ++ rest = p ++ d :: (terminated d pieces ++ rest) := by
      simp [terminated]
    rw [hstream, List.splitOn_append_cons_self, hp, ih fun q hq => h q (List.mem_cons_of_mem _ hq)]
    rfl

/-- What stands before the first delimiter begins the first piece. -/
theorem splitOn_cons_prefix {part : List α} (h : d ∉ part) (bs : List α) :
    ∃ more pieces, (part ++ bs).splitOn d = (part ++ more) :: pieces := by
  obtain ⟨pieces, rest, rfl, hpieces, hrest⟩ := exists_terminated d bs
  cases pieces with
  | nil =>
    have hall : d ∉ part ++ rest := by simp [h, hrest]
    exact ⟨rest, [], List.splitOn_eq_singleton hall⟩
  | cons p pieces =>
    have hp : d ∉ part ++ p := by simp [h, hpieces p List.mem_cons_self]
    have hstream : part ++ (terminated d (p :: pieces) ++ rest) =
        (part ++ p) ++ d :: (terminated d pieces ++ rest) := by
      simp [terminated]
    refine ⟨p, (terminated d pieces ++ rest).splitOn d, ?_⟩
    rw [hstream, List.splitOn_append_cons_self, List.splitOn_eq_singleton hp]
    rfl

end Ser2Net.Lib
