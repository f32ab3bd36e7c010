import Mathlib.Data.List.Nodup
import Mathlib.Logic.Function.Basic
import Mathlib.Tactic.Common

namespace Ser2Net.Lib.Replica

/-!
# Replicas of a table

A publisher keeps a table of values by key and sends out entries of it; a replica overwrites what
it holds with what it receives.

* `overlay` — a replica after a row of entries, and `overlay_of_table` when a table has them all;
* `Holds` — the replica is the table on a set of keys, and nothing else;
* `holds_snapshot`, `Holds.delta` — all entries make it so, and the changed entries keep it so;
* `filter_mentions` — in rows that have every key once, one row has a given key, once.
-/

section
variable {κ υ : Type} [DecidableEq κ]

/-- A replica after a row of entries. -/
def overlay (view : κ → Option υ) (entries : List (κ × υ)) : κ → Option υ :=
  entries.foldl (fun view e => Function.update view e.1 (some e.2)) view

theorem overlay_append (view : κ → Option υ) (as bs : List (κ × υ)) :
    overlay view (as ++ bs) = overlay (overlay view as) bs := List.foldl_append

/-- Entries of one table: the replica has them, whatever their order, and keeps the rest. -/
theorem overlay_of_table {table : κ → υ} {entries : List (κ × υ)}
    (h : ∀ e ∈ entries, e.2 = table e.1) (view : κ → Option υ) (k : κ) :
    overlay view entries k = if k ∈ entries.map Prod.fst then some (table k) else view k := by
  induction entries generalizing view with
  | nil => rfl
  | cons e rest ih =>
    have he := h e List.mem_cons_self
    rw [overlay, List.foldl_cons]
    rw [← overlay, ih fun e' he' => h e' (List.mem_cons_of_mem _ he'), List.map_cons]
    by_cases hk : k = e.1
    · subst hk
      simp [he]
    · have hmem : k ∈ e.1 :: rest.map Prod.fst ↔ k ∈ rest.map Prod.fst := by simp [hk]
      rw [Function.update_of_ne hk]
      simp only [hmem]

/-- The replica is the table on the keys, and holds nothing else. -/
def Holds (keys : κ → Prop) [DecidablePred keys] (table : κ → υ) (view : κ → Option υ) : Prop :=
  ∀ k, view k = if keys k then some (table k) else none

variable {keys : κ → Prop} [DecidablePred keys] {table : κ → υ}

/-- All entries of a table make a replica of it. -/
theorem holds_snapshot {entries : List (κ × υ)} (h : ∀ e ∈ entries, e.2 = table e.1)
    (hkeys : ∀ k, k ∈ entries.map Prod.fst ↔ keys k) :
    Holds keys table (overlay (fun _ => none) entries) := by
  intro k
  rw [overlay_of_table h]
  simp only [hkeys]

/-- The entries in which a new table differs make a replica of the old one a replica of the
    new one. -/
theorem Holds.delta {view : κ → Option υ} {new : κ → υ} {entries : List (κ × υ)}
    (hview : Holds keys table view) (h : ∀ e ∈ entries, e.2 = new e.1)
    (hkeys : ∀ k ∈ entries.map Prod.fst, keys k)
    (hsame : ∀ k, keys k → k ∉ entries.map Prod.fst → new k = table k) :
    Holds keys new (overlay view entries) := by
  intro k
  rw [overlay_of_table h, hview k]
  by_cases hmem : k ∈ entries.map Prod.fst
  · rw [if_pos hmem, if_pos (hkeys k hmem)]
  · rw [if_neg hmem]
    by_cases hk : keys k
    · rw [if_pos hk, if_pos hk, hsame k hk hmem]
    · rw [if_neg hk, if_neg hk]

end

/-! ### Rows that mention a key -/

section
variable {δ α β : Type} [DecidableEq α] {p : α → Bool} {rows : List (δ × List α)}

omit [DecidableEq α] in
/-- Where no row has the key, none mentions it. -/
theorem filter_mentions_nil (g : δ → α → β) (h : ∀ row ∈ rows, ∀ a ∈ row.2, p a = false) :
    (rows.map fun row => (row.2.filter p).map (g row.1)).filter (!·.isEmpty) = [] := by
  rw [List.filter_eq_nil_iff]
  intro l hl
  obtain ⟨row, hrow, rfl⟩ := List.mem_map.1 hl
  have hnone : row.2.filter p = [] := by
    rw [List.filter_eq_nil_iff]
    intro a ha
    simp [h row hrow a ha]
  simp [hnone]

/-- Rows that have no element twice, within a row or in two rows, mention a key that they have in
    one row, once. -/
theorem filter_mentions (g : δ → α → β) (hnd : (rows.flatMap Prod.snd).Nodup) {d : δ}
    {l : List α} {a : α} (hrow : (d, l) ∈ rows) (ha : a ∈ l)
    (hp : ∀ b ∈ rows.flatMap Prod.snd, p b = true ↔ b = a) :
    (rows.map fun row => (row.2.filter p).map (g row.1)).filter (!·.isEmpty) = [[g d a]] := by
  induction rows with
  | nil => cases hrow
  | cons row rest ih =>
    rw [List.flatMap_cons, List.nodup_append] at hnd
    rw [List.flatMap_cons] at hp
    obtain ⟨hrow1, hrest, hdisj⟩ := hnd
    have hprest : ∀ b ∈ rest.flatMap Prod.snd, p b = true ↔ b = a := fun b hb =>
      hp b (List.mem_append_right _ hb)
    rw [List.map_cons, List.filter_cons]
    rcases List.mem_cons.1 hrow with rfl | hmem
    · -- this row has the key, so the others do not
      have hone : l.filter p = [a] := by
        have hcongr : l.filter p = l.filter (· == a) := by
          refine List.filter_congr fun b hb => ?_
          rw [Bool.eq_iff_iff, hp b (List.mem_append_left _ hb), beq_iff_eq]
        rw [hcongr, List.filter_beq, List.count_eq_one_of_mem hrow1 ha, List.replicate_one]
      have hnone := @filter_mentions_nil _ _ _ p rest g (by
        intro row' hrow' b hb
        have hb' := List.mem_flatMap.2 ⟨row', hrow', hb⟩
        rw [Bool.eq_false_iff, ne_eq, hprest b hb']
        rintro rfl
        exact hdisj b ha b hb' rfl)
      rw [hone, hnone]
      rfl
    -- the key is in another row, so this one has nothing to report
    · have hnone : row.2.filter p = [] := by
        rw [List.filter_eq_nil_iff]
        intro b hb hpb
        obtain rfl := (hp b (List.mem_append_left _ hb)).1 hpb
        exact hdisj b hb b (List.mem_flatMap.2 ⟨(d, l), hmem, ha⟩) rfl
      rw [hnone, ih hrest hmem hprest]
      rfl

end

end Ser2Net.Lib.Replica
