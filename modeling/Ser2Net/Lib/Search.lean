import Mathlib
import Ser2Net.Lib.Feed

namespace Ser2Net.Lib

/-!
# Searching a stream that arrives in pieces

A pattern is looked for in what comes in, piece by piece.  Between two pieces only the last
symbols are kept, one fewer than the pattern has; after a hit nothing is kept.

* `Occurs pat bs pos` — the pattern stands at a position of a list;
* `searchStep` — one piece: what is kept, and whether there was a hit;
* `Kept` — what is kept after some pieces, `base` being where the piece with the last hit ends;
* `searchStep_hit_iff` — a hit is an occurrence after `base` that ends in the piece;
* `search_hit_iff` — the hits of a whole run.
-/

variable {α : Type*}

/-- The pattern stands at position `pos`. -/
def Occurs (pat bs : List α) (pos : Nat) : Prop := pat <+: bs.drop pos

/-- An occurrence ends inside the text. -/
theorem Occurs.le_length {pat bs : List α} {pos : Nat} (h : Occurs pat bs pos) (hne : pat ≠ []) :
    pos + pat.length ≤ bs.length := by
  have hlen := List.IsPrefix.length_le h
  have hpos := List.length_pos_of_ne_nil hne
  rw [List.length_drop] at hlen
  omega

/-- Occurring somewhere, by position. -/
theorem infix_iff_occurs {pat bs : List α} : pat <:+: bs ↔ ∃ pos, Occurs pat bs pos := by
  rw [List.infix_iff_prefix_suffix]
  constructor
  · rintro ⟨t, hpre, hsuf⟩
    exact ⟨_, List.suffix_iff_eq_drop.1 hsuf ▸ hpre⟩
  · rintro ⟨pos, h⟩
    exact ⟨_, h, List.drop_suffix _ _⟩

/-- An occurrence behind the first elements. -/
theorem occurs_drop {pat bs : List α} {k pos : Nat} :
    Occurs pat (bs.drop k) pos ↔ Occurs pat bs (k + pos) := by
  unfold Occurs
  rw [List.drop_drop]

/-- What ends in the front of a list does not depend on what follows. -/
theorem occurs_append {pat bs : List α} {pos : Nat} (cs : List α) (h : pos + pat.length ≤ bs.length) :
    Occurs pat (bs ++ cs) pos ↔ Occurs pat bs pos := by
  unfold Occurs
  have hpos : pos ≤ bs.length := by omega
  rw [List.drop_append_of_le_length hpos]
  constructor
  · intro hpre
    refine List.prefix_of_prefix_length_le hpre (List.prefix_append _ _) ?_
    rw [List.length_drop]
    omega
  · exact fun hpre => hpre.trans (List.prefix_append _ _)

/-- Where the first `i` pieces end. -/
def offset (pieces : List (List α)) (i : Nat) : Nat := (pieces.take i).flatten.length

/-- Later pieces do not move earlier ones. -/
theorem offset_append {pieces : List (List α)} {i : Nat} (more : List (List α))
    (hi : i ≤ pieces.length) : offset (pieces ++ more) i = offset pieces i := by
  rw [offset, List.take_append_of_le_length hi]
  rfl

/-- Behind the last piece the text ends. -/
theorem offset_length (pieces : List (List α)) : offset pieces pieces.length = pieces.flatten.length := by
  rw [offset, List.take_length]

/-- The offset behind one piece more. -/
theorem offset_append_singleton (pieces : List (List α)) (data : List α) :
    offset (pieces ++ [data]) (pieces.length + 1) = (pieces.flatten ++ data).length := by
  have hall : (pieces ++ [data]).take (pieces.length + 1) = pieces ++ [data] :=
    List.take_of_length_le (by simp)
  rw [offset, hall]
  simp

/-- Offsets are inside the text. -/
theorem offset_le (pieces : List (List α)) (i : Nat) : offset pieces i ≤ pieces.flatten.length := by
  have hsplit : pieces.flatten = (pieces.take i).flatten ++ (pieces.drop i).flatten := by
    rw [← List.flatten_append, List.take_append_drop]
  rw [offset, hsplit, List.length_append]
  omega

variable {pat : List α}

/-- What is kept of the stream `bs` when the last hit ended at `base`: the end of what came after
    it, and the pattern does not stand there. -/
structure Kept (pat : List α) (bs : List α) (base : Nat) (tail : List α) : Prop where
  base_le : base ≤ bs.length
  tail_eq : tail = bs.drop (max base (bs.length - (pat.length - 1)))
  none_since : ∀ pos, base ≤ pos → ¬ Occurs pat bs pos

/-- Before the first piece nothing is kept. -/
theorem kept_nil (hne : pat ≠ []) : Kept pat [] 0 [] := by
  refine ⟨Nat.le_refl _, by simp, fun pos _ h => ?_⟩
  have hlen := h.le_length hne
  have hpos := List.length_pos_of_ne_nil hne
  simp only [List.length_nil] at hlen
  omega

/-- The window is the end of the stream. -/
theorem Kept.window {bs tail data : List α} {base : Nat} (h : Kept pat bs base tail) :
    tail ++ data = (bs ++ data).drop (max base (bs.length - (pat.length - 1))) := by
  have hle : max base (bs.length - (pat.length - 1)) ≤ bs.length := by
    have := h.base_le
    omega
  rw [h.tail_eq, List.drop_append_of_le_length hle]

section
variable [DecidableEq α]

/-- One piece, after `tail` was kept of the pieces before it: what is kept now, and whether the
    pattern was found. -/
def searchStep (pat tail data : List α) : List α × List Bool :=
  let window := tail ++ data
  if pat <:+: window then ([], [true])
  else (window.drop (window.length - (pat.length - 1)), [false])

/-- **One piece.**  There is a hit exactly when the pattern occurs after the last hit and ends in
    the piece. -/
theorem searchStep_hit_iff (hne : pat ≠ []) {bs tail data : List α} {base : Nat}
    (h : Kept pat bs base tail) :
    (searchStep pat tail data).2 = [true] ↔
      ∃ pos, base ≤ pos ∧ Occurs pat (bs ++ data) pos ∧ bs.length < pos + pat.length := by
  have hpos := List.length_pos_of_ne_nil hne
  have hhit : (searchStep pat tail data).2 = [true] ↔ pat <:+: tail ++ data := by
    unfold searchStep
    by_cases hin : pat <:+: tail ++ data <;> simp [hin]
  rw [hhit, h.window, infix_iff_occurs]
  constructor
  · rintro ⟨pos, hocc⟩
    rw [occurs_drop] at hocc
    exact ⟨_, by omega, hocc, by omega⟩
  · rintro ⟨pos, hbase, hocc, hend⟩
    refine ⟨pos - max base (bs.length - (pat.length - 1)), ?_⟩
    rw [occurs_drop, Nat.add_sub_cancel' (by omega)]
    exact hocc

/-- What is kept after a hit. -/
theorem kept_hit (hne : pat ≠ []) {bs tail data : List α}
    (hhit : (searchStep pat tail data).2 = [true]) :
    Kept pat (bs ++ data) (bs ++ data).length (searchStep pat tail data).1 := by
  have hin : pat <:+: tail ++ data := by
    by_contra hout
    simp [searchStep, hout] at hhit
  refine ⟨Nat.le_refl _, ?_, fun pos hpos hocc => ?_⟩
  · rw [Nat.max_eq_left (Nat.sub_le _ _), List.drop_length]
    simp [searchStep, hin]
  · have hlen := hocc.le_length hne
    have := List.length_pos_of_ne_nil hne
    omega

/-- What is kept without one. -/
theorem kept_miss (hne : pat ≠ []) {bs tail data : List α} {base : Nat}
    (h : Kept pat bs base tail) (hmiss : ¬ (searchStep pat tail data).2 = [true]) :
    Kept pat (bs ++ data) base (searchStep pat tail data).1 := by
  have hout : ¬ pat <:+: tail ++ data := by
    intro hin
    exact hmiss (by simp [searchStep, hin])
  have hbase := h.base_le
  refine ⟨by rw [List.length_append]; omega, ?_, fun pos hpos hocc => ?_⟩
  · have htail : (searchStep pat tail data).1 =
        (tail ++ data).drop ((tail ++ data).length - (pat.length - 1)) := by
      simp [searchStep, hout]
    rw [htail, h.window, List.drop_drop, List.length_drop, List.length_append]
    congr 1
    omega
  · -- an occurrence ends before the piece, where there is none, or in it, and then it is a hit
    by_cases hend : pos + pat.length ≤ bs.length
    · exact h.none_since pos hpos ((occurs_append data hend).1 hocc)
    · exact hmiss ((searchStep_hit_iff hne h).2 ⟨pos, hpos, hocc, by omega⟩)

/-! ### Runs -/

/-- The hits of a run, piece by piece. -/
def hits (pat : List α) (pieces : List (List α)) : List Bool := (feed (searchStep pat) [] pieces).2

/-- A step answers once. -/
theorem searchStep_snd (tail data : List α) :
    (searchStep pat tail data).2 = [true] ∨ (searchStep pat tail data).2 = [false] := by
  unfold searchStep
  by_cases hin : pat <:+: tail ++ data <;> simp [hin]

/-- One piece more is one answer more. -/
theorem hits_append_singleton (pieces : List (List α)) (data : List α) :
    hits pat (pieces ++ [data]) =
      hits pat pieces ++ (searchStep pat (feed (searchStep pat) [] pieces).1 data).2 := by
  rw [hits, feed_append, feed_cons, feed_nil, List.append_nil]
  rfl

/-- An answer for each piece. -/
theorem length_hits (pieces : List (List α)) : (hits pat pieces).length = pieces.length := by
  induction pieces using List.reverseRecOn with
  | nil => rfl
  | append_singleton pieces data ih =>
    rw [hits_append_singleton, List.length_append, ih, List.length_append]
    rcases searchStep_snd (feed (searchStep pat) [] pieces).1 data with h | h <;> rw [h] <;> rfl

/-- Earlier answers stay. -/
theorem hits_getElem?_old {pieces : List (List α)} (data : List α) {j : Nat}
    (hj : j < pieces.length) : (hits pat (pieces ++ [data]))[j]? = (hits pat pieces)[j]? := by
  rw [hits_append_singleton, List.getElem?_append_left (by rw [length_hits]; exact hj)]

/-- The answer for the last piece. -/
theorem hits_getElem?_new (pieces : List (List α)) (data : List α) :
    (hits pat (pieces ++ [data]))[pieces.length]? = some true ↔
      (searchStep pat (feed (searchStep pat) [] pieces).1 data).2 = [true] := by
  rw [hits_append_singleton, List.getElem?_append_right (by rw [length_hits]), length_hits,
    Nat.sub_self]
  rcases @searchStep_snd _ pat _ (feed (searchStep pat) [] pieces).1 data with h | h <;> rw [h] <;>
    simp

/-- An answer is one of a piece. -/
theorem lt_of_hit {pieces : List (List α)} {j : Nat} (h : (hits pat pieces)[j]? = some true) :
    j < pieces.length := by
  have hlt := (List.getElem?_eq_some_iff.1 h).1
  rwa [length_hits] at hlt

/-- The piece `i` should be a hit: the pattern occurs after every piece that was a hit before, and
    ends in this one. -/
def HitAt (pat : List α) (pieces : List (List α)) (i : Nat) : Prop :=
  ∃ pos, (∀ j, j < i → (hits pat pieces)[j]? = some true → offset pieces (j + 1) ≤ pos) ∧
    Occurs pat pieces.flatten pos ∧ offset pieces i < pos + pat.length ∧
    pos + pat.length ≤ offset pieces (i + 1)

/-- What comes later does not change whether a piece should be a hit. -/
theorem hitAt_append {pieces : List (List α)} {data : List α} {i : Nat} (hi : i < pieces.length) :
    HitAt pat (pieces ++ [data]) i ↔ HitAt pat pieces i := by
  have hle := offset_le pieces (i + 1)
  unfold HitAt
  refine exists_congr fun pos => and_congr ?_ ?_
  · refine forall_congr' fun j => imp_congr_right fun hj => ?_
    rw [hits_getElem?_old data (by omega), offset_append _ (by omega)]
  · rw [offset_append _ (by omega), offset_append _ (by omega), List.flatten_append]
    constructor
    · rintro ⟨hocc, hstart, hend⟩
      exact ⟨(occurs_append _ (by omega)).1 hocc, hstart, hend⟩
    · rintro ⟨hocc, hstart, hend⟩
      exact ⟨(occurs_append _ (by omega)).2 hocc, hstart, hend⟩

/-- `base` is where the last piece that was a hit ends. -/
structure LastHit (pat : List α) (pieces : List (List α)) (base : Nat) : Prop where
  after : ∀ j, (hits pat pieces)[j]? = some true → offset pieces (j + 1) ≤ base
  reached : base = 0 ∨ ∃ j, (hits pat pieces)[j]? = some true ∧ offset pieces (j + 1) = base

/-- For the newest piece, after every hit before means after the last of them. -/
theorem LastHit.hitAt_iff (hne : pat ≠ []) {pieces : List (List α)} {base : Nat}
    (h : LastHit pat pieces base) (data : List α) :
    HitAt pat (pieces ++ [data]) pieces.length ↔
      ∃ pos, base ≤ pos ∧ Occurs pat (pieces.flatten ++ data) pos ∧
        pieces.flatten.length < pos + pat.length := by
  have hflat : (pieces ++ [data]).flatten = pieces.flatten ++ data := by simp
  unfold HitAt
  refine exists_congr fun pos => ?_
  rw [hflat, offset_append _ (Nat.le_refl _), offset_length, offset_append_singleton]
  constructor
  · rintro ⟨hafter, hocc, hstart, -⟩
    refine ⟨?_, hocc, hstart⟩
    -- no hit so far, or the base is where the last hit ended
    rcases h.reached with rfl | ⟨j, hj, rfl⟩
    · exact Nat.zero_le _
    · have hlt := lt_of_hit hj
      rw [← offset_append [data] (by omega)]
      exact hafter j hlt (by rw [hits_getElem?_old data hlt]; exact hj)
  · rintro ⟨hbase, hocc, hstart⟩
    refine ⟨fun j hj hhit => ?_, hocc, hstart, hocc.le_length hne⟩
    rw [hits_getElem?_old data hj] at hhit
    rw [offset_append _ (by omega)]
    exact (h.after j hhit).trans hbase

/-- A hit is the last one. -/
theorem lastHit_hit {pieces : List (List α)} {data : List α}
    (hhit : (searchStep pat (feed (searchStep pat) [] pieces).1 data).2 = [true]) :
    LastHit pat (pieces ++ [data]) (pieces.flatten ++ data).length := by
  refine ⟨fun j _ => ?_, Or.inr ⟨pieces.length, (hits_getElem?_new _ _).2 hhit, offset_append_singleton _ _⟩⟩
  have hle := offset_le (pieces ++ [data]) (j + 1)
  simpa using hle

/-- Without a hit the last one stays. -/
theorem LastHit.miss {pieces : List (List α)} {data : List α} {base : Nat}
    (h : LastHit pat pieces base)
    (hmiss : ¬ (searchStep pat (feed (searchStep pat) [] pieces).1 data).2 = [true]) :
    LastHit pat (pieces ++ [data]) base := by
  refine ⟨fun j hj => ?_, h.reached.imp_right fun ⟨j, hj, hoff⟩ => ?_⟩
  · have hlt : j < pieces.length := by
      have hle := lt_of_hit hj
      rw [List.length_append, List.length_singleton] at hle
      rcases Nat.lt_succ_iff_lt_or_eq.1 hle with hlt | rfl
      · exact hlt
      · exact absurd ((hits_getElem?_new _ _).1 hj) hmiss
    rw [hits_getElem?_old data hlt] at hj
    rw [offset_append _ (by omega)]
    exact h.after j hj
  · have hlt := lt_of_hit hj
    exact ⟨j, by rw [hits_getElem?_old data hlt]; exact hj, by rw [offset_append _ (by omega)]; exact hoff⟩

/-- What holds after some pieces: what is kept since the last hit, and the hits so far. -/
structure Searched (pat : List α) (pieces : List (List α)) (base : Nat) : Prop where
  kept : Kept pat pieces.flatten base (feed (searchStep pat) [] pieces).1
  last : LastHit pat pieces base
  hit_iff : ∀ i, i < pieces.length → ((hits pat pieces)[i]? = some true ↔ HitAt pat pieces i)

/-- One more piece. -/
theorem Searched.append (hne : pat ≠ []) {pieces : List (List α)} {base : Nat}
    (h : Searched pat pieces base) (data : List α) :
    ∃ base', Searched pat (pieces ++ [data]) base' := by
  have hflat : (pieces ++ [data]).flatten = pieces.flatten ++ data := by simp
  have hfeed : (feed (searchStep pat) [] (pieces ++ [data])).1 =
      (searchStep pat (feed (searchStep pat) [] pieces).1 data).1 := by
    rw [feed_append, feed_cons, feed_nil]
  have hall : ∀ i, i < (pieces ++ [data]).length →
      ((hits pat (pieces ++ [data]))[i]? = some true ↔ HitAt pat (pieces ++ [data]) i) := by
    intro i hi
    rw [List.length_append, List.length_singleton] at hi
    -- an old piece keeps its hit, the new one is looked at from the base
    rcases Nat.lt_succ_iff_lt_or_eq.1 hi with hlt | rfl
    · rw [hits_getElem?_old data hlt, hitAt_append hlt]
      exact h.hit_iff i hlt
    · rw [hits_getElem?_new, h.last.hitAt_iff hne]
      exact searchStep_hit_iff hne h.kept
  by_cases hhit : (searchStep pat (feed (searchStep pat) [] pieces).1 data).2 = [true]
  · refine ⟨(pieces.flatten ++ data).length, ?_, lastHit_hit hhit, hall⟩
    rw [hfeed, hflat]
    exact kept_hit hne hhit
  · refine ⟨base, ?_, h.last.miss hhit, hall⟩
    rw [hfeed, hflat]
    exact kept_miss hne h.kept hhit

/-- **A whole run.**  However a stream arrives, a piece is a hit exactly when the pattern occurs
    wholly after the pieces that were hits before and ends in this one. -/
theorem search_hit_iff (hne : pat ≠ []) (pieces : List (List α)) {i : Nat} (hi : i < pieces.length) :
    (hits pat pieces)[i]? = some true ↔ HitAt pat pieces i := by
  have hrun : ∃ base, Searched pat pieces base := by
    clear hi
    induction pieces using List.reverseRecOn with
    | nil => exact ⟨0, kept_nil hne, ⟨by simp [hits], Or.inl rfl⟩, by simp⟩
    | append_singleton pieces data ih =>
      obtain ⟨base, h⟩ := ih
      exact h.append hne data
  obtain ⟨base, h⟩ := hrun
  exact h.hit_iff i hi

end

end Ser2Net.Lib
