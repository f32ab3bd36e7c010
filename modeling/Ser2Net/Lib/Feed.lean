import Mathlib.Data.List.Basic
import Mathlib.Tactic.Common

namespace Ser2Net.Lib

/-!
# Machines fed one symbol at a time

A machine `step : σ → β → σ × List α` reads one symbol, moves, and emits what that symbol
makes it emit.  Its state is all it keeps between two pieces of its input.

* `feed step s bs` — the state after the symbols `bs`, and what they make it emit;
* `feedAll step s pieces` — the same for an input that arrives in pieces: what each piece emits;
* `feedAll_fst`, `feedAll_snd_flatten` — however an input is cut, nothing changes;
* `feed_flatMap` — an input made of encoded tokens, when the machine is at rest between two
  of them: the tokens act one after another;
* `feed_encoded` — the same when what a token emits depends on the state;
* `prefix_flatMap` — such an input cut off anywhere.
-/

variable {σ β α τ : Type*}

/-- Read the symbols in order. -/
def feed (step : σ → β → σ × List α) : σ → List β → σ × List α
  | s, [] => (s, [])
  | s, b :: bs =>
    ((feed step (step s b).1 bs).1, (step s b).2 ++ (feed step (step s b).1 bs).2)

/-- Read the pieces in order; what each of them emits. -/
def feedAll (step : σ → β → σ × List α) : σ → List (List β) → σ × List (List α)
  | s, [] => (s, [])
  | s, p :: ps =>
    ((feedAll step (feed step s p).1 ps).1,
      (feed step s p).2 :: (feedAll step (feed step s p).1 ps).2)

variable {step : σ → β → σ × List α}

@[simp] theorem feed_nil (s : σ) : feed step s [] = (s, []) := rfl

theorem feed_cons (s : σ) (b : β) (bs : List β) :
    feed step s (b :: bs) =
      ((feed step (step s b).1 bs).1, (step s b).2 ++ (feed step (step s b).1 bs).2) := rfl

theorem feed_append (s : σ) (bs cs : List β) :
    feed step s (bs ++ cs) =
      ((feed step (feed step s bs).1 cs).1,
        (feed step s bs).2 ++ (feed step (feed step s bs).1 cs).2) := by
  induction bs generalizing s with
  | nil => rfl
  | cons b bs ih => rw [List.cons_append, feed_cons, feed_cons, ih, List.append_assoc]

/-- **Invariant rule.**  What every symbol keeps, an input keeps. -/
theorem feed_invariant {Inv : σ → Prop} (hstep : ∀ s b, Inv s → Inv (step s b).1) {s : σ}
    (hs : Inv s) (bs : List β) : Inv (feed step s bs).1 := by
  induction bs generalizing s with
  | nil => exact hs
  | cons b bs ih => exact ih (hstep s b hs)

/-! ### Pieces -/

/-- The state does not depend on the pieces. -/
theorem feedAll_fst (s : σ) (pieces : List (List β)) :
    (feedAll step s pieces).1 = (feed step s pieces.flatten).1 := by
  induction pieces generalizing s with
  | nil => rfl
  | cons p ps ih =>
    rw [List.flatten_cons, feed_append]
    exact ih _

/-- What is emitted, taken together, does not depend on the pieces. -/
theorem feedAll_snd_flatten (s : σ) (pieces : List (List β)) :
    (feedAll step s pieces).2.flatten = (feed step s pieces.flatten).2 := by
  induction pieces generalizing s with
  | nil => rfl
  | cons p ps ih =>
    rw [List.flatten_cons, feed_append]
    show (feed step s p).2 ++ (feedAll step (feed step s p).1 ps).2.flatten = _
    rw [ih]

/-! ### Tokens -/

/-- **Tokens.**  When the encoding of a token takes the machine from rest to rest, an encoded
    list of tokens acts and emits token by token. -/
theorem feed_flatMap {encode : τ → List β} {act : σ → τ → σ} {emit : τ → List α}
    {Rest : σ → Prop}
    (htoken : ∀ s t, Rest s → feed step s (encode t) = (act s t, emit t) ∧ Rest (act s t))
    {s : σ} (hs : Rest s) (ts : List τ) :
    feed step s (ts.flatMap encode) = (ts.foldl act s, ts.flatMap emit) := by
  induction ts generalizing s with
  | nil => rfl
  | cons t ts ih =>
    obtain ⟨ht, hrest⟩ := htoken s t hs
    rw [List.flatMap_cons, feed_append, ht, ih hrest, List.foldl_cons, List.flatMap_cons]

/-- **Tokens of a machine that may stop.**  When the machine reads the encoding of a token as `tok`
    says, from rest to rest, it reads an encoded list of tokens as the machine `tok` reads the
    list; what a token emits may depend on the state. -/
theorem feed_encoded {encode : τ → List β} {tok : σ → τ → σ × List α} {Rest : σ → Prop}
    (htoken : ∀ s t, Rest s → feed step s (encode t) = tok s t ∧ Rest (tok s t).1)
    {s : σ} (hs : Rest s) (ts : List τ) :
    feed step s (ts.flatMap encode) = feed tok s ts := by
  induction ts generalizing s with
  | nil => rfl
  | cons t ts ih =>
    obtain ⟨ht, hrest⟩ := htoken s t hs
    rw [List.flatMap_cons, feed_append, ht, ih hrest, feed_cons]

/-- **A stream that is cut off.**  The front of encoded tokens is whole tokens, and what there
    is of the next one. -/
theorem prefix_flatMap {encode : τ → List β} {bs : List β} {ts : List τ}
    (h : bs <+: ts.flatMap encode) :
    ∃ whole cut, whole <+: ts ∧ bs = whole.flatMap encode ++ cut ∧
      (cut = [] ∨ ∃ t, whole ++ [t] <+: ts ∧ cut <+: encode t ∧ cut ≠ encode t) := by
  induction ts generalizing bs with
  | nil =>
    rw [List.flatMap_nil, List.prefix_nil] at h
    exact ⟨[], [], List.nil_prefix, h, Or.inl rfl⟩
  | cons t ts ih =>
    rw [List.flatMap_cons] at h
    by_cases hlen : (encode t).length ≤ bs.length
    · -- the first token is there in full
      obtain ⟨rest, rfl⟩ := List.prefix_of_prefix_length_le (List.prefix_append _ _) h hlen
      rw [List.prefix_append_right_inj] at h
      obtain ⟨whole, cut, hwhole, rfl, hcut⟩ := ih h
      refine ⟨t :: whole, cut, List.cons_prefix_cons.2 ⟨rfl, hwhole⟩, by simp, ?_⟩
      refine hcut.imp_right fun ⟨u, hu, hpre, hne⟩ => ⟨u, ?_, hpre, hne⟩
      exact List.cons_prefix_cons.2 ⟨rfl, hu⟩
    -- the first token itself is cut
    · have hcut : bs <+: encode t :=
        List.prefix_of_prefix_length_le h (List.prefix_append _ _) (by omega)
      refine ⟨[], bs, List.nil_prefix, rfl, Or.inr ⟨t, ?_, hcut, ?_⟩⟩
      · exact List.cons_prefix_cons.2 ⟨rfl, List.nil_prefix⟩
      · rintro rfl
        exact hlen (Nat.le_refl _)

end Ser2Net.Lib
