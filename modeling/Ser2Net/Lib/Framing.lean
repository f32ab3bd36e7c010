import Mathlib

namespace Ser2Net.Lib

/-!
# Incremental frame decoders

A decoder of a stream that arrives in pieces: `take` looks at the buffered symbols and pops
one frame, asks for more, or fails for good.  A `Decoder` carries the three facts that make
such a decoder independent of the pieces: a frame and a failure are not undone by what
arrives later, and a frame consumes something.

* `drain` — pop frames until none is complete: the frames and how the buffer was left;
* `receive` — append a piece, drain, and so on, giving up at the first failure;
* `receive_eq_drain` — however a stream is cut, receiving it is draining it whole;
* `drain_flatMap` — the frames of an encoded list come back, with what follows them.
-/

/-- One look at the buffer. -/
inductive Take (β φ ε : Type)
  /-- No frame is complete yet. -/
  | need
  /-- The stream is broken. -/
  | bad (e : ε)
  /-- A frame, and what is left of the buffer. -/
  | frame (f : φ) (rest : List β)
  deriving DecidableEq, Repr

/-- How a buffer is left: waiting for more symbols, or given up. -/
inductive Buffer (β ε : Type)
  | waiting (rest : List β)
  | failed (e : ε)
  deriving DecidableEq, Repr

/-- A decoder whose answers later symbols do not change. -/
structure Decoder (β φ ε : Type) where
  take : List β → Take β φ ε
  take_nil : take [] = .need
  progress : ∀ {s f r}, take s = .frame f r → r.length < s.length
  frame_append : ∀ {s f r} (t : List β), take s = .frame f r → take (s ++ t) = .frame f (r ++ t)
  bad_append : ∀ {s e} (t : List β), take s = .bad e → take (s ++ t) = .bad e

namespace Decoder

variable {β φ ε : Type} (D : Decoder β φ ε)

/-- Pop at most `n` frames. -/
def drainN : Nat → List β → List φ × Buffer β ε
  | 0, s => ([], .waiting s)
  | n + 1, s =>
    match D.take s with
    | .need => ([], .waiting s)
    | .bad e => ([], .failed e)
    | .frame f r => (f :: (drainN n r).1, (drainN n r).2)

/-- Pop frames until none is complete. -/
def drain (s : List β) : List φ × Buffer β ε := D.drainN (s.length + 1) s

/-- A piece arrives: the frames so far, and the buffer. -/
def feed (st : List φ × Buffer β ε) (piece : List β) : List φ × Buffer β ε :=
  match st.2 with
  | .failed _ => st
  | .waiting rest => (st.1 ++ (D.drain (rest ++ piece)).1, (D.drain (rest ++ piece)).2)

/-- The frames of a stream that arrives in pieces. -/
def receive (pieces : List (List β)) : List φ × Buffer β ε :=
  pieces.foldl D.feed ([], .waiting [])

/-! ### Draining -/

/-- More rounds than there are symbols change nothing. -/
theorem drainN_eq_drain {n : Nat} {s : List β} (h : s.length < n) : D.drainN n s = D.drain s := by
  have key : ∀ (n m : Nat) (s : List β), s.length < n → s.length < m →
      D.drainN n s = D.drainN m s := by
    intro n
    induction n with
    | zero => intro m s h; omega
    | succ n ih =>
      intro m s hn hm
      cases m with
      | zero => omega
      | succ m =>
        simp only [drainN]
        cases hs : D.take s with
        | need => rfl
        | bad e => rfl
        | frame f r =>
          have hr := D.progress hs
          show (f :: (D.drainN n r).1, (D.drainN n r).2) = (f :: (D.drainN m r).1, (D.drainN m r).2)
          rw [ih m r (by omega) (by omega)]
  exact key _ _ s h (Nat.lt_succ_self _)

variable {D}

/-- The decoder waits for more. -/
theorem drain_of_need {s : List β} (h : D.take s = .need) : D.drain s = ([], .waiting s) := by
  simp only [drain, drainN, h]

/-- The decoder has failed. -/
theorem drain_of_bad {s : List β} {e : ε} (h : D.take s = .bad e) :
    D.drain s = ([], .failed e) := by
  simp only [drain, drainN, h]

/-- The decoder has a frame, and goes on. -/
theorem drain_of_frame {s r : List β} {f : φ} (h : D.take s = .frame f r) :
    D.drain s = (f :: (D.drain r).1, (D.drain r).2) := by
  have hr : D.drainN s.length r = D.drain r := D.drainN_eq_drain (D.progress h)
  rw [drain, drainN, h]
  show (f :: (D.drainN s.length r).1, (D.drainN s.length r).2) = _
  rw [hr]

/-- **Draining in two parts.**  Draining a longer stream is draining its first part, and then
    what that part left together with the rest; a failure ends it. -/
theorem drain_append (s t : List β) : D.drain (s ++ t) = D.feed (D.drain s) t := by
  induction hn : s.length using Nat.strongRecOn generalizing s with
  | _ n ih =>
    cases hs : D.take s with
    | need =>
      rw [drain_of_need hs]
      show _ = ([] ++ (D.drain (s ++ t)).1, (D.drain (s ++ t)).2)
      rw [List.nil_append]
    | bad e =>
      rw [drain_of_bad hs, drain_of_bad (D.bad_append t hs)]
      rfl
    | frame f r =>
      rw [drain_of_frame hs, drain_of_frame (D.frame_append t hs),
        ih r.length (hn ▸ D.progress hs) r rfl]
      -- the frame in front of the first part's frames is not touched
      obtain ⟨fs, buffer⟩ := D.drain r
      cases buffer <;> rfl

/-! ### Receiving -/

/-- **Independence of the pieces.**  However a stream is cut, the frames, the failure and the
    symbols left over are those of the whole stream. -/
theorem receive_eq_drain (pieces : List (List β)) : D.receive pieces = D.drain pieces.flatten := by
  have key : ∀ (pieces : List (List β)) (s : List β),
      pieces.foldl D.feed (D.drain s) = D.drain (s ++ pieces.flatten) := by
    intro pieces
    induction pieces with
    | nil =>
      intro s
      rw [List.flatten_nil, List.append_nil]
      rfl
    | cons p ps ih =>
      intro s
      rw [List.foldl_cons, ← drain_append, ih, List.flatten_cons, List.append_assoc]
  have hnil := key pieces []
  rwa [drain_of_need D.take_nil, List.nil_append] at hnil

/-- The frames of an encoded list come back in order, and what follows them is drained. -/
theorem drain_flatMap {encode : φ → List β} {fs : List φ}
    (h : ∀ f ∈ fs, ∀ t, D.take (encode f ++ t) = .frame f t) (t : List β) :
    D.drain (fs.flatMap encode ++ t) = (fs ++ (D.drain t).1, (D.drain t).2) := by
  induction fs with
  | nil => rfl
  | cons f fs ih =>
    have hf := h f List.mem_cons_self (fs.flatMap encode ++ t)
    rw [List.flatMap_cons, List.append_assoc, drain_of_frame hf,
      ih fun g hg => h g (List.mem_cons_of_mem f hg)]
    rfl

end Decoder

end Ser2Net.Lib
