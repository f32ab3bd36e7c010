import Ser2Net.Import.Reader

namespace Ser2Net.Import

open Ser2Net.Lib Ser2Net.Config Logged

/-!
# Import — the reader ends

The functions of the YAML reader call one another with a bound on the depth of their calls,
which raises `fuel` when it is used up.  It never is: every call is made on a reader that is
further on, where further on is fewer unread lines, or a first line without its item marker.

* `Watches` — which exceptions and conversions a statement is about; the lemmas on the reader
  hold for all of them, `fuel` being one;
* `Flow.Read`, `weight` — how far a flow collection and the block structure have come;
* `Flow.clean_value`, `Reader.clean_block` — the recursive functions with enough fuel;
* `documents_ends` — the whole text.
-/

variable {foreign flowForeign : ImportExc → Prop} {bad flowBad : Literal → Prop}

/-- What is counted: the exceptions `foreign` and the conversions `bad`, and inside a flow
    collection those that turn into them. -/
structure Watches (foreign flowForeign : ImportExc → Prop) (bad flowBad : Literal → Prop) :
    Prop where
  yaml : ∀ line msg, ¬ foreign (.yaml line msg)
  valueError : ∀ msg, ¬ flowForeign (.valueError msg)
  chr : ∀ n, Clean foreign bad (fun _ => True) (chr n)
  flowChr : ∀ n, Clean flowForeign flowBad (fun _ => True) (Import.chr n)
  caught : ∀ line e, foreign (Reader.catchValueError line e) ↔ flowForeign e
  marked : ∀ l, bad (Reader.markFlow l) ↔ flowBad l

/-! ### Quoted scalars -/

/-- Only `chr` can raise, once for each escape. -/
theorem clean_dqUnescapeFrom (hchr : ∀ n, Clean foreign bad (fun _ => True) (chr n)) (skip : Nat)
    (t : Text) : Clean foreign bad (fun _ => True) (dqUnescapeFrom skip t) := by
  induction t generalizing skip with
  | nil => cases skip <;> exact clean_pure trivial
  | cons c rest ih =>
    cases skip with
    | succ skip => exact ih skip
    | zero =>
      rw [dqUnescapeFrom]
      refine clean_ite (fun _ => ?_) fun _ => ?_
      · cases numericEscape rest with
        | some digits =>
          refine clean_bind (hchr _) fun ch _ => ?_
          exact clean_bind (ih _) fun out _ => clean_pure trivial
        | none =>
          cases rest.head? with
          | none => exact clean_pure trivial
          | some e => exact clean_bind (ih _) fun out _ => clean_pure trivial
      · exact clean_bind (ih _) fun out _ => clean_pure trivial

/-- The lines of a quoted scalar, folded and unescaped. -/
theorem clean_foldQuoted (hchr : ∀ n, Clean foreign bad (fun _ => True) (chr n))
    (parts : List Text) (quote : Char) :
    Clean foreign bad (fun _ => True) (foldQuoted parts quote) := by
  refine clean_ite (fun _ => ?_) fun _ => ?_
  · exact clean_dqUnescapeFrom hchr 0 _
  · exact clean_pure trivial

/-! ### Flow collections -/

namespace Cursor

/-- What is skipped is gone from the text. -/
theorem length_skipWs (comment : Bool) (prev : Option Char) (t : Text) :
    (skipWs comment prev t).rest.length ≤ t.length := by
  induction t generalizing comment prev with
  | nil => exact le_refl _
  | cons c rest ih =>
    rw [skipWs]
    split_ifs
    · exact (ih _ _).trans (Nat.le_succ _)
    · exact (ih _ _).trans (Nat.le_succ _)
    · exact (ih _ _).trans (Nat.le_succ _)
    · exact le_refl _

/-- White space and comments only shorten the text. -/
theorem length_ws (a : Cursor) : a.ws.rest.length ≤ a.rest.length := length_skipWs ..

/-- As many characters are gone as were read. -/
theorem length_advance (a : Cursor) (n : Nat) :
    (a.advance n).rest.length = a.rest.length - n := List.length_drop ..

/-- Reading nothing. -/
theorem advance_zero (a : Cursor) : a.advance 0 = a := rfl

/-- A place in front of a character is not the end. -/
theorem pos_of_at {a : Cursor} {c : Char} (h : a.at c = true) : 0 < a.rest.length := by
  unfold Cursor.at at h
  cases hrest : a.rest with
  | nil => simp [hrest] at h
  | cons d rest => exact Nat.succ_pos _

/-- In front of a closing bracket there is no white space to skip. -/
theorem ws_of_at_closing {a : Cursor} {opening : Char} (h : a.at (closing opening) = true) :
    a.ws = a := by
  unfold Cursor.at at h
  obtain ⟨prev, rest⟩ := a
  cases rest with
  | nil => simp at h
  | cons c rest =>
    obtain rfl : c = closing opening := by simpa using h
    have hblank : [' ', '\t', '\n'].contains (closing opening) = false := by
      unfold closing
      split <;> rfl
    have hhash : closing opening ≠ '#' := by
      unfold closing
      split <;> decide
    rw [Cursor.ws, skipWs, if_neg (by simp), hblank, if_neg (by simp), if_neg (by simp [hhash])]

end Cursor

namespace Flow

variable {env : ImportEnv} {anchors : List (Text × Node)}

/-- The value `p` read at `a`: the place behind it is further on, or it is an empty item. -/
def Read (a : Cursor) (p : Node × Cursor) : Prop :=
  p.2.rest.length < a.rest.length ∨ p = (.text [], a.ws)

/-- A value never gives characters back. -/
theorem Read.length_le {a : Cursor} {p : Node × Cursor} (h : Read a p) :
    p.2.rest.length ≤ a.rest.length := by
  rcases h with h | rfl
  · exact h.le
  · exact a.length_ws

/-- A scalar takes a character, or it is empty and the cursor stays. -/
theorem clean_scalar (w : Watches foreign flowForeign bad flowBad) (a : Cursor) :
    Clean flowForeign flowBad
      (fun p => p.2.rest.length < a.rest.length ∨ p = (.text [], a)) (Flow.scalar anchors a) := by
  -- a scalar takes a character, unless it is the empty plain one
  unfold Flow.scalar
  cases hrest : a.rest with
  | nil => exact clean_pure (.inr rfl)
  | cons c tail =>
    have hadvance : ∀ n, 0 < n → (a.advance n).rest.length < (c :: tail).length := by
      intro n hn
      rw [Cursor.length_advance, hrest, List.length_cons]
      omega
    dsimp only
    refine clean_ite (fun _ => ?_) fun _ => clean_ite (fun _ => ?_) fun _ => ?_
    · cases closeQuote c tail with
      | none => exact clean_raise (w.valueError _)
      | some stop =>
        refine clean_bind (clean_foldQuoted w.flowChr _ c) fun t _ => ?_
        exact clean_pure (.inl (hadvance _ (Nat.succ_pos _)))
    · cases anchors.lookup (aliasName tail) with
      | none => exact clean_raise (w.valueError _)
      | some node => exact clean_pure (.inl (hadvance _ (by omega)))
    · refine clean_pure ?_
      -- a plain scalar may be empty, and then the loop of the collection looks at the sign
      rcases Nat.eq_zero_or_pos (flowPlain a.prev (c :: tail)) with hzero | hpos
      · right
        rw [hzero, List.take_zero]
        exact congrArg _ a.advance_zero
      · exact .inl (hadvance _ hpos)

/-- In front of the closing bracket the loop ends. -/
theorem collection_closed {opening : Char} {a : Cursor} (h : a.at (closing opening) = true)
    (fuel : Nat) (items : List Node) (entries : List (Text × Node × Text)) :
    Flow.collection env anchors opening (fuel + 1) a items entries =
      pure (if opening = '[' then .seq items else .map entries, a.advance 1) := by
  rw [Flow.collection, Cursor.ws_of_at_closing h, if_pos h]

/-- Both functions with enough fuel. -/
theorem clean_value_collection (w : Watches foreign flowForeign bad flowBad) (fuel : Nat) :
    (∀ a : Cursor, 2 * a.rest.length + 1 ≤ fuel →
      Clean flowForeign flowBad (Read a) (Flow.value env anchors fuel a)) ∧
    ∀ (opening : Char) (a : Cursor) items entries, 2 * a.rest.length + 2 ≤ fuel →
      Clean flowForeign flowBad (fun p => p.2.rest.length < a.rest.length)
        (Flow.collection env anchors opening fuel a items entries) := by
  induction fuel with
  | zero => exact ⟨fun a h => absurd h (by omega), fun opening a items entries h => absurd h (by omega)⟩
  | succ fuel ih =>
    obtain ⟨ihv, ihc⟩ := ih
    constructor
    · intro a hfuel
      have hws := a.length_ws
      have hcollection : ∀ opening, a.ws.at opening = true → Clean flowForeign flowBad (Read a)
          (Flow.collection env anchors opening fuel (a.ws.advance 1) [] []) := by
        intro opening hat
        have hpos := Cursor.pos_of_at hat
        have hlength := a.ws.length_advance 1
        refine (ihc opening _ [] [] (by omega)).mono fun p hp => .inl ?_
        omega
      rw [Flow.value]
      refine clean_ite (hcollection '[') fun _ => clean_ite (hcollection '{') fun _ => ?_
      refine (clean_scalar w a.ws).mono fun p hp => ?_
      exact hp.imp (fun h => h.trans_le hws) id
    · intro opening a items entries hfuel
      have hws := a.length_ws
      rw [Flow.collection]
      refine clean_ite (fun hclose => clean_pure ?_) fun _ => ?_
      · have hpos := Cursor.pos_of_at hclose
        have hlength := a.ws.length_advance 1
        show (a.ws.advance 1).rest.length < a.rest.length
        omega
      refine clean_bind (ihv a.ws (by omega)) ?_
      rintro ⟨item, b⟩ hb
      have hb : b.rest.length ≤ a.ws.rest.length := hb.length_le
      have hbws := b.length_ws
      dsimp only
      -- a mapping has a value behind the colon
      refine clean_bind (P := fun q => q.2.2.rest.length ≤ b.rest.length) ?_ ?_
      · refine clean_ite (fun _ => ?_) fun _ => clean_pure hbws
        refine clean_bind (P := fun q => q.2.rest.length ≤ b.rest.length) ?_ ?_
        · refine clean_ite (fun hcolon => ?_) fun _ => clean_pure hbws
          have hpos := Cursor.pos_of_at hcolon
          have hlength := b.ws.length_advance 1
          refine clean_bind (ihv (b.ws.advance 1) (by omega)) ?_
          rintro ⟨val, c⟩ hc
          have hc : c.rest.length ≤ (b.ws.advance 1).rest.length := hc.length_le
          have hcws := c.length_ws
          refine clean_pure ?_
          show c.ws.rest.length ≤ b.rest.length
          omega
        · rintro ⟨val, c⟩ hc
          exact clean_pure hc
      · rintro ⟨items', entries', c⟩ hc
        have hc : c.rest.length ≤ b.rest.length := hc
        have hlength := c.length_advance 1
        dsimp only
        refine clean_ite (fun hcomma => ?_) fun _ => clean_ite (fun hclose => ?_) fun _ => ?_
        · have hpos := Cursor.pos_of_at hcomma
          refine (ihc opening _ items' entries' (by omega)).mono fun p hp => ?_
          omega
        · obtain ⟨fuel, rfl⟩ : ∃ n, fuel = n + 1 := ⟨fuel - 1, by omega⟩
          have hpos := Cursor.pos_of_at hclose
          rw [collection_closed hclose]
          refine clean_pure ?_
          show (c.advance 1).rest.length < a.rest.length
          omega
        · exact clean_raise (w.valueError _)

/-- A flow collection and everything inside it. -/
theorem clean_read (w : Watches foreign flowForeign bad flowBad) (text : Text) :
    Clean flowForeign flowBad (fun _ => True) (Flow.read env anchors text) := by
  refine clean_bind ((clean_value_collection w _).1 ⟨none, text⟩ ?_) fun p _ => clean_pure trivial
  show 2 * text.length + 1 ≤ 3 * text.length + 2
  omega

end Flow

/-! ### Scalars over several lines -/

namespace Reader

variable {r : Reader}

/-- The second reader has no line to read that the first has not. -/
def Behind (r r' : Reader) : Prop := r'.lines <:+ r.lines

/-- The second reader is behind the first and has fewer lines to read. -/
def Further (r r' : Reader) : Prop := r'.lines <:+ r.lines ∧ r'.lines.length < r.lines.length

/-- No line is given back. -/
theorem Behind.refl (r : Reader) : Behind r r := List.suffix_refl _

/-- One part of the reading after another. -/
theorem Behind.trans {r' r'' : Reader} (h : Behind r r') (h' : Behind r' r'') : Behind r r'' :=
  List.IsSuffix.trans h' h

/-- Further on, and then on. -/
theorem Further.trans_behind {r' r'' : Reader} (h : Further r r') (h' : Behind r' r'') :
    Further r r'' :=
  ⟨List.IsSuffix.trans h' h.1, (List.IsSuffix.length_le h').trans_lt h.2⟩

/-- On, and then further on. -/
theorem Behind.trans_further {r' r'' : Reader} (h : Behind r r') (h' : Further r' r'') :
    Further r r'' :=
  ⟨List.IsSuffix.trans h'.1 h, h'.2.trans_le (List.IsSuffix.length_le h)⟩

/-- A line that is skipped is gone. -/
theorem behind_skip (r : Reader) : Behind r r.skip := List.tail_suffix _

/-- A line that is taken is gone. -/
theorem behind_take (r : Reader) : Behind r r.take := List.tail_suffix _

/-- Where there is a line, it is taken. -/
theorem further_take {line : Text} {rest : List Text} (h : r.lines = line :: rest) :
    Further r r.take := by
  refine ⟨behind_take r, ?_⟩
  show r.lines.tail.length < r.lines.length
  rw [h]
  exact Nat.lt_succ_self _

/-- What is left behind insignificant lines is an end of the text. -/
theorem suffix_skipInsignificant (l : List Text) (i : Nat) : (skipInsignificant l i).1 <:+ l := by
  induction l generalizing i with
  | nil => exact List.suffix_refl _
  | cons line rest ih =>
    rw [skipInsignificant]
    split_ifs
    · exact (ih _).trans (List.suffix_cons _ _)
    · exact List.suffix_refl _

/-- Looking ahead goes past insignificant lines. -/
theorem behind_advance (r : Reader) : Behind r r.advance := suffix_skipInsignificant ..

/-- The loop of `_plain`; its lines are those of the reader. -/
theorem behind_plainFrom {parent : Int} {out : Text} {breaks : Nat} {lines : List Text}
    (h : r.lines = lines) : Behind r (plainFrom parent out breaks lines r).2 := by
  induction lines generalizing r out breaks with
  | nil => exact .refl r
  | cons line rest ih =>
    have hrest : r.lines.tail = rest := by rw [h, List.tail_cons]
    have hskip : ∀ out breaks, Behind r (plainFrom parent out breaks rest r.skip).2 :=
      fun out breaks => (behind_skip r).trans (ih hrest)
    rw [plainFrom]
    dsimp only
    by_cases hblank : (indent line).2 = []
    · rw [if_pos hblank]
      exact hskip _ _
    rw [if_neg hblank]
    cases isComment (indent line).2 with
    | true => exact hskip _ _
    | false =>
      cases decide ((indent line).1 ≤ parent) || boundary (indent line).1 (indent line).2 with
      | true => exact .refl r
      | false => exact (behind_take r).trans (ih hrest)

/-- A plain scalar takes the lines that continue it. -/
theorem behind_plain (r : Reader) (first : Text) (parent : Int) :
    Behind r (r.plain first parent).2 := behind_plainFrom rfl

/-- The loop of `_block_scalar`. -/
theorem behind_blockLines {parent indentation : Int} {out : List Text} {lines : List Text}
    (h : r.lines = lines) : Behind r (blockLines parent indentation out lines r).2 := by
  induction lines generalizing r out indentation with
  | nil => exact .refl r
  | cons line rest ih =>
    have hrest : r.lines.tail = rest := by rw [h, List.tail_cons]
    rw [blockLines]
    dsimp only
    by_cases hblank : (indent line).2 = []
    · rw [if_pos hblank]
      exact (behind_skip r).trans (ih hrest)
    rw [if_neg hblank]
    generalize (if indentation < 0 then (indent line).1 else indentation) = width
    cases decide ((indent line).1 < width) || decide ((indent line).1 ≤ parent) with
    | true => exact .refl r
    | false => exact (behind_take r).trans (ih hrest)

section
variable (w : Watches foreign flowForeign bad flowBad)
include w

/-- An error of the reader is a `_YamlError`. -/
theorem clean_err {α : Type} {P : α → Prop} (r : Reader) (msg : Text) :
    Clean foreign bad P (r.err msg : ImportM α) := clean_raise (w.yaml _ _)

/-- The same at the line that is next. -/
theorem clean_errHere {α : Type} {P : α → Prop} (r : Reader) (msg : Text) :
    Clean foreign bad P (r.errHere msg : ImportM α) := clean_raise (w.yaml _ _)

/-- A block scalar takes its lines or has a bad header. -/
theorem clean_blockScalar (r : Reader) (header : Text) (parent : Int) :
    Clean foreign bad (fun p => Behind r p.2) (r.blockScalar header parent) := by
  unfold blockScalar
  cases blockHeader header with
  | none => exact clean_err w r _
  | some h => exact clean_pure (behind_blockLines rfl)

/-- The end of a quoted scalar. -/
theorem clean_finishQuoted (r : Reader) (quote : Char) (before : List Text) (part : Text)
    (stop : Nat) :
    Clean foreign bad (fun p => Behind r p.2) (r.finishQuoted quote before part stop) := by
  unfold finishQuoted
  refine clean_ite (fun _ => clean_err w r _) fun _ => ?_
  exact clean_bind (clean_foldQuoted w.chr _ quote) fun t _ => clean_pure (.refl r)

/-- The loop of `_quoted`. -/
theorem clean_quotedFrom {quote : Char} {before : List Text} {part : Text} {lines : List Text}
    (h : r.lines = lines) :
    Clean foreign bad (fun p => Behind r p.2) (quotedFrom quote before part lines r) := by
  induction lines generalizing r before part with
  | nil =>
    rw [quotedFrom]
    cases closeQuote quote part with
    | none => exact clean_err w r _
    | some stop => exact clean_finishQuoted w r quote before part stop
  | cons line rest ih =>
    rw [quotedFrom]
    cases closeQuote quote part with
    | none =>
      have hrest : r.take.lines = rest := by
        show r.lines.tail = rest
        rw [h, List.tail_cons]
      exact (ih hrest).mono fun p hp => (behind_take r).trans hp
    | some stop => exact clean_finishQuoted w r quote before part stop

/-- A quoted scalar takes the lines up to its closing quote. -/
theorem clean_quoted (r : Reader) (quote : Char) (tail : Text) :
    Clean foreign bad (fun p => Behind r p.2) (r.quoted quote tail) := clean_quotedFrom w rfl

/-- The end of a flow collection. -/
theorem clean_finishFlow (env : ImportEnv) (r : Reader) (text : Text) (stop : Nat) :
    Clean foreign bad (fun p => Behind r p.2) (r.finishFlow env text stop) := by
  unfold finishFlow
  refine clean_ite (fun _ => clean_err w r _) fun _ => ?_
  refine clean_bind (clean_handle (Flow.clean_read w _) (w.caught _) w.marked) fun node _ => ?_
  exact clean_pure (.refl r)

/-- The loop of `_flow`. -/
theorem clean_flowFrom {env : ImportEnv} {text : Text} {lines : List Text} (h : r.lines = lines) :
    Clean foreign bad (fun p => Behind r p.2) (flowFrom env text lines r) := by
  induction lines generalizing r text with
  | nil =>
    rw [flowFrom]
    cases flowEnd text with
    | none => exact clean_err w r _
    | some stop => exact clean_finishFlow w env r text stop
  | cons line rest ih =>
    rw [flowFrom]
    cases flowEnd text with
    | none =>
      have hrest : r.take.lines = rest := by
        show r.lines.tail = rest
        rw [h, List.tail_cons]
      exact (ih hrest).mono fun p hp => (behind_take r).trans hp
    | some stop => exact clean_finishFlow w env r text stop

/-- A flow collection takes the lines up to its closing bracket. -/
theorem clean_flow (env : ImportEnv) (r : Reader) (s : Text) :
    Clean foreign bad (fun p => Behind r p.2) (r.flow env s) := clean_flowFrom w rfl

/-- The part of `_value` that reads no block. -/
theorem clean_scalar (env : ImportEnv) (r : Reader) (s : Text) (parent : Int) :
    Clean foreign bad (fun p => Behind r p.2) (r.scalar env s parent) := by
  unfold scalar
  cases s with
  | nil => exact clean_pure (.refl r)
  | cons c tail =>
    dsimp only
    refine clean_ite (fun _ => ?_) fun _ => clean_ite (fun _ => ?_) fun _ =>
      clean_ite (fun _ => clean_flow w env r _) fun _ => clean_ite (fun _ => ?_) fun _ => ?_
    · cases r.anchors.lookup (aliasName tail) with
      | none => exact clean_err w r _
      | some node => exact clean_pure (.refl r)
    · exact clean_bind (clean_quoted w r c tail) fun p hp => clean_pure hp
    · exact clean_bind (clean_blockScalar w r _ parent) fun p hp => clean_pure hp
    · exact clean_pure (behind_plain r _ parent)

end

/-! ### How much is still to read -/

/-- The text on the lines behind their indentation, and the lines themselves.  An item marker
    that is replaced by blanks counts no more. -/
def weight (lines : List Text) : Nat := (lines.map fun line => (indent line).2.length + 1).sum

/-- Every line counts with what stands behind its indentation, and one more. -/
theorem weight_cons (line : Text) (rest : List Text) :
    weight (line :: rest) = (indent line).2.length + 1 + weight rest := by
  simp [weight]

/-- Fewer lines weigh less. -/
theorem weight_le {l l' : List Text} (h : l' <:+ l) : weight l' ≤ weight l := by
  obtain ⟨before, rfl⟩ := h
  unfold weight
  rw [List.map_append, List.sum_append]
  exact Nat.le_add_left _ _

/-- The bound on the calls that `documents` sets. -/
theorem weight_lt_depth (r : Reader) : 3 * weight r.lines + 2 ≤ r.depth := by
  have hle : weight r.lines ≤ (r.lines.map fun line => line.length + 1).sum := by
    refine List.sum_le_sum fun line _ => Nat.add_le_add_right ?_ 1
    exact (List.dropWhile_suffix _).length_le
  unfold depth
  omega

/-- Behind insignificant lines none is insignificant. -/
theorem skipInsignificant_idem (l : List Text) (i : Nat) :
    skipInsignificant (skipInsignificant l i).1 (skipInsignificant l i).2 =
      skipInsignificant l i := by
  induction l generalizing i with
  | nil => rfl
  | cons line rest ih =>
    rw [skipInsignificant]
    by_cases h : insignificant line
    · rw [if_pos h]
      exact ih _
    · rw [if_neg h, skipInsignificant, if_neg h]

/-- Looking ahead twice. -/
theorem advance_advance (r : Reader) : r.advance.advance = r.advance := by
  have h := skipInsignificant_idem r.lines r.i
  exact congrArg (fun p => { r with lines := p.1, i := p.2 }) h

/-- Looking ahead does not change what is seen. -/
theorem peek_advance (r : Reader) : r.advance.peek = r.peek := by
  unfold peek
  rw [advance_advance]

/-- The line that `peek` reports. -/
theorem peek_eq_some {ind : Int} {body : Text} (h : r.peek = some (ind, body)) :
    ∃ line rest, r.advance.lines = line :: rest ∧ indent line = (ind, body) ∧ 0 ≤ ind := by
  unfold peek at h
  cases hlines : r.advance.lines with
  | nil => simp [hlines] at h
  | cons line rest =>
    rw [hlines] at h
    dsimp only at h
    split_ifs at h with hboundary
    have hindent : indent line = (ind, body) := Option.some.inj h
    refine ⟨line, rest, rfl, hindent, ?_⟩
    rw [← show (indent line).1 = ind from congrArg Prod.fst hindent]
    exact Int.natCast_nonneg _

/-- A significant line in front is what `peek` reports. -/
theorem peek_of_significant {line : Text} {rest : List Text} (hlines : r.lines = line :: rest)
    (hsignificant : insignificant line = false)
    (hboundary : boundary (indent line).1 (indent line).2 = false) :
    r.peek = some (indent line) := by
  have hskip : skipInsignificant r.lines r.i = (line :: rest, r.i) := by
    rw [hlines, skipInsignificant, hsignificant]
    rfl
  unfold peek advance
  dsimp only
  rw [hskip]
  dsimp only
  rw [hboundary]
  rfl

/-- The reader behind the line that `peek` reports. -/
theorem further_take_advance {ind : Int} {body : Text} (h : r.peek = some (ind, body)) :
    Further r r.advance.take ∧
      weight r.advance.take.lines + body.length + 1 ≤ weight r.lines := by
  obtain ⟨line, rest, hlines, hindent, -⟩ := peek_eq_some h
  refine ⟨(behind_advance r).trans_further (further_take hlines), ?_⟩
  have hle := weight_le (behind_advance r)
  rw [hlines, weight_cons, show (indent line).2 = body from congrArg Prod.snd hindent] at hle
  have hrest : r.advance.take.lines = rest := by
    show r.advance.lines.tail = rest
    rw [hlines, List.tail_cons]
  rw [hrest]
  omega

/-! ### A rewritten line -/

/-- Blanks are columns. -/
theorem columns_replicate (n : Nat) : PyText.columns (List.replicate n ' ') = n := by
  have hfold : ∀ col, (List.replicate n ' ').foldl
      (fun col c => if c = '\t' then (col / 8 + 1) * 8 else col + 1) col = col + n := by
    induction n with
    | zero => exact fun col => rfl
    | succ n ih =>
      intro col
      rw [List.replicate_succ, List.foldl_cons, if_neg (by decide), ih]
      omega
  exact (hfold 0).trans (Nat.zero_add n)

/-- The indentation and the text of a line whose item marker has become blanks. -/
theorem indent_rewritten (width : Nat) {rest inner : Text}
    (hinner : inner = rest.dropWhile PyText.isBlank) (hne : inner ≠ []) :
    indent (List.replicate width ' ' ++ inner) = ((width : Int), inner) := by
  have hblank : ∀ c ∈ List.replicate width ' ', PyText.isBlank c = true := by
    intro c hc
    rw [List.eq_of_mem_replicate hc]
    rfl
  obtain ⟨c, tail, rfl⟩ := List.exists_cons_of_ne_nil hne
  have hc : PyText.isBlank c = false := by
    have h := List.head_dropWhile_not PyText.isBlank (hinner ▸ hne)
    simpa only [← hinner, List.head_cons] using h
  unfold indent
  rw [List.takeWhile_append_of_pos hblank, List.dropWhile_append_of_pos hblank,
    List.takeWhile_cons_of_neg (by simp [hc]), List.dropWhile_cons_of_neg (by simp [hc]),
    List.append_nil, columns_replicate]

/-- Without its item marker a line is lighter. -/
theorem weight_rewritten (width : Nat) {body : Text}
    (hne : body.tail.dropWhile PyText.isBlank ≠ []) (lines : List Text) :
    weight ((List.replicate width ' ' ++ body.tail.dropWhile PyText.isBlank) :: lines) <
      body.length + 1 + weight lines := by
  have hinner : (body.tail.dropWhile PyText.isBlank).length ≤ body.tail.length :=
    (List.dropWhile_suffix _).length_le
  have hbody : 0 < body.length := by
    cases body with
    | nil => exact absurd rfl hne
    | cons c tail => exact Nat.succ_pos _
  have htail : body.tail.length = body.length - 1 := List.length_tail
  rw [weight_cons, indent_rewritten width rfl hne]
  dsimp only
  omega

/-- The next line of a reader whose first line is rewritten. -/
theorem peek_rewritten {width : Nat} (hwidth : width ≠ 0) {rest inner : Text}
    (hinner : inner = rest.dropWhile PyText.isBlank) (hne : inner ≠ [])
    (hcomment : isComment inner = false) (lines : List Text) :
    ({ r with lines := (List.replicate width ' ' ++ inner) :: lines } : Reader).peek =
      some ((width : Int), inner) := by
  have hindent := indent_rewritten width hinner hne
  rw [← hindent]
  refine peek_of_significant rfl ?_ ?_
  · rw [insignificant, hindent, hcomment]
    simpa using hne
  · rw [hindent]
    simp [boundary, hwidth]

/-! ### The block structure -/

/-- The next lines are indented deeper than `parent`. -/
def Deeper (r : Reader) (parent : Int) : Prop :=
  ∃ ind body, r.peek = some (ind, body) ∧ parent < ind

/-- The next line is an item at this indentation. -/
def AtItem (r : Reader) (ind : Int) : Prop := ∃ body, r.peek = some (ind, body) ∧ isItem body = true

/-- The next line is a key at this indentation. -/
def AtKey (r : Reader) (ind : Int) : Prop :=
  ∃ body, r.peek = some (ind, body) ∧ (key body).isSome = true

/-- The four functions with this fuel: they end on readers that are light enough, and with what
    they are called for in front they leave the reader further on. -/
structure Block (foreign : ImportExc → Prop) (bad : Literal → Prop) (env : ImportEnv)
    (fuel : Nat) : Prop where
  node : ∀ r parent, 3 * weight r.lines + 2 ≤ fuel →
    Clean foreign bad
      (fun p => (Deeper r parent → Further r p.2) ∧
        (¬ Deeper r parent → p = (.text [], r.advance)))
      (node env fuel r parent)
  map : ∀ r ind root entries, 3 * weight r.lines + 1 ≤ fuel →
    Clean foreign bad (fun p => Behind r p.2 ∧ (AtKey r ind → Further r p.2))
      (map env fuel r ind root entries)
  seq : ∀ r ind items, 3 * weight r.lines + 1 ≤ fuel →
    Clean foreign bad (fun p => Behind r p.2 ∧ (AtItem r ind → Further r p.2))
      (seq env fuel r ind items)
  value : ∀ r text parent inMap, 3 * weight r.lines + 3 ≤ fuel →
    Clean foreign bad (fun p => Behind r p.2.2) (value env fuel r text parent inMap)

variable {env : ImportEnv} {fuel : Nat}

/-- Looking ahead makes nothing heavier. -/
theorem weight_advance (r : Reader) : weight r.advance.lines ≤ weight r.lines :=
  weight_le (behind_advance r)

/-- At the end of a document nothing is deeper. -/
theorem not_deeper_of_peek_none (h : r.peek = none) (parent : Int) : ¬ Deeper r parent := by
  rintro ⟨ind, body, hpeek, -⟩
  rw [h] at hpeek
  cases hpeek

/-- What `_node` returns is behind its reader. -/
theorem behind_of_node {parent : Int} {p : Node × Reader}
    (h : (Deeper r parent → Further r p.2) ∧ (¬ Deeper r parent → p = (.text [], r.advance))) :
    Behind r p.2 := by
  by_cases hdeeper : Deeper r parent
  · exact (h.1 hdeeper).1
  · rw [h.2 hdeeper]
    exact behind_advance r

section
variable (w : Watches foreign flowForeign bad flowBad)
include w

omit w in
/-- `_node`, when what it calls has the bound that is left. -/
theorem clean_node_succ (h : Block foreign bad env fuel) (r : Reader) (parent : Int)
    (hfuel : 3 * weight r.lines + 2 ≤ fuel + 1) :
    Clean foreign bad
      (fun p => (Deeper r parent → Further r p.2) ∧
        (¬ Deeper r parent → p = (.text [], r.advance)))
      (node env (fuel + 1) r parent) := by
  have hadvance := weight_advance r
  rw [node]
  cases hpeek : r.peek with
  | none =>
    have hnot := not_deeper_of_peek_none hpeek parent
    exact clean_pure ⟨fun hdeeper => absurd hdeeper hnot, fun _ => rfl⟩
  | some p =>
    obtain ⟨ind, body⟩ := p
    dsimp only
    by_cases hle : ind ≤ parent
    · rw [if_pos hle]
      refine clean_pure ⟨?_, fun _ => rfl⟩
      rintro ⟨ind', body', hpeek', hlt⟩
      rw [hpeek] at hpeek'
      cases hpeek'
      omega
    rw [if_neg hle]
    have hdeeper : Deeper r parent := ⟨ind, body, hpeek, by omega⟩
    -- a block begins here, and each of its functions goes on
    have hfurther : ∀ {p : Node × Reader}, Further r p.2 →
        (Deeper r parent → Further r p.2) ∧ (¬ Deeper r parent → p = (.text [], r.advance)) :=
      fun hp => ⟨fun _ => hp, fun hnot => absurd hdeeper hnot⟩
    have hpeek' : r.advance.peek = some (ind, body) := (peek_advance r).trans hpeek
    refine clean_ite (fun hitem => ?_) fun _ => clean_ite (fun hkey => ?_) fun _ => ?_
    · refine (h.seq r.advance ind [] (by omega)).mono fun p hp => hfurther ?_
      exact (behind_advance r).trans_further (hp.2 ⟨body, hpeek', hitem⟩)
    · refine (h.map r.advance ind _ [] (by omega)).mono fun p hp => hfurther ?_
      exact (behind_advance r).trans_further (hp.2 ⟨body, hpeek', hkey⟩)
    · obtain ⟨htake, hweight⟩ := further_take_advance hpeek
      refine clean_bind (h.value r.advance.take body parent false (by omega)) ?_
      rintro ⟨v, anchor, r'⟩ hr'
      exact clean_pure (hfurther (htake.trans_behind hr'))

/-- One round of `_map`, when what it calls has the bound that is left. -/
theorem clean_map_succ (h : Block foreign bad env fuel) (r : Reader) (ind : Int) (root : Bool)
    (entries : List (Text × Node × Text)) (hfuel : 3 * weight r.lines + 1 ≤ fuel + 1) :
    Clean foreign bad (fun p => Behind r p.2 ∧ (AtKey r ind → Further r p.2))
      (map env (fuel + 1) r ind root entries) := by
  -- where the mapping ends, no key of it is in front
  have hend : ¬ AtKey r ind → Clean foreign bad
      (fun p => Behind r p.2 ∧ (AtKey r ind → Further r p.2))
      (pure (.map entries, r.advance) : ImportM (Node × Reader)) :=
    fun hnot => clean_pure ⟨behind_advance r, fun hkey => absurd hkey hnot⟩
  rw [map]
  cases hpeek : r.peek with
  | none =>
    refine hend ?_
    rintro ⟨body, hpeek', -⟩
    rw [hpeek] at hpeek'
    cases hpeek'
  | some p =>
    obtain ⟨at_, body⟩ := p
    have hkeyed : AtKey r ind → at_ = ind ∧ (key body).isSome = true := by
      rintro ⟨body', hpeek', hkey⟩
      rw [hpeek] at hpeek'
      cases hpeek'
      exact ⟨rfl, hkey⟩
    dsimp only
    by_cases hlt : at_ < ind
    · rw [if_pos hlt]
      refine hend fun hkey => ?_
      have := (hkeyed hkey).1
      omega
    rw [if_neg hlt]
    cases hentry : (if at_ = ind then key body else none) with
    | none =>
      have hnot : ¬ AtKey r ind := by
        intro hkey
        obtain ⟨rfl, hsome⟩ := hkeyed hkey
        rw [if_pos rfl] at hentry
        rw [hentry] at hsome
        cases hsome
      exact clean_ite (fun _ => hend hnot) fun _ => clean_errHere w _ _
    | some entry =>
      obtain ⟨k, rest⟩ := entry
      obtain ⟨htake, hweight⟩ := further_take_advance hpeek
      dsimp only
      refine clean_bind (h.value r.advance.take rest ind true (by omega)) ?_
      rintro ⟨v, anchor, r'⟩ hr'
      dsimp only
      generalize hnext : (if (root && decide (anchor ≠ []) && isCollection v) = true then
        r'.setAnchor anchor (.text anchor) else r') = r''
      have hlines : r''.lines = r'.lines := by
        rw [← hnext]
        split <;> rfl
      have hfurther : Further r r'' := by
        refine htake.trans_behind (show r''.lines <:+ _ from ?_)
        rw [hlines]
        exact hr'
      have hlight : weight r''.lines ≤ weight r.advance.take.lines := by
        rw [hlines]
        exact weight_le hr'
      refine (h.map r'' ind root _ (by omega)).mono fun p hp => ?_
      have := hfurther.trans_behind hp.1
      exact ⟨this.1, fun _ => this⟩

/-- One round of `_seq`, when what it calls has the bound that is left. -/
theorem clean_seq_succ (h : Block foreign bad env fuel) (r : Reader) (ind : Int)
    (items : List Node) (hfuel : 3 * weight r.lines + 1 ≤ fuel + 1) :
    Clean foreign bad (fun p => Behind r p.2 ∧ (AtItem r ind → Further r p.2))
      (seq env (fuel + 1) r ind items) := by
  rw [seq]
  cases hpeek : r.peek with
  | none =>
    refine clean_pure ⟨behind_advance r, ?_⟩
    rintro ⟨body, hpeek', -⟩
    rw [hpeek] at hpeek'
    cases hpeek'
  | some p =>
    obtain ⟨at_, body⟩ := p
    dsimp only
    refine clean_ite (fun hend => ?_) fun hitem => clean_ite (fun _ => clean_errHere w _ _)
      fun hle => ?_
    · refine clean_pure ⟨behind_advance r, ?_⟩
      rintro ⟨body', hpeek', hitem⟩
      rw [hpeek] at hpeek'
      cases hpeek'
      simp [hitem] at hend
    obtain ⟨htake, hweight⟩ := further_take_advance hpeek
    -- an item that has been read, and the rest of the sequence
    have hnext : ∀ (item : Node) (r' : Reader), Behind r.advance.take r' →
        Clean foreign bad (fun p => Behind r p.2 ∧ (AtItem r ind → Further r p.2))
          (seq env fuel r' ind (items ++ [item])) := by
      intro item r' hr'
      have hlight := weight_le hr'
      refine (h.seq r' ind _ (by omega)).mono fun p hp => ?_
      have := (htake.trans_behind hr').trans_behind hp.1
      exact ⟨this.1, fun _ => this⟩
    refine clean_ite (fun hinner => ?_) fun _ => ?_
    · simp only [Bool.and_eq_true, decide_eq_true_eq, Bool.not_eq_true'] at hinner
      obtain ⟨⟨hne, hcomment⟩, -⟩ := hinner
      obtain ⟨line, rest, -, -, hnonneg⟩ := peek_eq_some hpeek
      -- the line is rewritten behind its indentation
      have hinner : (body.tail.dropWhile PyText.isBlank).length ≤ body.tail.length :=
        (List.dropWhile_suffix _).length_le
      generalize hwidth : (ind + 1 + body.tail.length -
        (body.tail.dropWhile PyText.isBlank).length).toNat = width
      have hdeep : ind < width := by omega
      have hpeek' := peek_rewritten (r := r.advance) (show width ≠ 0 by omega) rfl hne hcomment
        r.advance.lines.tail
      have hlight : 3 * weight ((List.replicate width ' ' ++
          body.tail.dropWhile PyText.isBlank) :: r.advance.lines.tail) + 2 ≤ fuel := by
        have hlighter := weight_rewritten width hne r.advance.lines.tail
        have htaken : weight r.advance.take.lines = weight r.advance.lines.tail := rfl
        omega
      refine clean_bind (h.node _ ind hlight) ?_
      rintro ⟨item, r'⟩ ⟨hfurther, -⟩
      obtain ⟨hsuffix, hshorter⟩ := hfurther ⟨width, _, hpeek', hdeep⟩
      have hr' : Behind r.advance.take r' := by
        rcases List.suffix_cons_iff.1 hsuffix with heq | htail
        · rw [heq] at hshorter
          exact absurd hshorter (lt_irrefl _)
        · exact htail
      exact hnext item r' hr'
    · refine clean_bind (h.value r.advance.take body.tail ind false (by omega)) ?_
      rintro ⟨item, anchor, r'⟩ hr'
      exact hnext item r' hr'

/-- `_value`, when what it calls has the bound that is left. -/
theorem clean_value_succ (h : Block foreign bad env fuel) (r : Reader) (text : Text)
    (parent : Int) (inMap : Bool) (hfuel : 3 * weight r.lines + 3 ≤ fuel + 1) :
    Clean foreign bad (fun p => Behind r p.2.2) (value env (fuel + 1) r text parent inMap) := by
  have hadvance := weight_advance r
  have hnode : Clean foreign bad (fun p => Behind r p.2) (node env fuel r.advance parent) :=
    (h.node r.advance parent (by omega)).mono fun p hp =>
      (behind_advance r).trans (behind_of_node hp)
  -- an indented value takes lines, and so does a sequence under its key
  rw [value]
  generalize properties (strip text).length (strip text) [] = s
  obtain ⟨s, anchor⟩ := s
  dsimp only
  refine clean_bind (P := fun p => Behind r p.2) ?_ ?_
  · refine clean_ite (fun _ => ?_) fun _ => clean_scalar w env r s parent
    cases r.peek with
    | none => exact hnode
    | some p =>
      obtain ⟨at_, body⟩ := p
      refine clean_ite (fun _ => ?_) fun _ => hnode
      exact (h.seq r.advance parent [] (by omega)).mono fun p hp =>
        (behind_advance r).trans hp.1
  · rintro ⟨v, r'⟩ hr'
    refine clean_pure ?_
    show (if anchor ≠ [] then r'.setAnchor anchor v else r').lines <:+ r.lines
    split <;> exact hr'

/-- The four functions together, by induction on the bound. -/
theorem clean_block (fuel : Nat) : Block foreign bad env fuel := by
  induction fuel with
  | zero =>
    constructor
    · intro r parent hfuel
      exact absurd hfuel (by omega)
    · intro r ind root entries hfuel
      exact absurd hfuel (by omega)
    · intro r ind items hfuel
      exact absurd hfuel (by omega)
    · intro r text parent inMap hfuel
      exact absurd hfuel (by omega)
  | succ fuel ih =>
    constructor
    · exact clean_node_succ ih
    · exact clean_map_succ w ih
    · exact clean_seq_succ w ih
    · exact clean_value_succ w ih

/-! ### The whole text -/

/-- Every document takes a line. -/
theorem clean_documentsFrom (fuel : Nat) (r : Reader) (docs : List Node)
    (hfuel : r.lines.length < fuel) :
    Clean foreign bad (fun _ => True) (documentsFrom env fuel r docs) := by
  induction fuel generalizing r docs with
  | zero => exact absurd hfuel (Nat.not_lt_zero _)
  | succ fuel ih =>
    rw [documentsFrom]
    cases hlines : r.lines with
    | nil => exact clean_pure trivial
    | cons line rest =>
      have hlength : r.lines.length = rest.length + 1 := by rw [hlines, List.length_cons]
      dsimp only
      refine clean_ite (fun _ => ih _ _ ?_) fun hsignificant => ?_
      · show r.lines.tail.length < fuel
        rw [List.length_tail]
        omega
      -- the line stands deeper than no block at all
      have hdeeper : Deeper r (-1) := by
        rw [Bool.not_eq_true, Bool.or_eq_false_iff] at hsignificant
        refine ⟨(indent line).1, (indent line).2, ?_, ?_⟩
        · exact peek_of_significant hlines hsignificant.1 hsignificant.2
        · have : 0 ≤ (indent line).1 := Int.natCast_nonneg _
          omega
      refine clean_bind ((clean_block w _).node r (-1) (weight_lt_depth r)) ?_
      rintro ⟨doc, r'⟩ ⟨hfurther, -⟩
      -- the node takes that line, so the fuel left is enough for the rest
      have hshorter : r'.lines.length < r.lines.length := (hfurther hdeeper).2
      have hadvance : r'.advance.lines.length ≤ r'.lines.length :=
        List.IsSuffix.length_le (behind_advance r')
      refine clean_ite (fun _ => clean_errHere w _ _) fun _ => ih _ _ ?_
      show r'.advance.lines.length < fuel
      omega

end

/-- The loop over tags and anchors ends at a text that begins with neither. -/
theorem properties_stop {n : Nat} {s anchor : Text} (h : s.length ≤ n) :
    ∀ c ∈ (properties n s anchor).1.head?, c ≠ '&' ∧ c ≠ '!' := by
  induction n generalizing s anchor with
  | zero =>
    rw [List.length_eq_zero_iff.1 (Nat.le_zero.1 h)]
    simp [properties]
  | succ n ih =>
    cases s with
    | nil => simp [properties]
    | cons c rest =>
      rw [properties]
      by_cases hc : (c = '&' || c = '!') = true
      · rw [if_pos hc]
        refine ih ?_
        have hspace := (List.dropWhile_suffix (l := rest.dropWhile fun c => !PyText.isSpace c)
          PyText.isSpace).length_le
        have hname := (List.dropWhile_suffix (l := rest) fun c => !PyText.isSpace c).length_le
        rw [List.length_cons] at h
        omega
      · rw [if_neg hc]
        simpa using hc

end Reader

/-- No more lines than line breaks, and one. -/
theorem length_lines (text : Text) : (PyText.lines text).length ≤ text.length + 1 := by
  unfold PyText.lines List.splitOn
  induction text with
  | nil => exact le_refl _
  | cons c rest ih =>
    rw [List.splitOnP_cons_eq_if_modifyHead]
    split
    · rw [List.length_cons, List.length_cons]
      omega
    · rw [List.length_modifyHead, List.length_cons]
      omega

/-- The documents of a text. -/
theorem clean_documents (w : Watches foreign flowForeign bad flowBad) (env : ImportEnv)
    (text : Text) : Clean foreign bad (fun _ => True) (documents env text) := by
  refine Reader.clean_documentsFrom w _ _ [] ?_
  have hlines := length_lines text
  show (PyText.lines text).length < 2 * text.length + 4
  omega

/-! ### The reader ends -/

/-- The code ends: it raises an exception of the source, or returns a value with the property. -/
def Ends {α : Type} (P : α → Prop) (x : ImportM α) : Prop :=
  ∀ log, (x log).1 ≠ .error .fuel ∧ ∀ a, (x log).1 = .ok a → P a

/-- Code that reaches the bound would raise it. -/
theorem ends_of_clean {α : Type} {P : α → Prop} {x : ImportM α}
    (h : Clean (· = ImportExc.fuel) (fun _ => False) P x) : Ends P x := by
  intro log
  obtain ⟨new, -, hiff, hok⟩ := h log
  refine ⟨fun he => ?_, hok⟩
  obtain ⟨l, -, hfalse⟩ := hiff.1 ⟨.fuel, he, rfl⟩
  exact hfalse

/-- `chr` raises, but it does not run out of fuel. -/
theorem clean_chr_fuel (n : Nat) :
    Clean (· = ImportExc.fuel) (fun _ => False) (fun _ => True) (chr n) := by
  refine clean_convert ?_ fun _ _ => trivial
  rw [iff_false]
  rintro ⟨e, he, rfl⟩
  split_ifs at he <;> cases he

/-- Of all exceptions `fuel` is counted. -/
theorem watches_fuel :
    Watches (· = ImportExc.fuel) (· = ImportExc.fuel) (fun _ => False) (fun _ => False) where
  yaml := nofun
  valueError := nofun
  chr := clean_chr_fuel
  flowChr := clean_chr_fuel
  caught := by
    intro line e
    cases e <;> simp [Reader.catchValueError]
  marked := fun _ => Iff.rfl

/-- The reader ends, and how far each of its functions leaves it.  The fuel of the functions
    that call one another is given by what is still to read. -/
structure ReaderProgress (env : ImportEnv) : Prop where
  documents : ∀ text, Ends (fun _ => True) (documents env text)
  /-- With a deeper line in front `_node` goes on; else it returns the empty text. -/
  node : ∀ fuel r parent, 3 * Reader.weight r.lines + 2 ≤ fuel →
    Ends (fun p => (Reader.Deeper r parent → Reader.Further r p.2) ∧
        (¬ Reader.Deeper r parent → p = (.text [], r.advance)))
      (Reader.node env fuel r parent)
  /-- With a key of the mapping in front `_map` goes on. -/
  map : ∀ fuel r ind root entries, 3 * Reader.weight r.lines + 1 ≤ fuel →
    Ends (fun p => Reader.Behind r p.2 ∧ (Reader.AtKey r ind → Reader.Further r p.2))
      (Reader.map env fuel r ind root entries)
  /-- With an item of the list in front `_seq` goes on. -/
  seq : ∀ fuel r ind items, 3 * Reader.weight r.lines + 1 ≤ fuel →
    Ends (fun p => Reader.Behind r p.2 ∧ (Reader.AtItem r ind → Reader.Further r p.2))
      (Reader.seq env fuel r ind items)
  /-- The line in which the marker of an item is replaced by blanks is lighter. -/
  rewritten : ∀ width (body : Text) lines, body.tail.dropWhile PyText.isBlank ≠ [] →
    Reader.weight ((List.replicate width ' ' ++ body.tail.dropWhile PyText.isBlank) :: lines) <
      body.length + 1 + Reader.weight lines
  value : ∀ fuel r text parent inMap, 3 * Reader.weight r.lines + 3 ≤ fuel →
    Ends (fun p => Reader.Behind r p.2.2) (Reader.value env fuel r text parent inMap)
  /-- The loop of `_value` over tags and anchors is left by its own condition. -/
  properties : ∀ s anchor : Text, ∀ c ∈ (Reader.properties s.length s anchor).1.head?,
    c ≠ '&' ∧ c ≠ '!'
  plain : ∀ r first parent, Reader.Behind r (Reader.plain r first parent).2
  quoted : ∀ r quote tail, Ends (fun p => Reader.Behind r p.2) (Reader.quoted r quote tail)
  flow : ∀ r s, Ends (fun p => Reader.Behind r p.2) (Reader.flow env r s)
  blockScalar : ∀ r header parent,
    Ends (fun p => Reader.Behind r p.2) (Reader.blockScalar r header parent)
  /-- `_Flow.value` goes on, or it has read an empty item. -/
  flowValue : ∀ anchors fuel a, 2 * a.rest.length + 1 ≤ fuel →
    Ends (Flow.Read a) (Flow.value env anchors fuel a)
  flowCollection : ∀ anchors opening fuel a items entries, 2 * a.rest.length + 2 ≤ fuel →
    Ends (fun p => p.2.rest.length < a.rest.length)
      (Flow.collection env anchors opening fuel a items entries)

/-- For every text the reader ends: it returns its documents or raises.  Every function of it
    raises or leaves the reader where it was or further on, and further on wherever it is called
    again on what is left. -/
theorem reader_progress (env : ImportEnv) : ReaderProgress env where
  documents := fun text => ends_of_clean (clean_documents watches_fuel env text)
  node := fun fuel r parent h =>
    ends_of_clean ((Reader.clean_block watches_fuel fuel).node r parent h)
  map := fun fuel r ind root entries h =>
    ends_of_clean ((Reader.clean_block watches_fuel fuel).map r ind root entries h)
  seq := fun fuel r ind items h =>
    ends_of_clean ((Reader.clean_block watches_fuel fuel).seq r ind items h)
  rewritten := fun width _ lines h => Reader.weight_rewritten width h lines
  value := fun fuel r text parent inMap h =>
    ends_of_clean ((Reader.clean_block watches_fuel fuel).value r text parent inMap h)
  properties := fun _ _ => Reader.properties_stop (le_refl _)
  plain := Reader.behind_plain
  quoted := fun r quote tail => ends_of_clean (Reader.clean_quoted watches_fuel r quote tail)
  flow := fun r s => ends_of_clean (Reader.clean_flow watches_fuel env r s)
  blockScalar := fun r header parent =>
    ends_of_clean (Reader.clean_blockScalar watches_fuel r header parent)
  flowValue := fun _ fuel a h =>
    ends_of_clean ((Flow.clean_value_collection watches_fuel fuel).1 a h)
  flowCollection := fun _ opening fuel a items entries h =>
    ends_of_clean ((Flow.clean_value_collection watches_fuel fuel).2 opening a items entries h)

/-- Not every call goes on: a plain scalar that ends on the line of its key takes no line, and
    the empty item before the comma of `[,]` no character. -/
theorem not_always_further :
    (¬ ∀ (r : Reader) (first : Text) (parent : Int),
        Reader.Further r (Reader.plain r first parent).2) ∧
      ¬ ∀ (env : ImportEnv) (anchors : List (Text × Node)) (fuel : Nat) (a : Cursor)
        (p : Node × Cursor), Returns (Flow.value env anchors fuel a) p →
          p.2.rest.length < a.rest.length := by
  constructor
  · intro h
    have hlast := h ⟨[], 1, 0, []⟩ "value" 0
    exact absurd hlast.2 (by decide)
  · intro h
    let env : ImportEnv := ⟨bareMachine, fun _ => none, fun _ => [], id, fun _ => []⟩
    have hempty : Returns (Flow.value env [] 9 ⟨some '[', [',', ']']⟩)
        (.text [], ⟨some '[', [',', ']']⟩) := ⟨[], [], rfl⟩
    exact absurd (h env [] 9 _ _ hempty) (lt_irrefl _)

end Ser2Net.Import
