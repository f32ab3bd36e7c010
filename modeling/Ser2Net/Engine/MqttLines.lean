import Ser2Net.Lib.Binary
import Ser2Net.Lib.Delimited
import Ser2Net.Lib.Feed

namespace Ser2Net.Engine.MqttLines

open Ser2Net.Lib

/-!
# Engine — lines to MQTT (`MqttPublisher.feed` of `app/engine/mqtt_pub.py`)

What the device sends is published line by line, however its bytes arrive.  What there is of
an unfinished line waits in a buffer, which is cut when it grows too large.

* `Publisher.feed` — one chunk: the publisher afterwards, and the payloads it publishes;
* `feedLoop_terminated` — the loop of a chunk takes the whole lines off the buffer;
* `feed_lines` — the payloads of a stream, and the bound of the buffer.
-/

/-- `MAX_LINE_BUFFER`. -/
def maxLineBuffer : Nat := 65536

/-- A newline. -/
def lf : UInt8 := 10

/-- A carriage return. -/
def cr : UInt8 := 13

/-- What `feed` reads of an `MqttPublisher`. -/
structure Publisher where
  /-- `_connected`. -/
  connected : Bool
  /-- `_client` is not `None`. -/
  client : Bool
  buf : Bytes

/-- `line.rstrip(b"\r")`. -/
def rstripCr (line : Bytes) : Bytes := line.rdropWhile (· = cr)

theorem idxOf?_lt {buf : Bytes} {nl : Nat} (h : buf.idxOf? lf = some nl) : nl < buf.length := by
  obtain ⟨hlt, -⟩ := List.idxOf?_eq_some_iff.1 h
  exact hlt

/-- The `while` loop of `feed`: the payloads published, and the buffer it leaves. -/
def feedLoop (buf : Bytes) : List Bytes × Bytes :=
  match h : buf.idxOf? lf with
  | none => ([], buf)
  | some nl =>
    let line := rstripCr (buf.take nl)
    let rest := feedLoop (buf.drop (nl + 1))
    (if line = [] then rest.1 else line :: rest.1, rest.2)
termination_by buf.length
decreasing_by
  have hlt := idxOf?_lt h
  rw [List.length_drop]
  omega

/-- `feed`. -/
def Publisher.feed (s : Publisher) (data : Bytes) : Publisher × List Bytes :=
  if ¬ s.connected ∨ ¬ s.client then (s, [])
  else
    let (lines, buf) := feedLoop (s.buf ++ data)
    -- no newline in sight: only the end is kept
    ({ s with buf := if maxLineBuffer < buf.length then buf.drop (buf.length - 4096) else buf },
      lines)

/-! ### Whole lines -/

/-- What is published of lines: their trailing carriage returns off, and no empty one. -/
def payloads (lines : List Bytes) : List Bytes := (lines.map rstripCr).filter (· ≠ [])

theorem payloads_cons (line : Bytes) (lines : List Bytes) :
    payloads (line :: lines) =
      if rstripCr line = [] then payloads lines else rstripCr line :: payloads lines := by
  unfold payloads
  by_cases h : rstripCr line = [] <;> simp [h]

theorem payloads_append (as bs : List Bytes) :
    payloads (as ++ bs) = payloads as ++ payloads bs := by
  simp [payloads]

/-- A buffer without a newline stays as it is. -/
theorem feedLoop_rest {buf : Bytes} (h : lf ∉ buf) : feedLoop buf = ([], buf) := by
  unfold feedLoop
  split
  · rfl
  next nl hnl =>
    have hnone := List.idxOf?_eq_none_iff.2 h
    rw [hnone] at hnl
    cases hnl

/-- **One chunk.**  The loop publishes the whole lines and leaves the rest. -/
theorem feedLoop_terminated {lines : List Bytes} {rest : Bytes} (hlines : ∀ l ∈ lines, lf ∉ l)
    (hrest : lf ∉ rest) : feedLoop (terminated lf lines ++ rest) = (payloads lines, rest) := by
  induction lines with
  | nil => exact feedLoop_rest hrest
  | cons line lines ih =>
    have hline : lf ∉ line := hlines line List.mem_cons_self
    have hstream : terminated lf (line :: lines) ++ rest =
        line ++ lf :: (terminated lf lines ++ rest) := by
      simp [terminated]
    -- the first line feed is the one behind the first line
    have hfind : (line ++ lf :: (terminated lf lines ++ rest)).idxOf? lf = some line.length := by
      refine List.idxOf?_eq_some_iff.2 ⟨by simp, by simp, fun j hj => ?_⟩
      rw [List.getElem_append_left hj]
      exact fun heq => hline (heq ▸ List.getElem_mem hj)
    rw [hstream]
    unfold feedLoop
    split
    next hnone => rw [hfind] at hnone; cases hnone
    next nl hnl =>
      obtain rfl : line.length = nl := Option.some.inj (hfind.symm.trans hnl)
      have htake : (line ++ lf :: (terminated lf lines ++ rest)).take line.length = line := by simp
      have hdrop : (line ++ lf :: (terminated lf lines ++ rest)).drop (line.length + 1) =
          terminated lf lines ++ rest := by
        rw [← List.drop_drop]
        simp
      simp only [htake, hdrop, ih fun l hl => hlines l (List.mem_cons_of_mem _ hl),
        payloads_cons]

/-! ### Streams -/

/-- A publisher that publishes, with nothing in its buffer. -/
def fresh : Publisher := ⟨true, true, []⟩

/-- No line of the stream, and no unterminated tail, is longer than the buffer allows. -/
def ShortLines (stream : Bytes) : Prop := ∀ line ∈ stream.splitOn lf, line.length ≤ maxLineBuffer

/-- One chunk of a stream: `part` is what there is of its unfinished line, and `rest` what there
    is of the next one. -/
theorem feed_chunk {part data rest : Bytes} {lines : List Bytes}
    (hstream : part ++ data = terminated lf lines ++ rest) (hlines : ∀ l ∈ lines, lf ∉ l)
    (hrest : lf ∉ rest) (hshort : rest.length ≤ maxLineBuffer) :
    Publisher.feed { fresh with buf := part } data =
      ({ fresh with buf := rest }, payloads lines) := by
  unfold Publisher.feed
  rw [if_neg (by simp [fresh])]
  simp only [hstream, feedLoop_terminated hlines hrest, if_neg (Nat.not_lt.2 hshort)]

/-- A stream of short lines, from an unfinished line on. -/
theorem feed_stream {part : Bytes} (hpart : lf ∉ part) {chunks : List Bytes}
    (hshort : ShortLines (part ++ chunks.flatten)) :
    (Lib.feed Publisher.feed { fresh with buf := part } chunks).2 =
      payloads ((part ++ chunks.flatten).splitOn lf).dropLast := by
  induction chunks generalizing part with
  | nil =>
    have hone : (part ++ ([] : List Bytes).flatten).splitOn lf = [part] := by
      rw [List.flatten_nil, List.append_nil]
      exact List.splitOn_eq_singleton hpart
    rw [hone]
    rfl
  | cons data chunks ih =>
    obtain ⟨lines, rest, hstream, hlines, hrest⟩ := exists_terminated lf (part ++ data)
    have hsplit : (part ++ (data :: chunks).flatten).splitOn lf =
        lines ++ (rest ++ chunks.flatten).splitOn lf := by
      rw [List.flatten_cons, ← List.append_assoc, hstream, List.append_assoc,
        splitOn_terminated hlines]
    have hafter : ShortLines (rest ++ chunks.flatten) := by
      intro line hline
      refine hshort line ?_
      rw [hsplit]
      exact List.mem_append_right _ hline
    -- the unfinished line begins a line of the stream, so the buffer is not cut
    have hfits : rest.length ≤ maxLineBuffer := by
      obtain ⟨more, pieces, hfirst⟩ := splitOn_cons_prefix hrest chunks.flatten
      have := hafter (rest ++ more) (by simp [hfirst])
      simp at this
      omega
    rw [feed_cons, feed_chunk hstream hlines hrest hfits, hsplit,
      List.dropLast_append_of_ne_nil (List.splitOn_ne_nil _ _), payloads_append, ← ih hrest hafter]

/-- The buffer is cut when it has grown too large. -/
theorem feed_bound (s : Publisher) (data : Bytes) (h : s.buf.length ≤ maxLineBuffer) :
    (s.feed data).1.buf.length ≤ maxLineBuffer := by
  unfold Publisher.feed
  split
  · exact h
  · dsimp only
    split
    · rw [List.length_drop]
      simp only [maxLineBuffer]
      omega
    · omega

/-- **Lines.**  However a stream is cut into chunks, when no line of it is longer than the buffer
    allows, what is published is its terminated lines in order, with their trailing carriage
    returns off and without the empty ones.  Whatever the stream, the buffer stays within its
    bound after every chunk. -/
theorem feed_lines (chunks : List Bytes) :
    (ShortLines chunks.flatten → (Lib.feed Publisher.feed fresh chunks).2 =
      payloads (chunks.flatten.splitOn lf).dropLast) ∧
    ∀ s : Publisher, s.buf = [] →
      (Lib.feed Publisher.feed s chunks).1.buf.length ≤ maxLineBuffer := by
  refine ⟨fun hshort => @feed_stream [] (by simp) chunks hshort, fun s hs => ?_⟩
  have hinv := @feed_invariant _ _ _ Publisher.feed fun s => s.buf.length ≤ maxLineBuffer
  exact hinv feed_bound (by simp [hs]) chunks

/-- `a`, an empty line and an unfinished one, cut inside the first line's end. -/
theorem feed_lines_split :
    (Lib.feed Publisher.feed fresh [[97, 13], [10, 13, 10, 98]]).2 = [[97]] := by
  have hshort : ShortLines [[97, 13], [10, 13, 10, 98]].flatten := by
    unfold ShortLines
    decide
  exact ((feed_lines _).1 hshort).trans (by decide)

end Ser2Net.Engine.MqttLines
