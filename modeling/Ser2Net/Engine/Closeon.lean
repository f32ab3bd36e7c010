import Ser2Net.Lib.Search
import Ser2Net.Engine.ClientConn

namespace Ser2Net.Engine.Closeon

open Ser2Net.Lib

/-!
# Engine — closing on a pattern (`MappingRunner._check_closeon` of `bridge.py`)

A mapping may close its clients when the device sends a certain pattern.  The device's bytes come
in reads of any size, so the runner keeps the end of what it has read.

* `checkCloseon` — one read: what the runner keeps, and whether the pattern was found;
* `matched` — the reads of a device stream on which it was found;
* `clientConn_checkCloseon` — a client is closed on exactly these reads;
* `closeon_matched` — they are the reads in which a new occurrence ends.
-/

/-- `_check_closeon`: `_closeon_tail` afterwards, and whether the pattern was found. -/
def checkCloseon (closeon tail data : Bytes) : Bytes × Bool :=
  let window := tail ++ data
  if closeon <:+: window then ([], true)
  else if 1 < closeon.length then (window.drop (window.length - (closeon.length - 1)), false)
  else (tail, false)

/-- One round of `_serial_read_loop`, as far as the pattern. -/
def readRound (closeon tail data : Bytes) : Bytes × List Bool :=
  ((checkCloseon closeon tail data).1, [(checkCloseon closeon tail data).2])

/-- The reads on which the pattern is found, of a runner that starts with nothing kept. -/
def matched (closeon : Bytes) (reads : List Bytes) : List Bool :=
  (feed (readRound closeon) [] reads).2

/-- A client of the runner is closed when the pattern is found. -/
theorem clientConn_checkCloseon (c : ClientConn.Client) (s : ClientConn.Conn) (data : Bytes) :
    ClientConn.checkCloseon c s data =
      { if (checkCloseon c.closeon s.closeonTail data).2 then ClientConn.requestGracefulClose c s
        else s with closeonTail := (checkCloseon c.closeon s.closeonTail data).1 } := by
  unfold ClientConn.checkCloseon checkCloseon
  by_cases hin : c.closeon <:+: s.closeonTail ++ data
  · simp [hin]
  · by_cases hlen : 1 < c.closeon.length <;> simp [hin, hlen]

/-- With a pattern of one byte nothing is kept. -/
def Small (closeon tail : Bytes) : Prop := 1 < closeon.length ∨ tail = []

/-- A round is a step of the search. -/
theorem readRound_eq {closeon tail : Bytes} (hne : closeon ≠ []) (hsmall : Small closeon tail)
    (data : Bytes) :
    readRound closeon tail data = searchStep closeon tail data ∧
      Small closeon (readRound closeon tail data).1 := by
  have hpos := List.length_pos_of_ne_nil hne
  unfold readRound checkCloseon searchStep Small
  by_cases hin : closeon <:+: tail ++ data
  · simp [hin]
  · by_cases hlen : 1 < closeon.length
    · simp [hin, hlen]
    · -- one byte: the tail was empty and stays so
      have htail : tail = [] := hsmall.resolve_left hlen
      have hone : closeon.length - 1 = 0 := by omega
      rw [htail, List.nil_append] at hin
      simp [hin, hlen, htail, hone]

theorem feed_readRound {closeon tail : Bytes} (hne : closeon ≠ []) (hsmall : Small closeon tail)
    (reads : List Bytes) :
    feed (readRound closeon) tail reads = feed (searchStep closeon) tail reads := by
  induction reads generalizing tail with
  | nil => rfl
  | cons data reads ih =>
    obtain ⟨hround, hnext⟩ := readRound_eq hne hsmall data
    rw [feed_cons, feed_cons, ih hnext, hround]

/-- **Closing on a pattern.**  For every pattern and however the device's bytes are cut into reads,
    the pattern is reported on exactly those reads in which an occurrence ends that lies wholly
    after the reads reported before. -/
theorem closeon_matched (closeon : Bytes) (hne : closeon ≠ []) (reads : List Bytes) (i : Nat)
    (hi : i < reads.length) :
    (matched closeon reads)[i]? = some true ↔
      ∃ pos, (∀ j, j < i → (matched closeon reads)[j]? = some true → offset reads (j + 1) ≤ pos) ∧
        At reads.flatten pos closeon ∧ offset reads i < pos + closeon.length ∧
        pos + closeon.length ≤ offset reads (i + 1) := by
  have hhits : matched closeon reads = hits closeon reads := by
    rw [matched, feed_readRound hne (Or.inr rfl)]
    rfl
  rw [hhits]
  exact search_hit_iff hne reads hi

/-- `aXaXaX` in four reads: the first occurrence of `aXa` ends in the third read; the second one
    begins in it, and is not reported. -/
theorem closeon_matched_overlap :
    (matched [97, 88, 97] [[97], [88], [97, 88], [97, 88]])[2]? = some true ∧
      ¬ (matched [97, 88, 97] [[97], [88], [97, 88], [97, 88]])[3]? = some true := by
  have hoccurs : At [[97], [88], [97, 88], [97, 88]].flatten 0 [97, 88, 97] := by
    unfold At
    decide
  have hnone : ∀ j < 2, (matched [97, 88, 97] [[97], [88], [97, 88], [97, 88]])[j]? ≠ some true := by
    decide
  refine ⟨(closeon_matched _ (by decide) _ 2 (by decide)).2
    ⟨0, fun j hj h => absurd h (hnone j hj), hoccurs, by decide, by decide⟩, by decide⟩

end Ser2Net.Engine.Closeon
