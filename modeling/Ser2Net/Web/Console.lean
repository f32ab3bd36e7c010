import Mathlib.Data.List.Induction
import Mathlib.Logic.Function.Iterate
import Mathlib.Tactic.Common

namespace Ser2Net.Web.Console

/-!
# Web — the observers of a mapping's traffic (`_Monitor` and `_TrafficMonitor` of `console.py`)

A browser console and a hex view each have a bounded queue that the bridge feeds and the sender
of the WebSocket empties.  A full queue loses its oldest item for a new one.  When the mapping
stops, `close` puts a `None` into the queue, on which the sender ends; here a full queue loses
the new entry, with the error suppressed.

* `feed`, `close`, `get` — the operations, with what was fed and what became of it;
* `Open` — what holds before the close: the waiting items are the last ones fed, and everything
  before them was taken or lost as the oldest of a full queue;
* `complete_iff` — the sender gets everything and then the `None` exactly when the queue is not
  full at the close.
-/

variable {α : Type*}

/-- The two observers: an item is a chunk of bytes in the console, and a direction, a time and a
    chunk in the hex view. -/
inductive Kind
  | console
  | traffic
  deriving DecidableEq, Repr

/-- `asyncio.Queue(maxsize=...)`. -/
def Kind.maxsize : Kind → Nat
  | .console => 2048
  | .traffic => 4096

theorem Kind.maxsize_pos (k : Kind) : 0 < k.maxsize := by
  cases k <;> decide

/-- What became of an item that is no longer in the queue: the sender took it, or it was lost
    when this many were waiting. -/
inductive Fate
  | taken
  | lost (waiting : Nat)
  deriving DecidableEq, Repr

/-- A monitor: its queue, where `none` is the sentinel; the items fed; the items that left the
    queue, in the order in which they left it; and whether the sender has got the sentinel. -/
structure Monitor (α : Type*) where
  queue : List (Option α)
  fed : List α
  out : List (Fate × α)
  ended : Bool
  deriving DecidableEq, Repr

/-- A new monitor. -/
def Monitor.init : Monitor α := ⟨[], [], [], false⟩

/-- `put_nowait`; `none` is `QueueFull`. -/
def putNowait (maxsize : Nat) (q : List (Option α)) (x : Option α) : Option (List (Option α)) :=
  if maxsize ≤ q.length then none else some (q ++ [x])

/-- `feed`, and `feed_traffic` with its item. -/
def feed (maxsize : Nat) (s : Monitor α) (x : α) : Monitor α :=
  let s := { s with fed := s.fed ++ [x] }
  match putNowait maxsize s.queue (some x) with
  | some q => { s with queue := q }
  | none =>
    match s.queue with
    | [] => s
    | oldest :: rest =>
      { s with
        queue := (putNowait maxsize rest (some x)).getD rest
        out := s.out ++ (oldest.map fun y => (Fate.lost s.queue.length, y)).toList }

/-- `close`. -/
def close (maxsize : Nat) (s : Monitor α) : Monitor α :=
  { s with queue := (putNowait maxsize s.queue none).getD s.queue }

/-- The sender's `get`; it waits on an empty queue and ends on the sentinel. -/
def get (s : Monitor α) : Monitor α :=
  match s.ended, s.queue with
  | false, some x :: rest => { s with queue := rest, out := s.out ++ [(.taken, x)] }
  | false, none :: rest => { s with queue := rest, ended := true }
  | _, _ => s

/-- What happens while the mapping runs. -/
inductive Op (α : Type*)
  | feed (x : α)
  | get

/-- One operation. -/
def apply (maxsize : Nat) (s : Monitor α) : Op α → Monitor α
  | .feed x => feed maxsize s x
  | .get => get s

/-- The monitor after a sequence of operations. -/
def after (maxsize : Nat) (ops : List (Op α)) : Monitor α := ops.foldl (apply maxsize) .init

/-- What the sender has taken. -/
def Monitor.taken (s : Monitor α) : List α :=
  (s.out.filter fun p => p.1 = .taken).map Prod.snd

/-- All is delivered: the items taken are a subsequence of the items fed, an item is missing only
    because it was the oldest of a full queue, and the sender has got the sentinel. -/
structure Complete (maxsize : Nat) (s : Monitor α) : Prop where
  taken : s.taken.Sublist s.fed
  out : s.out.map Prod.snd = s.fed
  lost : ∀ n x, (Fate.lost n, x) ∈ s.out → n = maxsize
  ended : s.ended = true

/-- Before the close: `waiting` is in the queue, what was fed before it has left, and the sender
    goes on. -/
structure Open (maxsize : Nat) (waiting : List α) (s : Monitor α) : Prop where
  queue : s.queue = waiting.map some
  fits : waiting.length ≤ maxsize
  fed : s.out.map Prod.snd ++ waiting = s.fed
  lost : ∀ n x, (Fate.lost n, x) ∈ s.out → n = maxsize
  ended : s.ended = false

variable {maxsize : Nat} {waiting : List α} {s : Monitor α}

/-! ### Before the close -/

theorem open_init : Open maxsize [] (Monitor.init : Monitor α) :=
  ⟨rfl, Nat.zero_le _, rfl, by simp [Monitor.init], rfl⟩

theorem Open.length_queue (h : Open maxsize waiting s) : s.queue.length = waiting.length := by
  rw [h.queue, List.length_map]

/-- A queue that is not full takes the new item. -/
theorem Open.feed_of_lt (h : Open maxsize waiting s) (hlt : waiting.length < maxsize) (x : α) :
    Open maxsize (waiting ++ [x]) (feed maxsize s x) := by
  have hput : putNowait maxsize s.queue (some x) = some (s.queue ++ [some x]) :=
    if_neg (Nat.not_le.mpr (h.length_queue ▸ hlt))
  have hfeed : feed maxsize s x =
      { s with fed := s.fed ++ [x], queue := s.queue ++ [some x] } := by
    simp only [feed, hput]
  rw [hfeed]
  refine ⟨?_, ?_, ?_, h.lost, h.ended⟩
  · show s.queue ++ [some x] = _
    rw [h.queue, List.map_append, List.map_singleton]
  · rw [List.length_append, List.length_singleton]
    exact hlt
  · show s.out.map Prod.snd ++ (waiting ++ [x]) = s.fed ++ [x]
    rw [← List.append_assoc, h.fed]

/-- What `feed` does to a full queue that does not begin with the sentinel. -/
theorem feed_full {oldest : α} {rest : List (Option α)} (hqueue : s.queue = some oldest :: rest)
    (hfull : s.queue.length = maxsize) (x : α) :
    feed maxsize s x =
      { s with
        queue := rest ++ [some x]
        fed := s.fed ++ [x]
        out := s.out ++ [(.lost maxsize, oldest)] } := by
  obtain ⟨queue, fed, out, ended⟩ := s
  obtain rfl : queue = some oldest :: rest := hqueue
  have hput : putNowait maxsize (some oldest :: rest) (some x) = none :=
    if_pos (Nat.le_of_eq hfull.symm)
  have hagain : putNowait maxsize rest (some x) = some (rest ++ [some x]) := by
    refine if_neg ?_
    rw [← hfull, List.length_cons]
    omega
  simp only [feed, hput, hagain, Option.getD_some, Option.map_some, Option.toList_some]
  rw [show (some oldest :: rest).length = maxsize from hfull]

/-- A full queue loses its oldest item. -/
theorem Open.feed_of_full {oldest : α} {rest : List α} (h : Open maxsize (oldest :: rest) s)
    (hfull : maxsize ≤ (oldest :: rest).length) (x : α) :
    Open maxsize (rest ++ [x]) (feed maxsize s x) := by
  have hlength : (oldest :: rest).length = maxsize := Nat.le_antisymm h.fits hfull
  rw [feed_full h.queue (h.length_queue.trans hlength)]
  refine ⟨?_, ?_, ?_, ?_, h.ended⟩
  · rw [List.map_append, List.map_singleton]
  · exact Nat.le_of_eq (by
      rw [List.length_append, List.length_singleton, ← hlength, List.length_cons])
  · show (s.out ++ [(Fate.lost maxsize, oldest)]).map Prod.snd ++ (rest ++ [x]) = s.fed ++ [x]
    rw [← h.fed]
    simp
  · intro n y hy
    rcases List.mem_append.mp hy with hy | hy
    · exact h.lost n y hy
    · rw [List.mem_singleton, Prod.mk.injEq, Fate.lost.injEq] at hy
      exact hy.1

/-- The sender takes the oldest item, or waits. -/
theorem Open.got (h : Open maxsize waiting s) : Open maxsize waiting.tail (get s) := by
  obtain ⟨queue, fed, out, ended⟩ := s
  obtain ⟨rfl, hfits, hfed, hlost, rfl⟩ := h
  cases waiting with
  | nil => exact ⟨rfl, hfits, hfed, hlost, rfl⟩
  | cons x rest =>
    refine ⟨rfl, Nat.le_of_succ_le hfits, ?_, ?_, rfl⟩
    · show (out ++ [(Fate.taken, x)]).map Prod.snd ++ rest = fed
      rw [← show out.map Prod.snd ++ x :: rest = fed from hfed]
      simp
    · intro n y hy
      rcases List.mem_append.mp hy with hy | hy
      · exact hlost n y hy
      · simp at hy

theorem exists_open_apply (hpos : 0 < maxsize) (h : Open maxsize waiting s) (op : Op α) :
    ∃ waiting', Open maxsize waiting' (apply maxsize s op) := by
  cases op with
  | get => exact ⟨_, h.got⟩
  | feed x =>
    by_cases hlt : waiting.length < maxsize
    · exact ⟨_, h.feed_of_lt hlt x⟩
    · cases waiting with
      | nil => exact absurd hpos hlt
      | cons oldest rest => exact ⟨_, h.feed_of_full (Nat.not_lt.mp hlt) x⟩

/-- The invariant after any sequence of operations. -/
theorem exists_open_after (hpos : 0 < maxsize) (ops : List (Op α)) :
    ∃ waiting, Open maxsize waiting (after maxsize ops) := by
  suffices hfrom : ∀ (s : Monitor α) waiting, Open maxsize waiting s →
      ∃ waiting', Open maxsize waiting' (ops.foldl (apply maxsize) s) from hfrom _ [] open_init
  induction ops with
  | nil => exact fun s waiting h => ⟨waiting, h⟩
  | cons op ops ih =>
    intro s waiting h
    obtain ⟨waiting', h'⟩ := exists_open_apply hpos h op
    exact ih _ waiting' h'

/-! ### After the close -/

/-- The sender takes what waits before the sentinel, and then the sentinel. -/
theorem iterate_get (hqueue : s.queue = waiting.map some ++ [none]) (hended : s.ended = false) :
    get^[waiting.length + 1] s =
      { s with
        queue := []
        out := s.out ++ waiting.map fun x => (Fate.taken, x)
        ended := true } := by
  induction waiting generalizing s with
  | nil =>
    obtain ⟨queue, fed, out, ended⟩ := s
    obtain rfl : queue = [none] := hqueue
    obtain rfl : ended = false := hended
    simp [get]
  | cons x rest ih =>
    obtain ⟨queue, fed, out, ended⟩ := s
    obtain rfl : queue = some x :: (rest.map some ++ [none]) := by simpa using hqueue
    obtain rfl : ended = false := hended
    have hget : get (⟨some x :: (rest.map some ++ [none]), fed, out, false⟩ : Monitor α) =
        ⟨rest.map some ++ [none], fed, out ++ [(.taken, x)], false⟩ := rfl
    rw [List.length_cons, Function.iterate_succ_apply, hget, ih rfl rfl, List.map_cons,
      List.append_assoc, List.singleton_append]

theorem taken_sublist (s : Monitor α) : s.taken.Sublist (s.out.map Prod.snd) :=
  (List.filter_sublist ..).map Prod.snd

/-- The close finds a place for the sentinel: the sender gets what waits, and then it. -/
theorem Open.complete (h : Open maxsize waiting s) (hroom : s.queue.length < maxsize) :
    Complete maxsize (get^[waiting.length + 1] (close maxsize s)) := by
  have hclose : close maxsize s = { s with queue := s.queue ++ [none] } := by
    rw [close, putNowait, if_neg (Nat.not_le.mpr hroom)]
    rfl
  have hqueue : (close maxsize s).queue = waiting.map some ++ [none] := by
    rw [hclose, h.queue]
  rw [iterate_get hqueue (hclose ▸ h.ended), hclose]
  have hout : (s.out ++ waiting.map fun x => (Fate.taken, x)).map Prod.snd = s.fed := by
    rw [List.map_append, List.map_map, ← h.fed]
    exact congrArg _ (List.map_id waiting)
  refine ⟨?_, hout, ?_, rfl⟩
  · exact hout ▸ taken_sublist _
  · intro n x hx
    rcases List.mem_append.mp hx with hx | hx
    · exact h.lost n x hx
    · simp at hx

/-- The close finds no place: nothing has changed, and the sender never ends. -/
theorem Open.not_ended (h : Open maxsize waiting s) (hfull : maxsize ≤ s.queue.length) (n : Nat) :
    (get^[n] (close maxsize s)).ended = false := by
  have hclose : close maxsize s = s := by
    rw [close, putNowait, if_pos hfull]
    rfl
  rw [hclose]
  clear hclose hfull
  induction n generalizing s waiting with
  | zero => exact h.ended
  | succ n ih => exact ih h.got

/-- For each observer and every sequence of feeds and gets before the runner stops: the sender
    that goes on reading gets a subsequence of the items fed, which lacks only the oldest ones
    of a full queue, and after it the sentinel, exactly when the queue is not full at the
    close. -/
theorem complete_iff (k : Kind) (ops : List (Op α)) :
    (∃ n, Complete k.maxsize (get^[n] (close k.maxsize (after k.maxsize ops)))) ↔
      (after k.maxsize ops).queue.length < k.maxsize := by
  obtain ⟨waiting, h⟩ := exists_open_after k.maxsize_pos ops
  constructor
  · rintro ⟨n, hcomplete⟩
    by_contra hfull
    have hend := h.not_ended (Nat.not_lt.mp hfull) n
    rw [hcomplete.ended] at hend
    cases hend
  · exact fun hroom => ⟨_, h.complete hroom⟩

/-- A queue that is only fed holds all items, as long as they fit. -/
theorem open_feeds (xs : List α) (hfit : xs.length ≤ maxsize) :
    Open maxsize xs (after maxsize (xs.map .feed)) := by
  induction xs using List.reverseRecOn with
  | nil => exact open_init
  | append_singleton xs x ih =>
    rw [List.length_append, List.length_singleton] at hfit
    rw [after, List.map_append, List.foldl_append]
    exact (ih (Nat.le_of_succ_le hfit)).feed_of_lt hfit x

/-- 2048 chunks for a viewer that reads nothing. -/
def unread : List (List UInt8) := List.replicate 2048 [0x41]

theorem length_unread : unread.length = 2048 := List.length_replicate

/-- The viewer is slow at the moment of stopping: the sender gets the 2048 chunks and then waits
    for ever. -/
theorem not_complete_slowViewer :
    ¬ ∀ (k : Kind) (ops : List (Op (List UInt8))),
      ∃ n, Complete k.maxsize (get^[n] (close k.maxsize (after k.maxsize ops))) := by
  intro h
  obtain ⟨n, hcomplete⟩ := h .console (unread.map .feed)
  have hopen : Open Kind.console.maxsize unread (after Kind.console.maxsize (unread.map .feed)) :=
    open_feeds unread (Nat.le_of_eq length_unread)
  have hfull : Kind.console.maxsize ≤
      (after Kind.console.maxsize (unread.map .feed)).queue.length :=
    Nat.le_of_eq (hopen.length_queue.trans length_unread).symm
  have hend := hopen.not_ended hfull n
  rw [hcomplete.ended] at hend
  cases hend

end Ser2Net.Web.Console
