import Ser2Net.Lib.Trace
import Ser2Net.Lib.Window
import Mathlib.Algebra.Order.Group.Int

namespace Ser2Net.State.Notify

open Ser2Net.Lib

/-!
# State — event notifications (`Notifier` of `notify.py`)

`emit` puts an enabled event into a queue of 200 unless the same event for the same mapping was
there less than `repeat_s` ago; the worker takes the events out, drops what is too much for one
minute and sends the rest.  The time of an event goes into the table of repeats before the
queue is asked, also when it has no place.

* `emit`, `step` — a call, the two ends of the worker's loop, the clock;
* `Honest` — in this state only an event that was queued less than `repeat_s` ago makes the
  next one a repeat;
* `Room` — the condition: an event that is neither disabled nor a repeat finds a place;
* `honest_iff` — every state of a run is honest exactly when each of its steps has room.
-/

section
variable {T : Type*} [AddCommGroup T] [LinearOrder T]

/-- What `emit` and the worker read of the settings, and how long a minute is. -/
structure Settings (T : Type*) where
  enabled : Bool
  events : List String
  repeatS : T
  minute : T

/-- An event in the queue. -/
structure Item where
  event : String
  mapping : String
  detail : String
  deriving DecidableEq, Repr

/-- `Notifier`, with the item that the worker is sending; `queued` remembers event, key and
    time of the calls for which `emit` returned `True`. -/
structure Notifier (T : Type*) where
  now : T
  last : String × String → Option T
  queue : List Item
  sent : List T
  delivering : Option Item
  queued : List ((String × String) × T)

/-- A notifier that has just started. -/
def Notifier.init (start : T) : Notifier T := ⟨start, fun _ => none, [], [], none, []⟩

/-- `asyncio.Queue(maxsize=200)`. -/
def maxsize : Nat := 200

/-- `MAX_PER_MINUTE`. -/
def maxPerMinute : Nat := 20

/-- The ways `emit` returns. -/
inductive Reply
  /-- notifications are off, or those of this event -/
  | disabled
  /-- the same event was there less than `repeat_s` ago -/
  | repeated
  /-- the queue is full -/
  | lost
  /-- the only one that returns `True` -/
  | queued
  deriving DecidableEq, Repr

/-- `s.enabled and event in s.events`. -/
def Settings.wants (cfg : Settings T) (event : String) : Bool :=
  cfg.enabled && cfg.events.contains event

/-- `last is not None and now - last < s.repeat_s`. -/
def isRepeat (cfg : Settings T) (s : Notifier T) (event key : String) : Bool :=
  (s.last (event, key)).any fun last => s.now - last < cfg.repeatS

/-- `self._last[(event, key)] = now`. -/
def Notifier.noted (s : Notifier T) (event key : String) : Notifier T :=
  { s with last := Function.update s.last (event, key) (some s.now) }

/-- `put_nowait` that finds a place. -/
def Notifier.put (s : Notifier T) (event key mapping detail : String) : Notifier T :=
  { s with
    queue := s.queue ++ [⟨event, mapping, detail⟩]
    queued := ((event, key), s.now) :: s.queued }

/-- `emit`. -/
def emit (cfg : Settings T) (s : Notifier T) (event key mapping detail : String) :
    Reply × Notifier T :=
  if !cfg.wants event then (.disabled, s)
  else if isRepeat cfg s event key then (.repeated, s)
  else if maxsize ≤ s.queue.length then (.lost, s.noted event key)
  else (.queued, (s.noted event key).put event key mapping detail)

/-- What happens next. -/
inductive Event (T : Type*)
  | clock (t : T)
  | emit (event key mapping detail : String)
  /-- the worker takes an event out of the queue -/
  | get
  /-- the worker has sent it -/
  | delivered

/-- `_worker` from `get` up to its await of `deliver`. -/
def take (cfg : Settings T) (s : Notifier T) (item : Item) (rest : List Item) : Notifier T :=
  let sent := prune cfg.minute s.now s.sent
  if maxPerMinute ≤ sent.length then { s with queue := rest, sent }
  else { s with queue := rest, sent := sent ++ [s.now], delivering := some item }

/-- One event; the clock never goes back. -/
def step (cfg : Settings T) (s : Notifier T) : Event T → Option (Notifier T)
  | .clock t => if s.now ≤ t then some { s with now := t } else none
  | .emit event key mapping detail => some (emit cfg s event key mapping detail).2
  | .get =>
    match s.delivering, s.queue with
    | none, item :: rest => some (take cfg s item rest)
    | _, _ => none
  | .delivered => s.delivering.map fun _ => { s with delivering := none }

/-- An event is refused as a repeat only if the same one was queued less than `repeat_s` ago. -/
def Honest (cfg : Settings T) (s : Notifier T) : Prop :=
  ∀ event key mapping detail, (emit cfg s event key mapping detail).1 = .repeated →
    ∃ t, ((event, key), t) ∈ s.queued ∧ s.now - t < cfg.repeatS

/-- The condition on a step: an event that is enabled and no repeat finds a place in the queue,
    where repeats are refused at all. -/
def Room (cfg : Settings T) (s : Notifier T) : Event T → Prop
  | .emit event key _ _ =>
    cfg.wants event = true → isRepeat cfg s event key = false → 0 < cfg.repeatS →
      s.queue.length < maxsize
  | _ => True

/-- The table holds no time to come, and for every queued event its time or a later one. -/
structure Table (s : Notifier T) : Prop where
  past : ∀ k last, s.last k = some last → last ≤ s.now
  known : ∀ k t, (k, t) ∈ s.queued → ∃ last, s.last k = some last ∧ t ≤ last

/-- Every time in the table is that of a queued event. -/
def Backed (s : Notifier T) : Prop := ∀ k last, s.last k = some last → (k, last) ∈ s.queued

variable {cfg : Settings T} {s : Notifier T} {event key mapping detail : String}

/-! ### What one event does -/

/-- `emit` changes nothing, or it notes the time of an event that is enabled and no repeat and
    then loses the event or queues it. -/
theorem emit_cases (cfg : Settings T) (s : Notifier T) (event key mapping detail : String) :
    (emit cfg s event key mapping detail).2 = s ∨
      cfg.wants event = true ∧ isRepeat cfg s event key = false ∧
        (maxsize ≤ s.queue.length ∧
            (emit cfg s event key mapping detail).2 = s.noted event key ∨
          s.queue.length < maxsize ∧ (emit cfg s event key mapping detail).2 =
            (s.noted event key).put event key mapping detail) := by
  unfold emit
  split_ifs with hwants hrepeat hfull
  · exact .inl rfl
  · exact .inl rfl
  · exact .inr ⟨by simpa using hwants, by simpa using hrepeat, .inl ⟨hfull, rfl⟩⟩
  · exact .inr ⟨by simpa using hwants, by simpa using hrepeat, .inr ⟨not_le.mp hfull, rfl⟩⟩

/-- Only an emitted event changes the table or what is remembered; the clock goes on. -/
theorem step_cases {e : Event T} {s' : Notifier T} (h : step cfg s e = some s') :
    (∃ event key mapping detail, e = .emit event key mapping detail ∧
        s' = (emit cfg s event key mapping detail).2) ∨
      s'.last = s.last ∧ s'.queued = s.queued ∧ s.now ≤ s'.now := by
  cases e with
  | clock t =>
    simp only [step] at h
    split_ifs at h with hle
    obtain rfl := Option.some.inj h
    exact .inr ⟨rfl, rfl, hle⟩
  | emit event key mapping detail =>
    exact .inl ⟨event, key, mapping, detail, rfl, (Option.some.inj h).symm⟩
  -- the worker takes an item off the queue, whether it sends it or drops it
  | get =>
    simp only [step] at h
    split at h
    · obtain rfl := Option.some.inj h
      unfold take
      dsimp only
      split_ifs <;> exact .inr ⟨rfl, rfl, le_refl _⟩
    · cases h
  | delivered =>
    simp only [step, Option.map_eq_some_iff] at h
    obtain ⟨item, -, rfl⟩ := h
    exact .inr ⟨rfl, rfl, le_refl _⟩

/-! ### The table of repeats -/

omit [AddCommGroup T] [LinearOrder T] in
/-- The time of what was just noted. -/
theorem last_noted_self : (s.noted event key).last (event, key) = some s.now :=
  Function.update_self ..

omit [AddCommGroup T] [LinearOrder T] in
/-- The times of the other events. -/
theorem last_noted_of_ne {k : String × String} (hk : k ≠ (event, key)) :
    (s.noted event key).last k = s.last k :=
  Function.update_of_ne hk ..

omit [AddCommGroup T] in
/-- A note of the present keeps the times in order. -/
theorem Table.noted (h : Table s) (event key : String) : Table (s.noted event key) where
  past := by
    intro k last hlast
    by_cases hk : k = (event, key)
    · rw [hk, last_noted_self] at hlast
      exact (Option.some.inj hlast).ge
    · rw [last_noted_of_ne hk] at hlast
      exact h.past k last hlast
  known := by
    intro k t ht
    obtain ⟨last, hlast, hle⟩ := h.known k t ht
    by_cases hk : k = (event, key)
    · exact ⟨s.now, hk ▸ last_noted_self, hle.trans (h.past k last hlast)⟩
    · exact ⟨last, by rwa [last_noted_of_ne hk], hle⟩

omit [AddCommGroup T] in
/-- A place in the queue, noted. -/
theorem Table.noted_put (h : Table s) (event key mapping detail : String) :
    Table ((s.noted event key).put event key mapping detail) where
  past := (h.noted event key).past
  known := by
    intro k t ht
    rcases List.mem_cons.mp ht with heq | ht
    · obtain ⟨rfl, rfl⟩ := Prod.mk.inj heq
      exact ⟨s.now, last_noted_self, le_refl _⟩
    · exact (h.noted event key).known k t ht

omit [AddCommGroup T] [LinearOrder T] in
/-- What was just queued is noted and queued. -/
theorem Backed.noted_put (h : Backed s) (event key mapping detail : String) :
    Backed ((s.noted event key).put event key mapping detail) := by
  intro k last hlast
  by_cases hk : k = (event, key)
  · have hnow : some s.now = some last := by
      rw [← hlast, hk]
      exact last_noted_self.symm
    rw [hk, ← Option.some.inj hnow]
    exact List.mem_cons_self
  · have hold : s.last k = some last := by
      rw [← hlast]
      exact (last_noted_of_ne hk).symm
    exact List.mem_cons_of_mem _ (h k last hold)

/-- Every step keeps the times in order. -/
theorem table_step (s : Notifier T) (e : Event T) (s' : Notifier T) (h : Table s)
    (hstep : step cfg s e = some s') : Table s' := by
  obtain ⟨event, key, mapping, detail, -, rfl⟩ | ⟨hlast, hqueued, hnow⟩ := step_cases hstep
  · obtain heq | ⟨-, -, ⟨-, heq⟩ | ⟨-, heq⟩⟩ := emit_cases cfg s event key mapping detail
    · rwa [heq]
    · rw [heq]
      exact h.noted event key
    · rw [heq]
      exact h.noted_put event key mapping detail
  · constructor
    · rw [hlast]
      exact fun k last hk => (h.past k last hk).trans hnow
    · rw [hlast, hqueued]
      exact h.known

/-- With room for every event the table holds times of queued events only. -/
theorem backed_step (hpos : 0 < cfg.repeatS) (s : Notifier T) (e : Event T) (s' : Notifier T)
    (h : Backed s) (hroom : Room cfg s e) (hstep : step cfg s e = some s') : Backed s' := by
  obtain ⟨event, key, mapping, detail, rfl, rfl⟩ | ⟨hlast, hqueued, -⟩ := step_cases hstep
  · obtain heq | ⟨hwants, hrepeat, ⟨hfull, -⟩ | ⟨-, heq⟩⟩ :=
      emit_cases cfg s event key mapping detail
    · rwa [heq]
    · exact absurd (hroom hwants hrepeat hpos) (not_lt.mpr hfull)
    · rw [heq]
      exact h.noted_put event key mapping detail
  · unfold Backed
    rw [hlast, hqueued]
    exact h

omit [AddCommGroup T] in
/-- The times at the start. -/
theorem table_init (start : T) : Table (Notifier.init start) := ⟨nofun, nofun⟩

omit [AddCommGroup T] [LinearOrder T] in
/-- The queue at the start. -/
theorem backed_init (start : T) : Backed (Notifier.init start) := nofun

/-! ### Repeats -/

/-- A refusal as a repeat found a repeat. -/
theorem isRepeat_of_repeated (h : (emit cfg s event key mapping detail).1 = .repeated) :
    isRepeat cfg s event key = true := by
  unfold emit at h
  split_ifs at h with hwants hrepeat
  exact hrepeat

variable [IsOrderedAddMonoid T]

/-- When all that is noted was queued, no event is refused for another reason. -/
theorem honest_of_backed (htable : Table s) (h : 0 < cfg.repeatS → Backed s) : Honest cfg s := by
  intro event key mapping detail hrepeated
  have hrepeat := isRepeat_of_repeated hrepeated
  rw [isRepeat, Option.any_eq_true] at hrepeat
  obtain ⟨last, hlast, hrecent⟩ := hrepeat
  have hrecent : s.now - last < cfg.repeatS := of_decide_eq_true hrecent
  have hpos : 0 < cfg.repeatS :=
    (sub_nonneg.mpr (htable.past _ last hlast)).trans_lt hrecent
  exact ⟨last, h hpos _ last hlast, hrecent⟩

/-- An event that the full queue has no place for makes the next one a repeat of nothing. -/
theorem room_of_honest (e : Event T) (htable : Table s)
    (h : ∀ s', step cfg s e = some s' → Honest cfg s') : Room cfg s e := by
  cases e with
  | clock t => trivial
  | get => trivial
  | delivered => trivial
  | emit event key mapping detail =>
    intro hwants hrepeat hpos
    by_contra hfull
    have hlost : emit cfg s event key mapping detail = (.lost, s.noted event key) := by
      unfold emit
      rw [hwants, hrepeat, if_neg (by simp), if_neg (by simp), if_pos (not_lt.mp hfull)]
    have hagain : emit cfg (s.noted event key) event key mapping detail =
        (.repeated, s.noted event key) := by
      have hnow : isRepeat cfg (s.noted event key) event key = true := by
        rw [isRepeat, last_noted_self, Option.any_some, decide_eq_true_eq]
        exact (sub_self s.now).trans_lt hpos
      unfold emit
      rw [hwants, hnow, if_neg (by simp), if_pos rfl]
    have hstep : step cfg s (.emit event key mapping detail) = some (s.noted event key) :=
      congrArg some (congrArg Prod.snd hlost)
    obtain ⟨t, ht, hrecent⟩ :=
      h _ hstep event key mapping detail (congrArg Prod.fst hagain)
    -- the queued event of that key was no reason to refuse it before
    obtain ⟨last, hlast, hle⟩ := htable.known _ t ht
    have hbefore : s.now - last < cfg.repeatS := (sub_le_sub_left hle s.now).trans_lt hrecent
    rw [isRepeat, hlast, Option.any_some, decide_eq_false_iff_not] at hrepeat
    exact hrepeat hbefore

/-- For every run, with any settings and from any time: in each state reached an event is
    refused as a repeat only if the same one was queued less than `repeat_s` before, exactly when
    each event emitted that is enabled and no repeat finds a place in the queue. -/
theorem honest_iff (cfg : Settings T) (start : T) (es : List (Event T)) :
    (∀ pre s, pre <+: es → run (step cfg) (Notifier.init start) pre = some s → Honest cfg s) ↔
      Along (step cfg) (Room cfg) (Notifier.init start) es := by
  constructor
  · exact along_of_states Table (Honest cfg) table_step (fun s e => room_of_honest e)
      (table_init start)
  · intro hroom pre s hpre hrun
    have htable : Table s := run_invariant_of_step Table table_step (table_init start) hrun
    refine honest_of_backed htable fun hpos => ?_
    exact run_invariant Backed (backed_step hpos) (backed_init start)
      (along_of_isPrefix hpre hroom) hrun

end

/-! ### A queue that is full -/

/-- A lost device is reported at most once in 4 seconds. -/
def deviceSettings : Settings Int := ⟨true, ["device_lost"], 4, 60⟩

/-- The device of a mapping is lost at time `t`. -/
def lostAt (t : Int) : List (Event Int) := [.clock t, .emit "device_lost" "m1" "PLC" ""]

/-- A test of `Room` on whole seconds. -/
def roomCheck (cfg : Settings Int) (s : Notifier Int) : Event Int → Bool
  | .emit event key _ _ =>
    !cfg.wants event || isRepeat cfg s event key || decide (s.queue.length < maxsize)
  | _ => true

/-- The test finds only steps that meet the condition. -/
theorem room_of_check {cfg : Settings Int} (s : Notifier Int) (e : Event Int)
    (h : roomCheck cfg s e = true) : Room cfg s e := by
  cases e with
  | emit event key mapping detail =>
    intro hwants hrepeat hpos
    simpa [roomCheck, hwants, hrepeat] using h
  | _ => trivial

/-- The device is lost twice within 2 seconds: the second event is a repeat, of one that was
    queued. -/
theorem honest_iff_twice :
    ∃ s, run (step deviceSettings) (Notifier.init 0) (lostAt 0 ++ [.get] ++ lostAt 2) = some s ∧
      (emit deviceSettings s "device_lost" "m1" "PLC" "").1 = .repeated ∧
        Honest deviceSettings s :=
  ⟨_, rfl, by decide, (honest_iff deviceSettings 0 (lostAt 0 ++ [.get] ++ lostAt 2)).2
    (along_of_check room_of_check (by decide)) _ _ (List.prefix_refl _) rfl⟩

/-- In 20 seconds the device is lost five times, and the worker sends one event to a slow
    endpoint. -/
def slowRound (k : Nat) : List (Event Int) :=
  [4, 8, 12, 16, 20].flatMap (fun t => lostAt (20 * k + t)) ++
    [.clock (20 * k + 21), .delivered, .get]

/-- After 50 rounds 200 events wait and the one of 1000 seconds is lost.  At 1002 seconds there
    is a place again, but the next one is refused as a repeat, 6 seconds after the last one that
    was queued. -/
theorem not_honest_after_lost :
    ¬ ∀ (cfg : Settings Int) (start : Int) (es : List (Event Int)) (s : Notifier Int),
      run (step cfg) (Notifier.init start) es = some s → Honest cfg s := by
  intro h
  have hsilenced : (run (step deviceSettings) (Notifier.init 0)
      (lostAt 0 ++ [.get] ++ (List.range 50).flatMap slowRound ++ [.clock 1002])).any (fun s =>
        decide ((emit deviceSettings s "device_lost" "m1" "PLC" "").1 = .repeated) &&
          s.queued.all fun p => 6 ≤ s.now - p.2) = true := by
    decide +kernel
  rw [Option.any_eq_true] at hsilenced
  obtain ⟨s, hrun, hs⟩ := hsilenced
  rw [Bool.and_eq_true, decide_eq_true_eq, List.all_eq_true] at hs
  obtain ⟨t, ht, hrecent⟩ := h _ _ _ s hrun _ _ _ _ hs.1
  have hold : 6 ≤ s.now - t := of_decide_eq_true (hs.2 _ ht)
  exact absurd (show s.now - t < 4 from hrecent) (by omega)

end Ser2Net.State.Notify
