import Ser2Net.State.Notify
import Mathlib.Data.List.Sort

namespace Ser2Net.State.Notify

open Ser2Net.Lib

/-!
# State — what becomes of the notifications (`Notifier` of `notify.py`)

The file's own promises: the same event for the same mapping at most once in `repeat_s`, and at
most `MAX_PER_MINUTE` messages a minute.

* `Journal` — a notifier with the items that were queued and those that the worker took;
* `Journal.Holds` — the order is kept, no minute has more than 20 messages, an item is dropped
  only when 20 were sent in the minute before it;
* `Spaced` — the times at which one event is queued are `repeat_s` apart;
* `journal_holds` — both, over any run.
-/

section
variable {T : Type*} [AddCommGroup T] [LinearOrder T]

/-- An item that the worker took from the queue: when, and whether it was sent. -/
structure Taken (T : Type*) where
  item : Item
  time : T
  sent : Bool

/-- A notifier with the items that were queued and those that were taken. -/
structure Journal (T : Type*) where
  notifier : Notifier T
  offered : List Item
  taken : List (Taken T)

/-- A notifier that has just started. -/
def Journal.init (start : T) : Journal T := ⟨Notifier.init start, [], []⟩

/-- The times of the messages. -/
def Journal.sends (j : Journal T) : List T := (j.taken.filter (·.sent)).map (·.time)

/-- What an event adds to the items that were queued. -/
def offer (cfg : Settings T) (s : Notifier T) : Event T → List Item
  | .emit event key mapping detail =>
    if (emit cfg s event key mapping detail).1 = .queued then [⟨event, mapping, detail⟩] else []
  | _ => []

/-- What an event adds to the items that were taken, `s'` being the state after it. -/
def takes (s s' : Notifier T) : Event T → List (Taken T)
  | .get => (s.queue.head?.map fun item => ⟨item, s.now, s'.delivering.isSome⟩).toList
  | _ => []

/-- One event. -/
def Journal.step (cfg : Settings T) (j : Journal T) (e : Event T) : Option (Journal T) :=
  (Notify.step cfg j.notifier e).map fun s' =>
    ⟨s', j.offered ++ offer cfg j.notifier e, j.taken ++ takes j.notifier s' e⟩

/-- What holds of a journal at any time. -/
structure Journal.Holds (cfg : Settings T) (j : Journal T) : Prop where
  /-- Nothing that was queued is lost, doubled or overtaken. -/
  order : j.offered = j.taken.map (·.item) ++ j.notifier.queue
  sorted : j.sends.Pairwise (· ≤ ·)
  past : ∀ t ∈ j.sends, t ≤ j.notifier.now
  recent : ∃ old, j.sends = old ++ j.notifier.sent ∧ ∀ t ∈ old, cfg.minute < j.notifier.now - t
  /-- No minute has more than 20 messages. -/
  bound : ∀ t, within cfg.minute t j.sends ≤ maxPerMinute
  /-- What is dropped has 20 in the minute before it. -/
  dropped : ∀ x ∈ j.taken, x.sent = false →
    maxPerMinute ≤ within cfg.minute (x.time - cfg.minute) j.sends

variable {cfg : Settings T} {j j' : Journal T}

/-- What `emit` leaves as it is, and what it adds to the queue. -/
theorem emit_queue (cfg : Settings T) (s : Notifier T) (event key mapping detail : String) :
    (emit cfg s event key mapping detail).2.now = s.now ∧
      (emit cfg s event key mapping detail).2.sent = s.sent ∧
      (emit cfg s event key mapping detail).2.queue =
        s.queue ++ offer cfg s (.emit event key mapping detail) := by
  unfold offer emit
  split_ifs <;> simp_all [Notifier.noted, Notifier.put]

omit [AddCommGroup T] [LinearOrder T] in
theorem sends_append (j : Journal T) (s' : Notifier T) (offered : List Item) (x : Taken T) :
    (⟨s', offered, j.taken ++ [x]⟩ : Journal T).sends =
      j.sends ++ if x.sent then [x.time] else [] := by
  cases hx : x.sent <;> simp [Journal.sends, hx]

variable [IsOrderedAddMonoid T]

/-- What is left after the pruning are the messages of the last minute. -/
theorem Journal.Holds.length_prune (h : j.Holds cfg) :
    (prune cfg.minute j.notifier.now j.notifier.sent).length =
      Lib.recent cfg.minute j.notifier.now j.sends := by
  obtain ⟨old, hsplit, hold⟩ := h.recent
  have hsorted : j.notifier.sent.Pairwise (· ≤ ·) := by
    have := h.sorted
    rw [hsplit] at this
    exact (List.pairwise_append.mp this).2.1
  rw [Lib.length_prune hsorted, hsplit, recent_append, recent_eq_zero hold, Nat.zero_add]

omit [IsOrderedAddMonoid T] in
theorem Journal.Holds.prune (h : j.Holds cfg) :
    ∃ old, j.sends = old ++ Lib.prune cfg.minute j.notifier.now j.notifier.sent ∧
      ∀ t ∈ old, cfg.minute < j.notifier.now - t := by
  obtain ⟨old, hsplit, hold⟩ := h.recent
  obtain ⟨dropped, hdrop, hdropped⟩ := exists_prune cfg.minute j.notifier.now j.notifier.sent
  refine ⟨old ++ dropped, by rw [List.append_assoc, ← hdrop, hsplit], ?_⟩
  intro t ht
  rcases List.mem_append.mp ht with ht | ht
  · exact hold t ht
  · exact hdropped t ht

omit [IsOrderedAddMonoid T] in
/-- More messages fill a window further. -/
theorem within_le_append (w t : T) (l l' : List T) : within w t l ≤ within w t (l ++ l') := by
  unfold within
  rw [List.countP_append]
  exact Nat.le_add_right _ _

/-- The messages of the last minute are those of the window that ends now. -/
theorem Journal.Holds.recent_le_within (h : j.Holds cfg) :
    Lib.recent cfg.minute j.notifier.now j.sends ≤
      within cfg.minute (j.notifier.now - cfg.minute) j.sends := by
  unfold Lib.recent within
  refine List.countP_mono_left fun t ht hrecent => ?_
  simp only [decide_eq_true_eq] at hrecent ⊢
  refine ⟨sub_le_comm.mp hrecent, ?_⟩
  rw [sub_add_cancel]
  exact h.past t ht

/-- The worker drops an item. -/
theorem Journal.Holds.drop (h : j.Holds cfg) {item : Item} {rest : List Item}
    (hqueue : j.notifier.queue = item :: rest)
    (hfull : maxPerMinute ≤ (Lib.prune cfg.minute j.notifier.now j.notifier.sent).length) :
    (⟨{ j.notifier with
          queue := rest, sent := Lib.prune cfg.minute j.notifier.now j.notifier.sent },
        j.offered, j.taken ++ [⟨item, j.notifier.now, false⟩]⟩ : Journal T).Holds cfg := by
  have hsends := sends_append j
    { j.notifier with
      queue := rest, sent := Lib.prune cfg.minute j.notifier.now j.notifier.sent } j.offered
    ⟨item, j.notifier.now, false⟩
  rw [if_neg (by simp), List.append_nil] at hsends
  -- what is dropped is no send, and the window shows a full minute
  refine ⟨by simp [h.order, hqueue], ?_, ?_, ?_, ?_, ?_⟩
  · rw [hsends]
    exact h.sorted
  · rw [hsends]
    exact h.past
  · rw [hsends]
    exact h.prune
  · rw [hsends]
    exact h.bound
  · rw [hsends]
    intro x hx hdropped
    rcases List.mem_append.mp hx with hx | hx
    · exact h.dropped x hx hdropped
    · obtain rfl := List.mem_singleton.mp hx
      rw [h.length_prune] at hfull
      exact hfull.trans h.recent_le_within

/-- The worker sends an item. -/
theorem Journal.Holds.send (h : j.Holds cfg) {item : Item} {rest : List Item}
    (hqueue : j.notifier.queue = item :: rest)
    (hroom : (Lib.prune cfg.minute j.notifier.now j.notifier.sent).length < maxPerMinute) :
    (⟨{ j.notifier with
          queue := rest
          sent := Lib.prune cfg.minute j.notifier.now j.notifier.sent ++ [j.notifier.now]
          delivering := some item },
        j.offered, j.taken ++ [⟨item, j.notifier.now, true⟩]⟩ : Journal T).Holds cfg := by
  have hsends := sends_append j
    { j.notifier with
      queue := rest
      sent := Lib.prune cfg.minute j.notifier.now j.notifier.sent ++ [j.notifier.now]
      delivering := some item } j.offered ⟨item, j.notifier.now, true⟩
  rw [if_pos rfl] at hsends
  -- at most one send more than the window holds, which has room
  have hone : Lib.recent cfg.minute j.notifier.now [j.notifier.now] ≤ 1 := List.countP_le_length
  have hrecent : Lib.recent cfg.minute j.notifier.now (j.sends ++ [j.notifier.now]) ≤
      maxPerMinute := by
    rw [recent_append, ← h.length_prune]
    omega
  refine ⟨by simp [h.order, hqueue], ?_, ?_, ?_, ?_, ?_⟩
  · rw [hsends, List.pairwise_append]
    refine ⟨h.sorted, by simp, fun t ht t' ht' => ?_⟩
    rw [List.mem_singleton.mp ht']
    exact h.past t ht
  · rw [hsends]
    intro t ht
    rcases List.mem_append.mp ht with ht | ht
    · exact h.past t ht
    · exact (List.mem_singleton.mp ht).le
  · obtain ⟨old, hsplit, hold⟩ := h.prune
    refine ⟨old, ?_, hold⟩
    rw [hsends, hsplit, List.append_assoc]
  · intro t
    rw [hsends]
    exact within_append_le (h.bound t) hrecent
  · rw [hsends]
    intro x hx hdropped
    rcases List.mem_append.mp hx with hx | hx
    · exact (h.dropped x hx hdropped).trans (within_le_append _ _ _ _)
    · obtain rfl := List.mem_singleton.mp hx
      cases hdropped

omit [IsOrderedAddMonoid T] in
/-- The notifier changes, and neither its messages nor what waits in it. -/
theorem Journal.Holds.same (h : j.Holds cfg) {s' : Notifier T} {offered : List Item}
    (hnow : s'.now = j.notifier.now) (hsent : s'.sent = j.notifier.sent)
    (horder : offered = j.taken.map (·.item) ++ s'.queue) :
    (⟨s', offered, j.taken⟩ : Journal T).Holds cfg := by
  obtain ⟨-, hsorted, hpast, hrecent, hbound, hdropped⟩ := h
  refine ⟨horder, hsorted, ?_, ?_, hbound, hdropped⟩
  · rw [hnow]
    exact hpast
  · rw [hnow, hsent]
    exact hrecent

theorem holds_step (h : j.Holds cfg) {e : Event T} (hstep : j.step cfg e = some j') :
    j'.Holds cfg := by
  unfold Journal.step at hstep
  rw [Option.map_eq_some_iff] at hstep
  obtain ⟨s', hs, rfl⟩ := hstep
  -- the journal follows the notifier: what is offered goes in, what is taken goes out
  cases e with
  | clock t =>
    simp only [Notify.step] at hs
    split_ifs at hs with hle
    obtain rfl := Option.some.inj hs
    obtain ⟨horder, hsorted, hpast, ⟨old, hsplit, hold⟩, hbound, hdropped⟩ := h
    simp only [offer, takes, List.append_nil]
    exact ⟨horder, hsorted, fun x hx => (hpast x hx).trans hle,
      ⟨old, hsplit, fun x hx => lt_sub_of_le hle (hold x hx)⟩, hbound, hdropped⟩
  | emit event key mapping detail =>
    obtain rfl := Option.some.inj hs
    obtain ⟨hnow, hsent, hqueue⟩ := emit_queue cfg j.notifier event key mapping detail
    simp only [takes, List.append_nil]
    refine h.same hnow hsent ?_
    rw [hqueue, ← List.append_assoc, ← h.order]
  | get =>
    simp only [Notify.step] at hs
    split at hs
    · next item rest hidle hqueue =>
      obtain rfl := Option.some.inj hs
      simp only [takes, offer, List.append_nil, hqueue]
      unfold Notify.take
      dsimp only
      by_cases hfull : maxPerMinute ≤
          (Lib.prune cfg.minute j.notifier.now j.notifier.sent).length
      · rw [if_pos hfull]
        simpa [hidle] using h.drop hqueue hfull
      · rw [if_neg hfull]
        simpa using h.send hqueue (not_le.mp hfull)
    · cases hs
  | delivered =>
    simp only [Notify.step, Option.map_eq_some_iff] at hs
    obtain ⟨item, -, rfl⟩ := hs
    simp only [takes, offer, List.append_nil]
    exact h.same rfl rfl h.order

omit [IsOrderedAddMonoid T] in
theorem holds_init (start : T) : (Journal.init start).Holds cfg :=
  ⟨rfl, List.Pairwise.nil, nofun, ⟨[], rfl, nofun⟩, fun _ => Nat.zero_le _, nofun⟩

/-! ### Repeats -/

/-- The times at which one event was queued, the last first, are `repeat_s` apart. -/
def Spaced (cfg : Settings T) (s : Notifier T) : Prop :=
  s.queued.Pairwise fun p q => p.1 = q.1 → cfg.repeatS ≤ p.2 - q.2

/-- An event that is no repeat was not queued in the last `repeat_s`. -/
theorem queued_of_not_repeat {s : Notifier T} (htable : Table s) {event key : String}
    (hrepeat : isRepeat cfg s event key = false) {t : T} (ht : ((event, key), t) ∈ s.queued) :
    cfg.repeatS ≤ s.now - t := by
  obtain ⟨last, hlast, hle⟩ := htable.known _ t ht
  rw [isRepeat, hlast, Option.any_some, decide_eq_false_iff_not, not_lt] at hrepeat
  exact hrepeat.trans (sub_le_sub_left hle _)

theorem spaced_step {s s' : Notifier T} {e : Event T} (htable : Table s) (h : Spaced cfg s)
    (hstep : Notify.step cfg s e = some s') : Spaced cfg s' := by
  obtain ⟨event, key, mapping, detail, -, rfl⟩ | ⟨-, hqueued, -⟩ := step_cases hstep
  · obtain heq | ⟨-, hrepeat, ⟨-, heq⟩ | ⟨-, heq⟩⟩ := emit_cases cfg s event key mapping detail
    · rwa [heq]
    · rw [heq]
      exact h
    · rw [heq]
      refine List.pairwise_cons.mpr ⟨?_, h⟩
      rintro ⟨k, t⟩ ht rfl
      exact queued_of_not_repeat htable hrepeat ht
  · unfold Spaced
    rw [hqueued]
    exact h

/-- **What the notifier promises.**  In any run, with any settings: what was queued comes out in
    its order, each item once; no minute has more than 20 messages, and an item is dropped only
    when there were 20 in the minute before; the same event for the same mapping is queued at
    most once in `repeat_s`. -/
theorem journal_holds (cfg : Settings T) (start : T) {es : List (Event T)} {j : Journal T}
    (hrun : run (Journal.step cfg) (Journal.init start) es = some j) :
    j.Holds cfg ∧ Spaced cfg j.notifier := by
  have hinv := run_invariant_of_step
    (fun j : Journal T => j.Holds cfg ∧ Table j.notifier ∧ Spaced cfg j.notifier) ?_
    ⟨holds_init start, table_init start, List.Pairwise.nil⟩ hrun
  · exact ⟨hinv.1, hinv.2.2⟩
  · rintro j e j' ⟨hholds, htable, hspaced⟩ hstep
    refine ⟨holds_step hholds hstep, ?_⟩
    unfold Journal.step at hstep
    rw [Option.map_eq_some_iff] at hstep
    obtain ⟨s', hs, rfl⟩ := hstep
    exact ⟨table_step j.notifier e s' htable hs, spaced_step htable hspaced hs⟩

end

/-- Two lost devices, the first of them sent. -/
theorem journal_holds_twice :
    ∃ j, run (Journal.step deviceSettings) (Journal.init 0) (lostAt 0 ++ [.get] ++ lostAt 5) = some j ∧
      (∀ t, within 60 t j.sends ≤ 20) ∧ j.offered.length = 2 := by
  have hrun : run (Journal.step deviceSettings) (Journal.init 0) (lostAt 0 ++ [.get] ++ lostAt 5) =
    some _ := rfl
  exact ⟨_, hrun, (journal_holds deviceSettings 0 hrun).1.bound, rfl⟩

end Ser2Net.State.Notify
