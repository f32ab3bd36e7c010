import Ser2Net.Lib.Trace
import Ser2Net.Lib.Window
import Mathlib.Data.List.Perm.Basic
import Mathlib.Algebra.Order.Group.Int

namespace Ser2Net.Web.RateLimit

open Ser2Net.Lib

/-!
# Web — the limit on failed logins

`LoginRateLimiter` of `auth.py` and the requests of `login_post` that use it.  A request asks
`blocked` when it has read its form; the check of the password (a scrypt hash or a bind to the
directory) is an await, and the failure is recorded after it.  A name without an account is
refused without an await when LDAP is off.

* `step` — one request up to its await, the end of a check, the clock;
* `Spare` — the condition: a request is let through only while the failures in the window and
  the checks in flight are together below the limit;
* `failures_bounded` — in the runs that meet it no window holds more than `max_attempts`
  failures, and a request after them is refused;
* `overlapping_logins_exceed` — nine checks in flight with a limit of eight.
-/

section
variable {T : Type*} [AddCommGroup T] [LinearOrder T]

/-- The limiter's failures by address, the addresses whose passwords are being checked, and
    all the failures so far. -/
structure State (T : Type*) where
  now : T
  fails : String → List T
  inFlight : List String
  failed : String → List T

/-- A server that has just started. -/
def State.init (start : T) : State T := ⟨start, fun _ => [], [], fun _ => []⟩

/-- `record_failure`. -/
def State.recordFailure (s : State T) (ip : String) : State T :=
  { s with
    fails := Function.update s.fails ip (s.fails ip ++ [s.now])
    failed := Function.update s.failed ip (s.failed ip ++ [s.now]) }

/-- `reset`. -/
def State.reset (s : State T) (ip : String) : State T :=
  { s with fails := Function.update s.fails ip [] }

/-- The pruning that `blocked` does. -/
def State.pruned (w : T) (s : State T) (ip : String) : State T :=
  { s with fails := Function.update s.fails ip (prune w s.now (s.fails ip)) }

/-- What a login form asks for. -/
inductive Form
  /-- the CSRF token does not match -/
  | forged
  /-- a name whose password is checked off the event loop -/
  | checked
  /-- a name without an account, LDAP being off -/
  | unknown
  deriving DecidableEq, Repr

/-- What happens next. -/
inductive Event (T : Type*)
  | clock (t : T)
  /-- `login_post` of this address, up to the check of the password -/
  | request (ip : String) (form : Form)
  /-- the `i`-th check in flight ends in failure -/
  | failed (i : Nat)
  /-- the `i`-th check in flight ends in a login -/
  | succeeded (i : Nat)

/-- `login_post` with the limiter; `blocked` prunes also when it refuses. -/
def request (maxAttempts : Nat) (w : T) (s : State T) (ip : String) : Form → State T
  | .forged => s
  | .checked =>
    let s := s.pruned w ip
    if maxAttempts ≤ (s.fails ip).length then s else { s with inFlight := s.inFlight ++ [ip] }
  | .unknown =>
    let s := s.pruned w ip
    if maxAttempts ≤ (s.fails ip).length then s else s.recordFailure ip

/-- One event; the clock never goes back. -/
def step (maxAttempts : Nat) (w : T) (s : State T) : Event T → Option (State T)
  | .clock t => if s.now ≤ t then some { s with now := t } else none
  | .request ip form => some (request maxAttempts w s ip form)
  | .failed i =>
    s.inFlight[i]?.map fun ip =>
      { s with inFlight := s.inFlight.eraseIdx i }.recordFailure ip
  | .succeeded i =>
    s.inFlight[i]?.map fun ip => { s with inFlight := s.inFlight.eraseIdx i }.reset ip

/-- The condition on a step: no login of the address succeeds, and one that is let through
    finds the failures in the window and the checks in flight together below the limit. -/
def Spare (maxAttempts : Nat) (w : T) (ip : String) (s : State T) : Event T → Prop
  | .request ip' form =>
    ip' = ip → form ≠ .forged → (prune w s.now (s.fails ip)).length < maxAttempts →
      (prune w s.now (s.fails ip)).length + s.inFlight.count ip < maxAttempts
  | .succeeded i => s.inFlight[i]? ≠ some ip
  | _ => True

/-- The queue holds the recent failures, in order; these and the checks in flight stay within
    the limit, and so does every window. -/
structure Inv (maxAttempts : Nat) (w : T) (ip : String) (s : State T) : Prop where
  sorted : (s.failed ip).Pairwise (· ≤ ·)
  past : ∀ t ∈ s.failed ip, t ≤ s.now
  queue : ∃ old, s.failed ip = old ++ s.fails ip ∧ ∀ t ∈ old, w < s.now - t
  spare : recent w s.now (s.failed ip) + s.inFlight.count ip ≤ maxAttempts
  bound : ∀ t, within w t (s.failed ip) ≤ maxAttempts

variable {maxAttempts : Nat} {w : T} {ip : String} {s : State T}

/-! ### The queue -/

/-- Another address is another queue. -/
theorem Inv.of_eq {s' : State T} (h : Inv maxAttempts w ip s) (hnow : s'.now = s.now)
    (hfails : s'.fails ip = s.fails ip) (hfailed : s'.failed ip = s.failed ip)
    (hcount : s'.inFlight.count ip = s.inFlight.count ip) : Inv maxAttempts w ip s' := by
  obtain ⟨hsorted, hpast, hqueue, hspare, hbound⟩ := h
  constructor
  · rwa [hfailed]
  · rwa [hfailed, hnow]
  · rwa [hfailed, hfails, hnow]
  · rwa [hfailed, hnow, hcount]
  · rwa [hfailed]

/-- Looking whether an address is blocked keeps the invariant. -/
theorem Inv.pruned (h : Inv maxAttempts w ip s) (ip' : String) :
    Inv maxAttempts w ip (s.pruned w ip') := by
  by_cases heq : ip' = ip
  · subst heq
    obtain ⟨old, hsplit, hold⟩ := h.queue
    obtain ⟨dropped, hdrop, hdropped⟩ := exists_prune w s.now (s.fails ip')
    refine { h with queue := ⟨old ++ dropped, ?_, ?_⟩ }
    · show s.failed ip' = old ++ dropped ++ Function.update s.fails ip' _ ip'
      rw [Function.update_self, List.append_assoc, ← hdrop, hsplit]
    · intro t ht
      rcases List.mem_append.mp ht with ht | ht
      · exact hold t ht
      · exact hdropped t ht
  · exact h.of_eq rfl (Function.update_of_ne (Ne.symm heq) _ _) rfl rfl

/-- A failure of another address keeps the invariant. -/
theorem Inv.recordFailure_ne {ip' : String} (h : Inv maxAttempts w ip s) (hne : ip' ≠ ip) :
    Inv maxAttempts w ip (s.recordFailure ip') :=
  h.of_eq rfl (Function.update_of_ne (Ne.symm hne) _ _) (Function.update_of_ne (Ne.symm hne) _ _)
    rfl

variable [IsOrderedAddMonoid T]

/-- What `blocked` counts are the failures of the last `w` seconds. -/
theorem Inv.length_pruned (h : Inv maxAttempts w ip s) :
    (prune w s.now (s.fails ip)).length = recent w s.now (s.failed ip) := by
  obtain ⟨old, hsplit, hold⟩ := h.queue
  have hsorted : (s.fails ip).Pairwise (· ≤ ·) := by
    have := h.sorted
    rw [hsplit] at this
    exact (List.pairwise_append.mp this).2.1
  rw [length_prune hsorted, hsplit, recent_append, recent_eq_zero hold, Nat.zero_add]

/-- A failure of now, with room for it. -/
theorem Inv.recordFailure (h : Inv maxAttempts w ip s)
    (hroom : recent w s.now (s.failed ip) + s.inFlight.count ip < maxAttempts) :
    Inv maxAttempts w ip (s.recordFailure ip) := by
  have hfailed : (s.recordFailure ip).failed ip = s.failed ip ++ [s.now] :=
    Function.update_self ..
  have hfails : (s.recordFailure ip).fails ip = s.fails ip ++ [s.now] :=
    Function.update_self ..
  -- the failure of now is one more in the window, which has room
  have hone : recent w s.now [s.now] ≤ 1 := List.countP_le_length
  have hrecent : recent w s.now (s.failed ip ++ [s.now]) + s.inFlight.count ip ≤ maxAttempts := by
    rw [recent_append]
    omega
  constructor
  · rw [hfailed, List.pairwise_append]
    refine ⟨h.sorted, by simp, ?_⟩
    intro t ht t' ht'
    rw [List.mem_singleton] at ht'
    exact ht' ▸ h.past t ht
  · rw [hfailed]
    intro t ht
    rcases List.mem_append.mp ht with ht | ht
    · exact h.past t ht
    · rw [List.mem_singleton] at ht
      exact ht.le
  · obtain ⟨old, hsplit, hold⟩ := h.queue
    refine ⟨old, ?_, hold⟩
    rw [hfailed, hfails, hsplit, List.append_assoc]
  · rw [hfailed]
    exact hrecent
  · intro t
    rw [hfailed]
    exact within_append_le (h.bound t) (by omega)

/-! ### One event -/

/-- The clock goes on. -/
theorem inv_clock {t : T} (h : Inv maxAttempts w ip s) (hle : s.now ≤ t) :
    Inv maxAttempts w ip { s with now := t } where
  sorted := h.sorted
  past := fun x hx => (h.past x hx).trans hle
  queue := by
    obtain ⟨old, hsplit, hold⟩ := h.queue
    exact ⟨old, hsplit, fun x hx => lt_sub_of_le hle (hold x hx)⟩
  spare := (Nat.add_le_add_right (recent_anti hle _) _).trans h.spare
  bound := h.bound

/-- An attempt that finds room among those in progress. -/
theorem inv_request {ip' : String} {form : Form} (h : Inv maxAttempts w ip s)
    (hspare : Spare maxAttempts w ip s (.request ip' form)) :
    Inv maxAttempts w ip (request maxAttempts w s ip' form) := by
  have hpruned := h.pruned ip'
  -- what the limiter lets through for this address has room
  have hroom : ip' = ip → form ≠ .forged →
      ¬ maxAttempts ≤ ((s.pruned w ip').fails ip').length →
        recent w s.now (s.failed ip) + s.inFlight.count ip < maxAttempts := by
    rintro rfl hform hfree
    have hqueue : (s.pruned w ip').fails ip' = prune w s.now (s.fails ip') :=
      Function.update_self ..
    rw [hqueue, not_le] at hfree
    have := hspare rfl hform hfree
    rwa [h.length_pruned] at this
  cases form with
  | forged => exact h
  | checked =>
    simp only [request]
    split_ifs with hblocked
    · exact hpruned
    · by_cases heq : ip' = ip
      · subst heq
        refine { hpruned with spare := ?_ }
        have := hroom rfl (by simp) hblocked
        show recent w s.now (s.failed ip') + (s.inFlight ++ [ip']).count ip' ≤ maxAttempts
        rw [List.count_append, List.count_singleton_self]
        omega
      · refine hpruned.of_eq rfl rfl rfl ?_
        show (s.inFlight ++ [ip']).count ip = s.inFlight.count ip
        rw [List.count_append, List.count_singleton, if_neg (by simpa using heq), Nat.add_zero]
  | unknown =>
    simp only [request]
    split_ifs with hblocked
    · exact hpruned
    · by_cases heq : ip' = ip
      · subst heq
        exact hpruned.recordFailure (hroom rfl (by simp) hblocked)
      · exact hpruned.recordFailure_ne heq

/-- A check that ends leaves the others in flight. -/
theorem count_eraseIdx {l : List String} {i : Nat} {x : String} (hx : l[i]? = some x) (y : String) :
    (l.eraseIdx i).count y + (if x = y then 1 else 0) = l.count y := by
  obtain ⟨hi, rfl⟩ := List.getElem?_eq_some_iff.mp hx
  have hperm := (List.getElem_cons_eraseIdx_perm hi).count_eq y
  rw [List.count_cons] at hperm
  simpa using hperm

/-- Every step keeps the invariant. -/
theorem inv_step (s : State T) (e : Event T) (s' : State T) (h : Inv maxAttempts w ip s)
    (hspare : Spare maxAttempts w ip s e) (hstep : step maxAttempts w s e = some s') :
    Inv maxAttempts w ip s' := by
  cases e with
  | clock t =>
    simp only [step] at hstep
    split_ifs at hstep with hle
    obtain rfl := Option.some.inj hstep
    exact inv_clock h hle
  | request ip' form =>
    obtain rfl := Option.some.inj hstep
    exact inv_request h hspare
  | failed i =>
    simp only [step, Option.map_eq_some_iff] at hstep
    obtain ⟨ip', hip', rfl⟩ := hstep
    have hcount := count_eraseIdx hip' ip
    by_cases heq : ip' = ip
    · subst heq
      rw [if_pos rfl] at hcount
      -- the request in flight becomes a failure, so the sum stays
      have hfewer : Inv maxAttempts w ip' { s with inFlight := s.inFlight.eraseIdx i } := by
        refine { h with spare := ?_ }
        have := h.spare
        show recent w s.now (s.failed ip') + (s.inFlight.eraseIdx i).count ip' ≤ maxAttempts
        omega
      refine hfewer.recordFailure ?_
      have := h.spare
      show recent w s.now (s.failed ip') + (s.inFlight.eraseIdx i).count ip' < maxAttempts
      omega
    · rw [if_neg heq, Nat.add_zero] at hcount
      have hother : Inv maxAttempts w ip { s with inFlight := s.inFlight.eraseIdx i } :=
        h.of_eq rfl rfl rfl hcount
      exact hother.recordFailure_ne heq
  | succeeded i =>
    simp only [step, Option.map_eq_some_iff] at hstep
    obtain ⟨ip', hip', rfl⟩ := hstep
    -- by the guard the sign-in comes from another address, whose failures it clears
    have hne : ip' ≠ ip := by
      rintro rfl
      exact hspare hip'
    have hcount := count_eraseIdx hip' ip
    rw [if_neg hne, Nat.add_zero] at hcount
    exact h.of_eq rfl (Function.update_of_ne (Ne.symm hne) _ _) rfl hcount

/-- Before the first attempt. -/
theorem inv_init (start : T) : Inv maxAttempts w ip (State.init start) where
  sorted := List.Pairwise.nil
  past := by simp [State.init]
  queue := ⟨[], rfl, by simp⟩
  spare := by simp [State.init, recent]
  bound := by simp [State.init, within]

/-- With the limit reached in the window, a request neither starts a check nor fails one. -/
theorem Inv.refused (h : Inv maxAttempts w ip s)
    (hfull : maxAttempts ≤ recent w s.now (s.failed ip)) (form : Form) :
    (request maxAttempts w s ip form).inFlight = s.inFlight ∧
      (request maxAttempts w s ip form).failed = s.failed := by
  have hqueue : (s.pruned w ip).fails ip = prune w s.now (s.fails ip) := Function.update_self ..
  have hblocked : maxAttempts ≤ ((s.pruned w ip).fails ip).length := by
    rw [hqueue, h.length_pruned]
    exact hfull
  cases form with
  | forged => exact ⟨rfl, rfl⟩
  | checked =>
    simp only [request, if_pos hblocked]
    exact ⟨rfl, rfl⟩
  | unknown =>
    simp only [request, if_pos hblocked]
    exact ⟨rfl, rfl⟩

/-- For every limit, window and address and every run in which no login of the address
    succeeds and each one let through has room: no window of `w` seconds holds more than
    `maxAttempts` failures of the address, and while the last `w` seconds hold that many, a
    request of the address is refused without a check. -/
theorem failures_bounded (maxAttempts : Nat) (w : T) (ip : String) (start : T)
    (es : List (Event T)) (s : State T)
    (hcond : Along (step maxAttempts w) (Spare maxAttempts w ip) (State.init start) es)
    (hrun : run (step maxAttempts w) (State.init start) es = some s) :
    (∀ t, within w t (s.failed ip) ≤ maxAttempts) ∧
      (maxAttempts ≤ recent w s.now (s.failed ip) → ∀ form s',
        step maxAttempts w s (.request ip form) = some s' →
          s'.inFlight = s.inFlight ∧ s'.failed = s.failed) := by
  have hinv : Inv maxAttempts w ip s :=
    run_invariant (Inv maxAttempts w ip) inv_step (inv_init start) hcond hrun
  refine ⟨hinv.bound, ?_⟩
  intro hfull form s' hstep
  obtain rfl := Option.some.inj hstep
  exact hinv.refused hfull form

end

/-! ### Two runs -/

/-- A test of `Spare` on whole seconds. -/
def spareCheck (maxAttempts : Nat) (w : Int) (ip : String) (s : State Int) : Event Int → Bool
  | .request ip' form =>
    ip' ≠ ip || form = .forged || maxAttempts ≤ (prune w s.now (s.fails ip)).length ||
      (prune w s.now (s.fails ip)).length + s.inFlight.count ip < maxAttempts
  | .succeeded i => s.inFlight[i]? ≠ some ip
  | _ => true

/-- The test finds only steps that meet the condition. -/
theorem spare_of_check {maxAttempts : Nat} {w : Int} {ip : String} (s : State Int) (e : Event Int)
    (h : spareCheck maxAttempts w ip s e = true) : Spare maxAttempts w ip s e := by
  cases e with
  | clock t => trivial
  | request ip' form =>
    intro hip hform hfree
    simp only [spareCheck, hip, hform, Bool.or_eq_true, decide_eq_true_eq, ne_eq, not_true,
      decide_false] at h
    simpa [not_le.mpr hfree] using h
  | failed i => trivial
  | succeeded i => simpa [spareCheck, Spare] using h

/-- Two failures one after the other, a refusal, and a further failure when the first one has
    left the window. -/
def patientEvents : List (Event Int) :=
  [.request "192.0.2.1" .checked, .failed 0, .clock 100, .request "192.0.2.1" .checked,
    .failed 0, .request "192.0.2.1" .checked, .clock 301, .request "192.0.2.1" .checked, .failed 0]

/-- A patient attacker, one attempt at a time. -/
theorem failures_bounded_patient :
    ∃ s, run (step 2 300) (State.init (0 : Int)) patientEvents = some s ∧
      s.failed "192.0.2.1" = [0, 100, 301] ∧ ∀ t, within 300 t (s.failed "192.0.2.1") ≤ 2 := by
  have hrun : run (step 2 300) (State.init (0 : Int)) patientEvents = some _ := rfl
  exact ⟨_, hrun, by decide, (failures_bounded 2 300 "192.0.2.1" 0 patientEvents _
    (along_of_check spare_of_check (by decide)) hrun).1⟩

/-- Nine requests ask before the first check ends: with the limit of 8 failures in 300 seconds
    all nine passwords are checked and all fail in the same second. -/
theorem overlapping_logins_exceed :
    ∃ s, run (step 8 300) (State.init (0 : Int))
        (List.replicate 9 (.request "192.0.2.1" .checked) ++ List.replicate 9 (.failed 0)) =
          some s ∧ within 300 0 (s.failed "192.0.2.1") = 9 :=
  ⟨_, rfl, by decide⟩

end Ser2Net.Web.RateLimit
