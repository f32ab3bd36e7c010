import Mathlib.Data.List.Basic
import Mathlib.Tactic.Common

namespace Ser2Net.Lib.PosixPath

/-!
# POSIX paths

Joining a file name to a directory as `os.path.join` does, resolving the dot segments of a
path, and when a joined path stays inside the directory.

* `join`, `resolve`, `Inside` — the operations, on the characters of a path;
* `depthAfter` — how deep a relative path leads, `none` once it climbs above its start;
* `resolve_join` — a relative name is walked from where the directory resolves to;
* `inside_join_iff` — a name `s ++ t`, of which `t` ends the last segment, stays inside every
  directory exactly when `s` is relative and its directories never climb above the start.
-/

/-- `os.path.join(a, b)`. -/
def join (a b : List Char) : List Char :=
  if b.head? = some '/' then b
  else if a = [] ∨ a.getLast? = some '/' then a ++ b
  else a ++ '/' :: b

/-- A path with its dot segments resolved: whether it is absolute, the `..` that lead out of
    the start of a relative path, and the names from there, innermost first. -/
structure Resolved where
  rooted : Bool
  ups : Nat
  names : List (List Char)
  deriving DecidableEq, Repr

/-- Follow one segment. -/
def enter (r : Resolved) (seg : List Char) : Resolved :=
  if seg = [] ∨ seg = ['.'] then r
  else if seg = ['.', '.'] then
    match r.names with
    | _ :: rest => { r with names := rest }
    | [] => if r.rooted then r else { r with ups := r.ups + 1 }
  else { r with names := seg :: r.names }

/-- Follow the segments of a path from its start. -/
def resolve (p : List Char) : Resolved :=
  (p.splitOn '/').foldl enter ⟨p.head? = some '/', 0, []⟩

/-- The path leads strictly inside the directory. -/
def Inside (dir path : List Char) : Prop :=
  ∃ more, more ≠ [] ∧
    resolve path = { resolve dir with names := more ++ (resolve dir).names }

/-- The depth that segments lead to from depth `n`; `none` once they climb above the start. -/
def depthAfter : Nat → List (List Char) → Option Nat
  | n, [] => some n
  | n, seg :: rest =>
    if seg = [] ∨ seg = ['.'] then depthAfter n rest
    else if seg = ['.', '.'] then
      match n with
      | 0 => none
      | n + 1 => depthAfter n rest
    else depthAfter (n + 1) rest

/-- A segment that names a file. -/
def IsName (seg : List Char) : Prop := seg ≠ [] ∧ seg ≠ ['.'] ∧ seg ≠ ['.', '.']

/-- The directories of a relative path never climb above its start. -/
def Confined (s : List Char) : Prop :=
  s.head? ≠ some '/' ∧ (depthAfter 0 (s.splitOn '/').dropLast).isSome = true

instance (s : List Char) : Decidable (Confined s) :=
  inferInstanceAs (Decidable (s.head? ≠ some '/' ∧ (depthAfter 0 (s.splitOn '/').dropLast).isSome = true))

/-! ### Following segments -/

/-- A name goes one level down. -/
theorem enter_name {r : Resolved} {seg : List Char} (h : IsName seg) :
    enter r seg = { r with names := seg :: r.names } := by
  unfold enter
  rw [if_neg (by simp [h.1, h.2.1]), if_neg h.2.2]

/-- Segments that stay at or below the start only change the names below it. -/
theorem foldl_enter_of_depth {segs : List (List Char)} {k n : Nat}
    (h : depthAfter k segs = some n) (r : Resolved) (more : List (List Char))
    (hk : more.length = k) :
    ∃ more', segs.foldl enter { r with names := more ++ r.names } =
      { r with names := more' ++ r.names } := by
  induction segs generalizing k more with
  | nil => exact ⟨more, rfl⟩
  | cons seg rest ih =>
    rw [List.foldl_cons]
    unfold depthAfter at h
    unfold enter
    split at h
    · next hskip =>
      rw [if_pos hskip]
      exact ih h more hk
    · next hskip =>
      rw [if_neg hskip]
      split at h
      · next hup =>
        rw [if_pos hup]
        -- going up takes one of the names below the start away
        cases more with
        | nil =>
          subst hk
          exact absurd h (by simp)
        | cons a more =>
          subst hk
          exact ih h more rfl
      · next hup =>
        rw [if_neg hup]
        exact ih h (seg :: more) (by simp [hk])

/-- Going on keeps a path absolute or relative. -/
theorem enter_rooted (r : Resolved) (seg : List Char) : (enter r seg).rooted = r.rooted := by
  unfold enter
  split
  · rfl
  · split
    · split
      · rfl
      · split <;> rfl
    · rfl

/-- Resolving keeps absolute paths absolute and relative ones relative. -/
theorem resolve_rooted (p : List Char) : (resolve p).rooted = decide (p.head? = some '/') := by
  have hfold : ∀ (segs : List (List Char)) (r : Resolved),
      (segs.foldl enter r).rooted = r.rooted := by
    intro segs
    induction segs with
    | nil => exact fun r => rfl
    | cons seg rest ih => exact fun r => (ih (enter r seg)).trans (enter_rooted r seg)
  exact hfold _ _

/-- No segment takes back a step up. -/
theorem enter_ups_le (r : Resolved) (seg : List Char) : r.ups ≤ (enter r seg).ups := by
  unfold enter
  split
  · exact Nat.le_refl _
  · split
    · split
      · exact Nat.le_refl _
      · split
        · exact Nat.le_refl _
        · exact Nat.le_succ _
    · exact Nat.le_refl _

/-- No path takes back a step up. -/
theorem foldl_enter_ups_le (segs : List (List Char)) (r : Resolved) :
    r.ups ≤ (segs.foldl enter r).ups := by
  induction segs generalizing r with
  | nil => exact Nat.le_refl _
  | cons seg rest ih => exact Nat.le_trans (enter_ups_le r seg) (ih (enter r seg))

/-- Segments that climb above the start of a relative path lead out of it for good. -/
theorem foldl_enter_of_climb {segs : List (List Char)} {r : Resolved}
    (h : depthAfter r.names.length segs = none) (hrel : r.rooted = false) :
    r.ups < (segs.foldl enter r).ups := by
  induction segs generalizing r with
  | nil => exact absurd h (by simp [depthAfter])
  | cons seg rest ih =>
    rw [List.foldl_cons]
    unfold depthAfter at h
    unfold enter
    split at h
    · next hskip =>
      rw [if_pos hskip]
      exact ih h hrel
    · next hskip =>
      rw [if_neg hskip]
      split at h
      · next hup =>
        rw [if_pos hup]
        -- at the top of a path that is not rooted one more step goes up
        cases hn : r.names with
        | nil =>
          rw [hrel]
          exact Nat.lt_of_lt_of_le (Nat.lt_succ_self _)
            (foldl_enter_ups_le rest { r with rooted := false, ups := r.ups + 1, names := [] })
        | cons a names =>
          rw [hn] at h
          exact ih (r := { r with names := names }) h hrel
      · next hup =>
        rw [if_neg hup]
        exact ih (r := { r with names := seg :: r.names }) h hrel

/-! ### Joining -/

/-- A relative name is walked from where the directory leads to. -/
theorem resolve_join {a b : List Char} (hb : b.head? ≠ some '/') :
    resolve (join a b) = (b.splitOn '/').foldl enter (resolve a) := by
  unfold join
  rw [if_neg hb]
  split
  · next ha =>
    rcases ha with rfl | ha
    · -- the current directory
      show (b.splitOn '/').foldl enter ⟨b.head? = some '/', 0, []⟩ = _
      simp only [hb, decide_false]
      rfl
    · -- the directory ends with a separator: its last segment is empty
      obtain ⟨a', rfl⟩ : ∃ a', a = a' ++ ['/'] := ⟨_, (List.dropLast_append_getLast? _ ha).symm⟩
      have hhead : ((a' ++ ['/']) ++ b).head? = (a' ++ ['/']).head? := by
        cases a' <;> rfl
      unfold resolve
      rw [hhead, List.append_assoc, List.singleton_append, List.splitOn_append_cons_self,
        List.splitOn_append_cons_self, List.foldl_append, List.foldl_append, List.splitOn_nil]
      rfl
  · next ha =>
    have hne : a ≠ [] := fun h => ha (Or.inl h)
    have hhead : (a ++ '/' :: b).head? = a.head? := by
      cases a with
      | nil => exact absurd rfl hne
      | cons x rest => rfl
    unfold resolve
    rw [hhead, List.splitOn_append_cons_self, List.foldl_append]

/-- A text that ends the last segment of a path. -/
theorem splitOn_append {s t : List Char} (ht : '/' ∉ t) :
    ∃ last, (s ++ t).splitOn '/' = (s.splitOn '/').dropLast ++ [last ++ t] := by
  by_cases hs : '/' ∈ s
  · obtain ⟨l, a, hla, hl⟩ := List.eq_append_cons_of_mem (List.mem_reverse.2 hs)
    have hs' : s = a.reverse ++ '/' :: l.reverse := by
      rw [← List.reverse_reverse s, hla]
      simp
    have hl' : '/' ∉ l.reverse := fun h => hl (List.mem_reverse.1 h)
    have hlt : '/' ∉ l.reverse ++ t := by simp [hl, ht]
    refine ⟨l.reverse, ?_⟩
    rw [hs', List.append_assoc, List.cons_append, List.splitOn_append_cons_self,
      List.splitOn_append_cons_self, List.splitOn_eq_singleton hl',
      List.splitOn_eq_singleton hlt, List.dropLast_concat]
  · refine ⟨s, ?_⟩
    rw [List.splitOn_eq_singleton hs, List.splitOn_eq_singleton (by simp [hs, ht])]
    rfl

/-- **Confinement.**  A file name `s ++ t`, where `t` has no separator and ends the name of
    the file, lies inside every directory it is joined to exactly when `s` is relative and
    its directories never climb above the start. -/
theorem inside_join_iff {s t : List Char} (ht : '/' ∉ t) (hname : ∀ l, IsName (l ++ t)) :
    (∀ dir, Inside dir (join dir (s ++ t))) ↔ Confined s := by
  have hhead : (s ++ t).head? = some '/' ↔ s.head? = some '/' := by
    cases s with
    | cons x rest => rfl
    | nil =>
      constructor
      · intro h
        exact absurd (List.mem_of_head? h) ht
      · intro h
        exact absurd h (by simp)
  obtain ⟨last, hsplit⟩ := splitOn_append (s := s) ht
  constructor
  · intro h
    by_cases habs : s.head? = some '/'
    · -- an absolute name is not inside a relative directory
      obtain ⟨more, -, heq⟩ := h ['d']
      have hjoin : join ['d'] (s ++ t) = s ++ t := if_pos (hhead.2 habs)
      rw [hjoin] at heq
      have hroot : (resolve (s ++ t)).rooted = (resolve ['d']).rooted := by rw [heq]
      rw [resolve_rooted, resolve_rooted, decide_eq_true (hhead.2 habs)] at hroot
      exact absurd hroot (by decide)
    · refine ⟨habs, ?_⟩
      cases hdepth : depthAfter 0 (s.splitOn '/').dropLast with
      | some n => rfl
      | none =>
        -- a name that climbs leads out of the current directory
        obtain ⟨more, -, heq⟩ := h []
        rw [resolve_join (fun e => habs (hhead.1 e)), hsplit, List.foldl_append] at heq
        have hups := foldl_enter_of_climb (r := resolve []) hdepth rfl
        have hle := foldl_enter_ups_le [last ++ t] ((s.splitOn '/').dropLast.foldl enter (resolve []))
        have := congrArg Resolved.ups heq
        simp only at this
        omega
  · rintro ⟨habs, hdepth⟩ dir
    obtain ⟨n, hn⟩ := Option.isSome_iff_exists.1 hdepth
    obtain ⟨more, hmore⟩ := foldl_enter_of_depth hn (resolve dir) [] rfl
    refine ⟨(last ++ t) :: more, by simp, ?_⟩
    rw [resolve_join (fun e => habs (hhead.1 e)), hsplit, List.foldl_append]
    rw [List.nil_append] at hmore
    rw [show (resolve dir) = { resolve dir with names := (resolve dir).names } from rfl, hmore]
    exact enter_name (hname last)

end Ser2Net.Lib.PosixPath
