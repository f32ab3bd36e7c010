import Ser2Net.Lib.Dict
import Mathlib.Logic.Function.Basic

namespace Ser2Net.Lib.Durable

/-!
# Files, and what a power cut leaves of them

A file is a number with a text; names lead to files.  What a program sees is what it has done.
What survives a power cut is less: a text only when it was synced after it was last written, and
a name as it was when its directory was last synced or as it was made since, name by name.

* `Disk`, `Op`, `Disk.exec` — the file system and the operations on it;
* `Cut` — what a power cut may leave;
* `Whole` — the invariant of a name that never shows a half-written file: whatever it may lead to
  is synced, and good;
* `Writing` — a file written beside its place, synced, and renamed into it: the invariant of the
  writer, step by step, and with it `Whole` at the place.
-/

variable {κ τ : Type} [DecidableEq κ]

/-- The file system.  `names` and `text` are what a program sees; `synced` says which texts are
    on the disk, and `shown` what a name may lead to after a power cut. -/
structure Disk (κ τ : Type) where
  names : List (κ × Nat)
  text : Nat → τ
  synced : Nat → Bool
  shown : κ → List (Option Nat)
  next : Nat

/-- The operations on files. -/
inductive Op (κ τ : Type)
  /-- A new file, with this text. -/
  | create (p : κ) (t : τ)
  /-- The file now has this text. -/
  | write (p : κ) (t : τ)
  | fsync (p : κ)
  | replace (src dst : κ)
  | unlink (p : κ)
  /-- The names for which the test holds are synced: those of one directory. -/
  | syncDir (dir : κ → Bool)

namespace Disk

/-- A disk without files. -/
def empty (t : τ) : Disk κ τ := ⟨[], fun _ => t, fun _ => true, fun _ => [none], 0⟩

/-- The file that a name leads to. -/
def file (d : Disk κ τ) (p : κ) : Option Nat := d.names.lookup p

/-- The text under a name. -/
def read (d : Disk κ τ) (p : κ) : Option τ := (d.file p).map d.text

/-- The names are changed; the disk may show the old ones or the new ones. -/
def relink (d : Disk κ τ) (names : List (κ × Nat)) : Disk κ τ :=
  { d with names := names, shown := fun p => names.lookup p :: d.shown p }

/-- The names without one. -/
def erase (d : Disk κ τ) (p : κ) : List (κ × Nat) := d.names.filter fun e => e.1 ≠ p

/-- An operation; `none` when it is not possible. -/
def exec (d : Disk κ τ) : Op κ τ → Option (Disk κ τ)
  | .create p t =>
    match d.file p with
    | some _ => none
    | none =>
      some { d.relink (dictSet d.names p d.next) with
        text := Function.update d.text d.next t
        synced := Function.update d.synced d.next false
        next := d.next + 1 }
  | .write p t =>
    (d.file p).map fun n =>
      { d with text := Function.update d.text n t, synced := Function.update d.synced n false }
  | .fsync p => (d.file p).map fun n => { d with synced := Function.update d.synced n true }
  | .replace src dst => (d.file src).map fun n => d.relink (dictSet (d.erase src) dst n)
  | .unlink p => (d.file p).map fun _ => d.relink (d.erase p)
  | .syncDir dir => some { d with shown := fun p => if dir p then [d.file p] else d.shown p }

end Disk

/-- What a power cut may leave: each name leads to one of the files that it may, or to none; a
    text that was not synced may be anything. -/
structure Cut (d d' : Disk κ τ) : Prop where
  nodup : (d'.names.map Prod.fst).Nodup
  names : ∀ p, d'.file p ∈ d.shown p
  text : ∀ n, d.synced n = true → d'.text n = d.text n
  synced : ∀ n, d'.synced n = true
  shown : ∀ p, d'.shown p = [d'.file p]
  next : d'.next = d.next

/-! ### What holds of every disk -/

/-- A disk is sane: what is seen may be shown, and the numbers to come are new. -/
structure Sane (d : Disk κ τ) : Prop where
  nodup : (d.names.map Prod.fst).Nodup
  seen : ∀ p, d.file p ∈ d.shown p
  fresh : ∀ p n, some n ∈ d.shown p → n < d.next

section
variable {d d' : Disk κ τ}

theorem sane_empty (t : τ) : Sane (Disk.empty t : Disk κ τ) where
  nodup := List.nodup_nil
  seen _ := List.mem_singleton_self _
  fresh p n h := by simp [Disk.empty] at h

theorem lookup_filter_ne (l : List (κ × Nat)) {p q : κ} :
    (l.filter fun e => e.1 ≠ p).lookup q = if q = p then none else l.lookup q := by
  induction l with
  | nil => simp
  | cons e l ih =>
    by_cases he : e.1 = p
    · rw [List.filter_cons_of_neg (by simpa using he), ih]
      split
      · rfl
      · next hq => rw [List.lookup_cons, beq_false_of_ne fun heq => hq (heq.trans he)]
    · rw [List.filter_cons_of_pos (by simpa using he), List.lookup_cons, List.lookup_cons, ih]
      by_cases hq : q = e.1
      · subst hq
        simp [he]
      · rw [beq_false_of_ne hq]

theorem erase_nodup (h : (d.names.map Prod.fst).Nodup) (p : κ) :
    ((d.erase p).map Prod.fst).Nodup :=
  h.sublist (List.filter_sublist.map Prod.fst)

/-- Renamed, the names lead where they led, but for the two. -/
theorem file_relink (d : Disk κ τ) (src dst p : κ) (n : Nat) :
    (d.relink (dictSet (d.erase src) dst n)).file p =
      if p = dst then some n else if p = src then none else d.file p := by
  show (dictSet (d.erase src) dst n).lookup p = _
  rw [lookup_dictSet, Disk.erase, lookup_filter_ne]
  rfl

/-- A relinked disk is sane when the names lead only to files that are there. -/
theorem Sane.relink (h : Sane d) {names : List (κ × Nat)} (hnd : (names.map Prod.fst).Nodup)
    (hold : ∀ p n, names.lookup p = some n → n < d.next) : Sane (d.relink names) where
  nodup := hnd
  seen _ := List.mem_cons_self
  fresh p n hn := by
    rcases List.mem_cons.1 hn with hn | hn
    · exact hold p n hn.symm
    · exact h.fresh p n hn

theorem Sane.file_lt (h : Sane d) {p : κ} {n : Nat} (hp : d.file p = some n) : n < d.next :=
  h.fresh p n (hp ▸ h.seen p)

/-- A file is created only where there was none, under the next number. -/
theorem eq_of_create {p : κ} {t : τ} (hexec : d.exec (.create p t) = some d') :
    d' = { d.relink (dictSet d.names p d.next) with
      text := Function.update d.text d.next t
      synced := Function.update d.synced d.next false
      next := d.next + 1 } := by
  unfold Disk.exec at hexec
  dsimp only at hexec
  split at hexec
  · cases hexec
  · exact (Option.some.inj hexec).symm

/-- Every operation keeps a disk sane. -/
theorem Sane.exec (h : Sane d) {op : Op κ τ} (hexec : d.exec op = some d') : Sane d' := by
  cases op with
  | create p t =>
    -- a new file has the next number, which nothing shown has
    obtain rfl := eq_of_create hexec
    refine ⟨dictSet_nodup h.nodup p _, fun q => List.mem_cons_self, fun q n hn => ?_⟩
    rcases List.mem_cons.1 hn with hn | hn
    · rw [lookup_dictSet] at hn
      split at hn
      · cases hn
        exact Nat.lt_succ_self _
      · exact Nat.lt_succ_of_lt (h.file_lt hn.symm)
    · exact Nat.lt_succ_of_lt (h.fresh q n hn)
  | write p t =>
    obtain ⟨n, -, rfl⟩ := Option.map_eq_some_iff.1 hexec
    exact ⟨h.nodup, h.seen, h.fresh⟩
  | fsync p =>
    obtain ⟨n, -, rfl⟩ := Option.map_eq_some_iff.1 hexec
    exact ⟨h.nodup, h.seen, h.fresh⟩
  | replace src dst =>
    obtain ⟨n, hn, rfl⟩ := Option.map_eq_some_iff.1 hexec
    -- a rename shows a file that is there under another name
    refine h.relink (dictSet_nodup (erase_nodup h.nodup src) dst n) fun p m hm => ?_
    have hfile := file_relink d src dst p n
    rw [show (d.relink (dictSet (d.erase src) dst n)).file p = some m from hm] at hfile
    split at hfile
    · cases hfile
      exact h.file_lt hn
    · split at hfile
      · cases hfile
      · exact h.file_lt hfile.symm
  | unlink p =>
    obtain ⟨n, -, rfl⟩ := Option.map_eq_some_iff.1 hexec
    refine h.relink (erase_nodup h.nodup p) fun q m hm => ?_
    rw [Disk.erase, lookup_filter_ne] at hm
    split at hm
    · cases hm
    · exact h.file_lt hm
  | syncDir dir =>
    cases hexec
    -- what a directory sync makes lasting is what is shown
    refine ⟨h.nodup, fun p => ?_, fun p n hn => ?_⟩
    · show d.file p ∈ if dir p then [d.file p] else d.shown p
      split
      · exact List.mem_singleton_self _
      · exact h.seen p
    · have hn : some n ∈ if dir p then [d.file p] else d.shown p := hn
      split at hn
      · exact h.file_lt (List.mem_singleton.1 hn).symm
      · exact h.fresh p n hn

theorem Sane.cut (h : Sane d) (hcut : Cut d d') : Sane d' where
  nodup := hcut.nodup
  seen p := by simp [hcut.shown p]
  fresh p n hn := by
    rw [hcut.shown p, List.mem_singleton] at hn
    rw [hcut.next]
    exact h.fresh p n (hn ▸ hcut.names p)

end

/-! ### A name that never shows a half-written file -/

/-- Whatever the name may lead to after a power cut is synced, and good. -/
def Whole (good : τ → Prop) (d : Disk κ τ) (p : κ) : Prop :=
  ∀ n, some n ∈ d.shown p → d.synced n = true ∧ good (d.text n)

/-- The file under `q` is not to be seen under `p`. -/
def Hidden (d : Disk κ τ) (q p : κ) : Prop := ∀ n, d.file q = some n → some n ∉ d.shown p

/-- An operation that does not touch what `p` may show: it makes or renames other names, or writes
    a file that is hidden from `p`. -/
def Op.Spares (d : Disk κ τ) (p : κ) : Op κ τ → Prop
  | .create q _ => q ≠ p
  | .write q _ => Hidden d q p
  | .replace _ dst => dst ≠ p
  | _ => True

section
variable {d d' : Disk κ τ} {good : τ → Prop} {p : κ}

omit [DecidableEq κ] in
theorem Whole.mono {good' : τ → Prop} (h : Whole good d p) (himp : ∀ t, good t → good' t) :
    Whole good' d p :=
  fun n hn => ⟨(h n hn).1, himp _ (h n hn).2⟩

/-- What a program reads under such a name is good. -/
theorem Whole.read (h : Whole good d p) (hs : Sane d) {t : τ} (hread : d.read p = some t) :
    good t := by
  obtain ⟨n, hn, rfl⟩ := Option.map_eq_some_iff.1 hread
  exact (h n (hn ▸ hs.seen p)).2

/-- A file is added to those that the name may show only by a rename to it. -/
theorem Whole.relink (h : Whole good d p) (hs : Sane d) {names : List (κ × Nat)}
    (hnames : ∀ n, names.lookup p = some n → d.file p = some n) : Whole good (d.relink names) p := by
  intro n hn
  rcases List.mem_cons.1 hn with hn | hn
  · exact h n (hnames n hn.symm ▸ hs.seen p)
  · exact h n hn

/-- What spares a name leaves it whole. -/
theorem Whole.exec (h : Whole good d p) (hs : Sane d) {op : Op κ τ} (hexec : d.exec op = some d')
    (hspares : op.Spares d p) : Whole good d' p := by
  cases op with
  | create q t =>
    obtain rfl := eq_of_create hexec
    intro n hn
    -- the new file has a new number, and `p` does not lead to it
    have hold : some n ∈ d.shown p := by
      rcases List.mem_cons.1 hn with hn | hn
      · rw [lookup_dictSet, if_neg (Ne.symm hspares)] at hn
        exact hn ▸ hs.seen p
      · exact hn
    have hne : n ≠ d.next := Nat.ne_of_lt (hs.fresh p n hold)
    simpa [hne] using h n hold
  | write q t =>
    obtain ⟨m, hm, rfl⟩ := Option.map_eq_some_iff.1 hexec
    intro n hn
    have hne : n ≠ m := by
      rintro rfl
      exact hspares n hm hn
    simpa [hne] using h n hn
  | fsync q =>
    obtain ⟨m, -, rfl⟩ := Option.map_eq_some_iff.1 hexec
    intro n hn
    refine ⟨?_, (h n hn).2⟩
    show Function.update d.synced m true n = true
    by_cases hne : n = m
    · rw [hne, Function.update_self]
    · rw [Function.update_of_ne hne]
      exact (h n hn).1
  | replace src dst =>
    obtain ⟨m, -, rfl⟩ := Option.map_eq_some_iff.1 hexec
    refine h.relink hs fun n hn => ?_
    have hfile := file_relink d src dst p m
    rw [if_neg (Ne.symm hspares)] at hfile
    rw [show (dictSet (d.erase src) dst m).lookup p = _ from hfile] at hn
    split at hn
    · cases hn
    · exact hn
  | unlink q =>
    obtain ⟨m, -, rfl⟩ := Option.map_eq_some_iff.1 hexec
    refine h.relink hs fun n hn => ?_
    rw [Disk.erase, lookup_filter_ne] at hn
    split at hn
    · cases hn
    · exact hn
  | syncDir dir =>
    cases hexec
    intro n hn
    have hn : some n ∈ if dir p then [d.file p] else d.shown p := hn
    split at hn
    · exact h n (List.mem_singleton.1 hn ▸ hs.seen p)
    · exact h n hn

/-- A rename of a synced, good file leaves its place whole. -/
theorem Whole.replaced (h : Whole good d p) {src : κ} {n : Nat} (hfile : d.file src = some n)
    (hsynced : d.synced n = true) (hgood : good (d.text n))
    (hexec : d.exec (.replace src p) = some d') : Whole good d' p := by
  obtain ⟨m, hm, rfl⟩ := Option.map_eq_some_iff.1 hexec
  obtain rfl : n = m := Option.some.inj (hfile.symm.trans hm)
  intro k hk
  rcases List.mem_cons.1 hk with hk | hk
  · have hself := file_relink d src p p n
    rw [if_pos rfl] at hself
    rw [show (dictSet (d.erase src) p n).lookup p = _ from hself] at hk
    cases hk
    exact ⟨hsynced, hgood⟩
  · exact h k hk

/-- A power cut leaves a whole name whole. -/
theorem Whole.cut (h : Whole good d p) (hcut : Cut d d') : Whole good d' p := by
  intro n hn
  rw [hcut.shown p, List.mem_singleton] at hn
  obtain ⟨hsynced, hgood⟩ := h n (hn ▸ hcut.names p)
  exact ⟨hcut.synced n, hcut.text n hsynced ▸ hgood⟩

end

/-! ### What a name may read as -/

/-- Whatever happens to the power, the name reads as one of these; `none`: it leads nowhere. -/
structure Among (l : List (Option τ)) (d : Disk κ τ) (p : κ) : Prop where
  whole : Whole (fun t => some t ∈ l) d p
  absent : none ∈ d.shown p → none ∈ l

/-- The operation does not take the name away. -/
def Op.Keeps (p : κ) : Op κ τ → Prop
  | .replace src _ => src ≠ p
  | .unlink q => q ≠ p
  | _ => True

section
variable {d d' : Disk κ τ} {l : List (Option τ)} {p : κ}

theorem Among.read (h : Among l d p) (hs : Sane d) : d.read p ∈ l := by
  cases hfile : d.file p with
  | none =>
    rw [Disk.read, hfile]
    exact h.absent (hfile ▸ hs.seen p)
  | some n =>
    rw [Disk.read, hfile]
    exact (h.whole n (hfile ▸ hs.seen p)).2

/-- A name that is kept is shown to be absent only where it was. -/
theorem absent_of_exec (hs : Sane d) {op : Op κ τ} (hexec : d.exec op = some d')
    (hkeeps : op.Keeps p) (h : none ∈ d'.shown p) : none ∈ d.shown p := by
  cases op with
  | create q t =>
    obtain rfl := eq_of_create hexec
    -- a create may add a name, and p keeps being absent where another name is added
    rcases List.mem_cons.1 h with h | h
    · rw [lookup_dictSet] at h
      split at h
      · cases h
      · exact h ▸ hs.seen p
    · exact h
  | write q t =>
    obtain ⟨m, -, rfl⟩ := Option.map_eq_some_iff.1 hexec
    exact h
  | fsync q =>
    obtain ⟨m, -, rfl⟩ := Option.map_eq_some_iff.1 hexec
    exact h
  | replace src dst =>
    obtain ⟨m, -, rfl⟩ := Option.map_eq_some_iff.1 hexec
    rcases List.mem_cons.1 h with h | h
    · have hfile := file_relink d src dst p m
      rw [show (dictSet (d.erase src) dst m).lookup p = _ from hfile] at h
      split at h
      · cases h
      · rw [if_neg (Ne.symm hkeeps)] at h
        exact h ▸ hs.seen p
    · exact h
  | unlink q =>
    obtain ⟨m, -, rfl⟩ := Option.map_eq_some_iff.1 hexec
    rcases List.mem_cons.1 h with h | h
    · rw [Disk.erase, lookup_filter_ne, if_neg (Ne.symm hkeeps)] at h
      exact h ▸ hs.seen p
    · exact h
  | syncDir dir =>
    cases hexec
    have h : none ∈ if dir p then [d.file p] else d.shown p := h
    split at h
    · exact List.mem_singleton.1 h ▸ hs.seen p
    · exact h

/-- What spares and keeps a name leaves it with what it may read as. -/
theorem Among.exec (h : Among l d p) (hs : Sane d) {op : Op κ τ} (hexec : d.exec op = some d')
    (hspares : op.Spares d p) (hkeeps : op.Keeps p) : Among l d' p :=
  ⟨h.whole.exec hs hexec hspares, fun hnone => h.absent (absent_of_exec hs hexec hkeeps hnone)⟩

/-- A power cut leaves a name with what it may read as. -/
theorem Among.cut (h : Among l d p) (hcut : Cut d d') : Among l d' p := by
  refine ⟨h.whole.cut hcut, fun hnone => h.absent ?_⟩
  rw [hcut.shown p, List.mem_singleton] at hnone
  exact hnone ▸ hcut.names p

/-- Once its directory is synced a name reads as it does. -/
theorem Among.sync (h : Among l d p) (hs : Sane d) {dir : κ → Bool} (hdir : dir p = true) {t : τ}
    (hread : d.read p = some t) (hexec : d.exec (.syncDir dir) = some d') :
    Among [some t] d' p := by
  obtain ⟨n, hn, rfl⟩ := Option.map_eq_some_iff.1 hread
  cases hexec
  have hshown : (if dir p then [d.file p] else d.shown p) = [some n] := by rw [if_pos hdir, hn]
  constructor
  · intro m hm
    have hm : some m ∈ if dir p then [d.file p] else d.shown p := hm
    rw [hshown, List.mem_singleton] at hm
    cases hm
    exact ⟨(h.whole n (hn ▸ hs.seen p)).1, List.mem_singleton_self _⟩
  · intro hnone
    have hnone : none ∈ if dir p then [d.file p] else d.shown p := hnone
    rw [hshown, List.mem_singleton] at hnone
    cases hnone

end

/-! ### A file written beside its place -/

/-- What the writer does next. -/
inductive Stage
  | create | write | fsync | replace
  deriving DecidableEq

/-- A text on its way to its place, by way of a temporary file. -/
structure Writing (κ τ : Type) where
  tmp : κ
  dst : κ
  text : τ
  stage : Stage

namespace Writing

/-- The next operation; a new file holds the text `t`. -/
def op (w : Writing κ τ) (t : τ) : Op κ τ :=
  match w.stage with
  | .create => .create w.tmp t
  | .write => .write w.tmp w.text
  | .fsync => .fsync w.tmp
  | .replace => .replace w.tmp w.dst

/-- The writer after it; `none` when the text is in its place. -/
def next (w : Writing κ τ) : Option (Writing κ τ) :=
  match w.stage with
  | .create => some { w with stage := .write }
  | .write => some { w with stage := .fsync }
  | .fsync => some { w with stage := .replace }
  | .replace => none

/-- The temporary file is to be seen nowhere in public, and has got as far as the stage says. -/
structure Ready (w : Writing κ τ) (d : Disk κ τ) (isPublic : κ → Prop) : Prop where
  hidden : w.stage ≠ .create → ∀ p, isPublic p → Hidden d w.tmp p
  written : w.stage = .fsync ∨ w.stage = .replace → d.read w.tmp = some w.text
  synced : w.stage = .replace → ∀ n, d.file w.tmp = some n → d.synced n = true

section
variable {w w' : Writing κ τ} {d d' : Disk κ τ} {isPublic : κ → Prop} {t : τ} {good : τ → Prop}
  {p : κ}

theorem ready_create (hstage : w.stage = .create) : w.Ready d isPublic :=
  ⟨fun h => absurd hstage h, by simp [hstage], by simp [hstage]⟩

/-- A part of the text, or all of it, is written. -/
theorem Ready.chunk (h : w.Ready d isPublic) (hstage : w.stage = .write) {part : τ}
    (hexec : d.exec (.write w.tmp part) = some d') : w.Ready d' isPublic := by
  obtain ⟨n, -, rfl⟩ := Option.map_eq_some_iff.1 hexec
  exact ⟨h.hidden, by simp [hstage], by simp [hstage]⟩

/-- The next operation of a writer that is ready leaves it ready. -/
theorem Ready.next (h : w.Ready d isPublic) (hs : Sane d) (htmp : ¬ isPublic w.tmp)
    (hexec : d.exec (w.op t) = some d') (hnext : w.next = some w') : w'.Ready d' isPublic := by
  unfold Writing.op at hexec
  unfold Writing.next at hnext
  cases hstage : w.stage with
  | create =>
    rw [hstage] at hexec hnext
    cases hnext
    refine ⟨fun _ p hp n hn => ?_, by simp, by simp⟩
    obtain rfl := eq_of_create hexec
    -- its number is new: nothing in public may lead to it
    have hself : (dictSet d.names w.tmp d.next).lookup w.tmp = some n := hn
    rw [lookup_dictSet, if_pos rfl] at hself
    cases hself
    intro hmem
    have hne : p ≠ w.tmp := fun heq => htmp (heq ▸ hp)
    rcases List.mem_cons.1 hmem with hmem | hmem
    · rw [lookup_dictSet, if_neg hne] at hmem
      exact absurd (hs.file_lt hmem.symm) (Nat.lt_irrefl _)
    · exact absurd (hs.fresh p _ hmem) (Nat.lt_irrefl _)
  | write =>
    rw [hstage] at hexec hnext
    cases hnext
    have hhidden := h.hidden (by simp [hstage])
    obtain ⟨n, hn, rfl⟩ := Option.map_eq_some_iff.1 hexec
    refine ⟨fun _ => hhidden, fun _ => ?_, by simp⟩
    show (d.file w.tmp).map (Function.update d.text n w.text) = some w.text
    rw [hn, Option.map_some, Function.update_self]
  | fsync =>
    rw [hstage] at hexec hnext
    cases hnext
    have hhidden := h.hidden (by simp [hstage])
    have hread := h.written (by simp [hstage])
    obtain ⟨n, hn, rfl⟩ := Option.map_eq_some_iff.1 hexec
    refine ⟨fun _ => hhidden, fun _ => hread, fun _ m hm => ?_⟩
    obtain rfl : n = m := Option.some.inj (hn.symm.trans hm)
    show Function.update d.synced n true n = true
    rw [Function.update_self]
  | replace =>
    rw [hstage] at hnext
    cases hnext

/-- What a writer that is ready does spares every other public name. -/
theorem Ready.spares (h : w.Ready d isPublic) (htmp : ¬ isPublic w.tmp) (hp : isPublic p)
    (hdst : w.stage = .replace → w.dst ≠ p) : (w.op t).Spares d p := by
  unfold Writing.op
  cases hstage : w.stage with
  | create => exact fun heq => htmp (heq ▸ hp)
  | write => exact h.hidden (by simp [hstage]) p hp
  | fsync => trivial
  | replace => exact hdst hstage

/-- The next operation of a writer that is ready, with a good text, leaves public names whole. -/
theorem Ready.whole (h : w.Ready d isPublic) (hs : Sane d) (htmp : ¬ isPublic w.tmp)
    (hgood : good w.text) (hexec : d.exec (w.op t) = some d') (hp : isPublic p)
    (hwhole : Whole good d p) : Whole good d' p := by
  by_cases hplace : w.stage = .replace ∧ w.dst = p
  · obtain ⟨hstage, rfl⟩ := hplace
    have hop : w.op t = .replace w.tmp w.dst := by rw [Writing.op, hstage]
    have hread := h.written (by simp [hstage])
    obtain ⟨n, hn, htext⟩ := Option.map_eq_some_iff.1 hread
    exact hwhole.replaced hn (h.synced hstage n hn) (htext ▸ hgood) (hop ▸ hexec)
  · exact hwhole.exec hs hexec (h.spares htmp hp fun hstage heq => hplace ⟨hstage, heq⟩)

omit [DecidableEq κ] in
/-- What a writer does takes only its temporary name away. -/
theorem keeps_op (htmp : ¬ isPublic w.tmp) (hp : isPublic p) : (w.op t).Keeps p := by
  unfold Writing.op
  cases w.stage with
  | replace => exact fun heq => htmp (heq ▸ hp)
  | _ => trivial

/-- Unless it is put there, the text of a writer does not appear under a public name. -/
theorem Ready.among (h : w.Ready d isPublic) (hs : Sane d) (htmp : ¬ isPublic w.tmp)
    {l : List (Option τ)} (hamong : Among l d p) (hp : isPublic p)
    (hdst : w.stage = .replace → w.dst ≠ p) (hexec : d.exec (w.op t) = some d') : Among l d' p :=
  hamong.exec hs hexec (h.spares htmp hp hdst) (keeps_op htmp hp)

/-- Once it is put there, its place reads as the text too, and does read as it. -/
theorem Ready.placed (h : w.Ready d isPublic) (hs : Sane d) (htmp : ¬ isPublic w.tmp)
    (hp : isPublic w.dst) (hstage : w.stage = .replace) {l : List (Option τ)}
    (hexec : d.exec (w.op t) = some d') (hamong : Among l d w.dst) :
    Among (some w.text :: l) d' w.dst ∧ d'.read w.dst = some w.text := by
  have hop : w.op t = .replace w.tmp w.dst := by rw [Writing.op, hstage]
  obtain ⟨n, hn, htext⟩ := Option.map_eq_some_iff.1 (h.written (by simp [hstage]))
  have hwhole : Whole (fun t => some t ∈ some w.text :: l) d w.dst :=
    hamong.whole.mono fun _ => List.mem_cons_of_mem _
  refine ⟨⟨h.whole hs htmp List.mem_cons_self hexec hp hwhole, fun hnone => ?_⟩, ?_⟩
  · exact List.mem_cons_of_mem _
      (hamong.absent (absent_of_exec hs hexec (keeps_op htmp hp) hnone))
  · rw [hop] at hexec
    obtain ⟨m, hm, rfl⟩ := Option.map_eq_some_iff.1 hexec
    obtain rfl : n = m := Option.some.inj (hn.symm.trans hm)
    rw [Disk.read, file_relink, if_pos rfl]
    exact congrArg some htext

/-- Left alone, a writer gets its text into its place, and leaves nothing else. -/
theorem complete (hfree : d.file w.tmp = none) (t : τ) :
    ∃ d₁ d₂ d₃ d₄, d.exec (.create w.tmp t) = some d₁ ∧ d₁.exec (.write w.tmp w.text) = some d₂ ∧
      d₂.exec (.fsync w.tmp) = some d₃ ∧ d₃.exec (.replace w.tmp w.dst) = some d₄ ∧
      d₄.names = dictSet d.names w.dst d.next ∧
      d₄.text = Function.update d.text d.next w.text := by
  have hnew : w.tmp ∉ d.names.map Prod.fst := lookup_eq_none.1 hfree
  have hnames : dictSet d.names w.tmp d.next = d.names ++ [(w.tmp, d.next)] := by
    rw [dictSet, if_neg hnew]
  have hfile : (dictSet d.names w.tmp d.next).lookup w.tmp = some d.next := by
    rw [lookup_dictSet, if_pos rfl]
  -- the temporary name goes as it came
  have herase : (dictSet d.names w.tmp d.next).filter (fun e => e.1 ≠ w.tmp) = d.names := by
    rw [hnames, List.filter_append]
    have hkept : d.names.filter (fun e => e.1 ≠ w.tmp) = d.names := by
      refine List.filter_eq_self.2 fun e he => ?_
      have hne : e.1 ≠ w.tmp := fun heq => hnew (heq ▸ List.mem_map_of_mem he)
      simpa using hne
    rw [hkept]
    simp
  refine ⟨_, _, _, _, by rw [Disk.exec, hfree], by rw [Disk.exec, Disk.file]; exact congrArg _ hfile,
    by rw [Disk.exec, Disk.file]; exact congrArg _ hfile,
    by rw [Disk.exec, Disk.file]; exact congrArg _ hfile, ?_, ?_⟩
  · show dictSet ((dictSet d.names w.tmp d.next).filter fun e => e.1 ≠ w.tmp) w.dst d.next = _
    rw [herase]
  · show Function.update (Function.update d.text d.next t) d.next w.text = _
    rw [Function.update_idem]

end

end Writing

end Ser2Net.Lib.Durable
