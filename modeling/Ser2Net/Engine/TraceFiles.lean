import Ser2Net.Lib.Segments
import Ser2Net.Lib.Binary
import Ser2Net.Engine.FilePaths

namespace Ser2Net.Engine.TraceFiles

open Ser2Net.Lib Ser2Net.Engine.FilePaths

/-!
# Engine — the files of a trace (`Tracer` of `bridge.py`)

The writer thread gets its lines in batches.  It appends them to the trace file and rotates as
soon as the file has its size: `path` becomes `path.1`, `path.1` becomes `path.2`, and what was
`path.<keep>` is gone.

* `append` — one batch, over the files by their names;
* `Follows` — a statement about segments and files that writing and rotating keep, and then a
  line (`LoopHolds.appendLine`), a batch and all batches (`Follows.appendAll`);
* `Holds` — what the files are to the line stream when there was none of them before: the open
  segment in `path`, the closed ones behind it, newest first;
* `Grown` — the same over files that were there before, which the lines continue;
* `rotation_exact` — the files after any batches;
* `InFiles`, `inFiles_appendAll` — what is in them, over any files before.

No call to the system fails here: `_fh` is open on `path` all the time, every write goes to the
end of the file, and `tell` is the length of the file.
-/

abbrev Text := List Char

/-- The files by their names. -/
abbrev Disk := Text → Option Bytes

/-- What `_append` reads of a tracer. -/
structure TraceFile where
  path : Text
  /-- `_max_bytes` -/
  maxBytes : Nat
  /-- `_keep` -/
  keep : Nat

namespace Disk

/-- The file at `path` is now `data`. -/
def put (d : Disk) (path : Text) (data : Option Bytes) : Disk := Function.update d path data

/-- `os.replace(src, dst)` of a file that exists. -/
def replace (d : Disk) (src dst : Text) : Disk := (d.put dst (d src)).put src none

/-- `open(path, "ab")`. -/
def openAb (d : Disk) (path : Text) : Disk := d.put path (some ((d path).getD []))

/-- `open(path, "wb")`. -/
def openWb (d : Disk) (path : Text) : Disk := d.put path (some [])

end Disk

variable (t : TraceFile)

/-- `_write`. -/
def write (d : Disk) (lines : List Bytes) : Disk :=
  d.put t.path (some ((d t.path).getD [] ++ lines.flatten))

/-- The loop `for i in range(n, 0, -1)` of `_rotate`. -/
def rotateFrom : Nat → Disk → Disk
  | 0, d => d
  | i + 1, d =>
    let src := if i + 1 = 1 then t.path else rotatedPath t.path (i + 1 - 1)
    rotateFrom i (if (d src).isSome then d.replace src (rotatedPath t.path (i + 1)) else d)

/-- `_rotate`. -/
def rotate (d : Disk) : Disk :=
  let d := if 0 < t.keep then rotateFrom t t.keep d else d
  if t.keep = 0 then d.openWb t.path else d.openAb t.path

/-- The loop state of `_append`. -/
structure Loop where
  disk : Disk
  pending : List Bytes
  size : Nat

/-- One line. -/
def appendLine (st : Loop) (line : Bytes) : Loop :=
  let pending := st.pending ++ [line]
  let size := st.size + line.length
  if t.maxBytes ≤ size then ⟨rotate t (write t st.disk pending), [], 0⟩
  else ⟨st.disk, pending, size⟩

/-- `self._fh.tell()`. -/
def tell (d : Disk) : Nat := ((d t.path).getD []).length

/-- `_append`. -/
def append (d : Disk) (lines : List Bytes) : Disk :=
  let st := lines.foldl (appendLine t) ⟨d, [], tell t d⟩
  if st.pending ≠ [] then write t st.disk st.pending else st.disk

/-- `__init__` opens the file. -/
def start (base : Disk) : Disk := base.openAb t.path

/-- Batch after batch. -/
def appendAll (d : Disk) (batches : List (List Bytes)) : Disk := batches.foldl (append t) d

/-- One batch more. -/
theorem appendAll_concat (d : Disk) (batches : List (List Bytes)) (lines : List Bytes) :
    appendAll t d (batches ++ [lines]) = append t (appendAll t d batches) lines :=
  List.foldl_concat ..

/-! ### The names -/

/-- A rotated file is not the current one. -/
theorem rotatedPath_ne (path : Text) (n : Nat) : rotatedPath path n ≠ path := by
  intro h
  have hlen := congrArg List.length h
  simp [rotatedPath] at hlen

/-- Rotated files are told apart by their numbers. -/
theorem rotatedPath_inj {path : Text} {m n : Nat} (h : rotatedPath path m = rotatedPath path n) :
    m = n := by
  have hdigits : Nat.toDigits 10 m = Nat.toDigits 10 n := by simpa [rotatedPath] using h
  have hvalue := congrArg (Nat.ofDigitChars 10 · 0) hdigits
  simpa only [Nat.ofDigitChars_ten_toDigits] using hvalue

/-- The trace file and its rotated files, by their number. -/
def slot (path : Text) : Nat → Text
  | 0 => path
  | n + 1 => rotatedPath path (n + 1)

/-- The files of a trace are told apart by their numbers. -/
theorem slot_inj {path : Text} {m n : Nat} (h : slot path m = slot path n) : m = n := by
  cases m with
  | zero =>
    cases n with
    | zero => rfl
    | succ n => exact absurd h.symm (rotatedPath_ne path _)
  | succ m =>
    cases n with
    | zero => exact absurd h (rotatedPath_ne path _)
    | succ n => exact rotatedPath_inj h

/-- A turn renames the file before. -/
theorem slot_src (path : Text) (i : Nat) :
    (if i + 1 = 1 then path else rotatedPath path (i + 1 - 1)) = slot path i := by
  cases i with
  | zero => rfl
  | succ i => rfl

/-! ### One rotation -/

section Rotate

variable {t}

/-- The file that was put. -/
@[simp] theorem Disk.put_same (d : Disk) (path : Text) (data : Option Bytes) :
    d.put path data path = data := Function.update_self ..

/-- The other files. -/
theorem Disk.put_ne {d : Disk} {path other : Text} (data : Option Bytes) (h : other ≠ path) :
    d.put path data other = d other := Function.update_of_ne h ..

/-- One turn of the loop: the file of `slot i` moves to `slot (i + 1)`. -/
def turn (t : TraceFile) (i : Nat) (d : Disk) : Disk :=
  if (d (slot t.path i)).isSome then d.replace (slot t.path i) (slot t.path (i + 1)) else d

/-- A rotation is one turn after another. -/
theorem rotateFrom_succ (i : Nat) (d : Disk) : rotateFrom t (i + 1) d = rotateFrom t i (turn t i d) := by
  rw [rotateFrom, slot_src]
  rfl

/-- The file moves when there is no other one in its way. -/
theorem turn_dst {i : Nat} {d : Disk} (h : d (slot t.path i) = none → d (slot t.path (i + 1)) = none) :
    turn t i d (slot t.path (i + 1)) = d (slot t.path i) := by
  unfold turn
  split
  · have hne : slot t.path (i + 1) ≠ slot t.path i := fun h => by simpa using slot_inj h
    rw [Disk.replace, Disk.put_ne _ hne, Disk.put_same]
  · next hnone =>
    have hnone := Option.not_isSome_iff_eq_none.1 hnone
    rw [h hnone, hnone]

/-- A turn leaves no file under the old name. -/
theorem turn_src (i : Nat) (d : Disk) : turn t i d (slot t.path i) = none := by
  unfold turn
  split
  · rw [Disk.replace, Disk.put_same]
  · next hnone => exact Option.not_isSome_iff_eq_none.1 hnone

/-- A turn leaves the other files. -/
theorem turn_other {i : Nat} {d : Disk} {name : Text} (hsrc : name ≠ slot t.path i)
    (hdst : name ≠ slot t.path (i + 1)) : turn t i d name = d name := by
  unfold turn
  split
  · rw [Disk.replace, Disk.put_ne _ hsrc, Disk.put_ne _ hdst]
  · rfl

/-- The loop touches no other file. -/
theorem rotateFrom_other {n : Nat} {d : Disk} {name : Text}
    (h : ∀ i, i ≤ n → name ≠ slot t.path i) : rotateFrom t n d name = d name := by
  induction n generalizing d with
  | zero => rfl
  | succ n ih =>
    rw [rotateFrom_succ, ih fun i hi => h i (Nat.le_succ_of_le hi)]
    exact turn_other (h n (Nat.le_succ n)) (h (n + 1) (Nat.le_refl _))

/-- The loop moves a file on by one.  Only where it starts can another file be in the way: later
    on that one has just moved. -/
theorem rotateFrom_moves {n i : Nat} {d : Disk} (hi : i < n)
    (h : i + 1 = n → d (slot t.path i) = none → d (slot t.path n) = none) :
    rotateFrom t n d (slot t.path (i + 1)) = d (slot t.path i) := by
  induction n generalizing d with
  | zero => exact absurd hi (Nat.not_lt_zero i)
  | succ n ih =>
    rw [rotateFrom_succ]
    rcases Nat.lt_succ_iff_lt_or_eq.1 hi with hi | rfl
    · have hne : slot t.path i ≠ slot t.path n := fun h => Nat.ne_of_lt hi (slot_inj h)
      have hne' : slot t.path i ≠ slot t.path (n + 1) := fun h => by
        have := slot_inj h
        omega
      rw [ih hi fun _ _ => turn_src n d, turn_other hne hne']
    · -- the first file to move is not touched again
      have hlater : ∀ j, j ≤ i → slot t.path (i + 1) ≠ slot t.path j := fun j hj h => by
        have := slot_inj h
        omega
      rw [rotateFrom_other hlater, turn_dst (h rfl)]

/-- After a rotation there is no current file. -/
theorem rotateFrom_path {n : Nat} {d : Disk} (hn : 0 < n) : rotateFrom t n d t.path = none := by
  induction n generalizing d with
  | zero => exact absurd hn (Nat.lt_irrefl 0)
  | succ n ih =>
    rw [rotateFrom_succ]
    cases n with
    | zero => exact turn_src 0 d
    | succ n => exact ih (Nat.succ_pos n)

/-- A rotation opens an empty file. -/
theorem rotate_path (d : Disk) : rotate t d t.path = some [] := by
  unfold rotate
  cases hkeep : t.keep with
  | zero => exact Disk.put_same ..
  | succ k =>
    rw [if_pos (Nat.succ_pos k), if_neg (Nat.succ_ne_zero k), Disk.openAb,
      rotateFrom_path (Nat.succ_pos k)]
    exact Disk.put_same ..

/-- With files kept, a rotation moves each of them on by one. -/
theorem rotate_moves {i : Nat} {d : Disk} (hi : i < t.keep)
    (h : i + 1 = t.keep → d (slot t.path i) = none → d (slot t.path t.keep) = none) :
    rotate t d (slot t.path (i + 1)) = d (slot t.path i) := by
  have hkeep : 0 < t.keep := Nat.zero_lt_of_lt hi
  have hne : slot t.path (i + 1) ≠ t.path := rotatedPath_ne _ _
  unfold rotate
  rw [if_pos hkeep, if_neg (Nat.ne_of_gt hkeep), Disk.openAb, Disk.put_ne _ hne,
    rotateFrom_moves hi h]

/-- A rotation touches no other file. -/
theorem rotate_other {d : Disk} {name : Text} (h : ∀ i, i ≤ t.keep → name ≠ slot t.path i) :
    rotate t d name = d name := by
  have hne : name ≠ t.path := h 0 (Nat.zero_le _)
  unfold rotate
  cases hkeep : t.keep with
  | zero =>
    rw [if_neg (Nat.lt_irrefl 0), if_pos rfl]
    exact Disk.put_ne _ hne
  | succ k =>
    rw [if_pos (Nat.succ_pos k), if_neg (Nat.succ_ne_zero k), Disk.openAb, Disk.put_ne _ hne]
    exact rotateFrom_other (hkeep ▸ h)

/-- Writing touches no other file. -/
theorem write_other {d : Disk} {name : Text} (h : name ≠ t.path) (lines : List Bytes) :
    write t d lines name = d name := Disk.put_ne _ h

/-- Lines go to the end of the current file. -/
theorem write_path {d : Disk} {data : Bytes} (h : d t.path = some data) (lines : List Bytes) :
    write t d lines t.path = some (data ++ lines.flatten) := by
  rw [write, Disk.put_same, h, Option.getD_some]

end Rotate

/-! ### The lines -/

section Follows

variable {t} {H : Segments Bytes → Disk → Prop}

/-- A statement about segments and files that writing and rotating keep. -/
structure Follows (t : TraceFile) (H : Segments Bytes → Disk → Prop) : Prop where
  path : ∀ {s d}, H s d → d t.path = some s.current.flatten
  write : ∀ {s d} lines, H s d → H ⟨s.closed, s.current ++ lines⟩ (TraceFiles.write t d lines)
  rotate : ∀ {s d}, H s d → H ⟨s.closed ++ [s.current], []⟩ (TraceFiles.rotate t d)

/-- What the loop of `_append` keeps: the pending lines are the end of the open segment, and
    its length is counted. -/
structure LoopHolds (H : Segments Bytes → Disk → Prop) (s : Segments Bytes) (st : Loop) : Prop where
  written : ∃ init, s.current = init ++ st.pending ∧ H ⟨s.closed, init⟩ st.disk
  size : st.size = weight List.length s.current

/-- One line is appended to the segments. -/
theorem LoopHolds.appendLine (hH : Follows t H) {s : Segments Bytes} {st : Loop}
    (h : LoopHolds H s st) (line : Bytes) :
    LoopHolds H (s.add List.length t.maxBytes line) (appendLine t st line) := by
  obtain ⟨init, hcurrent, hfiles⟩ := h.written
  have hsize : weight List.length (s.current ++ [line]) = st.size + line.length := by
    rw [weight_append, weight_singleton, h.size]
  unfold TraceFiles.appendLine Segments.add
  rw [hsize]
  dsimp only
  by_cases hfull : t.maxBytes ≤ st.size + line.length
  · rw [if_pos hfull, if_pos hfull]
    have hwrite := hH.rotate (hH.write (st.pending ++ [line]) hfiles)
    rw [← List.append_assoc, ← hcurrent] at hwrite
    exact ⟨⟨[], rfl, hwrite⟩, rfl⟩
  · rw [if_neg hfull, if_neg hfull]
    exact ⟨⟨init, by rw [hcurrent, List.append_assoc], hfiles⟩, hsize.symm⟩

/-- The lines of a batch, one after another. -/
theorem LoopHolds.foldl (hH : Follows t H) {s : Segments Bytes} {st : Loop} (h : LoopHolds H s st)
    (lines : List Bytes) :
    LoopHolds H (s.addAll List.length t.maxBytes lines) (lines.foldl (TraceFiles.appendLine t) st) := by
  induction lines generalizing s st with
  | nil => exact h
  | cons line lines ih => exact ih (h.appendLine hH line)

/-- A batch is appended to the segments. -/
theorem Follows.append (hH : Follows t H) {s : Segments Bytes} {d : Disk} (h : H s d)
    (lines : List Bytes) : H (s.addAll List.length t.maxBytes lines) (append t d lines) := by
  have hstart : LoopHolds H s ⟨d, [], tell t d⟩ := by
    refine ⟨⟨s.current, (List.append_nil _).symm, h⟩, ?_⟩
    rw [tell, hH.path h, Option.getD_some, List.length_flatten]
    rfl
  obtain ⟨⟨init, hcurrent, hfiles⟩, -⟩ := hstart.foldl hH lines
  unfold TraceFiles.append
  dsimp only
  split
  · have hwrite := hH.write (lines.foldl (TraceFiles.appendLine t) ⟨d, [], tell t d⟩).pending hfiles
    rwa [← hcurrent] at hwrite
  · next hpending =>
    rw [not_not.1 hpending, List.append_nil] at hcurrent
    rwa [← hcurrent] at hfiles

/-- Batches are appended as the lines in them. -/
theorem Follows.appendAll (hH : Follows t H) {s : Segments Bytes} {d : Disk} (h : H s d)
    (batches : List (List Bytes)) :
    H (s.addAll List.length t.maxBytes batches.flatten) (appendAll t d batches) := by
  induction batches generalizing s d with
  | nil => exact h
  | cons batch batches ih =>
    rw [List.flatten_cons, Segments.addAll_append]
    exact ih (hH.append h batch)

end Follows

/-! ### The files and the line stream -/

section Holds

variable {t} {base : Disk}

/-- What the files are when the stream is cut into the segments `s` and the files with other
    names are as in `base`: the open segment, then the closed ones, newest first. -/
structure Holds (t : TraceFile) (base : Disk) (s : Segments Bytes) (d : Disk) : Prop where
  files : ∀ i, i ≤ t.keep →
    d (slot t.path i) = (s.current :: s.closed.reverse)[i]?.map List.flatten
  other : ∀ name, (∀ i, i ≤ t.keep → name ≠ slot t.path i) → d name = base name

/-- The current file holds the current segment. -/
theorem Holds.path {s : Segments Bytes} {d : Disk} (h : Holds t base s d) :
    d t.path = some s.current.flatten := h.files 0 (Nat.zero_le _)

/-- The segments and the other files say what every file is. -/
theorem Holds.unique {s : Segments Bytes} {d d' : Disk} (h : Holds t base s d)
    (h' : Holds t base s d') : d = d' := by
  funext name
  by_cases hname : ∃ i, i ≤ t.keep ∧ name = slot t.path i
  · obtain ⟨i, hi, rfl⟩ := hname
    exact (h.files i hi).trans (h'.files i hi).symm
  · have hname : ∀ i, i ≤ t.keep → name ≠ slot t.path i := fun i hi heq => hname ⟨i, hi, heq⟩
    exact (h.other name hname).trans (h'.other name hname).symm

/-- Writing adds lines to the open segment. -/
theorem Holds.write {s : Segments Bytes} {d : Disk} (h : Holds t base s d) (lines : List Bytes) :
    Holds t base ⟨s.closed, s.current ++ lines⟩ (write t d lines) := by
  refine ⟨fun i hi => ?_, fun name hname => ?_⟩
  · cases i with
    | zero => exact (write_path h.path lines).trans (by simp)
    | succ i =>
      have hne : slot t.path (i + 1) ≠ t.path := rotatedPath_ne _ _
      rw [write_other hne, h.files (i + 1) hi]
      rfl
  · rw [write_other (hname 0 (Nat.zero_le _))]
    exact h.other name hname

/-- Rotating closes the open segment. -/
theorem Holds.rotate {s : Segments Bytes} {d : Disk} (h : Holds t base s d) :
    Holds t base ⟨s.closed ++ [s.current], []⟩ (rotate t d) := by
  refine ⟨fun i hi => ?_, fun name hname => ?_⟩
  · cases i with
    | zero => exact rotate_path d
    | succ i =>
      -- there are no gaps: what is at the end has something before it
      have hgap : i + 1 = t.keep → d (slot t.path i) = none → d (slot t.path t.keep) = none := by
        intro hlast hnone
        rw [h.files i (by omega), Option.map_eq_none_iff, List.getElem?_eq_none_iff] at hnone
        rw [h.files t.keep (Nat.le_refl _), Option.map_eq_none_iff, List.getElem?_eq_none_iff]
        omega
      rw [rotate_moves hi hgap, h.files i (by omega), List.reverse_append]
      rfl
  · rw [rotate_other hname]
    exact h.other name hname

/-- The files hold the segments, whatever is written and rotated. -/
theorem Holds.follows (t : TraceFile) (base : Disk) : Follows t (Holds t base) :=
  ⟨Holds.path, fun lines h => h.write lines, Holds.rotate⟩

/-- Before the first line, over files that are not there. -/
theorem Holds.start (hbase : ∀ i, i ≤ t.keep → base (slot t.path i) = none) :
    Holds t base ⟨[], []⟩ (start t base) := by
  have hpath : base t.path = none := hbase 0 (Nat.zero_le _)
  refine ⟨fun i hi => ?_, fun name hname => ?_⟩
  · cases i with
    | zero => exact (Disk.put_same ..).trans (by simp [hpath])
    | succ i =>
      have hne : slot t.path (i + 1) ≠ t.path := rotatedPath_ne _ _
      exact (Disk.put_ne _ hne).trans (hbase (i + 1) hi)
  · exact Disk.put_ne _ (hname 0 (Nat.zero_le _))

end Holds

/-! ### The files after a stream -/

/-- The last `k` of a list of segments, read from the end backwards. -/
theorem flatten_last {r : List (List Bytes)} (k : Nat) :
    ((List.range k).reverse.map fun i => (r.reverse[i]?.map List.flatten).getD []).flatten =
      (r.drop (r.length - k)).flatten.flatten := by
  induction k with
  | zero => simp
  | succ k ih =>
    rw [List.range_succ, List.reverse_append, List.reverse_singleton, List.singleton_append,
      List.map_cons, List.flatten_cons, ih]
    by_cases hk : k < r.length
    · have hget : r.reverse[k]? = some r[r.length - (k + 1)] := by
        rw [List.getElem?_reverse hk, Nat.sub_sub, Nat.add_comm 1 k, List.getElem?_eq_getElem]
      have hdrop := List.drop_eq_getElem_cons (l := r) (i := r.length - (k + 1)) (by omega)
      rw [hget, hdrop, show r.length - (k + 1) + 1 = r.length - k by omega, List.flatten_cons,
        List.flatten_append]
      rfl
    · have hnone : r.reverse[k]? = none := List.getElem?_eq_none (by simpa using hk)
      rw [hnone, show r.length - (k + 1) = r.length - k by omega]
      rfl

/-- `path.<keep>`, …, `path.1` and `path`, one after the other. -/
def concatenated (d : Disk) : Bytes :=
  ((List.range t.keep).reverse.map fun i => (d (rotatedPath t.path (i + 1))).getD []).flatten ++
    (d t.path).getD []

/-- **Rotation.**  Whatever the batches, the lines are cut into closed segments, which reached
    the size with their last line, and an open one, which has not reached it; the open one is
    the trace file, the newest `keep` of the closed ones are the rotated files, and the files
    together are the lines from there on.  Other batches of the same lines make the same files. -/
theorem rotation_exact (hmax : 1 ≤ t.maxBytes) {base : Disk}
    (hbase : ∀ i, i ≤ t.keep → base (slot t.path i) = none) (batches : List (List Bytes)) :
    (∃ closed : List (List Bytes), ∃ current : List Bytes,
        batches.flatten = closed.flatten ++ current ∧
        appendAll t (start t base) batches t.path = some current.flatten ∧
        (∀ i, i < t.keep → appendAll t (start t base) batches (rotatedPath t.path (i + 1)) =
          closed.reverse[i]?.map List.flatten) ∧
        concatenated t (appendAll t (start t base) batches) =
          ((closed.drop (closed.length - t.keep)).flatten ++ current).flatten ∧
        (∀ seg ∈ closed, t.maxBytes ≤ seg.flatten.length ∧
          seg.dropLast.flatten.length < t.maxBytes) ∧
        current.flatten.length < t.maxBytes) ∧
      ∀ batches' : List (List Bytes), batches'.flatten = batches.flatten →
        appendAll t (start t base) batches' = appendAll t (start t base) batches := by
  have hstart := Holds.start hbase
  refine ⟨?_, fun batches' hsame => ?_⟩
  -- the files hold the segments that the lines are cut into, one line at a time
  · have hall := (Holds.follows t base).appendAll hstart batches
    have hcut : Segments.Cut List.length t.maxBytes (⟨[], []⟩ : Segments Bytes) :=
      ⟨fun seg hseg => absurd hseg List.not_mem_nil, hmax⟩
    obtain ⟨hfull, hcurrent⟩ := hcut.addAll batches.flatten
    have hrecords := Segments.records_addAll List.length t.maxBytes ⟨[], []⟩ batches.flatten
    generalize (⟨[], []⟩ : Segments Bytes).addAll List.length t.maxBytes batches.flatten = s at *
    have hrotated : ∀ i, i < t.keep → appendAll t (start t base) batches
        (rotatedPath t.path (i + 1)) = s.closed.reverse[i]?.map List.flatten :=
      fun i hi => hall.files (i + 1) hi
    refine ⟨s.closed, s.current, hrecords.symm, hall.path, hrotated, ?_, ?_, ?_⟩
    · have hlast : (List.range t.keep).reverse.map (fun i =>
            (appendAll t (start t base) batches (rotatedPath t.path (i + 1))).getD []) =
          (List.range t.keep).reverse.map fun i =>
            (s.closed.reverse[i]?.map List.flatten).getD [] :=
        List.map_congr_left fun i hi => by rw [hrotated i (by simpa using hi)]
      rw [concatenated, hlast, flatten_last, hall.path, Option.getD_some, List.flatten_append]
    · intro seg hseg
      simpa only [weight, ← List.length_flatten] using hfull seg hseg
    · simpa only [weight, ← List.length_flatten] using hcurrent
  -- and that cut knows nothing of the batches
  · have hsame' := (Holds.follows t base).appendAll hstart batches'
    rw [hsame] at hsame'
    exact hsame'.unique ((Holds.follows t base).appendAll hstart batches)

/-- Two rotations with one file kept: the first one is gone. -/
theorem rotation_exact_twice :
    appendAll ⟨['t'], 3, 1⟩ (start ⟨['t'], 3, 1⟩ fun _ => none) [[[1, 2]], [[3, 4], [5]], [[6, 7], [8]]]
        ['t'] = some [8] ∧
      appendAll ⟨['t'], 3, 1⟩ (start ⟨['t'], 3, 1⟩ fun _ => none)
        [[[1, 2]], [[3, 4], [5]], [[6, 7], [8]]] (rotatedPath ['t'] 1) = some [5, 6, 7] ∧
      appendAll ⟨['t'], 3, 1⟩ (start ⟨['t'], 3, 1⟩ fun _ => none) [[[1, 2], [3, 4], [5], [6, 7], [8]]] =
        appendAll ⟨['t'], 3, 1⟩ (start ⟨['t'], 3, 1⟩ fun _ => none)
          [[[1, 2]], [[3, 4], [5]], [[6, 7], [8]]] :=
  ⟨by decide, by decide,
    (rotation_exact ⟨['t'], 3, 1⟩ (by decide) (fun _ _ => rfl) [[[1, 2]], [[3, 4], [5]], [[6, 7], [8]]]).2 _
      rfl⟩

/-! ### Over files that were there before -/

section Grown

variable {t} {base : Disk}

/-- What the files are when some were there before: the open segment in `path`, the closed ones
    behind it, newest first.  What an older file has become is not said. -/
structure Grown (t : TraceFile) (base : Disk) (s : Segments Bytes) (d : Disk) : Prop where
  files : ∀ i, i ≤ t.keep → ∀ seg, (s.current :: s.closed.reverse)[i]? = some seg →
    d (slot t.path i) = some seg.flatten
  other : ∀ name, (∀ i, i ≤ t.keep → name ≠ slot t.path i) → d name = base name

/-- The current file holds the current segment. -/
theorem Grown.path {s : Segments Bytes} {d : Disk} (h : Grown t base s d) :
    d t.path = some s.current.flatten := h.files 0 (Nat.zero_le _) _ rfl

/-- Writing adds lines to the open segment. -/
theorem Grown.write {s : Segments Bytes} {d : Disk} (h : Grown t base s d) (lines : List Bytes) :
    Grown t base ⟨s.closed, s.current ++ lines⟩ (write t d lines) := by
  refine ⟨fun i hi seg hseg => ?_, fun name hname => ?_⟩
  · cases i with
    | zero =>
      cases hseg
      rw [List.flatten_append]
      exact write_path h.path lines
    | succ i =>
      have hne : slot t.path (i + 1) ≠ t.path := rotatedPath_ne _ _
      rw [write_other hne]
      exact h.files (i + 1) hi seg hseg
  · rw [write_other (hname 0 (Nat.zero_le _))]
    exact h.other name hname

/-- Rotating closes the open segment.  A file that holds a segment is there, so nothing older
    is taken for it. -/
theorem Grown.rotate {s : Segments Bytes} {d : Disk} (h : Grown t base s d) :
    Grown t base ⟨s.closed ++ [s.current], []⟩ (rotate t d) := by
  refine ⟨fun i hi seg hseg => ?_, fun name hname => ?_⟩
  · cases i with
    | zero =>
      cases hseg
      exact rotate_path d
    | succ i =>
      have hseg : (s.current :: s.closed.reverse)[i]? = some seg := by
        simpa [List.reverse_append] using hseg
      have hfile := h.files i (by omega) seg hseg
      rw [rotate_moves hi fun _ hnone => absurd (hfile.symm.trans hnone) (Option.some_ne_none _)]
      exact hfile
  · rw [rotate_other hname]
    exact h.other name hname

/-- The files of a trace that grew out of others follow its segments. -/
theorem Grown.follows (t : TraceFile) (base : Disk) : Follows t (Grown t base) :=
  ⟨Grown.path, fun lines h => h.write lines, Grown.rotate⟩

/-- What was in the trace file is the first record of the open segment. -/
theorem Grown.start (t : TraceFile) (base : Disk) :
    Grown t base ⟨[], [(base t.path).getD []]⟩ (start t base) := by
  refine ⟨fun i hi seg hseg => ?_, fun name hname => Disk.put_ne _ (hname 0 (Nat.zero_le _))⟩
  cases i with
  | zero =>
    cases hseg
    exact (Disk.put_same ..).trans (by simp)
  | succ i => exact absurd hseg (by simp)

end Grown

/-- The lines are in the files: what was in the trace file before and the lines behind it are
    cut into closed segments, each of at least the size, and an open one; the open one is the
    trace file, the newest `keep` of the closed ones are the rotated files.  No other file has
    changed. -/
def InFiles (base : Disk) (lines : List Bytes) (d : Disk) : Prop :=
  ∃ closed : List (List Bytes), ∃ current : List Bytes,
    closed.flatten ++ current = (base t.path).getD [] :: lines ∧
    d t.path = some current.flatten ∧
    (∀ i, i < t.keep → ∀ seg, closed.reverse[i]? = some seg →
      d (rotatedPath t.path (i + 1)) = some seg.flatten) ∧
    (∀ seg ∈ closed, t.maxBytes ≤ seg.flatten.length) ∧
    ∀ name, (∀ i, i ≤ t.keep → name ≠ slot t.path i) → d name = base name

/-- Whatever the batches and the files before, the lines get into the files. -/
theorem inFiles_appendAll (base : Disk) (batches : List (List Bytes)) :
    InFiles t base batches.flatten (appendAll t (start t base) batches) := by
  have hall := (Grown.follows t base).appendAll (Grown.start t base) batches
  have hfull := Segments.full_addAll List.length t.maxBytes ⟨[], [(base t.path).getD []]⟩
    batches.flatten fun seg hseg => absurd hseg List.not_mem_nil
  have hrecords := Segments.records_addAll List.length t.maxBytes
    ⟨[], [(base t.path).getD []]⟩ batches.flatten
  generalize (⟨[], [(base t.path).getD []]⟩ : Segments Bytes).addAll List.length t.maxBytes
    batches.flatten = s at *
  refine ⟨s.closed, s.current, hrecords, hall.path, fun i hi seg hseg => ?_, fun seg hseg => ?_,
    hall.other⟩
  · exact hall.files (i + 1) hi seg hseg
  · simpa only [weight, ← List.length_flatten] using hfull seg hseg

end Ser2Net.Engine.TraceFiles
