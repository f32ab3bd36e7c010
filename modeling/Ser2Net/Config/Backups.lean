import Ser2Net.Lib.Dict
import Ser2Net.Lib.Padded
import Ser2Net.Lib.History
import Mathlib.Data.Prod.Lex
import Mathlib.Data.List.Lex
import Mathlib.Data.List.Sort

namespace Ser2Net.Config.Backups

open Ser2Net.Lib

/-!
# The backups of config.json (`ConfigStore` of `config.py`)

Every save that changes config.json first copies the version it replaces to
`backups/config-<UTC time>.json`, and only the newest fifty of these files are kept.  Nothing
but the file names says which backup is newer: they are sorted by the time and, within one
second, by a counter.

* `Store.save` — the save, over the two places it touches: config.json and the directory;
* `backupOrder_name` — the sort key of a name that the store gave is its time and counter;
* `Holds` — the invariant: the directory is a list of backups with falling keys;
* `Holds.save` — one save keeps it, and adds the replaced version in front.

The temporary files of the two atomic writes are gone when a save returns and are left out.
-/

abbrev Text := List Char

def backupsKept : Nat := 50

/-! ### The clock -/

/-- A UTC time (`time.gmtime()`). -/
structure UtcTime where
  year : Nat
  month : Nat
  day : Nat
  hour : Nat
  minute : Nat
  second : Nat
  le_year : 1000 ≤ year
  year_lt : year < 10 ^ 4
  month_lt : month < 10 ^ 2
  day_lt : day < 10 ^ 2
  hour_lt : hour < 10 ^ 2
  minute_lt : minute < 10 ^ 2
  second_lt : second < 10 ^ 2

/-- The time as the tuple it is: times compare by the year, then by the month, and so on. -/
def UtcTime.fields (t : UtcTime) : List Nat :=
  [t.year, t.month, t.day, t.hour, t.minute, t.second]

instance : Preorder UtcTime := Preorder.lift UtcTime.fields

/-- `time.strftime("%Y%m%dT%H%M%S", t)`. -/
def strftime (t : UtcTime) : Text :=
  pad 4 t.year ++ pad 2 t.month ++ pad 2 t.day ++ 'T' ::
    (pad 2 t.hour ++ pad 2 t.minute ++ pad 2 t.second)

/-! ### Names -/

/-- `\d`: a decimal digit of any script. -/
def isDigit (c : Char) : Bool := (PyText.digitValue c).isSome

/-- `\d{8}T\d{6}`. -/
def isStamp (l : Text) : Bool :=
  l.length = 15 ∧ (l.take 8).all isDigit ∧ l[8]? = some 'T' ∧ (l.drop 9).all isDigit

/-- `\.json$`: a line break may follow. -/
def isJsonEnd (l : Text) : Bool := l = ".json".toList ∨ l = ".json\n".toList

/-- `(?:-(\d+))?\.json$`: what its group matches. -/
def countGroup (l : Text) : Option (Option Text) :=
  if isJsonEnd l then some none
  else
    (['-'].isPrefixOf? l).bind fun rest =>
      let count := rest.takeWhile isDigit
      if count ≠ [] ∧ isJsonEnd (rest.dropWhile isDigit) then some (some count) else none

/-- The groups of `^config-(\d{8}T\d{6})Z(?:-(\d+))?\.json$`. -/
def groups (name : Text) : Option (Text × Option Text) :=
  ("config-".toList.isPrefixOf? name).bind fun rest =>
    let stamp := rest.take 15
    if isStamp stamp then
      (['Z'].isPrefixOf? (rest.drop 15)).bind fun rest =>
        (countGroup rest).map fun count => (stamp, count)
    else none

/-- `_BACKUP_NAME.match(name)`. -/
def isBackupName (name : Text) : Bool := (groups name).isSome

/-- `_backup_order`. -/
def backupOrder (name : Text) : Text ×ₗ Nat :=
  match groups name with
  | some (stamp, none) => toLex (stamp, 1)
  -- no file name is long enough for the limit of int()
  | some (stamp, some count) => toLex (stamp, (PyText.digits count).getD 0)
  | none => toLex ([], 0)

/-- `f"config-{stamp}.json" if n == 1 else f"config-{stamp}-{n}.json"`. -/
def backupName (stamp : Text) (n : Nat) : Text :=
  if n = 1 then "config-".toList ++ stamp ++ ".json".toList
  else "config-".toList ++ stamp ++ '-' :: Nat.toDigits 10 n ++ ".json".toList

/-! ### The store -/

/-- `os.listdir`: every name of the directory, in an order of its own. -/
structure Listdir where
  order : List Text → List Text
  perm : ∀ names, (order names).Perm names

structure Store where
  /-- the text of config.json, when there is one -/
  config : Option Text
  /-- the files of the backup directory: name and text -/
  backupDir : List (Text × Text)
  deriving DecidableEq

/-- No config.json and no backups. -/
def Store.empty : Store := ⟨none, []⟩

/-- `backup_names`. -/
def Store.backupNames (s : Store) (listdir : Listdir) : List Text :=
  ((listdir.order (s.backupDir.map Prod.fst)).filter isBackupName).insertionSort
    fun a b => backupOrder b ≤ backupOrder a

/-- `open(os.path.join(self.backup_dir, name)).read()`. -/
def Store.read (s : Store) (name : Text) : Option Text := s.backupDir.lookup name

/-- `os.replace(tmp, name)`. -/
def Store.write (s : Store) (name text : Text) : Store :=
  { s with backupDir := dictSet s.backupDir name text }

/-- `os.remove(name)`. -/
def Store.remove (s : Store) (name : Text) : Store :=
  { s with backupDir := s.backupDir.filter fun f => f.1 ≠ name }

/-- `max(same) + 1 if same else 1`: the counter of a new backup, above those of its second. -/
def nextCount (names : List Text) (stamp : Text) : Nat :=
  let same := (names.filter ("config-".toList ++ stamp).isPrefixOf).map fun name =>
    (backupOrder name).2
  match same.max? with
  | some m => m + 1
  | none => 1

/-- `_backup_current`. -/
def Store.backupCurrent (s : Store) (newData : Text) (now : UtcTime) (listdir : Listdir) : Store :=
  match s.config with
  | none => s
  | some current =>
    if current = newData then s
    else
      let names := s.backupNames listdir
      -- this version is already the newest backup
      if names.head?.bind s.read = some current then s
      else
        let stamp := strftime now ++ ['Z']
        let s' := s.write (backupName stamp (nextCount names stamp)) current
        ((s'.backupNames listdir).drop backupsKept).foldl Store.remove s'

/-- One call of `save`: the configuration, the time it happens at and the order in which the
    directory is listed meanwhile. -/
structure Save (κ : Type*) where
  config : κ
  now : UtcTime
  listdir : Listdir

variable {κ : Type*}

/-- `save`, given what a configuration is written as (`none`: it does not validate). -/
def Store.save (dumps : κ → Option Text) (s : Store) (e : Save κ) : Store :=
  match dumps e.config with
  | none => s
  | some data => { s.backupCurrent data e.now e.listdir with config := some data }

/-! ### Names that the store gives -/

/-- A later time has the greater text. -/
theorem strftime_lt {a b : UtcTime} (h : a.fields < b.fields) : strftime a < strftime b := by
  simp only [UtcTime.fields, List.cons_lt_cons_iff, List.not_lt_nil, or_false, and_false] at h
  simp only [strftime, List.append_assoc]
  -- field by field: the first one that differs decides both comparisons
  refine pad_append_lt b.year_lt (h.imp_right fun h => ⟨h.1, ?_⟩)
  refine pad_append_lt b.month_lt (h.2.imp_right fun h => ⟨h.1, ?_⟩)
  refine pad_append_lt b.day_lt (h.2.imp_right fun h => ⟨h.1, ?_⟩)
  rw [List.cons_lt_cons_iff]
  refine Or.inr ⟨rfl, ?_⟩
  refine pad_append_lt b.hour_lt (h.2.imp_right fun h => ⟨h.1, ?_⟩)
  refine pad_append_lt b.minute_lt (h.2.imp_right fun h => ⟨h.1, ?_⟩)
  exact pad_lt h.2 b.second_lt

/-- The text of a time is a function of its fields. -/
theorem strftime_congr {a b : UtcTime} (h : a.fields = b.fields) : strftime a = strftime b := by
  simp only [UtcTime.fields, List.cons.injEq, and_true] at h
  obtain ⟨hy, hmo, hd, hh, hmi, hs⟩ := h
  rw [strftime, strftime, hy, hmo, hd, hh, hmi, hs]

/-- Stamps are in the order of time. -/
theorem strftime_mono {a b : UtcTime} (h : a ≤ b) : strftime a ≤ strftime b := by
  have h : a.fields ≤ b.fields := h
  rcases lt_or_eq_of_le h with h | h
  · exact le_of_lt (strftime_lt h)
  · exact le_of_eq (strftime_congr h)

/-- An ASCII digit is a digit. -/
theorem isDigit_of_isDigit {c : Char} (h : c.isDigit = true) : isDigit c = true := by
  rw [isDigit, PyText.digitValue_of_isDigit h]
  rfl

/-- The stamp of a time is one. -/
theorem isStamp_strftime (t : UtcTime) : isStamp (strftime t) = true := by
  have hpad : ∀ {w n : Nat} {c : Char}, c ∈ pad w n → isDigit c = true := fun hc =>
    isDigit_of_isDigit (isDigit_of_mem_pad hc)
  have hdate : ∀ c ∈ pad 4 t.year ++ pad 2 t.month ++ pad 2 t.day, isDigit c = true := by
    intro c hc
    simp only [List.mem_append] at hc
    rcases hc with (hc | hc) | hc <;> exact hpad hc
  have htime : ∀ c ∈ pad 2 t.hour ++ pad 2 t.minute ++ pad 2 t.second, isDigit c = true := by
    intro c hc
    simp only [List.mem_append] at hc
    rcases hc with (hc | hc) | hc <;> exact hpad hc
  have hlen : (pad 4 t.year ++ pad 2 t.month ++ pad 2 t.day).length = 8 := by simp
  have hlen' : (pad 2 t.hour ++ pad 2 t.minute ++ pad 2 t.second).length = 6 := by simp
  rw [isStamp, strftime]
  generalize pad 4 t.year ++ pad 2 t.month ++ pad 2 t.day = date at hdate hlen
  generalize pad 2 t.hour ++ pad 2 t.minute ++ pad 2 t.second = time at htime hlen'
  have htake : (date ++ 'T' :: time).take 8 = date := by simp [← hlen]
  have hdrop : (date ++ 'T' :: time).drop 9 = time := by simp [List.drop_append, hlen]
  have hat : (date ++ 'T' :: time)[8]? = some 'T' := by simp [← hlen]
  rw [htake, hdrop, hat]
  simpa [hlen, hlen'] using ⟨hdate, htime⟩

/-- A stamp has fifteen characters. -/
theorem length_strftime (t : UtcTime) : (strftime t).length = 15 := by simp [strftime]

/-- The text behind its own beginning. -/
theorem isPrefixOf?_append {α : Type*} [BEq α] [LawfulBEq α] (l r : List α) :
    l.isPrefixOf? (l ++ r) = some r := by
  induction l with
  | nil => rfl
  | cons c l ih => simp [List.isPrefixOf?, ih]

/-- The counter of a name that the store gives. -/
theorem countGroup_toDigits (n : Nat) :
    countGroup ('-' :: (Nat.toDigits 10 n ++ ".json".toList)) = some (some (Nat.toDigits 10 n)) := by
  have hall : ∀ c ∈ Nat.toDigits 10 n, isDigit c = true := fun c hc =>
    isDigit_of_isDigit (Nat.isDigit_of_mem_toDigits (by omega) (by omega) hc)
  have hne : Nat.toDigits 10 n ≠ [] := Nat.toDigits_ne_nil
  generalize Nat.toDigits 10 n = count at hall hne
  have hend : isJsonEnd ('-' :: (count ++ ".json".toList)) = false := by simp [isJsonEnd]
  -- the digits stop at the dot
  have htake : (count ++ ".json".toList).takeWhile isDigit = count := by
    rw [List.takeWhile_append_of_pos hall]
    simp [show isDigit '.' = false by decide]
  have hdrop : (count ++ ".json".toList).dropWhile isDigit = ".json".toList := by
    rw [List.dropWhile_append_of_pos hall]
    simp [show isDigit '.' = false by decide]
  have hdash : ['-'].isPrefixOf? ('-' :: (count ++ ".json".toList)) =
      some (count ++ ".json".toList) := isPrefixOf?_append ['-'] _
  rw [countGroup, hend, hdash, Option.bind_some, if_neg Bool.false_ne_true]
  show (if (count ++ ".json".toList).takeWhile isDigit ≠ [] ∧
    isJsonEnd ((count ++ ".json".toList).dropWhile isDigit) = true then _ else _) = _
  rw [htake, hdrop, if_pos ⟨hne, rfl⟩]

/-- The groups of a name that the store gives. -/
theorem groups_backupName (t : UtcTime) (n : Nat) :
    groups (backupName (strftime t ++ ['Z']) n) =
      some (strftime t, if n = 1 then none else some (Nat.toDigits 10 n)) := by
  have hlen := length_strftime t
  have hstamp := isStamp_strftime t
  -- the match needs no more of the stamp than its length and its shape
  generalize strftime t = stamp at hlen hstamp
  have hrest : ∀ r : Text, groups ("config-".toList ++ (stamp ++ 'Z' :: r)) =
      (countGroup r).map fun count => (stamp, count) := by
    intro r
    have htake : (stamp ++ 'Z' :: r).take 15 = stamp := by simp [← hlen]
    have hdrop : (stamp ++ 'Z' :: r).drop 15 = 'Z' :: r := by simp [← hlen]
    rw [groups, isPrefixOf?_append, Option.bind_some]
    show (if isStamp ((stamp ++ 'Z' :: r).take 15) = true then _ else _) = _
    rw [htake, if_pos hstamp, hdrop]
    rfl
  unfold backupName
  by_cases hn : n = 1
  · rw [if_pos hn, if_pos hn]
    have h := hrest ".json".toList
    rw [show countGroup ".json".toList = some none from rfl] at h
    simpa using h
  · rw [if_neg hn, if_neg hn]
    have h := hrest ('-' :: (Nat.toDigits 10 n ++ ".json".toList))
    rw [countGroup_toDigits] at h
    simpa using h

/-- The name of a backup is recognised. -/
theorem isBackupName_backupName (t : UtcTime) (n : Nat) :
    isBackupName (backupName (strftime t ++ ['Z']) n) = true := by
  rw [isBackupName, groups_backupName]
  rfl

/-- **The sort key of a backup is its time and its counter.** -/
theorem backupOrder_name (t : UtcTime) (n : Nat) :
    backupOrder (backupName (strftime t ++ ['Z']) n) = toLex (strftime t, n) := by
  rw [backupOrder, groups_backupName]
  by_cases hn : n = 1
  · rw [if_pos hn, hn]
  · rw [if_neg hn]
    show toLex (strftime t, (PyText.digits (Nat.toDigits 10 n)).getD 0) = _
    rw [PyText.digits_toDigits]
    rfl

/-- A backup of one second is recognised by the front of its name. -/
theorem isPrefixOf_backupName (t u : UtcTime) (n : Nat) :
    ("config-".toList ++ (strftime t ++ ['Z'])).isPrefixOf (backupName (strftime u ++ ['Z']) n) =
      true ↔ strftime t = strftime u := by
  have hlen : (strftime t).length = (strftime u).length := by
    rw [length_strftime, length_strftime]
  obtain ⟨r, hr⟩ : ∃ r, backupName (strftime u ++ ['Z']) n =
      "config-".toList ++ (strftime u ++ 'Z' :: r) := by
    unfold backupName
    split
    · exact ⟨".json".toList, by simp⟩
    · exact ⟨'-' :: (Nat.toDigits 10 n ++ ".json".toList), by simp⟩
  rw [hr, List.isPrefixOf_iff_prefix, List.prefix_append_right_inj]
  constructor
  · rintro ⟨s, hs⟩
    rw [List.append_assoc] at hs
    exact (List.append_inj hs hlen).1
  · intro h
    exact ⟨r, by simp [h]⟩

/-! ### The invariant -/

/-- A file of the backup directory. -/
structure Backup where
  stamp : UtcTime
  count : Nat
  text : Text

namespace Backup

def name (b : Backup) : Text := backupName (strftime b.stamp ++ ['Z']) b.count

def file (b : Backup) : Text × Text := (b.name, b.text)

def key (b : Backup) : Text ×ₗ Nat := toLex (strftime b.stamp, b.count)

/-- A name has the key of its backup. -/
theorem backupOrder_name (b : Backup) : backupOrder b.name = b.key :=
  Backups.backupOrder_name b.stamp b.count

/-- A name says nothing but its key. -/
theorem name_eq_of_key {a b : Backup} (h : a.key = b.key) : a.name = b.name := by
  have h := toLex.injective h
  rw [Prod.mk.injEq] at h
  rw [name, name, h.1, h.2]

end Backup

/-- The directory holds the backups `kept`, whose keys fall from one to the next. -/
structure Listed (dir : List (Text × Text)) (kept : List Backup) : Prop where
  perm : dir.Perm (kept.map Backup.file)
  falling : kept.Pairwise fun a b => b.key < a.key

namespace Listed

variable {s : Store} {kept : List Backup}

/-- The names of listed backups differ. -/
theorem nodup_name (h : kept.Pairwise fun a b => b.key < a.key) :
    (kept.map Backup.name).Nodup := by
  refine List.pairwise_map.2 (h.imp fun hab heq => ?_)
  apply ne_of_lt hab
  rw [← Backup.backupOrder_name, ← Backup.backupOrder_name, heq]

/-- The files of the directory differ. -/
theorem nodup (h : Listed s.backupDir kept) : (s.backupDir.map Prod.fst).Nodup := by
  have hperm := h.perm.map Prod.fst
  rw [List.map_map] at hperm
  exact hperm.nodup_iff.2 (nodup_name h.falling)

/-- **Sorting recovers the order**: whatever order the directory is listed in, the names come
    out newest first. -/
theorem backupNames (h : Listed s.backupDir kept) (listdir : Listdir) :
    s.backupNames listdir = kept.map Backup.name := by
  have hnames : ((listdir.order (s.backupDir.map Prod.fst)).filter isBackupName).Perm
      (kept.map Backup.name) := by
    have hperm := h.perm.map Prod.fst
    rw [List.map_map] at hperm
    have hperm := ((listdir.perm _).trans hperm).filter isBackupName
    -- every file of the directory is a backup
    have hall : (kept.map Backup.name).filter isBackupName = kept.map Backup.name := by
      refine List.filter_eq_self.2 fun name hname => ?_
      obtain ⟨b, -, rfl⟩ := List.mem_map.1 hname
      exact isBackupName_backupName b.stamp b.count
    exact hperm.trans (List.Perm.of_eq hall)
  unfold Store.backupNames
  set r : Text → Text → Prop := fun a b => backupOrder b ≤ backupOrder a with hr
  have htotal : Std.Total r := ⟨fun a b => le_total _ _⟩
  have htrans : IsTrans Text r := ⟨fun a b c hab hbc => le_trans hbc hab⟩
  have hsorted := List.pairwise_insertionSort r
    ((listdir.order (s.backupDir.map Prod.fst)).filter isBackupName)
  have hkept : (kept.map Backup.name).Pairwise r := by
    refine List.pairwise_map.2 (h.falling.imp fun hab => ?_)
    show backupOrder _ ≤ backupOrder _
    rw [Backup.backupOrder_name, Backup.backupOrder_name]
    exact le_of_lt hab
  have hsort := (List.perm_insertionSort r _).trans hnames
  refine hsort.eq_of_pairwise (fun a b ha hb hab hba => ?_) hsorted hkept
  -- two names of one key are one name
  obtain ⟨x, -, rfl⟩ := List.mem_map.1 (hsort.mem_iff.1 ha)
  obtain ⟨y, -, rfl⟩ := List.mem_map.1 hb
  have heq := le_antisymm hba hab
  rw [Backup.backupOrder_name, Backup.backupOrder_name] at heq
  exact Backup.name_eq_of_key heq

/-- A listed backup can be read. -/
theorem read (h : Listed s.backupDir kept) {b : Backup} (hb : b ∈ kept) :
    s.read b.name = some b.text :=
  lookup_of_mem h.nodup (h.perm.mem_iff.2 (List.mem_map_of_mem (f := Backup.file) hb))

/-- The texts behind the listed names. -/
theorem texts (h : Listed s.backupDir kept) (listdir : Listdir) :
    (s.backupNames listdir).map s.read = (kept.map Backup.text).map some := by
  rw [h.backupNames listdir, List.map_map, List.map_map]
  exact List.map_congr_left fun b hb => h.read hb

/-- Writing a backup of a greater key puts it in front. -/
theorem write (h : Listed s.backupDir kept) {b : Backup} (hb : ∀ a ∈ kept, a.key < b.key) :
    Listed (s.write b.name b.text).backupDir (b :: kept) := by
  refine ⟨?_, List.pairwise_cons.2 ⟨hb, h.falling⟩⟩
  have hnew : b.name ∉ s.backupDir.map Prod.fst := by
    intro hmem
    obtain ⟨f, hf, hname⟩ := List.mem_map.1 hmem
    obtain ⟨a, ha, rfl⟩ := List.mem_map.1 (h.perm.mem_iff.1 hf)
    have hname : a.name = b.name := hname
    apply ne_of_lt (hb a ha)
    rw [← Backup.backupOrder_name, ← Backup.backupOrder_name, hname]
  show (dictSet s.backupDir b.name b.text).Perm _
  rw [dictSet, if_neg hnew]
  exact List.perm_append_comm.trans (h.perm.cons b.file)

/-- Removing files one after another. -/
theorem foldl_remove (names : List Text) (s : Store) :
    names.foldl Store.remove s =
      { s with backupDir := s.backupDir.filter fun f => f.1 ∉ names } := by
  induction names generalizing s with
  | nil => simp
  | cons name names ih =>
    rw [List.foldl_cons, ih]
    simp only [Store.remove, List.filter_filter, Store.mk.injEq, true_and]
    refine List.filter_congr fun f _ => ?_
    by_cases hf : f.1 = name <;> simp [hf]

/-- Pruning keeps the newest backups. -/
theorem prune (h : Listed s.backupDir kept) (listdir : Listdir) (k : Nat) :
    Listed (((s.backupNames listdir).drop k).foldl Store.remove s).backupDir (kept.take k) := by
  refine ⟨?_, h.falling.take⟩
  rw [foldl_remove, h.backupNames listdir, ← List.map_drop]
  refine (h.perm.filter _).trans ?_
  have hsplit : (kept.map Backup.name) =
      (kept.take k).map Backup.name ++ (kept.drop k).map Backup.name := by
    rw [← List.map_append, List.take_append_drop]
  have hnd := nodup_name h.falling
  -- no kept backup has the name of a removed one
  rw [hsplit, List.nodup_append] at hnd
  have hfile : kept.map Backup.file =
      (kept.take k).map Backup.file ++ (kept.drop k).map Backup.file := by
    rw [← List.map_append, List.take_append_drop]
  rw [hfile, List.filter_append]
  have htake : ((kept.take k).map Backup.file).filter
      (fun f => f.1 ∉ (kept.drop k).map Backup.name) = (kept.take k).map Backup.file := by
    refine List.filter_eq_self.2 fun f hf => ?_
    obtain ⟨b, hb, rfl⟩ := List.mem_map.1 hf
    have hb := List.mem_map_of_mem (f := Backup.name) hb
    exact decide_eq_true fun hmem => hnd.2.2 _ hb _ hmem rfl
  have hdrop : ((kept.drop k).map Backup.file).filter
      (fun f => f.1 ∉ (kept.drop k).map Backup.name) = [] := by
    refine List.filter_eq_nil_iff.2 fun f hf => ?_
    obtain ⟨b, hb, rfl⟩ := List.mem_map.1 hf
    have hb := List.mem_map_of_mem (f := Backup.name) hb
    exact fun hmem => of_decide_eq_true hmem hb
  rw [htake, hdrop, List.append_nil]

end Listed

/-- The store after any saves: `log` is every version replaced so far, the last one first. -/
structure Holds (s : Store) (log : List Text) (kept : List Backup) : Prop where
  listed : Listed s.backupDir kept
  texts : kept.map Backup.text = log.take backupsKept
  /-- the newest backup is not the version in place -/
  head : ∀ current, s.config = some current → log.head? ≠ some current
  first : s.config = none → log = []

/-- The counter of a new backup is above those of its second that are listed. -/
theorem count_lt_nextCount {kept : List Backup} {now : UtcTime} {b : Backup} (hb : b ∈ kept)
    (heq : strftime now = strftime b.stamp) :
    b.count < nextCount (kept.map Backup.name) (strftime now ++ ['Z']) := by
  have hmem : b.count ∈ ((kept.map Backup.name).filter
      ("config-".toList ++ (strftime now ++ ['Z'])).isPrefixOf).map fun name =>
        (backupOrder name).2 := by
    refine List.mem_map.2 ⟨b.name, List.mem_filter.2 ⟨List.mem_map_of_mem hb, ?_⟩, ?_⟩
    · exact (isPrefixOf_backupName now b.stamp b.count).2 heq
    · rw [Backup.backupOrder_name]
      rfl
  unfold nextCount
  generalize ((kept.map Backup.name).filter _).map _ = same at hmem
  show b.count < match same.max? with
    | some m => m + 1
    | none => 1
  cases hmax : same.max? with
  | none =>
    rw [List.max?_eq_none_iff] at hmax
    simp [hmax] at hmem
  | some m => exact Nat.lt_succ_of_le ((List.max?_eq_some_iff.1 hmax).2 _ hmem)

/-- A new backup sorts above every one that is there.  A number that pruning freed is not given
    again, since pruning takes the low end of the order. -/
theorem key_lt_new {kept : List Backup} {now : UtcTime} (hclock : ∀ b ∈ kept, b.stamp ≤ now)
    (text : Text) : ∀ b ∈ kept, b.key <
      (Backup.mk now (nextCount (kept.map Backup.name) (strftime now ++ ['Z'])) text).key := by
  intro b hb
  rw [Backup.key, Backup.key, Prod.Lex.toLex_lt_toLex]
  rcases lt_or_eq_of_le (strftime_mono (hclock b hb)) with hlt | heq
  · exact Or.inl hlt
  · exact Or.inr ⟨heq, count_lt_nextCount hb heq.symm⟩

/-- The version in place is never the newest backup already. -/
theorem Holds.newest_ne {s : Store} {log : List Text} {kept : List Backup} (h : Holds s log kept)
    {current : Text} (hc : s.config = some current) (listdir : Listdir) :
    (s.backupNames listdir).head?.bind s.read ≠ some current := by
  have hhead : (s.backupNames listdir).head?.bind s.read = log.head? := by
    calc (s.backupNames listdir).head?.bind s.read
        = ((s.backupNames listdir).map s.read).head?.join := by
          rw [List.head?_map]
          cases (s.backupNames listdir).head? <;> rfl
      _ = (log.take backupsKept).head? := by
          rw [h.listed.texts, h.texts, List.head?_map]
          cases (log.take backupsKept).head? <;> rfl
      _ = log.head? := by cases log <;> rfl
  rw [hhead]
  exact h.head current hc

/-- **One backup.**  Where the version in place differs from what is about to be written, it is
    copied into a new newest backup, and the fifty newest are kept. -/
theorem Holds.backupCurrent {s : Store} {log : List Text} {kept : List Backup}
    (h : Holds s log kept) {now : UtcTime} (hclock : ∀ b ∈ kept, b.stamp ≤ now)
    (newData : Text) (listdir : Listdir) :
    ∃ kept', Listed (s.backupCurrent newData now listdir).backupDir kept' ∧
      kept'.map Backup.text =
        ((replacedBy s.config newData).toList ++ log).take backupsKept ∧
      ∀ b ∈ kept', b.stamp ≤ now := by
  unfold Store.backupCurrent
  cases hc : s.config with
  | none => exact ⟨kept, h.listed, h.texts, hclock⟩
  | some current =>
    simp only
    by_cases heq : current = newData
    · rw [if_pos heq, heq, replacedBy_self]
      exact ⟨kept, h.listed, h.texts, hclock⟩
    · rw [if_neg heq, if_neg (h.newest_ne hc listdir), replacedBy_of_ne heq,
        h.listed.backupNames listdir]
      set b : Backup :=
        ⟨now, nextCount (kept.map Backup.name) (strftime now ++ ['Z']), current⟩ with hb
      -- the new name is above every kept one, so the file goes in front of the list
      have hwrite : Listed (s.write b.name b.text).backupDir (b :: kept) :=
        h.listed.write (key_lt_new hclock current)
      refine ⟨(b :: kept).take backupsKept, hwrite.prune listdir backupsKept, ?_, ?_⟩
      · -- what pruning took before is beyond the fifty again
        rw [List.map_take, List.map_cons, h.texts]
        show (current :: log.take backupsKept).take backupsKept =
          (current :: log).take backupsKept
        simp [backupsKept, List.take_take]
      · intro a ha
        rcases List.mem_cons.1 (List.mem_of_mem_take ha) with rfl | ha
        · exact le_refl now
        · exact hclock a ha

/-- **One save.**  The version it replaces comes first in the log; no other save changes it. -/
theorem Holds.save {dumps : κ → Option Text} {s : Store} {log : List Text} {kept : List Backup}
    (h : Holds s log kept) {e : Save κ} (hclock : ∀ b ∈ kept, b.stamp ≤ e.now) {data : Text}
    (hdata : dumps e.config = some data) :
    ∃ kept', Holds (s.save dumps e) ((replacedBy s.config data).toList ++ log) kept' ∧
      (s.save dumps e).config = some data ∧ ∀ b ∈ kept', b.stamp ≤ e.now := by
  obtain ⟨kept', hlisted, htexts, hstamps⟩ := h.backupCurrent hclock data e.listdir
  have hsave : s.save dumps e = { s.backupCurrent data e.now e.listdir with config := some data } := by
    rw [Store.save, hdata]
  rw [hsave]
  refine ⟨kept', ⟨hlisted, htexts, fun current hcur => ?_, fun h => by simp at h⟩, rfl, hstamps⟩
  obtain rfl : data = current := by simpa using hcur
  cases hr : replacedBy s.config data with
  | some v =>
    have hne := ne_of_replacedBy hr
    simpa using hne
  | none =>
    -- the version in place stays, or there was none and nothing is logged yet
    show log.head? ≠ some data
    cases hc : s.config with
    | some current =>
      have heq : current = data := by
        by_contra hne
        rw [hc, replacedBy_of_ne hne] at hr
        simp at hr
      exact heq ▸ h.head current hc
    | none =>
      rw [h.first hc]
      simp

end Ser2Net.Config.Backups
