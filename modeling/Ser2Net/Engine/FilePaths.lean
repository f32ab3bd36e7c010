import Ser2Net.Config.Mapping
import Ser2Net.Lib.PosixPath

namespace Ser2Net.Engine.FilePaths

open Ser2Net.Lib Ser2Net.Lib.PosixPath Ser2Net.Config

/-!
# Engine — the files of a mapping

The trace of a mapping and its rotated files lie in the trace directory, its log in the log
directory, and all of their names begin with the mapping's id.  The trace name has been
through `trace_file_name`; the id is taken as it is.

* `traceFileName_noSlash` — the sanitised name has no path separator;
* `paths_inside_iff` — the files of a loaded mapping lie inside their directories exactly
  when its id, read as a path, does not leave the directory it starts from;
* `climbing_id_leaves` — an id with a leading `..`.
-/

/-- `f"{mapping.id}"`. -/
def idText (m : Platform) (c : MappingConfig) : List Char := (c.id.toStr m.py).toList

/-- `trace_path`. -/
def tracePath (m : Platform) (traceDir : List Char) (c : MappingConfig) : List Char :=
  join traceDir (idText m c ++ '-' :: c.options.traceBoth.toList)

/-- `f"{self.path}.{n}"`: the `n`-th rotated file. -/
def rotatedPath (path : List Char) (n : Nat) : List Char := path ++ '.' :: Nat.toDigits 10 n

/-- `mapping_log_path`. -/
def mappingLogPath (m : Platform) (logsDir : List Char) (c : MappingConfig) : List Char :=
  join logsDir (idText m c ++ ".log".toList)

/-! ### The trace name -/

theorem not_isWord_slash (py : PyEnv) : py.isWord '/' = false := by
  unfold PyEnv.isWord
  rw [if_pos (by decide)]
  decide

/-- Substitution leaves no separator. -/
theorem subBad_noSlash (py : PyEnv) (inRun : Bool) (l : List Char) : '/' ∉ subBad py inRun l := by
  induction l generalizing inRun with
  | nil => simp [subBad]
  | cons c rest ih =>
    unfold subBad
    split
    · next hc =>
      have hne : '/' ≠ c := by
        rintro rfl
        simp [not_isWord_slash] at hc
      simp only [List.mem_cons, not_or]
      exact ⟨hne, ih false⟩
    · split
      · exact ih true
      · simp only [List.mem_cons, not_or]
        exact ⟨by decide, ih true⟩

theorem rstripBy_subset {p : Char → Bool} {l : List Char} {c : Char}
    (h : c ∈ PyText.rstripBy p l) : c ∈ l := by
  unfold PyText.rstripBy at h
  have := (List.dropWhile_sublist p).subset (List.mem_reverse.1 h)
  exact List.mem_reverse.1 this

/-- The sanitised trace name has no path separator. -/
theorem traceFileName_noSlash (py : PyEnv) (v : Json) : '/' ∉ (traceFileName py v).toList := by
  unfold traceFileName
  generalize (if v.truthy then PyText.strip (v.toStr py) else "") = raw
  dsimp only
  split
  · simp
  · split
    · decide
    · rw [String.toList_ofList]
      intro h
      have h := List.mem_of_mem_take (rstripBy_subset h)
      have h := (List.dropWhile_sublist _).subset (rstripBy_subset h)
      exact subBad_noSlash py false _ h

/-- A loaded mapping carries a sanitised trace name. -/
theorem traceBoth_noSlash {m : Platform} {newId : String} {v : Json} {c : MappingConfig}
    (h : MappingConfig.load m newId v = .ok c) : '/' ∉ c.options.traceBoth.toList := by
  obtain ⟨c', h, hrest⟩ := except_bind_eq_ok.1 h
  obtain ⟨-, -, hrest⟩ := except_bind_eq_ok.1 hrest
  cases hrest
  obtain ⟨d, -, hread⟩ := MappingConfig.fromDict_eq_ok h
  obtain ⟨-, name, hname⟩ := MappingOptions.fromDict_eq_ok hread.options
  rw [hname]
  exact traceFileName_noSlash m.py name

/-! ### The file names -/

/-- What is appended to a joined path belongs to its last segment. -/
theorem join_append {a b : List Char} (t : List Char) (hb : b ≠ []) :
    join a b ++ t = join a (b ++ t) := by
  have hhead : (b ++ t).head? = b.head? := by
    cases b with
    | nil => exact absurd rfl hb
    | cons x rest => rfl
  unfold join
  rw [hhead]
  split
  · rfl
  · split <;> simp

/-- A segment with a character other than a dot names a file. -/
theorem isName_of_mem {seg : List Char} {c : Char} (hc : c ∈ seg) (hdot : c ≠ '.') :
    IsName seg := by
  refine ⟨?_, ?_, ?_⟩
  · rintro rfl
    exact absurd hc (by simp)
  · rintro rfl
    exact hdot (by simpa using hc)
  · rintro rfl
    exact hdot (by simpa using hc)

theorem noSlash_toDigits (n : Nat) : '/' ∉ Nat.toDigits 10 n := by
  intro h
  exact absurd (Nat.isDigit_of_mem_toDigits (by decide) (by decide) h) (by decide)

/-- **Confinement.**  For every JSON object that loads and validates: the trace file, its
    rotated files and the log file lie strictly inside their directories, whatever these are,
    if and only if the id is a relative path whose directories never climb above the start. -/
theorem paths_inside_iff (m : Platform) (newId : String) (v : Json) (c : MappingConfig)
    (h : MappingConfig.load m newId v = .ok c) :
    (∀ (traceDir logsDir : List Char) (n : Nat), Inside traceDir (tracePath m traceDir c) ∧
        Inside traceDir (rotatedPath (tracePath m traceDir c) n) ∧
        Inside logsDir (mappingLogPath m logsDir c)) ↔ Confined (idText m c) := by
  have hboth := traceBoth_noSlash h
  -- what follows the id in each of the three names
  have htrace := inside_join_iff (s := idText m c) (t := '-' :: c.options.traceBoth.toList)
    (by simp [hboth]) (fun l => isName_of_mem (c := '-') (by simp) (by decide))
  have hrotated := fun n => inside_join_iff (s := idText m c)
    (t := '-' :: c.options.traceBoth.toList ++ '.' :: Nat.toDigits 10 n)
    (by simp [hboth, noSlash_toDigits]) (fun l => isName_of_mem (c := '-') (by simp) (by decide))
  have hlog := inside_join_iff (s := idText m c) (t := ".log".toList)
    (by decide) (fun l => isName_of_mem (c := 'l') (by simp) (by decide))
  constructor
  · intro hall
    exact hlog.1 fun dir => (hall dir dir 0).2.2
  · intro hconf traceDir logsDir n
    refine ⟨htrace.2 hconf traceDir, ?_, hlog.2 hconf logsDir⟩
    have hjoin : rotatedPath (tracePath m traceDir c) n = join traceDir
        (idText m c ++ ('-' :: c.options.traceBoth.toList ++ '.' :: Nat.toDigits 10 n)) := by
      show join traceDir _ ++ '.' :: Nat.toDigits 10 n = _
      rw [join_append _ (by simp), List.append_assoc]
    rw [hjoin]
    exact (hrotated n).2 hconf traceDir

/-- The members of a mapping with a given id and trace file. -/
def tracedMapping (mid trace : String) : Json :=
  .obj [("id", .str mid), ("name", .str "plc"), ("serial", .obj [("port", .str "/dev/ttyS0")]),
    ("options", .obj [("trace_both", .str trace)])]

/-- An absolute trace path contributes its last component only. -/
theorem paths_inside_iff_absoluteTrace :
    ∃ c, MappingConfig.load bareMachine "0123456789ab" (tracedMapping "plc1" "/etc/passwd") =
        .ok c ∧ c.options.traceBoth = "passwd" ∧
      ((∀ (traceDir logsDir : List Char) (n : Nat),
          Inside traceDir (tracePath bareMachine traceDir c) ∧
          Inside traceDir (rotatedPath (tracePath bareMachine traceDir c) n) ∧
          Inside logsDir (mappingLogPath bareMachine logsDir c)) ↔
        Confined (idText bareMachine c)) := by
  have hname : (MappingConfig.load bareMachine "0123456789ab"
      (tracedMapping "plc1" "/etc/passwd")).map (fun c => c.options.traceBoth) = .ok "passwd" := by
    decide +kernel
  cases hload : MappingConfig.load bareMachine "0123456789ab"
      (tracedMapping "plc1" "/etc/passwd") with
  | error e =>
    rw [hload] at hname
    exact absurd hname (by simp [Except.map])
  | ok c =>
    rw [hload] at hname
    exact ⟨c, rfl, Except.ok.inj hname, paths_inside_iff _ _ _ c hload⟩

/-- A mapping with the id `../x` loads and validates, and its trace and its log lie beside
    their directories. -/
theorem climbing_id_leaves :
    ∃ c, MappingConfig.load bareMachine "0123456789ab" (tracedMapping "../x" "t.log") = .ok c ∧
      resolve (tracePath bareMachine "/data/traces".toList c) =
        ⟨true, 0, ["x-t.log".toList, "data".toList]⟩ ∧
      ¬ Inside "/data/traces".toList (tracePath bareMachine "/data/traces".toList c) ∧
      ¬ Inside "/data/logs".toList (mappingLogPath bareMachine "/data/logs".toList c) := by
  have hpaths : (MappingConfig.load bareMachine "0123456789ab"
      (tracedMapping "../x" "t.log")).map (fun c =>
        (resolve (tracePath bareMachine "/data/traces".toList c),
          resolve (mappingLogPath bareMachine "/data/logs".toList c))) =
      .ok (⟨true, 0, ["x-t.log".toList, "data".toList]⟩,
        ⟨true, 0, ["x.log".toList, "data".toList]⟩) := by
    decide +kernel
  cases hload : MappingConfig.load bareMachine "0123456789ab" (tracedMapping "../x" "t.log") with
  | error e =>
    rw [hload] at hpaths
    exact absurd hpaths (by simp [Except.map])
  | ok c =>
    rw [hload] at hpaths
    obtain ⟨htrace, hlog⟩ := Prod.mk.inj (Except.ok.inj hpaths)
    -- both paths are as deep as the directory itself
    have hdepth : ∀ {dir path : List Char}, (resolve path).names.length ≤ (resolve dir).names.length →
        ¬ Inside dir path := by
      rintro dir path hle ⟨more, hne, heq⟩
      rw [heq, List.length_append] at hle
      exact hne (List.length_eq_zero_iff.1 (by omega))
    refine ⟨c, rfl, htrace, hdepth ?_, hdepth ?_⟩
    · rw [htrace]
      decide
    · rw [hlog]
      decide

end Ser2Net.Engine.FilePaths
