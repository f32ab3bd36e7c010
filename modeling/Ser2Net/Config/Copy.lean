import Ser2Net.Config.Mapping
import Ser2Net.Lib.PyEq

namespace Ser2Net.Config

open Ser2Net.Lib

/-!
# Config — copies

`MappingConfig.from_dict(m.to_dict())` is how the code copies a mapping.  A copy goes through
the normalisation of `from_dict` once more:

* `fromDict_toDict` — what a copy is, for every mapping;
* `Kept` — what `from_dict` normalises is normalised already, so that a copy keeps it;
* `kept_of_fromDict` — a mapping that `from_dict` has made is `Kept`.  Its poll interval is
  not normalised: `float(d.get(...) or 5.0)` of the text `"0"` is `0.0`, which the next copy
  turns into `5.0`.
-/

/-! ### What a copy is -/

/-- The serial section comes back. -/
theorem SerialSettings.fromDict_toDict (s : SerialSettings) :
    SerialSettings.fromDict s.toDict = .ok s := rfl

/-- The network section comes back. -/
theorem NetworkSettings.fromDict_toDict (n : NetworkSettings) :
    NetworkSettings.fromDict n.toDict = .ok n := rfl

/-- The MQTT section comes back. -/
theorem MqttSettings.fromDict_toDict (q : MqttSettings) :
    MqttSettings.fromDict q.toDict = .ok q := rfl

/-- A point comes back. -/
theorem ModbusPoint.fromDict_toDict (p : ModbusPoint) :
    ModbusPoint.fromDict p.toDict = .ok p := rfl

/-- The options of a copy. -/
def MappingOptions.recopied (m : Platform) (o : MappingOptions) (idle : Json) : MappingOptions :=
  { o with idleTimeoutS := idle, traceBoth := traceFileName m.py (.str o.traceBoth) }

/-- The options come back with their timeout and trace name normalised. -/
theorem MappingOptions.fromDict_toDict (m : Platform) (o : MappingOptions) :
    MappingOptions.fromDict m o.toDict = (legacySeconds o.idleTimeoutS).map (o.recopied m) := by
  show (legacySeconds o.idleTimeoutS >>= fun idle => _) = _
  cases legacySeconds o.idleTimeoutS <;> rfl

/-- `self.modbus_poll` as `asdict` writes it. -/
def ModbusPoll.toDict (q : ModbusPoll) : Json :=
  .obj [("interval_s", .float q.intervalS), ("points", .arr (q.points.map ModbusPoint.toDict))]

/-- The poll settings of a copy: the interval `0.0` is taken for a missing one. -/
def ModbusPoll.recopied (q : ModbusPoll) : ModbusPoll :=
  { q with intervalS := if q.intervalS = .fin 0 then .ofIntExact 5 else q.intervalS }

/-- A float of zero is replaced by the default. -/
theorem orElse_float (x y : PyFloat) :
    orElse (.float x) (.float y) = .float (if x = .fin 0 then y else x) := by
  unfold orElse Json.truthy
  by_cases h : x = .fin 0 <;> simp [h]

/-- The poll section comes back, with `5.0` in the place of zero. -/
theorem ModbusPoll.fromDict_toDict (q : ModbusPoll) :
    ModbusPoll.fromDict q.toDict = .ok q.recopied := by
  have hpoints : (q.points.map ModbusPoint.toDict).mapM ModbusPoint.fromDict =
      (.ok q.points : CfgM (List ModbusPoint)) := by
    induction q.points with
    | nil => rfl
    | cons p rest ih =>
      rw [List.map_cons, List.mapM_cons, ih]
      rfl
  have hinterval : (orElse (.float q.intervalS) (.float (.ofIntExact 5))).toFloat =
      (.ok q.recopied.intervalS : CfgM PyFloat) := by
    rw [orElse_float]
    rfl
  show ((orElse (.float q.intervalS) (.float (.ofIntExact 5))).toFloat >>= fun interval =>
    (q.points.map ModbusPoint.toDict).mapM ModbusPoint.fromDict >>= fun points =>
      pure (⟨interval, points⟩ : ModbusPoll)) = _
  rw [hinterval, hpoints]
  rfl

/-- A copy of a mapping, with its idle timeout and its id. -/
def MappingConfig.recopied (m : Platform) (c : MappingConfig) (newId : String) (idle : Json) :
    MappingConfig :=
  { c with
    id := orElse c.id (.str newId)
    options := c.options.recopied m idle
    modbusPoll := c.modbusPoll.recopied }

/-- `MappingConfig.from_dict(m.to_dict())`: only the idle timeout can make it raise. -/
theorem MappingConfig.fromDict_toDict (m : Platform) (newId : String) (c : MappingConfig) :
    MappingConfig.fromDict m newId c.toDict =
      (legacySeconds c.options.idleTimeoutS).map (c.recopied m newId) := by
  show (MappingOptions.fromDict m c.options.toDict >>= fun options =>
    ModbusPoll.fromDict c.modbusPoll.toDict >>= fun poll => pure { c with
      id := orElse c.id (.str newId), enabled := (Json.bool c.enabled).truthy,
      options := options, modbusPoll := poll }) = _
  rw [MappingOptions.fromDict_toDict, ModbusPoll.fromDict_toDict]
  cases legacySeconds c.options.idleTimeoutS <;> rfl

/-! ### Copies that change nothing -/

/-- What `from_dict` normalises, other than the poll interval, is normalised already. -/
structure MappingConfig.Kept (m : Platform) (c : MappingConfig) : Prop where
  id : c.id.truthy = true
  idle : legacySeconds c.options.idleTimeoutS = .ok c.options.idleTimeoutS
  trace : traceFileName m.py (.str c.options.traceBoth) = c.options.traceBoth

/-- The copy of a kept mapping differs in the poll interval at most. -/
theorem MappingConfig.Kept.fromDict_toDict {m : Platform} {c : MappingConfig} (h : c.Kept m)
    (newId : String) : MappingConfig.fromDict m newId c.toDict =
      .ok { c with modbusPoll := c.modbusPoll.recopied } := by
  have hid : orElse c.id (.str newId) = c.id := if_pos h.id
  have hoptions : c.options.recopied m c.options.idleTimeoutS = c.options := by
    rw [MappingOptions.recopied, h.trace]
  rw [MappingConfig.fromDict_toDict, h.idle]
  show Except.ok (c.recopied m newId c.options.idleTimeoutS) = _
  rw [MappingConfig.recopied, hid, hoptions]

/-- A copy is the mapping itself exactly when nothing is left to normalise: the id is not
    empty, and so on; `newId` is an id that is not in use. -/
theorem MappingConfig.copy_eq_self_iff {m : Platform} {newId : String} {c c' : MappingConfig}
    (hnew : c.id ≠ .str newId) (h : MappingConfig.fromDict m newId c.toDict = .ok c') :
    c' = c ↔ c.Kept m ∧ c.modbusPoll.intervalS ≠ .fin 0 := by
  rw [MappingConfig.fromDict_toDict] at h
  constructor
  · rintro rfl
    obtain ⟨idle, hidle, heq⟩ : ∃ idle, legacySeconds c'.options.idleTimeoutS = .ok idle ∧
        c'.recopied m newId idle = c' := by
      cases hidle : legacySeconds c'.options.idleTimeoutS with
      | error e => rw [hidle] at h; cases h
      | ok idle => rw [hidle] at h; exact ⟨idle, rfl, Except.ok.inj h⟩
    -- a copy changes at most the id, two options and the poll interval
    have hoptions : c'.options.recopied m idle = c'.options :=
      congrArg MappingConfig.options heq
    have hid : orElse c'.id (.str newId) = c'.id := congrArg MappingConfig.id heq
    have hpoll : c'.modbusPoll.recopied.intervalS = c'.modbusPoll.intervalS :=
      congrArg (fun c => c.modbusPoll.intervalS) heq
    refine ⟨⟨?_, ?_, congrArg MappingOptions.traceBoth hoptions⟩, ?_⟩
    · by_contra hfalsy
      rw [orElse, if_neg hfalsy] at hid
      exact hnew hid.symm
    · rw [hidle, ← congrArg MappingOptions.idleTimeoutS hoptions]
      rfl
    · intro hzero
      have hfive : PyFloat.ofIntExact 5 ≠ .fin 0 := by decide +kernel
      rw [ModbusPoll.recopied, if_pos hzero, hzero] at hpoll
      exact hfive hpoll
  · rintro ⟨hkept, hpoll⟩
    rw [← MappingConfig.fromDict_toDict, hkept.fromDict_toDict] at h
    rw [← Except.ok.inj h, ModbusPoll.recopied, if_neg hpoll]

/-! ### What `from_dict` leaves is normalised -/

/-- Rounding at most doubles a magnitude. -/
theorem roundUnits_le (f : Format) (n : Nat) : f.roundUnits n 1 ≤ 2 * n := by
  unfold Format.roundUnits Format.roundDiv
  simp only [Nat.div_one, Nat.one_mul]
  generalize hdrop : n.log2 - f.mantissa = drop
  have hq : n / 2 ^ drop * 2 ^ drop ≤ n := Nat.div_mul_le_self n _
  -- the last place is worth at most the magnitude itself
  have hulp : drop = 0 ∨ 2 ^ drop ≤ n := by
    rcases Nat.eq_zero_or_pos drop with h | h
    · exact .inl h
    · have hn : n ≠ 0 := by
        rintro rfl
        simp at hdrop
        omega
      refine .inr (le_trans (Nat.pow_le_pow_right (by omega) ?_) (Nat.log2_self_le hn))
      omega
  rcases hulp with rfl | hulp
  · have hmod : n % 1 = 0 := Nat.mod_one n
    simp only [pow_zero, Nat.div_one, Nat.mul_one, hmod]
    simp
    omega
  · split
    · rw [Nat.add_mul]
      omega
    · omega

/-- A number below the bound is a finite float. -/
theorem signed_of_lt {neg : Bool} {n : Nat} (h : n < PyFloat.bound) :
    PyFloat.signed neg n = .fin (if neg then -n else n) :=
  if_neg (Nat.not_le.2 h)

/-- The conversion of an int whose magnitude is finite.  It is stated for a function that is
    `ofInt?`, which keeps the kernel from evaluating the large numbers inside. -/
theorem ofInt?_of_signed {f : Int → Option PyFloat} (hf : f = PyFloat.ofInt?) {n k : Int}
    (h : PyFloat.signed (n < 0) (PyFloat.round (n.natAbs * 2 ^ 1074) 1) = .fin k) :
    f n = some (.fin k) := by
  delta PyFloat.ofInt? at hf
  subst hf
  beta_reduce
  revert h
  generalize PyFloat.signed _ _ = r
  rintro rfl
  rfl

/-- A year of seconds in units of the smallest double, twice. -/
theorem timer_lt_bound : 2 * (31536000 * 2 ^ 1074) < PyFloat.bound := by decide +kernel

/-- The longest timer is a finite float. -/
theorem round_timer_lt {n : Nat} (h : n ≤ 31536000) :
    PyFloat.round (n * 2 ^ 1074) 1 < PyFloat.bound := by
  have hround : PyFloat.round (n * 2 ^ 1074) 1 ≤ 2 * (n * 2 ^ 1074) :=
    roundUnits_le .binary64 _
  have hmul : 2 * (n * 2 ^ 1074) ≤ 2 * (31536000 * 2 ^ 1074) :=
    Nat.mul_le_mul_left _ (Nat.mul_le_mul_right _ h)
  exact lt_of_le_of_lt (le_trans hround hmul) timer_lt_bound

/-- A timer that is in range is converted to a double without overflow. -/
theorem ofInt?_isSome {n : Int} (h : 0 ≤ n) (hmax : n ≤ maxTimerS) :
    (PyFloat.ofInt? n).isNone = false := by
  have hnat : n.natAbs ≤ 31536000 := by
    unfold maxTimerS at hmax
    omega
  rw [ofInt?_of_signed rfl (signed_of_lt (round_timer_lt hnat))]
  rfl

/-- `_legacy_seconds` gives an int or a float in range. -/
theorem legacySeconds_cases {v w : Json} (h : legacySeconds v = .ok w) :
    (∃ n : Int, 0 ≤ n ∧ n ≤ maxTimerS ∧ w = .int n) ∨
      ∃ x, ¬ (!x.isFinite || !(PyFloat.fin 0).le x) = true ∧
        x.le (.ofIntExact maxTimerS) = true ∧ w = .float x := by
  have hmax : (0 : Int) ≤ maxTimerS := by decide
  have hzero : ∃ n : Int, 0 ≤ n ∧ n ≤ maxTimerS ∧ Json.int 0 = .int n :=
    ⟨0, le_refl _, hmax, rfl⟩
  unfold legacySeconds at h
  split at h
  · split at h
    · cases h
    · split at h
      · exact .inl (Except.ok.inj h ▸ hzero)
      · exact .inl ⟨_, by omega, by omega, (Except.ok.inj h).symm⟩
  · split at h
    · exact .inl (Except.ok.inj h ▸ hzero)
    · next hfin =>
      split at h
      · next hle => exact .inr ⟨_, hfin, hle, (Except.ok.inj h).symm⟩
      · exact .inl ⟨_, hmax, le_refl _, (Except.ok.inj h).symm⟩
  · exact .inl (Except.ok.inj h ▸ hzero)

/-- `_legacy_seconds` leaves its own results alone. -/
theorem legacySeconds_idem {v w : Json} (h : legacySeconds v = .ok w) :
    legacySeconds w = .ok w := by
  rcases legacySeconds_cases h with ⟨n, hn, hle, rfl⟩ | ⟨x, hfin, hle, rfl⟩
  · have hlt : ¬ n < 0 := by omega
    simp only [legacySeconds, numericText, ofInt?_isSome hn hle]
    rw [if_neg Bool.false_ne_true, if_neg hlt, min_eq_left hle]
  · simp only [legacySeconds, numericText]
    rw [if_neg hfin, if_pos hle]

/-! ### Trace names -/

/-- A character that `_TRACE_NAME_BAD` leaves alone. -/
def isNameChar (py : PyEnv) (c : Char) : Bool := py.isWord c || c = '.' || c = '-'

/-- What is left of a trace name are the characters of one. -/
theorem isNameChar_of_mem_subBad {py : PyEnv} {inRun : Bool} {l : List Char} {c : Char}
    (h : c ∈ subBad py inRun l) : isNameChar py c = true := by
  induction l generalizing inRun with
  | nil => exact absurd h List.not_mem_nil
  | cons a rest ih =>
    unfold subBad at h
    split at h
    · next hgood =>
      rcases List.mem_cons.1 h with rfl | h
      · exact hgood
      · exact ih h
    · split at h
      · exact ih h
      · rcases List.mem_cons.1 h with rfl | h
        · simp [isNameChar, PyEnv.isWord]
        · exact ih h

/-- A trace name that is clean already. -/
theorem subBad_eq_self {py : PyEnv} {inRun : Bool} {l : List Char}
    (h : ∀ c ∈ l, isNameChar py c = true) : subBad py inRun l = l := by
  induction l generalizing inRun with
  | nil => rw [subBad]
  | cons a rest ih =>
    have ha : (py.isWord a || a = '.' || a = '-') = true := h a List.mem_cons_self
    rw [subBad, if_pos ha, ih fun c hc => h c (List.mem_cons_of_mem a hc)]

/-- No path separator and, where no whitespace is a word character, no whitespace survives. -/
theorem isNameChar_plain {py : PyEnv}
    (hspace : ∀ c, PyText.isSpace c = true → py.isAlnum c = false) {c : Char}
    (h : isNameChar py c = true) : c ≠ '/' ∧ c ≠ '\\' ∧ PyText.isSpace c = false := by
  by_cases hascii : c.toNat < 128
  -- the ASCII letters are a table
  · have hall : ∀ n < 128, ((Char.ofNat n).isAlphanum || Char.ofNat n == '_' ||
        Char.ofNat n = '.' || Char.ofNat n = '-') = true → Char.ofNat n ≠ '/' ∧
          Char.ofNat n ≠ '\\' ∧ PyText.isSpace (Char.ofNat n) = false := by decide
    have hc := hall c.toNat hascii
    rw [Char.ofNat_toNat] at hc
    rw [isNameChar, PyEnv.isWord, if_pos hascii] at h
    exact hc h
  · refine ⟨?_, ?_, ?_⟩
    -- beyond ASCII a character is none of the two separators
    · rintro rfl
      exact hascii (by decide)
    · rintro rfl
      exact hascii (by decide)
    · rw [isNameChar, PyEnv.isWord, if_neg hascii] at h
      by_contra hsp
      have hsp : PyText.isSpace c = true := by simpa using hsp
      rw [hspace c hsp] at h
      have hc : c = '.' ∨ c = '-' := by simpa using h
      rcases hc with rfl | rfl <;> exact hascii (by decide)

/-- Nothing to strip at the end. -/
theorem rstripBy_eq_self {p : Char → Bool} {l : List Char} (h : ∀ c ∈ l, p c = false) :
    PyText.rstripBy p l = l := by
  rw [PyText.rstripBy, List.dropWhile_eq_self_iff.2, List.reverse_reverse]
  intro hl
  have hmem := List.mem_reverse.1 (List.getElem_mem hl)
  rw [h _ hmem]
  exact Bool.false_ne_true

/-- Nothing to strip. -/
theorem stripBy_eq_self {p : Char → Bool} {l : List Char} (h : ∀ c ∈ l, p c = false) :
    PyText.stripBy p l = l := by
  have hdrop : l.dropWhile p = l := by
    refine List.dropWhile_eq_self_iff.2 fun hl => ?_
    rw [h _ (List.getElem_mem hl)]
    exact Bool.false_ne_true
  rw [PyText.stripBy, hdrop, rstripBy_eq_self h]

/-- Stripping the end leaves a beginning. -/
theorem rstripBy_isPrefix (p : Char → Bool) (l : List Char) : PyText.rstripBy p l <+: l := by
  rw [PyText.rstripBy, ← List.reverse_suffix, List.reverse_reverse]
  exact List.dropWhile_suffix p

/-- Stripping the end twice. -/
theorem rstripBy_idem (p : Char → Bool) (l : List Char) :
    PyText.rstripBy p (PyText.rstripBy p l) = PyText.rstripBy p l := by
  unfold PyText.rstripBy
  rw [List.reverse_reverse, List.dropWhile_idempotent]

section
variable {py : PyEnv} (hspace : ∀ c, PyText.isSpace c = true → py.isAlnum c = false)
include hspace

/-- A short name of good characters without a dot or blank at either end is left alone. -/
theorem traceFileName_eq_self {l : List Char} (hne : l ≠ [])
    (hgood : ∀ c ∈ l, isNameChar py c = true) (hlen : l.length ≤ 80)
    (hleft : l.dropWhile isDotOrBlank = l) (hright : PyText.rstripBy isDotOrBlank l = l) :
    traceFileName py (.str (String.ofList l)) = String.ofList l := by
  have hplain := fun c hc => isNameChar_plain hspace (hgood c hc)
  have htext : String.ofList l ≠ "" := by
    intro h
    exact hne (by simpa using congrArg String.toList h)
  have hstrip : PyText.strip (String.ofList l) = String.ofList l := by
    rw [PyText.strip, String.toList_ofList, stripBy_eq_self fun c hc => (hplain c hc).2.2]
  have hlast : lastComponent l = l := by
    unfold lastComponent
    rw [List.takeWhile_eq_self_iff.2, List.reverse_reverse]
    intro c hc
    have := hplain c (List.mem_reverse.1 hc)
    simp [this.1, this.2.1]
  have htruthy : (Json.str (String.ofList l)).truthy = true := by
    simpa [Json.truthy] using htext
  -- the trimmings of the source, one by one, change nothing
  unfold traceFileName
  simp only [htruthy, if_true, Json.toStr, hstrip, if_neg htext, String.toList_ofList, hlast,
    subBad_eq_self hgood, PyText.stripBy, hleft, hright, List.take_of_length_le hlen]
  rw [if_neg hne]

/-- `trace_file_name` leaves its own results alone. -/
theorem traceFileName_idem (v : Json) :
    traceFileName py (.str (traceFileName py v)) = traceFileName py v := by
  generalize hname : traceFileName py v = name
  unfold traceFileName at hname
  generalize (if v.truthy then PyText.strip (v.toStr py) else "") = raw at hname
  dsimp only at hname
  split at hname
  · subst hname
    rfl
  · split at hname
    · subst hname
      refine traceFileName_eq_self hspace (l := "trace.log".toList) (by decide) ?_ (by decide)
        (by decide) (by decide)
      simp [isNameChar, PyEnv.isWord]
    · next hne =>
      subst hname
      -- the name is a prefix of the sanitised last component without its leading dots
      have hshort := rstripBy_isPrefix isDotOrBlank ((PyText.stripBy isDotOrBlank
        (subBad py false (lastComponent raw.toList))).take 80)
      have hstart := (hshort.trans (List.take_prefix _ _)).trans (rstripBy_isPrefix isDotOrBlank _)
      refine traceFileName_eq_self hspace hne ?_ ?_ ?_ (rstripBy_idem _ _)
      · intro c hc
        exact isNameChar_of_mem_subBad ((List.dropWhile_suffix _).subset (hstart.subset hc))
      · exact le_trans hshort.length_le (List.length_take_le _ _)
      · refine List.dropWhile_eq_self_iff.2 fun hl => ?_
        rw [hstart.getElem hl]
        exact List.dropWhile_get_zero_not _ _ _

/-- A mapping that `from_dict` has made is kept by a copy. -/
theorem MappingConfig.kept_of_fromDict {isFile : Json → Bool} {newId : String} {v : Json}
    {c : MappingConfig} (hnew : newId ≠ "")
    (h : MappingConfig.fromDict ⟨py, isFile⟩ newId v = .ok c) : c.Kept ⟨py, isFile⟩ := by
  obtain ⟨d, -, hread⟩ := MappingConfig.fromDict_eq_ok h
  obtain ⟨⟨idle, hidle⟩, name, hname⟩ := MappingOptions.fromDict_eq_ok hread.options
  refine ⟨?_, legacySeconds_idem hidle, ?_⟩
  · rw [hread.id, orElse]
    split
    · assumption
    · simpa [Json.truthy] using hnew
  · rw [hname]
    exact traceFileName_idem hspace name

end

end Ser2Net.Config
