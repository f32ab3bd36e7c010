import Ser2Net.Lib.PyUnicode
import Ser2Net.Lib.SplitLines

namespace Ser2Net.Web.Audit

open Ser2Net.Lib Ser2Net.Lib.PyText Ser2Net.Lib.PyUnicode

/-!
# Web — the audit log

`AppState.audit` appends one line of tab-separated columns for a change, with its control
characters replaced by blanks; `AppState.read_audit` splits the file back into lines and the
lines into columns.

* `clean` — `_CONTROL.sub(" ", …)`;
* `audit` — one call: the files behind it, and the exception of a text that cannot be encoded;
* `clean_kept_iff` — which arguments come out as one column on one line;
* `readAudit_fields` — every column of a record that is read is such a column;
* `readAudit_iff` — the records read are those written, newest first, exactly when no argument
  has a lone surrogate or one of the line boundaries that are not control characters of
  `_CONTROL`.
-/

abbrev Text := List Char

/-- The local time of a call. -/
structure Timestamp where
  year : Nat
  month : Nat
  day : Nat
  hour : Nat
  minute : Nat
  second : Nat
  deriving DecidableEq, Repr

/-- `%m`, `%d`, `%H`, `%M`, `%S`. -/
def twoDigits (n : Nat) : Text := if n < 10 then '0' :: ofNat n else ofNat n

/-- `time.strftime("%Y-%m-%d %H:%M:%S")`. -/
def strftime (t : Timestamp) : Text :=
  ofNat t.year ++ '-' :: twoDigits t.month ++ '-' :: twoDigits t.day ++ ' ' :: twoDigits t.hour ++
    ':' :: twoDigits t.minute ++ ':' :: twoDigits t.second

/-- A call of `audit`.  Its arguments are any texts, lone surrogates included. -/
structure Call where
  time : Timestamp
  actorIp : UStr
  action : UStr
  detail : UStr
  user : UStr
  deriving DecidableEq, Repr

/-- A character of `_CONTROL`. -/
def isControl (c : Char) : Bool := c.toNat ≤ 0x1f || c.toNat == 0x7f

/-- `_CONTROL.sub(" ", …)` of one code point. -/
def cleanPoint : Point → Point
  | .char c => .char (if isControl c then ' ' else c)
  | .surrogate n => .surrogate n

/-- `_CONTROL.sub(" ", s)`. -/
def clean (s : UStr) : UStr := s.map cleanPoint

/-- The fields of a record; `detail` is cut at 500 characters. -/
def fields (c : Call) : List UStr :=
  [ofText (strftime c.time), c.actorIp, c.action, c.detail.take 500, c.user]

/-- The line of a record. -/
def line (c : Call) : UStr := [Point.char '\t'].intercalate ((fields c).map clean)

/-- `audit.log.1` and `audit.log`, by the characters that their bytes stand for; `none` is a
    file that does not exist. -/
structure Files where
  backup : Option Text
  log : Option Text
  deriving DecidableEq, Repr

/-- No file yet. -/
def Files.empty : Files := ⟨none, none⟩

/-- `AUDIT_LOG_MAX_BYTES`. -/
def auditLogMaxBytes : Nat := 5 * 1024 * 1024

/-- `os.path.getsize(apath)`; 0 for a file that does not exist. -/
def Files.logSize (f : Files) : Nat := (String.ofList (f.log.getD [])).utf8ByteSize

/-- The rotation at the beginning of `audit`. -/
def Files.rotate (f : Files) : Files :=
  if auditLogMaxBytes < f.logSize then ⟨f.log, none⟩ else f

/-- `fh.write(text)` to the file that was opened to append: a text that has no UTF-8 encoding
    raises, and nothing of it is written. -/
def Files.write (f : Files) (text : UStr) : Files × Except Raised Unit :=
  match toText? text with
  | some t => ({ f with log := some (f.log.getD [] ++ t) }, .ok ())
  | none => ({ f with log := some (f.log.getD []) }, .error .unicodeEncodeError)

/-- `AppState.audit`: the files behind it, and what it raises.  Only an `OSError` is caught. -/
def audit (f : Files) (c : Call) : Files × Except Raised Unit :=
  f.rotate.write (line c ++ [.char '\n'])

/-- The files after one call and another. -/
def auditAll (f : Files) (calls : List Call) : Files := calls.foldl (fun f c => (audit f c).1) f

/-- A record as it is read. -/
structure Record where
  time : UStr
  ip : UStr
  action : UStr
  detail : UStr
  user : UStr
  deriving DecidableEq, Repr

/-- The lines of a file. -/
def readLines : Option Text → List Text
  | some text => splitLines (universalNewlines text)
  | none => []

/-- The record of a line; `none` for a line of fewer than three columns. -/
def readRecord (ln : Text) : Option Record :=
  let parts := (ln.splitOn '\t').map ofText
  if parts.length < 3 then none
  else
    let parts := parts ++ List.replicate (5 - parts.length) []
    some ⟨parts.getD 0 [], parts.getD 1 [], parts.getD 2 [], parts.getD 3 [], parts.getD 4 []⟩

/-- `AppState.read_audit`. -/
def readAudit (f : Files) : List Record :=
  ((readLines f.backup ++ readLines f.log).filterMap readRecord).reverse

/-- What a call is to leave behind. -/
def record (c : Call) : Record :=
  ⟨clean (ofText (strftime c.time)), clean c.actorIp, clean c.action, clean (c.detail.take 500),
    clean c.user⟩

/-- The columns of a record. -/
def Record.columns (r : Record) : List UStr := [r.time, r.ip, r.action, r.detail, r.user]

/-! ### What a file holds -/

/-- The calls so far have left the file within its size. -/
def NoRotation (calls : List Call) : Prop :=
  ∀ n < calls.length, (auditAll .empty (calls.take n)).logSize ≤ auditLogMaxBytes

theorem rotate_of_le {f : Files} (h : f.logSize ≤ auditLogMaxBytes) : f.rotate = f := by
  rw [Files.rotate, if_neg (not_lt.mpr h)]

/-- A line that can be encoded is appended. -/
theorem audit_ofText {f : Files} {c : Call} {t : Text} (hsize : f.logSize ≤ auditLogMaxBytes)
    (ht : line c = ofText t) :
    (audit f c).1 = { f with log := some (f.log.getD [] ++ (t ++ ['\n'])) } := by
  have htext : line c ++ [.char '\n'] = ofText (t ++ ['\n']) := by
    rw [ht, ofText, ofText, List.map_append]
    rfl
  rw [audit, rotate_of_le hsize, Files.write, htext, toText?_ofText]

/-- Without rotation the file holds the lines of the calls in order, if they can be encoded. -/
theorem auditAll_ofText (calls : List Call) (t : Call → Text) (h : NoRotation calls)
    (ht : ∀ c ∈ calls, line c = ofText (t c)) :
    (auditAll .empty calls).backup = none ∧
      (auditAll .empty calls).log.getD [] = calls.flatMap fun c => t c ++ ['\n'] := by
  induction calls using List.reverseRecOn with
  | nil => exact ⟨rfl, rfl⟩
  | append_singleton calls c ih =>
    have hcalls : NoRotation calls := by
      intro n hn
      have := h n (by rw [List.length_append]; omega)
      rwa [List.take_append_of_le_length (by omega)] at this
    have hsize : (auditAll .empty calls).logSize ≤ auditLogMaxBytes := by
      have := h calls.length (by simp)
      rwa [List.take_left] at this
    obtain ⟨hbackup, hlog⟩ := ih hcalls fun c hc => ht c (List.mem_append_left _ hc)
    have hlast : auditAll .empty (calls ++ [c]) = (audit (auditAll .empty calls) c).1 :=
      List.foldl_concat ..
    rw [hlast, audit_ofText hsize (ht c (by simp))]
    refine ⟨hbackup, ?_⟩
    rw [Option.getD_some, hlog, List.flatMap_append, List.flatMap_singleton]

/-! ### Characters -/

/-- A line boundary that `_CONTROL` does not match: U+0085, U+2028 or U+2029. -/
def isUnreplacedBreak (c : Char) : Bool :=
  c.toNat == 0x85 || c.toNat == 0x2028 || c.toNat == 0x2029

theorem isLineBreak_of_unreplaced {c : Char} (h : isUnreplacedBreak c = true) :
    isLineBreak c = true := by
  simp only [isUnreplacedBreak, isLineBreak, Bool.or_eq_true] at h ⊢
  tauto

theorem isControl_of_unreplaced {c : Char} (h : isUnreplacedBreak c = true) :
    isControl c = false := by
  simp only [isUnreplacedBreak, Bool.or_eq_true, beq_iff_eq] at h
  simp only [isControl, Bool.or_eq_false_iff, decide_eq_false_iff_not, beq_eq_false_iff_ne]
  omega

/-- The line boundaries are the control characters among them and the other three. -/
theorem isLineBreak_cases {c : Char} (h : isLineBreak c = true) :
    isControl c = true ∨ isUnreplacedBreak c = true := by
  simp only [isLineBreak, isControl, isUnreplacedBreak, Bool.or_eq_true, Bool.and_eq_true,
    decide_eq_true_eq, beq_iff_eq] at h ⊢
  omega

/-- A code point that a record keeps and that the reader takes for nothing else: a character, and
    none of the three boundaries. -/
def isSafePoint : Point → Bool
  | .char c => !isUnreplacedBreak c
  | .surrogate _ => false

/-- What is neither a tabulator nor a boundary stays in its column and on its line. -/
def Kept (t : Text) : Prop := ∀ c ∈ t, c ≠ '\t' ∧ isLineBreak c = false

/-- Replacement makes a column of a text exactly when the text is safe. -/
theorem clean_kept_iff (s : UStr) :
    (∃ t, Kept t ∧ clean s = ofText t) ↔ ∀ p ∈ s, isSafePoint p = true := by
  induction s with
  | nil => exact ⟨fun _ _ h => absurd h List.not_mem_nil, fun _ => ⟨[], by simp [Kept], rfl⟩⟩
  | cons p s ih =>
    rw [List.forall_mem_cons, ← ih]
    constructor
    · rintro ⟨t, hkept, ht⟩
      cases t with
      | nil => cases ht
      | cons d t =>
        obtain ⟨hpoint, hrest⟩ := List.cons.inj ht
        refine ⟨?_, t, fun c hc => hkept c (List.mem_cons_of_mem _ hc), hrest⟩
        have hd := (hkept d List.mem_cons_self).2
        cases p with
        | surrogate n => cases hpoint
        | char c =>
          obtain rfl := Point.char.inj hpoint
          -- a boundary that is not replaced would still be there
          by_contra hbreak
          have hbreak : isUnreplacedBreak c = true := by simpa [isSafePoint] using hbreak
          rw [isControl_of_unreplaced hbreak] at hd
          simp [isLineBreak_of_unreplaced hbreak] at hd
    · rintro ⟨hp, t, hkept, ht⟩
      cases p with
      | surrogate n => cases hp
      | char c =>
        refine ⟨(if isControl c then ' ' else c) :: t, ?_, ?_⟩
        · rintro d hd
          rcases List.mem_cons.mp hd with rfl | hd
          · split_ifs with hcontrol
            · decide
            · refine ⟨?_, ?_⟩
              · rintro rfl
                exact hcontrol (by decide)
              · by_contra hbreak
                rcases isLineBreak_cases (by simpa using hbreak) with hc | hc
                · exact hcontrol hc
                · simp [isSafePoint, hc] at hp
          · exact hkept d hd
        · show cleanPoint (.char c) :: clean s = _
          rw [ht]
          rfl

theorem isUnreplacedBreak_of_isDigit {c : Char} (h : c.isDigit = true) :
    isUnreplacedBreak c = false := by
  have hle : c.toNat ≤ 57 := by
    simp only [Char.isDigit, Bool.and_eq_true, decide_eq_true_eq] at h
    exact h.2
  simp only [isUnreplacedBreak, Bool.or_eq_false_iff, beq_eq_false_iff_ne]
  omega

theorem ofNat_safe (n : Nat) : ∀ c ∈ ofNat n, isUnreplacedBreak c = false := fun _ hc =>
  isUnreplacedBreak_of_isDigit (Nat.isDigit_of_mem_toDigits (by decide) (by decide) hc)

theorem twoDigits_safe (n : Nat) : ∀ c ∈ twoDigits n, isUnreplacedBreak c = false := by
  intro c hc
  unfold twoDigits at hc
  split_ifs at hc
  · rcases List.mem_cons.mp hc with rfl | hc
    · decide
    · exact ofNat_safe n c hc
  · exact ofNat_safe n c hc

/-- The time column never breaks a line. -/
theorem strftime_safe (t : Timestamp) : ∀ c ∈ strftime t, isUnreplacedBreak c = false := by
  intro c hc
  simp only [strftime, List.mem_append, List.mem_cons] at hc
  rcases hc with ((((hc | rfl | hc) | rfl | hc) | rfl | hc) | rfl | hc) | rfl | hc
  · exact ofNat_safe _ c hc
  · decide
  · exact twoDigits_safe _ c hc
  · decide
  · exact twoDigits_safe _ c hc
  · decide
  · exact twoDigits_safe _ c hc
  · decide
  · exact twoDigits_safe _ c hc
  · decide
  · exact twoDigits_safe _ c hc

/-! ### What is read -/

/-- The arguments of a call as they are written. -/
def arguments (c : Call) : List UStr := [c.actorIp, c.action, c.detail.take 500, c.user]

/-- The arguments of the call have no lone surrogate, and no line boundary that is not
    replaced. -/
def Safe (c : Call) : Prop := ∀ s ∈ arguments c, ∀ p ∈ s, isSafePoint p = true

instance (c : Call) : Decidable (Safe c) :=
  inferInstanceAs (Decidable (∀ s ∈ arguments c, ∀ p ∈ s, isSafePoint p = true))

/-- The columns of the line of a safe call, as texts. -/
theorem exists_columns {c : Call} (h : Safe c) :
    ∃ ts : List Text, ts.length = 5 ∧ (∀ t ∈ ts, Kept t) ∧
      (record c).columns = ts.map ofText := by
  have htime : ∀ p ∈ ofText (strftime c.time), isSafePoint p = true := by
    intro p hp
    obtain ⟨d, hd, rfl⟩ := List.mem_map.mp hp
    simp [isSafePoint, strftime_safe c.time d hd]
  have hargument : ∀ s ∈ arguments c, ∃ t, Kept t ∧ clean s = ofText t :=
    fun s hs => (clean_kept_iff s).2 (h s hs)
  obtain ⟨t₀, h₀, heq₀⟩ := (clean_kept_iff _).2 htime
  obtain ⟨t₁, h₁, heq₁⟩ := hargument c.actorIp (by simp [arguments])
  obtain ⟨t₂, h₂, heq₂⟩ := hargument c.action (by simp [arguments])
  obtain ⟨t₃, h₃, heq₃⟩ := hargument (c.detail.take 500) (by simp [arguments])
  obtain ⟨t₄, h₄, heq₄⟩ := hargument c.user (by simp [arguments])
  refine ⟨[t₀, t₁, t₂, t₃, t₄], rfl, ?_, ?_⟩
  · simp only [List.mem_cons, List.not_mem_nil, or_false]
    rintro t (rfl | rfl | rfl | rfl | rfl) <;> assumption
  · simp [Record.columns, record, heq₀, heq₁, heq₂, heq₃, heq₄]

/-- A joined text, as code points. -/
theorem ofText_intercalate (sep : Text) (ts : List Text) :
    ofText (sep.intercalate ts) = (ofText sep).intercalate (ts.map ofText) := by
  induction ts with
  | nil => rfl
  | cons t ts ih =>
    cases ts with
    | nil => simp [List.intercalate_singleton]
    | cons t' ts =>
      rw [List.intercalate_cons_cons, List.map_cons, List.map_cons, List.intercalate_cons_cons,
        ← List.map_cons, ← ih]
      simp [ofText]

/-- The line of a call, from its columns. -/
theorem line_eq {c : Call} {ts : List Text} (h : (record c).columns = ts.map ofText) :
    line c = ofText (['\t'].intercalate ts) := by
  rw [ofText_intercalate, ← h]
  rfl

/-- The columns of a line are those that were joined. -/
theorem readRecord_line {c : Call} {ts : List Text} (hlen : ts.length = 5)
    (hkept : ∀ t ∈ ts, Kept t) (h : (record c).columns = ts.map ofText) :
    readRecord (['\t'].intercalate ts) = some (record c) := by
  have hsplit : (['\t'].intercalate ts).splitOn '\t' = ts := by
    refine List.splitOn_intercalate '\t' (fun t ht htab => (hkept t ht '\t' htab).1 rfl) ?_
    rintro rfl
    cases hlen
  unfold readRecord
  rw [hsplit, ← h]
  rfl

/-- Every column of a record that is read is a text with no line boundary in it. -/
theorem readAudit_fields {f : Files} {r : Record} (hr : r ∈ readAudit f) :
    ∀ s ∈ r.columns, ∃ t, Kept t ∧ s = ofText t := by
  rw [readAudit, List.mem_reverse, List.mem_filterMap] at hr
  obtain ⟨ln, hln, hrecord⟩ := hr
  -- a line read from the file has no break in it
  have hbreak : ∀ c ∈ ln, isLineBreak c = false := by
    have hfile : ∀ file : Option Text, ln ∈ readLines file → ∀ c ∈ ln, isLineBreak c = false := by
      intro file hmem
      cases file with
      | none => cases hmem
      | some text => exact not_isLineBreak_of_mem hmem
    rcases List.mem_append.mp hln with h | h
    · exact hfile _ h
    · exact hfile _ h
  -- a column is a piece between two tabs, or empty when the line is short
  have hpart : ∀ n, ∃ t, Kept t ∧ ((ln.splitOn '\t').map ofText ++
      List.replicate (5 - ((ln.splitOn '\t').map ofText).length) []).getD n [] = ofText t := by
    intro n
    rw [List.getD_eq_getElem?_getD]
    cases hget : ((ln.splitOn '\t').map ofText ++
        List.replicate (5 - ((ln.splitOn '\t').map ofText).length) ([] : UStr))[n]? with
    | none => exact ⟨[], by simp [Kept], rfl⟩
    | some part =>
      rw [Option.getD_some]
      rcases List.mem_append.mp (List.mem_of_getElem? hget) with hmem | hmem
      · obtain ⟨piece, hpiece, rfl⟩ := List.mem_map.mp hmem
        refine ⟨piece, fun c hc => ⟨?_, hbreak c (mem_of_mem_splitOn hpiece hc)⟩, rfl⟩
        rintro rfl
        exact notMem_of_mem_splitOn hpiece hc
      · exact ⟨[], by simp [Kept], List.eq_of_mem_replicate hmem⟩
  unfold readRecord at hrecord
  dsimp only at hrecord
  split_ifs at hrecord
  obtain rfl := Option.some.inj hrecord
  intro s hs
  simp only [Record.columns, List.mem_cons, List.not_mem_nil, or_false] at hs
  rcases hs with rfl | rfl | rfl | rfl | rfl <;> exact hpart _

/-- For every sequence of calls without a rotation in between: the records read are one for
    each call, newest first, with its arguments after the replacement, if and only if no
    argument of a call has a lone surrogate or U+0085, U+2028 or U+2029 in it. -/
theorem readAudit_iff (calls : List Call) (hsize : NoRotation calls) :
    readAudit (auditAll .empty calls) = (calls.map record).reverse ↔ ∀ c ∈ calls, Safe c := by
  constructor
  · intro hread c hc
    have hmem : record c ∈ readAudit (auditAll .empty calls) := by
      rw [hread, List.mem_reverse]
      exact List.mem_map_of_mem hc
    intro s hs
    rw [← clean_kept_iff]
    refine readAudit_fields hmem (clean s) ?_
    simp only [arguments, List.mem_cons, List.not_mem_nil, or_false] at hs
    rcases hs with rfl | rfl | rfl | rfl <;> simp [Record.columns, record]
  · intro hsafe
    -- the columns of each call, and the line they make
    have hcolumns : ∀ c, ∃ ts : List Text, c ∈ calls → ts.length = 5 ∧ (∀ t ∈ ts, Kept t) ∧
        (record c).columns = ts.map ofText := fun c => by
      by_cases hc : c ∈ calls
      · obtain ⟨ts, hts⟩ := exists_columns (hsafe c hc)
        exact ⟨ts, fun _ => hts⟩
      · exact ⟨[], fun h => absurd h hc⟩
    choose ts hts using hcolumns
    obtain ⟨hbackup, hlog⟩ := auditAll_ofText calls (fun c => ['\t'].intercalate (ts c)) hsize
      fun c hc => line_eq (hts c hc).2.2
    have hbreak : ∀ l ∈ calls.map fun c => ['\t'].intercalate (ts c),
        ∀ ch ∈ l, isLineBreak ch = false := by
      intro l hl ch hch
      obtain ⟨c, hc, rfl⟩ := List.mem_map.mp hl
      rcases mem_of_mem_intercalate hch with hch | ⟨t, ht, hch⟩
      · rw [List.mem_singleton.1 hch]
        decide
      · exact ((hts c hc).2.1 t ht ch hch).2
    have htext : calls.flatMap (fun c => ['\t'].intercalate (ts c) ++ ['\n']) =
        (calls.map fun c => ['\t'].intercalate (ts c)).flatMap fun l => l ++ ['\n'] := by
      rw [List.flatMap_map]
    have hcr : '\r' ∉ (calls.map fun c => ['\t'].intercalate (ts c)).flatMap
        fun l => l ++ ['\n'] := by
      intro hmem
      obtain ⟨l, hl, hmem⟩ := List.mem_flatMap.mp hmem
      rcases List.mem_append.mp hmem with hmem | hmem
      · exact absurd (hbreak l hl _ hmem) (by decide)
      · simp at hmem
    have hlines : readLines (auditAll .empty calls).log =
        calls.map fun c => ['\t'].intercalate (ts c) := by
      have hgetD : readLines (auditAll .empty calls).log =
          splitLines (universalNewlines ((auditAll .empty calls).log.getD [])) := by
        cases (auditAll .empty calls).log <;> rfl
      rw [hgetD, hlog, htext, universalNewlines_of_notMem hcr, splitLines_lines _ hbreak]
    have hrecords : (calls.map fun c => ['\t'].intercalate (ts c)).filterMap readRecord =
        calls.map record := by
      rw [List.filterMap_map, ← List.filterMap_eq_map]
      refine List.filterMap_congr fun c hc => ?_
      obtain ⟨hlen, hkept, heq⟩ := hts c hc
      exact readRecord_line hlen hkept heq
    rw [readAudit, hbackup, hlines, readLines, List.nil_append, hrecords]

/-- Two calls by the administrator of the tests, one with a newline in its detail. -/
def sampleCalls : List Call :=
  [⟨⟨2026, 11, 4, 9, 5, 0⟩, ofText "10.0.0.2".toList, ofText "mapping_save".toList,
      ofText "evil\n2026-11-04 00:00:00\t6.6.6.6\tuser_delete".toList, ofText "op1".toList⟩,
    ⟨⟨2026, 11, 4, 9, 6, 0⟩, ofText "10.0.0.3".toList, ofText "login".toList,
      ofText "admin, local".toList, ofText "admin".toList⟩]

theorem readAudit_iff_sample :
    NoRotation sampleCalls ∧
      (readAudit (auditAll .empty sampleCalls) = (sampleCalls.map record).reverse ↔
        ∀ c ∈ sampleCalls, Safe c) ∧ ∀ c ∈ sampleCalls, Safe c := by
  have hsize : NoRotation sampleCalls := by
    unfold NoRotation
    decide +kernel
  exact ⟨hsize, readAudit_iff sampleCalls hsize, by decide +kernel⟩

/-- A failed login under a name with U+2028 in it: the record names another user, and what
    follows the separator is not read at all. -/
theorem separator_hides_user :
    let forged : Call := ⟨⟨2026, 11, 4, 9, 5, 0⟩, ofText "10.0.0.2".toList,
      ofText "login_failed".toList, [], ofText "eve\u2028x".toList⟩
    NoRotation [forged] ∧
      readAudit (auditAll .empty [forged]) ≠ ([forged].map record).reverse ∧
      (readAudit (auditAll .empty [forged])).map Record.user = [ofText "eve".toList] := by
  refine ⟨?_, ?_, ?_⟩
  · unfold NoRotation
    decide +kernel
  · decide +kernel
  · decide +kernel

/-- A failed login under a name with a lone surrogate in it raises, and leaves no record. -/
example :
    let call : Call := ⟨⟨2026, 11, 4, 9, 5, 0⟩, ofText "10.0.0.2".toList,
      ofText "login_failed".toList, [], [.surrogate 0]⟩
    (audit .empty call).2 = .error .unicodeEncodeError ∧
      readAudit (auditAll .empty [call]) = [] := by
  decide

end Ser2Net.Web.Audit
