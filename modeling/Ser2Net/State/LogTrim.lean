import Ser2Net.Lib.PyValue
import Ser2Net.Lib.SplitLines
import Ser2Net.Lib.Utf8Cut

namespace Ser2Net.State.LogTrim

open Ser2Net.Lib Ser2Net.Lib.PyText Ser2Net.Lib.Latin1 Ser2Net.Lib.Utf8Cut

/-!
# State — trimming a mapping's log (`_trim_log_file` of `state.py`)

The hourly maintenance drops the old lines at the front of a log and, when the rest is still too
long, all but its last bytes, from the next line on.

* `trimLogFile` — what the file is rewritten to, or that it stays as it is;
* `Trimmed` — what trimming is for;
* `firstRecent_eq` — the loop over the lines finds the longest old prefix;
* `sizeCap_spec` — the cut at the size;
* `trimmed_iff` — the file is trimmed exactly when the clock can tell the time of every line that
  the loop looks at.

The file is one that can be read and written.
-/

abbrev Text := List Char

/-- The platform's clock: `time.strptime(text, "%Y-%m-%d %H:%M:%S")` and `time.mktime`, which
    raise `ValueError` for a text that is no time and may raise `OverflowError` for a time that
    the platform cannot represent. -/
structure Calendar (Tm T : Type) where
  strptime : Text → PyM Empty Tm
  mktime : Tm → PyM Empty T

variable {Tm T : Type} (cal : Calendar Tm T)

/-- `_parse_log_ts`. -/
def parseLogTs (line : Text) : PyM Empty (Option T) :=
  match (cal.strptime (line.take 19)).bind cal.mktime with
  | .ok ts => .ok (some ts)
  | .error e => if e.isValueError then .ok none else .error e

variable [LinearOrder T] (cutoff : T)

/-- The loop over the lines: the index `start`. -/
def firstRecent : Nat → List Text → PyM Empty Nat
  | i, [] => .ok i
  | i, ln :: rest =>
    match parseLogTs cal ln with
    | .error e => .error e
    | .ok none => .ok i
    | .ok (some ts) => if cutoff ≤ ts then .ok i else firstRecent (i + 1) rest

/-- The size cap: the last bytes, from behind their first newline on. -/
def sizeCap (maxBytes : Nat) (data : Text) : Text :=
  let encoded := encode data
  if encoded.length > maxBytes then
    let text := decodeIgnore (lastBytes maxBytes encoded)
    match text.idxOf? '\n' with
    | some nl => text.drop (nl + 1)
    | none => text
  else data

/-- `_trim_log_file`: the new content of the file, `none` when it is left untouched. -/
def trimLogFile (content : Text) (maxBytes : Nat) : PyM Empty (Option Text) :=
  if content = [] then .ok none
  else
    let lines := splitLinesKeep content
    match firstRecent cal cutoff 0 lines with
    | .error e => .error e
    | .ok start =>
      let data := sizeCap maxBytes (lines.drop start).flatten
      .ok (if data = content then none else some data)

/-! ### What trimming is for -/

/-- The line carries a timestamp older than the cutoff. -/
def older (line : Text) : Bool :=
  match parseLogTs cal line with
  | .ok (some ts) => ts < cutoff
  | _ => false

/-- The content without the longest prefix of old lines. -/
def rest (content : Text) : Text :=
  ((splitLinesKeep content).dropWhile (older cal cutoff)).flatten

/-- A text within its size: all of it, or else from behind the first newline of its last bytes,
    or the whole characters in them when they have no newline. -/
structure Capped (maxBytes : Nat) (data after : Text) : Prop where
  fits : (encode data).length ≤ maxBytes → after = data
  suffix : after <:+ data
  size : (encode after).length ≤ maxBytes
  newline : maxBytes < (encode data).length → ∀ pre post,
    lastBytes maxBytes (encode data) = pre ++ 0x0a :: post → 0x0a ∉ pre → encode after = post
  longest : maxBytes < (encode data).length → 0x0a ∉ lastBytes maxBytes (encode data) →
    ∀ more, more <:+ data → (encode more).length ≤ maxBytes → more <:+ after

/-- What the log is after trimming: without its old lines, within its size, and rewritten only
    when that is not what it was. -/
structure Trimmed (content : Text) (maxBytes : Nat) (result : Option Text) : Prop where
  suffix : result.getD content <:+ content
  capped : Capped maxBytes (rest cal cutoff content) (result.getD content)
  untouched : result.getD content = content → result = none

/-- The clock can tell the time of every line up to the first that is not old. -/
def Readable (lines : List Text) : Prop :=
  ∀ pre line post, lines = pre ++ line :: post → (∀ l ∈ pre, older cal cutoff l = true) →
    ∃ ts, parseLogTs cal line = .ok ts

/-! ### The age -/

variable {cal cutoff}

theorem readable_cons {line : Text} {lines : List Text} :
    Readable cal cutoff (line :: lines) ↔
      (∃ ts, parseLogTs cal line = .ok ts) ∧
        (older cal cutoff line = true → Readable cal cutoff lines) := by
  constructor
  · intro h
    refine ⟨h [] line lines rfl (fun l hl => absurd hl List.not_mem_nil), fun hold => ?_⟩
    intro pre l post heq hpre
    refine h (line :: pre) l post (by rw [heq]; rfl) fun l' hl' => ?_
    rcases List.mem_cons.1 hl' with rfl | hl'
    · exact hold
    · exact hpre l' hl'
  · rintro ⟨hline, hrest⟩ pre l post heq hpre
    cases pre with
    | nil =>
      obtain ⟨rfl, rfl⟩ := List.cons.inj heq
      exact hline
    | cons p pre =>
      obtain ⟨rfl, rfl⟩ := List.cons.inj heq
      exact hrest (hpre _ List.mem_cons_self) pre l post rfl
        fun l' hl' => hpre l' (List.mem_cons_of_mem _ hl')

/-- A line that is not old ends the search. -/
theorem readable_of_recent {line : Text} {lines : List Text} {ts : Option T}
    (hts : parseLogTs cal line = .ok ts) (hrecent : older cal cutoff line = false) :
    Readable cal cutoff (line :: lines) := by
  refine readable_cons.2 ⟨⟨ts, hts⟩, fun hold => ?_⟩
  rw [hrecent] at hold
  cases hold

/-- The loop finds the longest prefix of old lines, and raises only where the clock does. -/
theorem firstRecent_eq (i : Nat) (lines : List Text) :
    (Readable cal cutoff lines → firstRecent cal cutoff i lines =
      .ok (i + (lines.takeWhile (older cal cutoff)).length)) ∧
      (¬ Readable cal cutoff lines → ∃ e, firstRecent cal cutoff i lines = .error e) := by
  induction lines generalizing i with
  | nil =>
    refine ⟨fun _ => rfl, fun h => absurd ?_ h⟩
    intro pre line post heq
    exact absurd heq (by simp)
  | cons line lines ih =>
    rw [firstRecent]
    cases hts : parseLogTs cal line with
    | error e =>
      refine ⟨fun h => ?_, fun _ => ⟨e, rfl⟩⟩
      obtain ⟨⟨ts, h⟩, -⟩ := readable_cons.1 h
      rw [hts] at h
      cases h
    | ok ts =>
      cases ts with
      | none =>
        -- a line without a timestamp ends the search, as a recent one does
        have hrecent : older cal cutoff line = false := by rw [older, hts]
        refine ⟨fun _ => ?_, fun h => absurd (readable_of_recent hts hrecent) h⟩
        rw [List.takeWhile_cons_of_neg (by simp [hrecent])]
        rfl
      | some ts =>
        have holder : older cal cutoff line = decide (ts < cutoff) := by rw [older, hts]
        dsimp only
        split
        · next hle =>
          have hrecent : older cal cutoff line = false := by
            rw [holder, decide_eq_false_iff_not]
            exact not_lt.2 hle
          refine ⟨fun _ => ?_, fun h => absurd (readable_of_recent hts hrecent) h⟩
          rw [List.takeWhile_cons_of_neg (by simp [hrecent])]
          rfl
        · next hle =>
          have hold : older cal cutoff line = true := by
            rw [holder, decide_eq_true_eq]
            exact not_le.1 hle
          obtain ⟨hok, herror⟩ := ih (i + 1)
          refine ⟨fun h => ?_, fun h => herror fun h' => h (readable_cons.2 ⟨⟨_, hts⟩, fun _ => h'⟩)⟩
          rw [hok ((readable_cons.1 h).2 hold), List.takeWhile_cons_of_pos hold, List.length_cons,
            Nat.add_assoc, Nat.add_comm 1]

/-! ### The size -/

/-- A newline that was found splits a text. -/
theorem split_of_idxOf? {text : Text} {nl : Nat} (h : text.idxOf? '\n' = some nl) :
    text = text.take nl ++ '\n' :: text.drop (nl + 1) ∧ '\n' ∉ text.take nl := by
  obtain ⟨hlt, hget, hbefore⟩ := List.idxOf?_eq_some_iff.1 h
  refine ⟨?_, fun hmem => ?_⟩
  · rw [← hget, ← List.drop_eq_getElem_cons hlt, List.take_append_drop]
  · obtain ⟨j, hj, hjget⟩ := List.mem_iff_getElem.1 hmem
    rw [List.getElem_take] at hjget
    exact hbefore j (by simp at hj; omega) hjget

/-- The last bytes of a text: what is left of a broken character, which is no newline, and then
    the most whole characters that fit. -/
structure Cut (maxBytes : Nat) (data pre text : Text) (broken : List UInt8) : Prop where
  split : data = pre ++ text
  bytes : lastBytes maxBytes (encode data) = broken ++ encode text
  noNewline : 0x0a ∉ broken
  fits : (encode text).length ≤ maxBytes
  longest : ∀ pre' post', data = pre' ++ post' → (encode post').length ≤ maxBytes →
    pre.length ≤ pre'.length

theorem cut_lastBytes {maxBytes : Nat} (hmax : 1 ≤ maxBytes) {data : Text}
    (hlong : maxBytes < (encode data).length) :
    ∃ pre broken, Cut maxBytes data pre
      (decodeIgnore (lastBytes maxBytes (encode data))) broken := by
  have hdrop : lastBytes maxBytes (encode data) =
      (encode data).drop ((encode data).length - maxBytes) := if_neg (by omega)
  obtain ⟨pre, hsplit, hcover, hfirst, hshort⟩ :=
    decodeIgnore_drop data (k := (encode data).length - maxBytes) (Nat.sub_le _ _)
  rw [hdrop]
  generalize decodeIgnore ((encode data).drop ((encode data).length - maxBytes)) = text at *
  have hbytes : encode data = encode pre ++ encode text := by rw [hsplit, encode_append]
  have hlen : (encode data).length = (encode pre).length + (encode text).length := by
    rw [hbytes, List.length_append]
  refine ⟨pre, (encode pre).drop ((encode data).length - maxBytes), hsplit, ?_, ?_, by omega, ?_⟩
  · rw [hdrop, ← List.drop_append_of_le_length hcover, ← hbytes]
  · exact fun h => hfirst _ h (by decide)
  · intro pre' post' heq hle
    refine hshort pre' post' heq ?_
    have hlen' : (encode data).length = (encode pre').length + (encode post').length := by
      rw [heq, encode_append, List.length_append]
    omega

/-- What is behind the first occurrence of a byte. -/
theorem behind_first {b : UInt8} {x x' z z' : List UInt8} (hx : b ∉ x) (hx' : b ∉ x')
    (h : x ++ b :: z = x' ++ b :: z') : z = z' := by
  have hdrop : ∀ {x z : List UInt8}, b ∉ x → (x ++ b :: z).dropWhile (· ≠ b) = b :: z := by
    intro x z hx
    have hall : ∀ a ∈ x, decide (a ≠ b) = true := fun a ha =>
      decide_eq_true fun hab => hx (hab ▸ ha)
    rw [List.dropWhile_append_of_pos hall, List.dropWhile_cons_of_neg (by simp)]
  have hsame := congrArg (List.dropWhile (· ≠ b)) h
  rw [hdrop hx, hdrop hx'] at hsame
  exact (List.cons.inj hsame).2

section
variable {maxBytes : Nat} {data pre text : Text} {broken : List UInt8}

/-- With a newline in its last bytes a text is kept from behind the first of them on. -/
theorem Cut.capped_newline (h : Cut maxBytes data pre text broken)
    (hlong : maxBytes < (encode data).length) {nl : Nat} (hfind : text.idxOf? '\n' = some nl) :
    Capped maxBytes data (text.drop (nl + 1)) := by
  obtain ⟨hline, hbefore⟩ := split_of_idxOf? hfind
  have hencode : encode text =
      encode (text.take nl) ++ 0x0a :: encode (text.drop (nl + 1)) := by
    conv_lhs => rw [hline]
    rw [encode_append, encode_cons]
    rfl
  have hdrop : text.drop (nl + 1) <:+ text := List.drop_suffix ..
  refine ⟨fun h => absurd hlong (Nat.not_lt_of_le h), hdrop.trans ⟨pre, h.split.symm⟩, ?_, ?_, ?_⟩
  · have hfits := h.fits
    rw [hencode, List.length_append, List.length_cons] at hfits
    omega
  · intro _ before post heq hnot
    -- the broken character has no newline, so the first of the text is the first of the bytes
    rw [h.bytes, hencode, ← List.append_assoc] at heq
    have hfirst : (0x0a : UInt8) ∉ broken ++ encode (text.take nl) := by
      rw [List.mem_append, mem_encode_newline]
      exact fun hmem => hmem.elim h.noNewline hbefore
    exact behind_first hfirst hnot heq
  · intro _ hnone
    rw [h.bytes, hencode] at hnone
    exact absurd (by simp) hnone

/-- Without a newline in its last bytes the whole characters of them are kept. -/
theorem Cut.capped_whole (h : Cut maxBytes data pre text broken)
    (hlong : maxBytes < (encode data).length) (hfind : text.idxOf? '\n' = none) :
    Capped maxBytes data text := by
  have hnone : '\n' ∉ text := List.idxOf?_eq_none_iff.1 hfind
  refine ⟨fun hle => absurd hlong (Nat.not_lt_of_le hle), ⟨pre, h.split.symm⟩, h.fits, ?_, ?_⟩
  · intro _ before post heq
    have hmem : (0x0a : UInt8) ∈ broken ++ encode text := by
      rw [← h.bytes, heq]
      simp
    rw [List.mem_append, mem_encode_newline] at hmem
    exact (hmem.elim h.noNewline hnone).elim
  · rintro _ _ more ⟨pre', heq⟩ hmore
    have hle := h.longest pre' more heq.symm hmore
    have hlen := congrArg List.length (heq.trans h.split)
    rw [List.length_append, List.length_append] at hlen
    exact List.suffix_of_suffix_length_le ⟨pre', heq⟩ ⟨pre, h.split.symm⟩ (by omega)

end

/-- The size cap keeps the end of a text, from a line on where its last bytes have one. -/
theorem sizeCap_spec {maxBytes : Nat} (hmax : 1 ≤ maxBytes) (data : Text) :
    Capped maxBytes data (sizeCap maxBytes data) := by
  unfold sizeCap
  dsimp only
  by_cases hlong : maxBytes < (encode data).length
  · rw [if_pos hlong]
    obtain ⟨pre, broken, hcut⟩ := cut_lastBytes hmax hlong
    generalize decodeIgnore (lastBytes maxBytes (encode data)) = text at *
    cases hfind : text.idxOf? '\n' with
    | some nl => exact hcut.capped_newline hlong hfind
    | none => exact hcut.capped_whole hlong hfind
  · rw [if_neg hlong]
    exact ⟨fun _ => rfl, List.suffix_rfl, Nat.le_of_not_lt hlong, fun h => absurd h hlong,
      fun h => absurd h hlong⟩

/-! ### The file -/

/-- **Trimming a log.**  The file is trimmed, or left untouched when there is nothing to drop,
    exactly when the clock can tell the time of every line up to the first that is not old. -/
theorem trimmed_iff {maxBytes : Nat} (hmax : 1 ≤ maxBytes) (content : Text) :
    (∃ result, trimLogFile cal cutoff content maxBytes = .ok result ∧
        Trimmed cal cutoff content maxBytes result) ↔
      Readable cal cutoff (splitLinesKeep content) := by
  unfold trimLogFile
  split
  · next hnil =>
    subst hnil
    have hrest : rest cal cutoff [] = [] := rfl
    refine ⟨fun _ pre line post heq => absurd heq (by simp [splitLinesKeep, splitLinesKeepFrom]),
      fun _ => ⟨none, rfl, List.suffix_rfl, ?_, fun _ => rfl⟩⟩
    have hcap := sizeCap_spec hmax []
    rw [hrest]
    rwa [sizeCap, if_neg (by simp [encode])] at hcap
  · dsimp only
    -- the loop reads timestamps up to the first recent line
    obtain ⟨hok, herror⟩ := @firstRecent_eq _ _ cal _ cutoff 0 (splitLinesKeep content)
    constructor
    · rintro ⟨result, hresult, -⟩
      by_contra hunreadable
      obtain ⟨e, he⟩ := herror hunreadable
      rw [he] at hresult
      cases hresult
    · intro hreadable
      rw [hok hreadable]
      have hdrop : (splitLinesKeep content).drop (0 + ((splitLinesKeep content).takeWhile
          (older cal cutoff)).length) = (splitLinesKeep content).dropWhile (older cal cutoff) := by
        have hleft := @List.drop_left _ ((splitLinesKeep content).takeWhile (older cal cutoff))
          ((splitLinesKeep content).dropWhile (older cal cutoff))
        rwa [List.takeWhile_append_dropWhile, ← Nat.zero_add (List.length _)] at hleft
      dsimp only
      rw [hdrop, ← rest]
      have hcap := sizeCap_spec hmax (rest cal cutoff content)
      have hsuffix : rest cal cutoff content <:+ content := by
        refine ⟨((splitLinesKeep content).takeWhile (older cal cutoff)).flatten, ?_⟩
        rw [rest, ← List.flatten_append, List.takeWhile_append_dropWhile, flatten_splitLinesKeep]
      refine ⟨_, rfl, ?_⟩
      split
      -- nothing is cut off, so the file is not written again
      · next hsame =>
        rw [hsame] at hcap
        exact ⟨List.suffix_rfl, hcap, fun _ => rfl⟩
      · next hchanged => exact ⟨hcap.suffix.trans hsuffix, hcap, fun h => absurd h hchanged⟩

/-! ### A clock that starts in 1970 -/

/-- A time as `strptime` returns it. -/
structure StructTime where
  year : Nat
  month : Nat
  day : Nat
  seconds : Nat

/-- `strptime` on the times that the log writes. -/
def strptimeLog : Text → PyM Empty StructTime
  | [y₁, y₂, y₃, y₄, '-', m₁, m₂, '-', d₁, d₂, ' ', h₁, h₂, ':', n₁, n₂, ':', s₁, s₂] =>
    let value := fun digits => Nat.ofDigitChars 10 digits 0
    if [y₁, y₂, y₃, y₄, m₁, m₂, d₁, d₂, h₁, h₂, n₁, n₂, s₁, s₂].all Char.isDigit then
      .ok ⟨value [y₁, y₂, y₃, y₄], value [m₁, m₂], value [d₁, d₂],
        value [h₁, h₂] * 3600 + value [n₁, n₂] * 60 + value [s₁, s₂]⟩
    else .error .valueError
  | _ => .error .valueError

/-- `mktime` in UTC, on a platform whose times start in 1970. -/
def mktime1970 (t : StructTime) : PyM Empty Nat :=
  if t.year < 1970 then .error .overflowError
  else
    let y := if t.month ≤ 2 then t.year - 1 else t.year
    let m := if t.month ≤ 2 then t.month + 9 else t.month - 3
    let days := y * 365 + y / 4 - y / 100 + y / 400 + (153 * m + 2) / 5 + t.day - 1 - 719468
    .ok (days * 86400 + t.seconds)

def calendar1970 : Calendar StructTime Nat := ⟨strptimeLog, mktime1970⟩

example : parseLogTs calendar1970 "2001-09-09 01:46:40 up".toList = .ok (some 1000000000) := by
  decide +kernel

/-- An old line is dropped, and of the rest the last line is kept. -/
theorem trimmed_iff_twoLines :
    ∃ result, trimLogFile calendar1970 1000000000
        "2001-09-09 01:46:39 a\n2001-09-09 01:46:40 b\nc\n".toList 5 = .ok result ∧
      Trimmed calendar1970 1000000000
        "2001-09-09 01:46:39 a\n2001-09-09 01:46:40 b\nc\n".toList 5 result := by
  refine (trimmed_iff (by decide) _).2 ?_
  have hlines : splitLinesKeep "2001-09-09 01:46:39 a\n2001-09-09 01:46:40 b\nc\n".toList =
      ["2001-09-09 01:46:39 a\n".toList, "2001-09-09 01:46:40 b\n".toList, "c\n".toList] := by
    decide +kernel
  rw [hlines, readable_cons, readable_cons]
  refine ⟨⟨some 999999999, by decide +kernel⟩, fun _ => ⟨⟨some 1000000000, by decide +kernel⟩, fun h => ?_⟩⟩
  exact absurd h (by decide +kernel)

/-- A line from before 1970: nothing is trimmed. -/
theorem not_trimmed_before_1970 :
    ¬ ∃ result, trimLogFile calendar1970 1000000000 "1969-12-31 23:59:59 a\n".toList 100 = .ok result ∧
      Trimmed calendar1970 1000000000 "1969-12-31 23:59:59 a\n".toList 100 result := by
  rintro ⟨result, hresult, -⟩
  have hraise : trimLogFile calendar1970 1000000000 "1969-12-31 23:59:59 a\n".toList 100 =
      .error .overflowError := by decide +kernel
  rw [hraise] at hresult
  cases hresult

end Ser2Net.State.LogTrim
