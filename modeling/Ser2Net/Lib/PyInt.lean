import Ser2Net.Lib.PyText
import Ser2Net.Lib.Binary

namespace Ser2Net.Lib.PyText

/-!
# `int(text, 0)` and `bytes.decode("utf-8", "replace")`

The integer literals of the language, as `int` reads them with base 0: decimal, or with one of
the prefixes `0x`, `0o` and `0b`; single underscores between digits and after a prefix; a decimal
that begins with a zero is zero.

* `int0` — the conversion; `int0_chars` — what the characters of an accepted text can be;
* `decodeReplace` — the text of UTF-8 bytes, malformed ones replaced.
-/

/-! ### Integer literals -/

/-- The value of a digit below `base`: a decimal digit of any script, or a letter. -/
def digitIn (base : Nat) (c : Char) : Option Nat :=
  let v : Option Nat :=
    match digitValue c with
    | some d => some d
    | none =>
      if 'a' ≤ c ∧ c ≤ 'f' then some (c.toNat - 'a'.toNat + 10)
      else if 'A' ≤ c ∧ c ≤ 'F' then some (c.toNat - 'A'.toNat + 10)
      else none
  v.filter (· < base)

/-- Digits with single underscores between them, read after the digits `acc`. -/
def digitsFromIn (base acc : Nat) : List Char → Option Nat
  | [] => some acc
  | c :: rest =>
    match digitIn base c with
    | some d => digitsFromIn base (acc * base + d) rest
    | none =>
      match c, rest with
      | '_', d :: rest' => (digitIn base d).bind fun v => digitsFromIn base (acc * base + v) rest'
      | _, _ => none

/-- A non-empty digit string. -/
def digitsIn (base : Nat) : List Char → Option Nat
  | [] => none
  | c :: rest => (digitIn base c).bind fun v => digitsFromIn base v rest

/-- The base that a letter after a leading zero stands for. -/
def baseOf (c : Char) : Option Nat :=
  if c = 'x' ∨ c = 'X' then some 16
  else if c = 'o' ∨ c = 'O' then some 8
  else if c = 'b' ∨ c = 'B' then some 2
  else none

/-- A decimal without a prefix: digits up to the limit, and no number but zero after a zero. -/
def decimal (l : List Char) : Option Nat :=
  if maxStrDigits < l.countP (fun c => c ≠ '_') then none
  else
    (digitsIn 10 l).filter fun n => n = 0 ∨ (l.head?.bind digitValue) ≠ some 0

/-- An integer literal without its sign. -/
def literal (l : List Char) : Option Nat :=
  match l with
  | z :: c :: rest =>
    match if digitValue z = some 0 then baseOf c else none with
    | some base =>
      -- one underscore may follow the prefix
      match rest with
      | '_' :: rest' => digitsIn base rest'
      | _ => digitsIn base rest
    | none => decimal l
  | _ => decimal l

/-- `int(text, 0)`; `none` is `ValueError`. -/
def int0 (s : String) : Option Int :=
  let (neg, body) := sign (stripBy isNumberSpace s.toList)
  (literal body).map fun n : Nat => if neg then -(n : Int) else n

example : int0 " -0xfE " = some (-254) := by decide
example : int0 "0b_10" = some 2 := by decide
example : int0 "012" = none := by decide

/-! ### The characters of a literal -/

/-- A character that can stand in a digit string. -/
def DigitChar (c : Char) : Prop := c = '_' ∨ ∃ base d, digitIn base c = some d

/-- The characters of a number are digits or underscores. -/
theorem digitsFromIn_chars {base acc n : Nat} {l : List Char} (h : digitsFromIn base acc l = some n) :
    ∀ c ∈ l, DigitChar c := by
  induction hlen : l.length using Nat.strongRecOn generalizing acc l with
  | _ len ih =>
    cases l with
    | nil => intro c hc; cases hc
    | cons x rest =>
      rw [digitsFromIn.eq_def] at h
      dsimp only at h
      cases hx : digitIn base x with
      | some d =>
        rw [hx] at h
        intro c hc
        rcases List.mem_cons.1 hc with rfl | hc
        · exact Or.inr ⟨base, d, hx⟩
        · exact ih rest.length (hlen ▸ Nat.lt_succ_self _) h rfl c hc
      | none =>
        rw [hx] at h
        dsimp only at h
        split at h
        · next y rest' =>
          -- an underscore and the digit after it
          obtain ⟨v, hv, h⟩ := Option.bind_eq_some_iff.1 h
          have hshort : rest'.length < len := by
            simp only [List.length_cons] at hlen
            omega
          intro c hc
          rcases List.mem_cons.1 hc with rfl | hc
          · exact Or.inl rfl
          · rcases List.mem_cons.1 hc with rfl | hc
            · exact Or.inr ⟨base, v, hv⟩
            · exact ih rest'.length hshort h rfl c hc
        · cases h

/-- The same for a number as a whole. -/
theorem digitsIn_chars {base n : Nat} {l : List Char} (h : digitsIn base l = some n) :
    ∀ c ∈ l, DigitChar c := by
  cases l with
  | nil => cases h
  | cons x rest =>
    obtain ⟨v, hv, h⟩ := Option.bind_eq_some_iff.1 h
    intro c hc
    rcases List.mem_cons.1 hc with rfl | hc
    · exact Or.inr ⟨base, v, hv⟩
    · exact digitsFromIn_chars h c hc

/-- A character that can stand in a literal. -/
def LiteralChar (c : Char) : Prop := DigitChar c ∨ digitValue c = some 0 ∨ (baseOf c).isSome

/-- The characters of a literal. -/
theorem literal_chars {n : Nat} {l : List Char} (h : literal l = some n) :
    ∀ c ∈ l, LiteralChar c := by
  have hdecimal : decimal l = some n → ∀ c ∈ l, LiteralChar c := by
    intro h c hc
    unfold decimal at h
    split at h
    · cases h
    · exact Or.inl (digitsIn_chars (Option.eq_some_of_filter_eq_some h) c hc)
  unfold literal at h
  split at h
  -- a base before the digits, else the text is decimal
  · next z x rest =>
    split at h
    · next base hbase =>
      split at hbase
      · next hz =>
        have hrest : ∀ c ∈ rest, DigitChar c := by
          split at h
          · intro c hc
            rcases List.mem_cons.1 hc with rfl | hc
            · exact Or.inl rfl
            · exact digitsIn_chars h c hc
          · exact digitsIn_chars h
        intro c hc
        rcases List.mem_cons.1 hc with rfl | hc
        · exact Or.inr (Or.inl hz)
        · rcases List.mem_cons.1 hc with rfl | hc
          · exact Or.inr (Or.inr (by rw [hbase]; rfl))
          · exact Or.inl (hrest c hc)
      · cases hbase
    · exact hdecimal h
  · exact hdecimal h

/-- What is stripped is white space. -/
theorem mem_stripBy {p : Char → Bool} {l : List Char} {c : Char} (hc : c ∈ l) :
    p c = true ∨ c ∈ stripBy p l := by
  have hdrop : ∀ (l : List Char), c ∈ l → p c = true ∨ c ∈ l.dropWhile p := by
    intro l hc
    rw [← List.takeWhile_append_dropWhile (p := p) (l := l)] at hc
    rcases List.mem_append.1 hc with hc | hc
    · exact Or.inl (List.mem_takeWhile_imp hc)
    · exact Or.inr hc
  rcases hdrop l hc with h | h
  · exact Or.inl h
  · unfold stripBy rstripBy
    rw [List.mem_reverse]
    exact hdrop _ (List.mem_reverse.2 h)

/-- The characters of an accepted text: spaces around it, a sign, and those of a literal. -/
theorem int0_chars {s : String} {n : Int} (h : int0 s = some n) :
    ∀ c ∈ s.toList, isNumberSpace c = true ∨ c = '+' ∨ c = '-' ∨ LiteralChar c := by
  intro c hc
  rcases mem_stripBy (p := isNumberSpace) hc with hspace | hbody
  · exact Or.inl hspace
  · obtain ⟨v, hv, -⟩ := Option.map_eq_some_iff.1 h
    have hchars := literal_chars hv
    split at hchars
    · next heq =>
      rw [heq] at hbody
      rcases List.mem_cons.1 hbody with rfl | hbody
      · exact Or.inr (Or.inr (Or.inl rfl))
      · exact Or.inr (Or.inr (Or.inr (hchars c hbody)))
    · next heq =>
      rw [heq] at hbody
      rcases List.mem_cons.1 hbody with rfl | hbody
      · exact Or.inr (Or.inl rfl)
      · exact Or.inr (Or.inr (Or.inr (hchars c hbody)))
    · exact Or.inr (Or.inr (Or.inr (hchars c hbody)))

/-- No integer literal has a point. -/
theorem int0_no_point {s : String} {n : Int} (h : int0 s = some n) : '.' ∉ s.toList := by
  intro hc
  rcases int0_chars h '.' hc with h | h | h | h | h | h
  · exact absurd h (by decide)
  · exact absurd h (by decide)
  · exact absurd h (by decide)
  · rcases h with h | ⟨base, d, hd⟩
    · exact absurd h (by decide)
    · -- neither a decimal digit nor a letter
      have hvalue : digitValue '.' = none := by decide
      unfold digitIn at hd
      rw [hvalue] at hd
      simp at hd
  · exact absurd h (by decide)
  · exact absurd h (by decide)

/-! ### UTF-8 -/

/-- What may follow the first byte of a sequence: how many bytes, the range of the first of
    them, and the bits that the first byte brings. -/
def utf8Lead (b : UInt8) : Option (Nat × UInt8 × UInt8 × Nat) :=
  if 0xC2 ≤ b ∧ b ≤ 0xDF then some (1, 0x80, 0xBF, b.toNat % 32)
  else if b = 0xE0 then some (2, 0xA0, 0xBF, 0)
  else if b = 0xED then some (2, 0x80, 0x9F, b.toNat % 16)
  else if 0xE1 ≤ b ∧ b ≤ 0xEF then some (2, 0x80, 0xBF, b.toNat % 16)
  else if b = 0xF0 then some (3, 0x90, 0xBF, 0)
  else if 0xF1 ≤ b ∧ b ≤ 0xF3 then some (3, 0x80, 0xBF, b.toNat % 8)
  else if b = 0xF4 then some (3, 0x80, 0x8F, 4)
  else none

/-- The rest of a sequence: its code point if it is complete, and the bytes after it or from
    the first one that does not belong to it. -/
def utf8Rest : (n : Nat) → (lo hi : UInt8) → (bits : Nat) → Bytes → Option Nat × Bytes
  | 0, _, _, bits, bs => (some bits, bs)
  | _ + 1, _, _, _, [] => (none, [])
  | n + 1, lo, hi, bits, b :: bs =>
    if lo ≤ b ∧ b ≤ hi then utf8Rest n 0x80 0xBF (bits * 64 + b.toNat % 64) bs else (none, b :: bs)

/-- At most `n` characters, with U+FFFD for what is malformed. -/
def replaceLoop : Nat → Bytes → List Char
  | 0, _ | _, [] => []
  | n + 1, b :: bs =>
    if b < 0x80 then Char.ofNat b.toNat :: replaceLoop n bs
    else
      match utf8Lead b with
      | none => Char.ofNat 0xFFFD :: replaceLoop n bs
      | some (k, lo, hi, bits) =>
        Char.ofNat ((utf8Rest k lo hi bits bs).1.getD 0xFFFD) ::
          replaceLoop n (utf8Rest k lo hi bits bs).2

/-- `payload.decode("utf-8", "replace")`. -/
def decodeReplace (payload : Bytes) : String :=
  match String.fromUTF8? ⟨payload.toArray⟩ with
  | some s => s
  | none => String.ofList (replaceLoop payload.length payload)

example : replaceLoop 6 [0x41, 0xE2, 0x82, 0x42, 0xFF, 0xC3] =
    ['A', Char.ofNat 0xFFFD, 'B', Char.ofNat 0xFFFD, Char.ofNat 0xFFFD] := by decide

end Ser2Net.Lib.PyText
