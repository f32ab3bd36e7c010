import Ser2Net.Lib.PyText

namespace Ser2Net.Lib

/-!
# Numbers written with a fixed number of digits

Zero-padded decimals sort as text the way their numbers do, and so do texts put together from
such fields: this is what makes a timestamp in a file name a sort key.

* `pad` — the decimal digits of a number, zero-padded to a width;
* `pad_append_lt` — two texts that begin with a field of the same width compare by the field
  first and by the rest where the fields agree;
* `digits_toDigits` — an unpadded decimal reads back as its number.
-/

/-- `n` in decimal with `w` digits (`%0wd`; the digits above the width are left out). -/
def pad : Nat → Nat → List Char
  | 0, _ => []
  | w + 1, n => pad w (n / 10) ++ [Nat.digitChar (n % 10)]

@[simp] theorem length_pad (w n : Nat) : (pad w n).length = w := by
  induction w generalizing n with
  | zero => rfl
  | succ w ih => simp [pad, ih]

theorem isDigit_of_mem_pad {w n : Nat} {c : Char} (hc : c ∈ pad w n) : c.isDigit = true := by
  induction w generalizing n with
  | zero => simp [pad] at hc
  | succ w ih =>
    rw [pad, List.mem_append, List.mem_singleton] at hc
    rcases hc with hc | rfl
    · exact ih hc
    · rw [Nat.isDigit_digitChar, decide_eq_true_eq]
      omega

/-- Digits compare as their numbers do. -/
theorem digitChar_lt {a b : Nat} (h : a < b) (hb : b < 10) :
    Nat.digitChar a < Nat.digitChar b := by
  have hall : ∀ x : Fin 10, ∀ y : Fin 10, x < y → Nat.digitChar x < Nat.digitChar y := by decide
  exact hall ⟨a, by omega⟩ ⟨b, hb⟩ h

/-- Texts with heads of one length compare by the heads first. -/
theorem append_lt_append {a b x y : List Char} (hl : a.length = b.length)
    (h : a < b ∨ a = b ∧ x < y) : a ++ x < b ++ y := by
  induction a generalizing b with
  | nil =>
    have hb : b = [] := List.length_eq_zero_iff.1 (by simpa using hl.symm)
    subst hb
    simpa using h
  | cons c a ih =>
    cases b with
    | nil => simp at hl
    | cons d b =>
      have hlen : a.length = b.length := by simpa using hl
      rw [List.cons_append, List.cons_append, List.cons_lt_cons_iff]
      rcases h with h | ⟨h, hxy⟩
      · rw [List.cons_lt_cons_iff] at h
        rcases h with h | ⟨rfl, h⟩
        · exact Or.inl h
        · exact Or.inr ⟨rfl, ih hlen (Or.inl h)⟩
      · rw [List.cons.injEq] at h
        exact Or.inr ⟨h.1, ih hlen (Or.inr ⟨h.2, hxy⟩)⟩

/-- **Padded numbers sort as numbers.** -/
theorem pad_lt {w a b : Nat} (h : a < b) (hb : b < 10 ^ w) : pad w a < pad w b := by
  induction w generalizing a b with
  | zero =>
    rw [pow_zero] at hb
    omega
  | succ w ih =>
    have hb' : b / 10 < 10 ^ w := by
      rw [pow_succ] at hb
      omega
    apply append_lt_append (by simp)
    -- either the leading digits decide, or they agree and the last digit does
    by_cases hlead : a / 10 < b / 10
    · exact Or.inl (ih hlead hb')
    · have heq : a / 10 = b / 10 := by omega
      have hlast : a % 10 < b % 10 := by omega
      refine Or.inr ⟨by rw [heq], ?_⟩
      rw [List.cons_lt_cons_iff]
      exact Or.inl (digitChar_lt hlast (by omega))

/-- A field of fixed width in front decides first. -/
theorem pad_append_lt {w a b : Nat} {x y : List Char} (hb : b < 10 ^ w)
    (h : a < b ∨ a = b ∧ x < y) : pad w a ++ x < pad w b ++ y := by
  apply append_lt_append (by simp)
  rcases h with h | ⟨rfl, h⟩
  · exact Or.inl (pad_lt h hb)
  · exact Or.inr ⟨rfl, h⟩

/-! ### Reading a decimal back -/

namespace PyText

/-- The value of an ASCII digit. -/
theorem digitValue_of_isDigit {c : Char} (h : c.isDigit = true) :
    digitValue c = some (c.toNat - '0'.toNat) := by
  have hc : 48 ≤ c.toNat ∧ c.toNat < 58 := by
    have hr := Char.isDigit_iff_toNat.1 h
    exact ⟨hr.1, Nat.lt_succ_of_le hr.2⟩
  have hfind : digitZeros.find? (fun z => z ≤ c.toNat && c.toNat < z + 10) = some 0x30 := by
    rw [digitZeros, List.find?_cons_of_pos]
    simp [hc]
  rw [digitValue, hfind]
  rfl

/-- A digit in front is read first. -/
theorem digitsFrom_cons {c : Char} (h : c.isDigit = true) (acc : Nat) (rest : List Char) :
    digitsFrom acc (c :: rest) = digitsFrom (acc * 10 + (c.toNat - '0'.toNat)) rest := by
  rw [digitsFrom.eq_def]
  simp only [digitValue_of_isDigit h]

theorem digitsFrom_of_isDigit {l : List Char} (h : ∀ c ∈ l, c.isDigit = true) (acc : Nat) :
    digitsFrom acc l = some (Nat.ofDigitChars 10 l acc) := by
  induction l generalizing acc with
  | nil => rfl
  | cons c rest ih =>
    rw [digitsFrom_cons (h c (List.mem_cons_self ..)),
      ih fun d hd => h d (List.mem_cons_of_mem _ hd), Nat.ofDigitChars_cons, Nat.mul_comm]

/-- An unpadded decimal reads back as its number. -/
theorem digits_toDigits (n : Nat) : digits (Nat.toDigits 10 n) = some n := by
  have hall : ∀ c ∈ Nat.toDigits 10 n, c.isDigit = true := fun c hc =>
    Nat.isDigit_of_mem_toDigits (by omega) (by omega) hc
  have hfrom := digitsFrom_of_isDigit hall 0
  rw [Nat.ofDigitChars_ten_toDigits] at hfrom
  cases hl : Nat.toDigits 10 n with
  | nil => exact absurd hl Nat.toDigits_ne_nil
  | cons c rest =>
    rw [hl] at hall hfrom
    have hc := hall c (List.mem_cons_self ..)
    rw [digitsFrom_cons hc] at hfrom
    rw [digits, digitValue_of_isDigit hc]
    simpa using hfrom

end PyText

end Ser2Net.Lib
