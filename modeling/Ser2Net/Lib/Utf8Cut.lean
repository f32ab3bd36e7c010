import Ser2Net.Lib.Latin1

namespace Ser2Net.Lib.Utf8Cut

open Ser2Net.Lib.Latin1

/-!
# UTF-8 bytes cut anywhere

The last bytes of an encoded text, decoded with errors ignored: what is left of a character
that was cut is dropped, and the characters behind it come back.

* `decodeIgnore` — `bytes.decode("utf-8", errors="ignore")`;
* `decodeIgnore_encode` — an encoded text comes back;
* `decodeIgnore_drop` — behind any cut the whole characters come back, and no other one;
* `mem_encode_newline` — a newline byte is a newline.
-/

/-- The character that bytes begin with. -/
def utf8Char? (bs : List UInt8) : Option Char := bs.toByteArray.utf8DecodeChar? 0

/-- The decoder's loop; `skip` bytes belong to the character that was just read.  A byte that
    does not begin a character is dropped, and with it, byte by byte, all of a broken sequence. -/
def decodeFrom : Nat → List UInt8 → List Char
  | _, [] => []
  | skip + 1, _ :: rest => decodeFrom skip rest
  | 0, b :: rest =>
    match utf8Char? (b :: rest) with
    | some c => c :: decodeFrom (c.utf8Size - 1) rest
    | none => decodeFrom 0 rest

/-- `bytes.decode("utf-8", errors="ignore")`. -/
def decodeIgnore (bs : List UInt8) : List Char := decodeFrom 0 bs

/-- `l[-n:]`. -/
def lastBytes (n : Nat) (l : List UInt8) : List UInt8 := if n = 0 then l else l.drop (l.length - n)

/-! ### Whole characters -/

/-- What is skipped is gone. -/
theorem decodeFrom_drop (skip : Nat) (bs : List UInt8) :
    decodeFrom skip bs = decodeFrom 0 (bs.drop skip) := by
  induction skip generalizing bs with
  | zero => rfl
  | succ skip ih =>
    cases bs with
    | nil => rfl
    | cons b rest => exact ih rest

/-- The first character of an encoding. -/
theorem utf8Char?_encode (c : Char) (bs : List UInt8) :
    utf8Char? (String.utf8EncodeChar c ++ bs) = some c := by
  rw [utf8Char?, List.toByteArray_append]
  exact ByteArray.utf8DecodeChar?_utf8EncodeChar_append

/-- A character is decoded, and then the rest. -/
theorem decodeIgnore_cons (c : Char) (bs : List UInt8) :
    decodeIgnore (String.utf8EncodeChar c ++ bs) = c :: decodeIgnore bs := by
  have hchar := utf8Char?_encode c bs
  have hlen : (String.utf8EncodeChar c).length = c.utf8Size := String.length_utf8EncodeChar c
  cases hbytes : String.utf8EncodeChar c with
  | nil =>
    have hpos := c.utf8Size_pos
    simp [hbytes] at hlen
    omega
  | cons b more =>
    rw [hbytes] at hchar hlen
    rw [List.cons_append] at hchar ⊢
    have hmore : c.utf8Size - 1 = more.length := by
      rw [← hlen, List.length_cons, Nat.add_sub_cancel]
    rw [decodeIgnore, decodeFrom, hchar]
    dsimp only
    rw [decodeFrom_drop, hmore, List.drop_left, decodeIgnore]

/-- A character in front. -/
theorem encode_cons (c : Char) (t : List Char) :
    encode (c :: t) = String.utf8EncodeChar c ++ encode t := rfl

/-- Texts in a row. -/
theorem encode_append (s t : List Char) : encode (s ++ t) = encode s ++ encode t :=
  List.flatMap_append

/-- An encoded text comes back. -/
theorem decodeIgnore_encode (t : List Char) : decodeIgnore (encode t) = t := by
  induction t with
  | nil => rfl
  | cons c t ih => rw [encode_cons, decodeIgnore_cons, ih]

/-! ### A cut -/

/-- A byte that begins no character is dropped. -/
theorem decodeIgnore_skip {b : UInt8} (hb : ¬ b.IsUTF8FirstByte) (bs : List UInt8) :
    decodeIgnore (b :: bs) = decodeIgnore bs := by
  have hnone : utf8Char? (b :: bs) = none := by
    by_contra hne
    have hsome := Option.isSome_iff_ne_none.2 hne
    have hfirst := ByteArray.isUTF8FirstByte_of_isSome_utf8DecodeChar? hsome
    exact hb (by simpa using hfirst)
  rw [decodeIgnore, decodeFrom, hnone, decodeIgnore]

/-- What is left of a cut character is dropped. -/
theorem decodeIgnore_tail (c : Char) {k : Nat} (hk : 0 < k) (bs : List UInt8) :
    decodeIgnore ((String.utf8EncodeChar c).drop k ++ bs) = decodeIgnore bs := by
  induction hn : (String.utf8EncodeChar c).length - k generalizing k with
  | zero => rw [List.drop_eq_nil_of_le (Nat.le_of_sub_eq_zero hn), List.nil_append]
  | succ n ih =>
    have hlt : k < (String.utf8EncodeChar c).length := by omega
    have hfirst : ¬ (String.utf8EncodeChar c)[k].IsUTF8FirstByte := by
      rw [UInt8.isUTF8FirstByte_getElem_utf8EncodeChar]
      omega
    rw [List.drop_eq_getElem_cons hlt, List.cons_append, decodeIgnore_skip hfirst]
    exact ih (Nat.succ_pos k) (by omega)

/-- No byte inside a character begins one. -/
theorem not_first_of_mem_drop {c : Char} {k : Nat} (hk : 0 < k) {b : UInt8}
    (hb : b ∈ (String.utf8EncodeChar c).drop k) : ¬ b.IsUTF8FirstByte := by
  obtain ⟨i, hi, rfl⟩ := List.mem_iff_getElem.1 hb
  rw [List.getElem_drop, UInt8.isUTF8FirstByte_getElem_utf8EncodeChar]
  omega

/-- **A cut text.**  Behind a cut the whole characters come back: what is lost is the shortest
    beginning of the text that has the bytes before the cut in it, and of its last character no
    first byte is behind the cut. -/
theorem decodeIgnore_drop (t : List Char) {k : Nat} (hk : k ≤ (encode t).length) :
    ∃ pre, t = pre ++ decodeIgnore ((encode t).drop k) ∧ k ≤ (encode pre).length ∧
      (∀ b ∈ (encode pre).drop k, ¬ b.IsUTF8FirstByte) ∧
      ∀ pre' post', t = pre' ++ post' → k ≤ (encode pre').length → pre.length ≤ pre'.length := by
  induction t generalizing k with
  | nil =>
    obtain rfl : k = 0 := by simpa [encode] using hk
    exact ⟨[], rfl, Nat.zero_le _, fun b hb => absurd hb List.not_mem_nil,
      fun pre' _ _ _ => Nat.zero_le _⟩
  | cons c t ih =>
    -- nothing is cut off, so the text is read back whole
    rcases Nat.eq_zero_or_pos k with rfl | hpos
    · refine ⟨[], ?_, Nat.zero_le _, fun b hb => absurd hb List.not_mem_nil,
        fun pre' _ _ _ => Nat.zero_le _⟩
      rw [List.drop_zero, decodeIgnore_encode, List.nil_append]
    · have hsplit : ∀ pre' post', c :: t = pre' ++ post' → k ≤ (encode pre').length →
          ∃ more, pre' = c :: more ∧ t = more ++ post' := by
        intro pre' post' heq hle
        cases pre' with
        | nil => exact absurd hle (Nat.not_le_of_lt hpos)
        | cons d more =>
          rw [List.cons_append, List.cons.injEq] at heq
          exact ⟨more, by rw [heq.1], heq.2⟩
      rw [encode_cons, List.length_append] at hk
      by_cases hlt : k < (String.utf8EncodeChar c).length
      · -- the cut is in the first character
        have hone : encode [c] = String.utf8EncodeChar c := by simp [encode]
        refine ⟨[c], ?_, ?_, ?_, ?_⟩
        · rw [encode_cons, List.drop_append_of_le_length (Nat.le_of_lt hlt),
            decodeIgnore_tail c hpos, decodeIgnore_encode]
          rfl
        · rw [hone]
          exact Nat.le_of_lt hlt
        · intro b hb
          rw [hone] at hb
          exact not_first_of_mem_drop hpos hb
        · intro pre' post' heq hle
          obtain ⟨more, rfl, -⟩ := hsplit pre' post' heq hle
          simp
      · have hle : (String.utf8EncodeChar c).length ≤ k := Nat.le_of_not_lt hlt
        obtain ⟨pre, heq, hcover, hfirst, hshort⟩ := ih (k := k - (String.utf8EncodeChar c).length) (by omega)
        -- the first character is cut off whole, so the cut falls into the rest
        have hdrop : ∀ l, (encode (c :: l)).drop k =
            (encode l).drop (k - (String.utf8EncodeChar c).length) := by
          intro l
          rw [encode_cons, List.drop_append, List.drop_eq_nil_of_le hle, List.nil_append]
        refine ⟨c :: pre, ?_, ?_, ?_, ?_⟩
        · rw [hdrop, List.cons_append, ← heq]
        · rw [encode_cons, List.length_append]
          omega
        · rw [hdrop]
          exact hfirst
        · intro pre' post' heq' hle'
          obtain ⟨more, rfl, ht⟩ := hsplit pre' post' heq' hle'
          rw [encode_cons, List.length_append] at hle'
          have := hshort more post' ht (by omega)
          simpa using this

/-! ### Newlines -/

/-- The byte of a line break is one. -/
theorem newline_of_mem {c : Char} (h : (0x0a : UInt8) ∈ String.utf8EncodeChar c) : c = '\n' := by
  obtain ⟨i, hi, hb⟩ := List.mem_iff_getElem.1 h
  have hfirst : (String.utf8EncodeChar c)[i].IsUTF8FirstByte := by
    rw [hb]
    decide
  obtain rfl := UInt8.isUTF8FirstByte_getElem_utf8EncodeChar.1 hfirst
  have hchar : utf8Char? (0x0a :: (String.utf8EncodeChar c).drop 1) = some c := by
    rw [← hb, ← List.drop_eq_getElem_cons hi, List.drop_zero]
    have := utf8Char?_encode c []
    rwa [List.append_nil] at this
  have hnewline := utf8Char?_encode '\n' ((String.utf8EncodeChar c).drop 1)
  exact Option.some.inj (hchar.symm.trans hnewline)

/-- A newline byte is a newline. -/
theorem mem_encode_newline {t : List Char} : (0x0a : UInt8) ∈ encode t ↔ '\n' ∈ t := by
  rw [encode, List.mem_flatMap]
  constructor
  · rintro ⟨c, hc, hb⟩
    exact newline_of_mem hb ▸ hc
  · exact fun h => ⟨'\n', h, by decide⟩

end Ser2Net.Lib.Utf8Cut
