import Ser2Net.Lib.Binary
import Ser2Net.Lib.PyText

namespace Ser2Net.Lib.Base64

/-!
# Base64 with the URL alphabet

Python's `base64.urlsafe_b64encode` and `urlsafe_b64decode`, on the characters of a text.  The
decoder skips what is in neither alphabet and stops at a complete padding.

* `encode`, `decode` — the two functions;
* `decode_encode` — what was encoded comes back;
* `unpadded`, `encode_eq` — the text without its padding, and the padding that its length says.
-/

/-- The character of a sextet. -/
def digit (n : Nat) : Char :=
  if n < 26 then Char.ofNat ('A'.toNat + n)
  else if n < 52 then Char.ofNat ('a'.toNat + (n - 26))
  else if n < 62 then Char.ofNat ('0'.toNat + (n - 52))
  else if n = 62 then '-' else '_'

/-- The sextet of a character; `-` and `_` are translated to `+` and `/` before. -/
def value (c : Char) : Option Nat :=
  if 'A' ≤ c ∧ c ≤ 'Z' then some (c.toNat - 'A'.toNat)
  else if 'a' ≤ c ∧ c ≤ 'z' then some (c.toNat - 'a'.toNat + 26)
  else if '0' ≤ c ∧ c ≤ '9' then some (c.toNat - '0'.toNat + 52)
  else if c = '-' ∨ c = '+' then some 62
  else if c = '_' ∨ c = '/' then some 63
  else none

/-- The text without its padding. -/
def unpadded : Bytes → List Char
  | a :: b :: c :: rest =>
    digit (a.toNat / 4) :: digit (a.toNat % 4 * 16 + b.toNat / 16) ::
      digit (b.toNat % 16 * 4 + c.toNat / 64) :: digit (c.toNat % 64) :: unpadded rest
  | [a, b] =>
    [digit (a.toNat / 4), digit (a.toNat % 4 * 16 + b.toNat / 16), digit (b.toNat % 16 * 4)]
  | [a] => [digit (a.toNat / 4), digit (a.toNat % 4 * 16)]
  | [] => []

/-- `urlsafe_b64encode(data)`. -/
def encode (data : Bytes) : List Char :=
  unpadded data ++ List.replicate ((3 - data.length % 3) % 3) '='

/-- The loop of the decoder: the position in the group of four, the bits left over from the last
    character, and the padding characters in a row. -/
def decodeLoop : Nat → Nat → Nat → List Char → Option Bytes
  | quad, _, _, [] => if quad = 0 then some [] else none
  | quad, left, pads, c :: rest =>
    if c = '=' then
      if 2 ≤ quad then
        if 4 ≤ quad + (pads + 1) then some [] else decodeLoop quad left (pads + 1) rest
      else decodeLoop quad left pads rest
    else
      match value c with
      | none => decodeLoop quad left pads rest
      | some v =>
        if quad = 0 then decodeLoop 1 v 0 rest
        else if quad = 1 then
          (decodeLoop 2 (v % 16) 0 rest).map (UInt8.ofNat (left * 4 + v / 16) :: ·)
        else if quad = 2 then
          (decodeLoop 3 (v % 4) 0 rest).map (UInt8.ofNat (left * 16 + v / 4) :: ·)
        else (decodeLoop 0 0 0 rest).map (UInt8.ofNat (left * 64 + v) :: ·)

/-- `urlsafe_b64decode(s)` of an ASCII text; `none` is `binascii.Error`, a `ValueError`. -/
def decode (s : List Char) : Option Bytes := decodeLoop 0 0 0 s

example : encode [0x4d, 0x61] = "TWE=".toList := by decide
example : decode "T W\nE=x".toList = some [0x4d, 0x61] := by decide
example : decode "TWE".toList = none := by decide

/-! ### Sextets -/

/-- A sextet is read back, and is no padding and no dot. -/
theorem digit_spec {n : Nat} (h : n < 64) :
    value (digit n) = some n ∧ digit n ≠ '=' ∧ digit n ≠ '.' ∧ (digit n).toNat < 128 := by
  have hall : ∀ n : Fin 64, value (digit n) = some n.val ∧ digit n ≠ '=' ∧ digit n ≠ '.' ∧
      (digit n).toNat < 128 := by decide
  exact hall ⟨n, h⟩

section Loop

variable {n left pads : Nat} {rest : List Char}

/-- The first character of a group: nothing is complete yet. -/
theorem decodeLoop_first (h : n < 64) :
    decodeLoop 0 left pads (digit n :: rest) = decodeLoop 1 n 0 rest := by
  obtain ⟨hvalue, hpad, -⟩ := digit_spec h
  rw [decodeLoop, if_neg hpad, hvalue]
  rfl

/-- The second character completes the first byte. -/
theorem decodeLoop_second (h : n < 64) {b : UInt8} (hb : left * 4 + n / 16 = b.toNat) :
    decodeLoop 1 left pads (digit n :: rest) = (decodeLoop 2 (n % 16) 0 rest).map (b :: ·) := by
  obtain ⟨hvalue, hpad, -⟩ := digit_spec h
  rw [decodeLoop, if_neg hpad, hvalue, ← UInt8.ofNat_toNat (x := b), ← hb]
  rfl

/-- The third character completes the second byte. -/
theorem decodeLoop_third (h : n < 64) {b : UInt8} (hb : left * 16 + n / 4 = b.toNat) :
    decodeLoop 2 left pads (digit n :: rest) = (decodeLoop 3 (n % 4) 0 rest).map (b :: ·) := by
  obtain ⟨hvalue, hpad, -⟩ := digit_spec h
  rw [decodeLoop, if_neg hpad, hvalue, ← UInt8.ofNat_toNat (x := b), ← hb]
  rfl

/-- The fourth character completes the third byte. -/
theorem decodeLoop_fourth (h : n < 64) {b : UInt8} (hb : left * 64 + n = b.toNat) :
    decodeLoop 3 left pads (digit n :: rest) = (decodeLoop 0 0 0 rest).map (b :: ·) := by
  obtain ⟨hvalue, hpad, -⟩ := digit_spec h
  rw [decodeLoop, if_neg hpad, hvalue, ← UInt8.ofNat_toNat (x := b), ← hb]
  rfl

end Loop

/-- Every character of an encoded text is a sextet. -/
theorem mem_unpadded {data : Bytes} {c : Char} (h : c ∈ unpadded data) :
    ∃ n, n < 64 ∧ c = digit n := by
  -- three bytes at a time, and the two ends
  induction data using unpadded.induct with
  | case1 x y z rest ih =>
    have hx := x.toNat_lt
    have hy := y.toNat_lt
    have hz := z.toNat_lt
    simp only [unpadded, List.mem_cons] at h
    rcases h with rfl | rfl | rfl | rfl | h
    · exact ⟨_, by omega, rfl⟩
    · exact ⟨_, by omega, rfl⟩
    · exact ⟨_, by omega, rfl⟩
    · exact ⟨_, by omega, rfl⟩
    · exact ih h
  | case2 x y =>
    have hx := x.toNat_lt
    have hy := y.toNat_lt
    simp only [unpadded, List.mem_cons, List.not_mem_nil, or_false] at h
    rcases h with rfl | rfl | rfl
    · exact ⟨_, by omega, rfl⟩
    · exact ⟨_, by omega, rfl⟩
    · exact ⟨_, by omega, rfl⟩
  | case3 x =>
    have hx := x.toNat_lt
    simp only [unpadded, List.mem_cons, List.not_mem_nil, or_false] at h
    rcases h with rfl | rfl
    · exact ⟨_, by omega, rfl⟩
    · exact ⟨_, by omega, rfl⟩
  | case4 => cases h

/-! ### What was encoded comes back -/

/-- What was encoded is decoded. -/
theorem decode_encode (data : Bytes) : decode (encode data) = some data := by
  induction data using unpadded.induct with
  | case1 x y z rest ih =>
    have hx := x.toNat_lt
    have hy := y.toNat_lt
    have hz := z.toNat_lt
    -- a whole group leaves the padding of the rest as it is
    have hlen : (x :: y :: z :: rest).length % 3 = rest.length % 3 := by
      simp only [List.length_cons]
      omega
    have hrest : decodeLoop 0 0 0 (unpadded rest ++
        List.replicate ((3 - rest.length % 3) % 3) '=') = some rest := ih
    rw [decode, encode, hlen, unpadded, List.cons_append, List.cons_append, List.cons_append,
      List.cons_append, decodeLoop_first (by omega), decodeLoop_second (b := x) (by omega) (by omega),
      decodeLoop_third (b := y) (by omega) (by omega), decodeLoop_fourth (b := z) (by omega) (by omega),
      hrest]
    rfl
  | case2 x y =>
    have hx := x.toNat_lt
    have hy := y.toNat_lt
    rw [decode, encode, unpadded, List.cons_append, List.cons_append, List.cons_append,
      decodeLoop_first (by omega), decodeLoop_second (b := x) (by omega) (by omega),
      decodeLoop_third (b := y) (by omega) (by omega)]
    rfl
  | case3 x =>
    have hx := x.toNat_lt
    rw [decode, encode, unpadded, List.cons_append, List.cons_append, decodeLoop_first (by omega),
      decodeLoop_second (b := x) (by omega) (by omega)]
    rfl
  | case4 => rfl

/-! ### The padding -/

/-- How many characters carry the bytes. -/
theorem length_unpadded (data : Bytes) :
    (unpadded data).length = data.length / 3 * 4 +
      if data.length % 3 = 0 then 0 else data.length % 3 + 1 := by
  induction data using unpadded.induct with
  | case1 x y z rest ih =>
    have hlen : (x :: y :: z :: rest).length = rest.length + 3 := rfl
    have hmod : (rest.length + 3) % 3 = rest.length % 3 := by omega
    rw [unpadded, List.length_cons, List.length_cons, List.length_cons, List.length_cons, ih, hlen,
      hmod]
    omega
  | case2 x y => simp [unpadded]
  | case3 x => simp [unpadded]
  | case4 => rfl

/-- The padding is what the length of the text says. -/
theorem encode_eq (data : Bytes) :
    encode data = unpadded data ++ List.replicate ((4 - (unpadded data).length % 4) % 4) '=' := by
  have hlen := length_unpadded data
  have hpad : (3 - data.length % 3) % 3 = (4 - (unpadded data).length % 4) % 4 := by
    have hmod : data.length % 3 = 0 ∨ data.length % 3 = 1 ∨ data.length % 3 = 2 := by omega
    rcases hmod with h | h | h
    · have hfull : (unpadded data).length % 4 = 0 := by simp [h] at hlen; omega
      rw [h, hfull]
    · have hfull : (unpadded data).length % 4 = 2 := by simp [h] at hlen; omega
      rw [h, hfull]
    · have hfull : (unpadded data).length % 4 = 3 := by simp [h] at hlen; omega
      rw [h, hfull]
  rw [encode, hpad]

/-- The text without its padding has no padding in it. -/
theorem rstrip_encode (data : Bytes) : PyText.rstripBy (· = '=') (encode data) = unpadded data := by
  have hdigits : ∀ c ∈ unpadded data, c ≠ '=' := by
    intro c hc
    obtain ⟨n, hn, rfl⟩ := mem_unpadded hc
    exact (digit_spec hn).2.1
  have hreverse : (encode data).reverse =
      List.replicate ((3 - data.length % 3) % 3) '=' ++ (unpadded data).reverse := by
    rw [encode, List.reverse_append, List.reverse_replicate]
  have hpads : ∀ c ∈ List.replicate ((3 - data.length % 3) % 3) '=', decide (c = '=') = true :=
    fun c hc => decide_eq_true (List.eq_of_mem_replicate hc)
  have hstop : (unpadded data).reverse.dropWhile (· = '=') = (unpadded data).reverse := by
    cases hlast : (unpadded data).reverse with
    | nil => rfl
    | cons c l =>
      have hc : c ≠ '=' := hdigits c (by rw [← List.mem_reverse, hlast]; exact List.mem_cons_self)
      rw [List.dropWhile_cons_of_neg (by simpa using hc)]
  rw [PyText.rstripBy, hreverse, List.dropWhile_append_of_pos hpads, hstop, List.reverse_reverse]

end Ser2Net.Lib.Base64
