import Mathlib.Data.List.Basic
import Mathlib.Tactic.Common

namespace Ser2Net.Lib.Latin1

/-!
# Bytes as characters

A byte string held in a text, one character for each byte, and the text encoded as UTF-8.

* `byteChar` — the character with the number of a byte;
* `encode_ofList` — the UTF-8 bytes of a text, character by character;
* `encode_byteChars_iff` — the bytes come back exactly when all of them are ASCII.
-/

/-- The character with the number of a byte. -/
def byteChar (b : UInt8) : Char := Char.ofNat b.toNat

/-- The UTF-8 bytes of a text. -/
def encode (t : List Char) : List UInt8 := t.flatMap String.utf8EncodeChar

/-- The bytes of a text. -/
theorem encode_ofList (t : List Char) : (String.ofList t).toByteArray.data.toList = encode t := by
  rw [String.toByteArray_ofList]
  simp [List.utf8Encode, encode]

/-- The numbers of bytes are the numbers of characters. -/
theorem byteChar_val (b : UInt8) : (byteChar b).val.toNat = b.toNat := by
  have hb := b.toNat_lt
  have hvalid : b.toNat.isValidChar := .inl (by omega)
  unfold byteChar Char.ofNat
  rw [dif_pos hvalid]
  rfl

/-- The character of a number's low byte. -/
theorem byteChar_ofNat (n : Nat) : byteChar (UInt8.ofNat n) = Char.ofNat (n % 256) := by
  unfold byteChar
  rw [UInt8.toNat_ofNat']

/-- An ASCII byte stays one byte. -/
theorem encode_byteChar_of_ascii {b : UInt8} (h : b < 0x80) :
    String.utf8EncodeChar (byteChar b) = [b] := by
  have hb : b.toNat < 128 := UInt8.lt_iff_toNat_lt.1 h
  have hsize : (byteChar b).utf8Size = 1 := by
    rw [Char.utf8Size_eq_one_iff, UInt32.le_iff_toNat_le, byteChar_val]
    exact Nat.le_of_lt_succ hb
  rw [String.utf8EncodeChar_eq_singleton hsize, List.singleton_inj, ← UInt8.toNat_inj,
    UInt32.toNat_toUInt8, byteChar_val]
  omega

/-- Any other byte becomes two. -/
theorem length_encode_byteChar {b : UInt8} (h : ¬ b < 0x80) :
    (String.utf8EncodeChar (byteChar b)).length = 2 := by
  have hlow : ¬ b.toNat < 128 := fun hb => h (UInt8.lt_iff_toNat_lt.2 hb)
  have hhigh := b.toNat_lt
  rw [String.length_utf8EncodeChar, Char.utf8Size_eq_two_iff, UInt32.lt_iff_toNat_lt,
    UInt32.le_iff_toNat_le, byteChar_val]
  have h127 : (127 : UInt32).toNat = 127 := rfl
  have h7ff : (0x7ff : UInt32).toNat = 2047 := rfl
  omega

/-- Encoding never shortens. -/
theorem length_le_encode (bs : List UInt8) : bs.length ≤ (encode (bs.map byteChar)).length := by
  induction bs with
  | nil => exact Nat.le_refl _
  | cons b rest ih =>
    have hcons : encode ((b :: rest).map byteChar) =
        String.utf8EncodeChar (byteChar b) ++ encode (rest.map byteChar) := rfl
    rw [hcons, List.length_append, List.length_cons]
    by_cases hb : b < 0x80
    · rw [encode_byteChar_of_ascii hb, List.length_singleton]
      omega
    · rw [length_encode_byteChar hb]
      omega

/-- **Only ASCII survives.**  Bytes held as characters come back from UTF-8 exactly when none
    of them is 128 or more. -/
theorem encode_byteChars_iff (bs : List UInt8) :
    encode (bs.map byteChar) = bs ↔ ∀ b ∈ bs, b < 0x80 := by
  induction bs with
  | nil => exact ⟨fun _ _ hb => (List.not_mem_nil hb).elim, fun _ => rfl⟩
  | cons b rest ih =>
    have hcons : encode ((b :: rest).map byteChar) =
        String.utf8EncodeChar (byteChar b) ++ encode (rest.map byteChar) := rfl
    rw [hcons, List.forall_mem_cons, ← ih]
    by_cases hb : b < 0x80
    · rw [encode_byteChar_of_ascii hb, List.singleton_append, List.cons_inj_right]
      exact ⟨fun h => ⟨hb, h⟩, fun h => h.2⟩
    · -- a byte that takes two makes the text longer, and no other one makes it shorter
      refine ⟨fun h => ?_, fun h => absurd h.1 hb⟩
      have hlen := congrArg List.length h
      rw [List.length_append, length_encode_byteChar hb, List.length_cons] at hlen
      have hrest := length_le_encode rest
      omega

end Ser2Net.Lib.Latin1
