import Ser2Net.Lib.Binary

namespace Ser2Net.Lib.Protobuf

/-!
# The protobuf wire format

What a well-formed message is, byte by byte, with no reader and no schema: base-128 varints, field
keys, scalar values and groups, which nest.

* `Digits`, `IsVarint` — base-128 digits, and a varint as 64-bit readers take it;
* `IsKey` — a field number with a wire type;
* `Scalar` — a value that is no group, with what it stands for;
* `Content` — what may stand inside a group: fields, and groups that are closed in turn;
* `Message` — a whole message with the fields that it holds; groups are passed over.

Scalars stand for integers or bytes, and `int` and `bytes` say how a reader hands them on.
-/

/-! ### Varints and keys -/

/-- Base-128 digits, least significant first, and their number: every byte but the last has its
    top bit set. -/
inductive Digits : Bytes → Nat → Prop
  | last {b : UInt8} (h : b < 0x80) : Digits [b] b.toNat
  | more {b : UInt8} {bs : Bytes} {v : Nat} (h : ¬ b < 0x80) (hs : Digits bs v) :
      Digits (b :: bs) (b.toNat % 128 + v * 128)

/-- A varint: at most ten digits, and bits beyond 64 are dropped. -/
def IsVarint (bs : Bytes) (v : Nat) : Prop :=
  ∃ w, Digits bs w ∧ bs.length ≤ 10 ∧ v = w % 2 ^ 64

/-- A field key: field numbers are 1 to 2²⁹ - 1, and the low three bits are the wire type. -/
def IsKey (bs : Bytes) (number wireType : Nat) : Prop :=
  ∃ k, IsVarint bs k ∧ number = k / 8 ∧ wireType = k % 8 ∧ 1 ≤ number ∧ number < 2 ^ 29

/-- A varint has a byte at least. -/
theorem Digits.ne_nil {bs : Bytes} {v : Nat} (h : Digits bs v) : bs ≠ [] := by
  cases h <;> simp

/-- A byte without the top bit is a varint. -/
theorem isVarint_byte {b : UInt8} (h : b < 0x80) : IsVarint [b] b.toNat := by
  refine ⟨b.toNat, .last h, by simp, ?_⟩
  have := b.toNat_lt
  omega

/-- A key of one byte. -/
theorem isKey_byte {b : UInt8} (h : b < 0x80) (hb : 8 ≤ b.toNat) :
    IsKey [b] (b.toNat / 8) (b.toNat % 8) := by
  refine ⟨b.toNat, isVarint_byte h, rfl, rfl, ?_, ?_⟩
  · omega
  · have := b.toNat_lt
    omega

/-! ### Fields -/

section
variable {R : Type} (int : Nat → R) (bytes : Bytes → R)

/-- A value that is no group: the wire type, the bytes and what they stand for. -/
inductive Scalar : Nat → Bytes → R → Prop
  | varint {bs : Bytes} {v : Nat} (h : IsVarint bs v) : Scalar 0 bs (int v)
  | i64 {bs : Bytes} (h : bs.length = 8) : Scalar 1 bs (bytes bs)
  | len {l bs : Bytes} (h : IsVarint l bs.length) : Scalar 2 (l ++ bs) (bytes bs)
  | i32 {bs : Bytes} (h : bs.length = 4) : Scalar 5 bs (bytes bs)

/-- What stands between the keys of a group. -/
inductive Content : Bytes → Prop
  | nil : Content []
  | scalar {k bs rest : Bytes} {number wireType : Nat} {v : R} (hk : IsKey k number wireType)
      (hv : Scalar int bytes wireType bs v) (hrest : Content rest) : Content (k ++ bs ++ rest)
  | group {k inner e rest : Bytes} {number : Nat} (hk : IsKey k number 3) (hin : Content inner)
      (he : IsKey e number 4) (hrest : Content rest) : Content (k ++ inner ++ e ++ rest)

/-- One field of a message; a group stands for nothing. -/
inductive WireField : Bytes → Option (Nat × Nat × R) → Prop
  | scalar {k bs : Bytes} {number wireType : Nat} {v : R} (hk : IsKey k number wireType)
      (hv : Scalar int bytes wireType bs v) : WireField (k ++ bs) (some (number, wireType, v))
  | group {k inner e : Bytes} {number : Nat} (hk : IsKey k number 3)
      (hin : Content int bytes inner) (he : IsKey e number 4) :
      WireField (k ++ inner ++ e) none

/-- A message: field after field, with what they stand for in order. -/
inductive Message : Bytes → List (Nat × Nat × R) → Prop
  | nil : Message [] []
  | cons {bs rest : Bytes} {f : Option (Nat × Nat × R)} {fs : List (Nat × Nat × R)}
      (hf : WireField int bytes bs f) (hrest : Message rest fs) :
      Message (bs ++ rest) (f.toList ++ fs)

end

section
variable {R : Type} {int : Nat → R} {bytes : Bytes → R}

/-- A message behind another. -/
theorem Message.append {as bs : Bytes} {fs gs : List (Nat × Nat × R)}
    (h₁ : Message int bytes as fs) (h₂ : Message int bytes bs gs) :
    Message int bytes (as ++ bs) (fs ++ gs) := by
  induction h₁ with
  | nil => exact h₂
  | cons hf _ ih =>
    rw [List.append_assoc, List.append_assoc]
    exact .cons hf ih

/-- A message of one field. -/
theorem Message.field {bs : Bytes} {f : Option (Nat × Nat × R)} (h : WireField int bytes bs f) :
    Message int bytes bs f.toList := by
  simpa using Message.cons h .nil

end

end Ser2Net.Lib.Protobuf
