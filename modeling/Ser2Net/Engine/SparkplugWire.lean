import Ser2Net.Engine.Sparkplug
import Ser2Net.Lib.Protobuf

namespace Ser2Net.Engine.Sparkplug

open Ser2Net.Lib
open Ser2Net.Lib.Protobuf (Digits IsVarint IsKey Scalar Content WireField)

/-!
# The reader of the Sparkplug B codec against the wire format

The decoder walks positions of a buffer.  Each of its readers accepts exactly the bytes that the
protobuf grammar allows at its position, hands on what they stand for and stops right after them.

* `readVarint_iff`, `readKey_iff`, `valueSpan_iff` — varints, keys and scalar values;
* `skipGroup_iff` — the stack of `_skip_group` follows properly nested groups;
* `nextField_iff` — one round of the field walk is one field;
* `fields_iff` — a walk returns exactly on messages, with the fold of its body over their fields.
-/

/-! ### Varints and keys -/

theorem and_low7 (v : Nat) : v &&& 0x7F = v % 128 := Nat.and_two_pow_sub_one_eq_mod v 7

theorem and_low3 (v : Nat) : v &&& 7 = v % 8 := Nat.and_two_pow_sub_one_eq_mod v 3

/-- The loop of the reader takes at most `n` digits; the bits read before stay below `shift`. -/
theorem readVarintLoop_iff {data : Bytes} {n shift value pos v pos' : Nat}
    (hval : value < 2 ^ shift) :
    readVarintLoop data n shift value pos = .ok (v, pos') ↔
      ∃ bs w, Digits bs w ∧ bs.length ≤ n ∧ At data pos bs ∧ pos' = pos + bs.length ∧
        v = (value + w * 2 ^ shift) % 2 ^ 64 := by
  induction n generalizing shift value pos with
  | zero =>
    constructor
    · intro h
      cases h
    · rintro ⟨bs, w, hd, hlen, -⟩
      exact absurd (List.length_eq_zero_iff.1 (Nat.le_zero.1 hlen)) hd.ne_nil
  | succ n ih =>
    unfold readVarintLoop
    split
    next hend =>
      constructor
      · intro h
        cases h
      · -- no digit stands at the end of the buffer
        rintro ⟨bs, w, hd, -, hat, -⟩
        have hle := List.IsPrefix.length_le hat
        rw [List.length_drop, Nat.sub_eq_zero_of_le hend] at hle
        exact absurd (List.length_eq_zero_iff.1 (Nat.le_zero.1 hle)) hd.ne_nil
    next hlt =>
      have hlt : pos < data.length := Nat.lt_of_not_le hlt
      rw [List.getElem?_eq_getElem hlt]
      dsimp only
      have hbyte : data[pos]? = some data[pos] := List.getElem?_eq_getElem hlt
      generalize data[pos] = b at hbyte
      -- the bits of this byte stand above those read before
      have hor : value ||| (b.toNat &&& 0x7F) <<< shift = value + b.toNat % 128 * 2 ^ shift := by
        rw [and_low7, Nat.or_comm, Nat.shiftLeft_eq, Nat.mul_comm,
          ← Nat.two_pow_add_eq_or_of_lt hval]
        omega
      rw [hor, u64Max, Nat.and_two_pow_sub_one_eq_mod]
      split
      next hb =>
        have hsmall : b.toNat % 128 = b.toNat := by
          rw [UInt8.lt_iff_toNat_lt] at hb
          exact Nat.mod_eq_of_lt hb
        rw [hsmall]
        constructor
        · intro h
          simp only [Except.ok.injEq, Prod.mk.injEq] at h
          refine ⟨[b], b.toNat, .last hb, by simp, ?_, h.2.symm, h.1.symm⟩
          rw [at_cons]
          exact ⟨hbyte, List.nil_prefix⟩
        · rintro ⟨bs, w, hd, hlen, hat, rfl, rfl⟩
          cases hd with
          | last _ =>
            obtain rfl : b = _ := Option.some.inj (hbyte.symm.trans (at_cons.1 hat).1)
            rfl
          | more hc _ =>
            obtain rfl : b = _ := Option.some.inj (hbyte.symm.trans (at_cons.1 hat).1)
            exact absurd hb hc
      next hb =>
        have hval' : value + b.toNat % 128 * 2 ^ shift < 2 ^ (shift + 7) := by
          have : b.toNat % 128 * 2 ^ shift ≤ 127 * 2 ^ shift := Nat.mul_le_mul_right _ (by omega)
          rw [Nat.pow_add]
          omega
        have hsum : ∀ w, value + b.toNat % 128 * 2 ^ shift + w * 2 ^ (shift + 7) =
            value + (b.toNat % 128 + w * 128) * 2 ^ shift := by
          intro w
          rw [Nat.pow_add]
          ring
        rw [ih hval']
        constructor
        · rintro ⟨bs, w, hd, hlen, hat, rfl, rfl⟩
          refine ⟨b :: bs, _, .more hb hd, by simpa using hlen, at_cons.2 ⟨hbyte, hat⟩, ?_, ?_⟩
          · rw [List.length_cons]
            omega
          · rw [hsum]
        · rintro ⟨bs, w, hd, hlen, hat, rfl, rfl⟩
          cases hd with
          | last hc =>
            obtain rfl : b = _ := Option.some.inj (hbyte.symm.trans (at_cons.1 hat).1)
            exact absurd hc hb
          | @more c cs v hc hs =>
            have hat := at_cons.1 hat
            obtain rfl : b = _ := Option.some.inj (hbyte.symm.trans hat.1)
            refine ⟨cs, v, hs, by simpa using hlen, hat.2, ?_, ?_⟩
            · rw [List.length_cons]
              omega
            · rw [hsum]

/-- **Varints.** -/
theorem readVarint_iff {data : Bytes} {pos v pos' : Nat} :
    readVarint data pos = .ok (v, pos') ↔
      ∃ bs, IsVarint bs v ∧ At data pos bs ∧ pos' = pos + bs.length := by
  rw [readVarint, readVarintLoop_iff (by simp)]
  constructor
  · rintro ⟨bs, w, hd, hlen, hat, rfl, rfl⟩
    exact ⟨bs, ⟨w, hd, hlen, by simp⟩, hat, rfl⟩
  · rintro ⟨bs, ⟨w, hd, hlen, rfl⟩, hat, rfl⟩
    exact ⟨bs, w, hd, hlen, hat, rfl, by simp⟩

/-- **Keys.** -/
theorem readKey_iff {data : Bytes} {pos number wireType pos' : Nat} :
    readKey data pos = .ok (number, wireType, pos') ↔
      ∃ bs, IsKey bs number wireType ∧ At data pos bs ∧ pos' = pos + bs.length := by
  rw [readKey, except_bind_eq_ok]
  constructor
  · rintro ⟨⟨k, p⟩, hk, h⟩
    obtain ⟨bs, hbs, hat, rfl⟩ := readVarint_iff.1 hk
    dsimp only at h
    split at h
    next hr =>
      simp only [Except.ok.injEq, Prod.mk.injEq] at h
      obtain ⟨rfl, rfl, rfl⟩ := h
      refine ⟨bs, ⟨k, hbs, Nat.shiftRight_eq_div_pow k 3, and_low3 k, hr.1, ?_⟩, hat, rfl⟩
      have := hr.2
      unfold maxField at this
      omega
    next => cases h
  · rintro ⟨bs, ⟨k, hbs, rfl, rfl, hlo, hhi⟩, hat, rfl⟩
    refine ⟨(k, pos + bs.length), readVarint_iff.2 ⟨bs, hbs, hat, rfl⟩, ?_⟩
    dsimp only
    rw [Nat.shiftRight_eq_div_pow, if_pos ⟨hlo, Nat.le_pred_of_lt hhi⟩, and_low3]

/-! ### Scalar values -/

/-- The end check accepts the bytes that are there. -/
theorem spanOf_at {data : Bytes} {pos : Nat} {bs : Bytes} (hpos : pos ≤ data.length)
    (hat : At data pos bs) : spanOf data pos bs.length = .ok (pos, pos + bs.length) := by
  have hend := hat.length_le hpos
  rw [spanOf, if_neg (by omega)]

theorem slice_at {data : Bytes} {pos : Nat} {bs : Bytes} (hat : At data pos bs) :
    slice data pos (pos + bs.length) = bs := by
  rw [slice, Nat.add_sub_cancel_left, hat.slice]

/-- A span that passed the end check is the bytes of a slice. -/
theorem at_slice {data : Bytes} {pos size start fin : Nat}
    (h : spanOf data pos size = .ok (start, fin)) :
    start = pos ∧ At data pos (slice data start fin) ∧ (slice data start fin).length = size ∧
      fin = pos + size := by
  obtain ⟨rfl, rfl, hend⟩ := spanOf_pos h
  refine ⟨rfl, List.take_prefix _ _, ?_, rfl⟩
  rw [slice, List.length_take, List.length_drop]
  omega

/-- **Scalar values**, read: the span of a value covers the bytes of a scalar, and its slice is
    what a scalar other than a varint stands for. -/
theorem valueSpan_sound {data : Bytes} {pos wireType start fin : Nat}
    (h : valueSpan data pos wireType = .ok (start, fin)) :
    ∃ bs v, Scalar Raw.int Raw.bytes wireType bs v ∧ At data pos bs ∧ fin = pos + bs.length ∧
      (wireType ≠ wVarint → v = .bytes (slice data start fin)) := by
  unfold valueSpan at h
  split at h
  next hw =>
    obtain ⟨⟨v, p⟩, hv, h⟩ := except_bind_eq_ok.1 h
    obtain ⟨bs, hbs, hat, rfl⟩ := readVarint_iff.1 hv
    simp only [except_pure, Except.ok.injEq, Prod.mk.injEq] at h
    obtain ⟨rfl, rfl⟩ := h
    exact ⟨bs, .int v, hw ▸ .varint hbs, hat, rfl, fun hne => absurd hw hne⟩
  split at h
  next hw =>
    obtain ⟨rfl, hat, hlen, rfl⟩ := at_slice h
    exact ⟨_, _, hw ▸ .i64 hlen, hat, by rw [hlen], fun _ => rfl⟩
  split at h
  next hw =>
    obtain ⟨rfl, hat, hlen, rfl⟩ := at_slice h
    exact ⟨_, _, hw ▸ .i32 hlen, hat, by rw [hlen], fun _ => rfl⟩
  split at h
  next hw =>
    obtain ⟨⟨size, p⟩, hv, h⟩ := except_bind_eq_ok.1 h
    -- the span begins behind the length
    obtain ⟨l, hl, hat, rfl⟩ := readVarint_iff.1 hv
    obtain ⟨rfl, hat', hlen, rfl⟩ := at_slice h
    refine ⟨_, _, hw ▸ .len (hlen.symm ▸ hl), at_append.2 ⟨hat, hat'⟩, ?_, fun _ => rfl⟩
    rw [List.length_append, hlen, Nat.add_assoc]
  · cases h

/-- **Scalar values**, from the bytes. -/
theorem valueSpan_complete {data : Bytes} {pos wireType : Nat} {bs : Bytes} {v : Raw}
    (hv : Scalar Raw.int Raw.bytes wireType bs v) (hpos : pos ≤ data.length)
    (hat : At data pos bs) :
    ∃ start, valueSpan data pos wireType = .ok (start, pos + bs.length) ∧
      (wireType ≠ wVarint → v = .bytes (slice data start (pos + bs.length))) := by
  unfold valueSpan
  -- one case for each wire type that has a length
  cases hv with
  | varint hbs =>
    refine ⟨pos, ?_, fun hne => absurd rfl hne⟩
    rw [if_pos (by decide), readVarint_iff.2 ⟨bs, hbs, hat, rfl⟩]
    rfl
  | i64 hlen =>
    refine ⟨pos, ?_, fun _ => by rw [slice_at hat]⟩
    rw [if_neg (by decide), if_pos (by decide), ← hlen, spanOf_at hpos hat]
  | @len l b hl =>
    rw [at_append] at hat
    refine ⟨pos + l.length, ?_, ?_⟩
    · rw [if_neg (by decide), if_neg (by decide), if_neg (by decide), if_pos (by decide),
        readVarint_iff.2 ⟨l, hl, hat.1, rfl⟩, except_ok_bind]
      dsimp only
      rw [spanOf_at (hat.1.length_le hpos) hat.2, List.length_append, Nat.add_assoc]
    · intro _
      rw [List.length_append, ← Nat.add_assoc, slice_at hat.2]
  | i32 hlen =>
    refine ⟨pos, ?_, fun _ => by rw [slice_at hat]⟩
    rw [if_neg (by decide), if_neg (by decide), if_pos (by decide), ← hlen, spanOf_at hpos hat]

/-- The wire type of a scalar is no group's. -/
theorem scalar_wireType {wireType : Nat} {bs : Bytes} {v : Raw}
    (hv : Scalar Raw.int Raw.bytes wireType bs v) :
    wireType ≠ wSgroup ∧ wireType ≠ wEgroup := by
  cases hv <;> decide

/-! ### Groups -/

/-- The bytes that close the open groups of a stack, innermost first. -/
inductive Closes : List Nat → Bytes → Prop
  | nil : Closes [] []
  | cons {top : Nat} {outer : List Nat} {inner e rest : Bytes}
      (hin : Content Raw.int Raw.bytes inner) (he : IsKey e top wEgroup)
      (hrest : Closes outer rest) : Closes (top :: outer) (inner ++ e ++ rest)

theorem Closes.exists_cons {top : Nat} {outer : List Nat} {bs : Bytes}
    (h : Closes (top :: outer) bs) :
    ∃ inner e rest, bs = inner ++ e ++ rest ∧ Content Raw.int Raw.bytes inner ∧
      IsKey e top wEgroup ∧ Closes outer rest := by
  cases h with
  | cons hin he hrest => exact ⟨_, _, _, rfl, hin, he, hrest⟩

/-- A skip that returned went over bytes that close its groups. -/
theorem skipGroup_sound {data : Bytes} {pos pos' : Nat} {stack : List Nat}
    (h : skipGroup data pos stack = .ok pos') :
    ∃ bs, Closes stack bs ∧ At data pos bs ∧ pos' = pos + bs.length := by
  fun_induction skipGroup data pos stack with
  | case1 pos =>
    obtain rfl := Except.ok.inj h
    exact ⟨[], .nil, List.nil_prefix, rfl⟩
  | case2 => cases h
  | case3 pos top outer number p hk ih =>
    -- a group opens: what the skip closes next is that group
    obtain ⟨k, hkey, hat, rfl⟩ := readKey_iff.1 hk
    obtain ⟨bs, hbs, hat', rfl⟩ := ih h
    obtain ⟨inner, e, _, rfl, hin, he, hrest⟩ := hbs.exists_cons
    obtain ⟨inner', e', rest, rfl, hin', he', hrest'⟩ := hrest.exists_cons
    refine ⟨(k ++ inner ++ e ++ inner') ++ e' ++ rest, .cons (.group hkey hin he hin') he' hrest',
      ?_, ?_⟩
    · rw [show k ++ inner ++ e ++ inner' ++ e' ++ rest = k ++ (inner ++ e ++ (inner' ++ e' ++ rest))
        by simp only [List.append_assoc]]
      exact at_append.2 ⟨hat, hat'⟩
    · simp only [List.length_append]
      omega
  | case4 pos outer number p hk _ ih =>
    obtain ⟨k, hkey, hat, rfl⟩ := readKey_iff.1 hk
    obtain ⟨bs, hbs, hat', rfl⟩ := ih h
    refine ⟨[] ++ k ++ bs, .cons .nil hkey hbs, at_append.2 ⟨hat, hat'⟩, ?_⟩
    rw [List.nil_append, List.length_append, Nat.add_assoc]
  | case5 => cases h
  | case6 => cases h
  | case7 pos top outer number wireType p hk _ _ start fin hs ih =>
    obtain ⟨k, hkey, hat, rfl⟩ := readKey_iff.1 hk
    obtain ⟨value, v, hv, hatv, rfl, -⟩ := valueSpan_sound hs
    obtain ⟨bs, hbs, hat', rfl⟩ := ih h
    obtain ⟨inner, e, rest, rfl, hin, he, hrest⟩ := hbs.exists_cons
    refine ⟨(k ++ value ++ inner) ++ e ++ rest, .cons (.scalar hkey hv hin) he hrest, ?_, ?_⟩
    · rw [show k ++ value ++ inner ++ e ++ rest = k ++ value ++ (inner ++ e ++ rest)
        by simp only [List.append_assoc]]
      refine at_append.2 ⟨at_append.2 ⟨hat, hatv⟩, ?_⟩
      rw [List.length_append, ← Nat.add_assoc]
      exact hat'
    · simp only [List.length_append]
      omega

/-- One round of the skip, for each kind of key. -/
theorem skipGroup_open {data : Bytes} {pos number : Nat} {k : Bytes} {stack : List Nat}
    (hk : IsKey k number wSgroup) (hat : At data pos k) (hne : stack ≠ []) :
    skipGroup data pos stack = skipGroup data (pos + k.length) (number :: stack) := by
  have hread := readKey_iff.2 ⟨k, hk, hat, rfl⟩
  cases stack with
  | nil => exact absurd rfl hne
  | cons top outer =>
    rw [skipGroup]
    split
    next h => rw [hread] at h; cases h
    next h =>
      rw [hread] at h
      simp only [Except.ok.injEq, Prod.mk.injEq] at h
      obtain ⟨rfl, rfl, rfl⟩ := h
      rw [if_pos rfl]

theorem skipGroup_close {data : Bytes} {pos number : Nat} {e : Bytes} {outer : List Nat}
    (he : IsKey e number wEgroup) (hat : At data pos e) :
    skipGroup data pos (number :: outer) = skipGroup data (pos + e.length) outer := by
  have hread := readKey_iff.2 ⟨e, he, hat, rfl⟩
  rw [skipGroup]
  split
  next h => rw [hread] at h; cases h
  next h =>
    rw [hread] at h
    simp only [Except.ok.injEq, Prod.mk.injEq] at h
    obtain ⟨rfl, rfl, rfl⟩ := h
    rw [if_neg (by decide), if_pos rfl, if_pos rfl]

/-- A scalar inside an open group is passed over. -/
theorem skipGroup_scalar {data : Bytes} {pos number wireType : Nat} {k bs : Bytes} {v : Raw}
    {stack : List Nat} (hk : IsKey k number wireType)
    (hv : Scalar Raw.int Raw.bytes wireType bs v) (hpos : pos ≤ data.length)
    (hat : At data pos (k ++ bs)) (hne : stack ≠ []) :
    skipGroup data pos stack = skipGroup data (pos + (k ++ bs).length) stack := by
  rw [at_append] at hat
  have hread := readKey_iff.2 ⟨k, hk, hat.1, rfl⟩
  obtain ⟨start, hspan, -⟩ := valueSpan_complete hv (hat.1.length_le hpos) hat.2
  have hw := scalar_wireType hv
  cases stack with
  | nil => exact absurd rfl hne
  | cons top outer =>
    -- the loop reads the key and the span that the bytes are
    rw [skipGroup]
    split
    next h => rw [hread] at h; cases h
    next h =>
      rw [hread] at h
      simp only [Except.ok.injEq, Prod.mk.injEq] at h
      obtain ⟨rfl, rfl, rfl⟩ := h
      rw [if_neg hw.1, if_neg hw.2]
      split
      next h => rw [hspan] at h; cases h
      next h =>
        rw [hspan] at h
        simp only [Except.ok.injEq, Prod.mk.injEq] at h
        rw [← h.2, List.length_append, Nat.add_assoc]

/-- Inside an open group the skip goes over any content. -/
theorem skipGroup_content {data : Bytes} {inner : Bytes}
    (hin : Content Raw.int Raw.bytes inner) {pos : Nat} {stack : List Nat}
    (hpos : pos ≤ data.length) (hat : At data pos inner) (hne : stack ≠ []) :
    skipGroup data pos stack = skipGroup data (pos + inner.length) stack := by
  -- induction on the content: the content of an inner group is skipped with that group on the
  -- stack, which its end key then takes off
  induction hin generalizing pos stack with
  | nil => rfl
  | @scalar k bs rest number wireType v hk hv hrest ih =>
    have hat' := at_append.1 hat
    rw [skipGroup_scalar hk hv hpos hat'.1 hne, ih (hat'.1.length_le hpos) hat'.2 hne,
      Nat.add_assoc, ← List.length_append]
  | @group k inner e rest number hk hin he hrest ihin ihrest =>
    have hat₁ := at_append.1 hat
    have hat₂ := at_append.1 hat₁.1
    have hat₃ := at_append.1 hat₂.1
    have hpos₃ := hat₃.1.length_le hpos
    have hpos₂ := hat₂.1.length_le hpos
    have hpos₁ := hat₁.1.length_le hpos
    have hend : pos + k.length + inner.length = pos + (k ++ inner).length := by
      rw [List.length_append, Nat.add_assoc]
    have hend' : pos + (k ++ inner).length + e.length = pos + (k ++ inner ++ e).length := by
      rw [Nat.add_assoc, ← List.length_append]
    rw [skipGroup_open hk hat₃.1 hne, ihin hpos₃ hat₃.2 (by simp), hend,
      skipGroup_close he hat₂.2, hend', ihrest hpos₁ hat₁.2 hne, Nat.add_assoc,
      ← List.length_append]

/-- **Groups.**  The skip of a group returns after the content of the group and its end key. -/
theorem skipGroup_iff {data : Bytes} {pos pos' number : Nat} (hpos : pos ≤ data.length) :
    skipGroup data pos [number] = .ok pos' ↔
      ∃ inner e, Content Raw.int Raw.bytes inner ∧ IsKey e number wEgroup ∧
        At data pos (inner ++ e) ∧ pos' = pos + (inner ++ e).length := by
  constructor
  · intro h
    obtain ⟨bs, hbs, hat, rfl⟩ := skipGroup_sound h
    obtain ⟨inner, e, _, rfl, hin, he, hrest⟩ := hbs.exists_cons
    cases hrest
    rw [List.append_nil] at hat ⊢
    exact ⟨inner, e, hin, he, hat, rfl⟩
  · rintro ⟨inner, e, hin, he, hat, rfl⟩
    have hat' := at_append.1 hat
    rw [skipGroup_content hin hpos hat'.1 (by simp), skipGroup_close he hat'.2, skipGroup,
      List.length_append, Nat.add_assoc]

/-! ### Fields and messages -/

/-- One field of a message, as the walk yields it. -/
abbrev IsField : Bytes → Option Field → Prop := WireField Raw.int Raw.bytes

/-- A message, with the fields that the walk yields. -/
abbrev IsMessage : Bytes → List Field → Prop := Protobuf.Message Raw.int Raw.bytes

/-- One round of the walk, read. -/
theorem nextField_sound {data : Bytes} {pos pos' : Nat} {f : Option Field}
    (hpos : pos ≤ data.length) (h : nextField data pos = .ok (f, pos')) :
    ∃ bs, IsField bs f ∧ At data pos bs ∧ pos' = pos + bs.length := by
  obtain ⟨⟨number, wireType, p⟩, hk, h⟩ := except_bind_eq_ok.1 h
  obtain ⟨k, hkey, hat, rfl⟩ := readKey_iff.1 hk
  dsimp only at h
  split at h
  next hw =>
    -- a group is passed over
    obtain ⟨q, hq, h⟩ := except_bind_eq_ok.1 h
    obtain ⟨inner, e, hin, he, hat', rfl⟩ := (skipGroup_iff (hat.length_le hpos)).1 hq
    simp only [except_pure, Except.ok.injEq, Prod.mk.injEq] at h
    obtain ⟨rfl, rfl⟩ := h
    rw [hw] at hkey
    refine ⟨k ++ inner ++ e, .group hkey hin he, ?_, ?_⟩
    · rw [List.append_assoc]
      exact at_append.2 ⟨hat, hat'⟩
    · simp only [List.length_append]
      omega
  split at h
  next hw =>
    obtain ⟨⟨v, q⟩, hq, h⟩ := except_bind_eq_ok.1 h
    obtain ⟨bs, hbs, hat', rfl⟩ := readVarint_iff.1 hq
    simp only [except_pure, Except.ok.injEq, Prod.mk.injEq] at h
    obtain ⟨rfl, rfl⟩ := h
    subst hw
    refine ⟨k ++ bs, .scalar hkey (.varint hbs), at_append.2 ⟨hat, hat'⟩, ?_⟩
    rw [List.length_append, Nat.add_assoc]
  next hw =>
    -- the other scalars are handed on as the slice that they span
    obtain ⟨⟨start, q⟩, hq, h⟩ := except_bind_eq_ok.1 h
    obtain ⟨bs, v, hv, hat', rfl, hslice⟩ := valueSpan_sound hq
    simp only [except_pure, Except.ok.injEq, Prod.mk.injEq] at h
    obtain ⟨rfl, rfl⟩ := h
    rw [← hslice hw]
    refine ⟨k ++ bs, .scalar hkey hv, at_append.2 ⟨hat, hat'⟩, ?_⟩
    rw [List.length_append, Nat.add_assoc]

/-- One round of the walk, from the bytes of a field. -/
theorem nextField_complete {data : Bytes} {pos : Nat} {bs : Bytes} {f : Option Field}
    (hf : IsField bs f) (hpos : pos ≤ data.length) (hat : At data pos bs) :
    nextField data pos = .ok (f, pos + bs.length) := by
  rw [nextField, except_bind_eq_ok]
  cases hf with
  | @scalar k value number wireType v hk hv =>
    have hat' := at_append.1 hat
    refine ⟨_, readKey_iff.2 ⟨k, hk, hat'.1, rfl⟩, ?_⟩
    dsimp only
    rw [if_neg (scalar_wireType hv).1]
    by_cases hw : wireType = wVarint
    · rw [if_pos hw]
      -- a varint is read once more for its value
      subst hw
      cases hv with
      | varint hbs =>
        rw [readVarint_iff.2 ⟨value, hbs, hat'.2, rfl⟩, except_ok_bind, List.length_append,
          Nat.add_assoc]
        rfl
    · obtain ⟨start, hspan, hslice⟩ := valueSpan_complete hv (hat'.1.length_le hpos) hat'.2
      rw [if_neg hw, hspan, except_ok_bind]
      dsimp only
      rw [← hslice hw, List.length_append, Nat.add_assoc]
      rfl
  | @group k inner e number hk hin he =>
    rw [List.append_assoc] at hat ⊢
    have hat' := at_append.1 hat
    refine ⟨_, readKey_iff.2 ⟨k, hk, hat'.1, rfl⟩, ?_⟩
    dsimp only
    rw [if_pos (by decide),
      (skipGroup_iff (hat'.1.length_le hpos)).2 ⟨inner, e, hin, he, hat'.2, rfl⟩,
      except_ok_bind, Nat.add_assoc, ← List.length_append]
    rfl

/-- **Fields.**  One round of the walk returns exactly on a field, and stops after it. -/
theorem nextField_iff {data : Bytes} {pos pos' : Nat} {f : Option Field}
    (hpos : pos ≤ data.length) :
    nextField data pos = .ok (f, pos') ↔
      ∃ bs, IsField bs f ∧ At data pos bs ∧ pos' = pos + bs.length := by
  constructor
  · intro h
    exact nextField_sound hpos h
  · rintro ⟨bs, hf, hat, rfl⟩
    exact nextField_complete hf hpos hat

section
variable {α : Type} {step : α → Field → Sp α} {data : Bytes}

/-- The walk over one field: its body runs on what the field stands for. -/
theorem fields_cons {pos : Nat} {bs : Bytes} {f : Option Field} (hf : IsField bs f)
    (hpos : pos ≤ data.length) (hat : At data pos bs) (a : α) :
    fields step data a pos =
      (f.toList.foldlM step a >>= fun b => fields step data b (pos + bs.length)) := by
  have hnext := (nextField_iff hpos).2 ⟨bs, hf, hat, rfl⟩
  have hmove := nextField_pos hnext
  -- a field takes a byte at least, so the loop is not at its end
  rw [fields, if_pos (by omega)]
  split
  next h => rw [hnext] at h; cases h
  next h =>
    rw [hnext] at h
    simp only [Except.ok.injEq, Prod.mk.injEq] at h
    obtain ⟨rfl, rfl⟩ := h
    rfl
  next g p h =>
    rw [hnext] at h
    simp only [Except.ok.injEq, Prod.mk.injEq] at h
    obtain ⟨rfl, rfl⟩ := h
    rw [Option.toList_some, List.foldlM_cons]
    cases step a g with
    | error e => rfl
    | ok b => rfl

/-- The walk over the front of a buffer that is a message. -/
theorem fields_message {pos : Nat} {bs : Bytes} {fs : List Field} (hm : IsMessage bs fs)
    (hpos : pos ≤ data.length) (hat : At data pos bs) (a : α) :
    fields step data a pos =
      (fs.foldlM step a >>= fun b => fields step data b (pos + bs.length)) := by
  induction hm generalizing pos a with
  | nil => rfl
  | @cons bs rest f fs hf _ ih =>
    have hat' := at_append.1 hat
    rw [fields_cons hf hpos hat'.1, List.foldlM_append, bind_assoc]
    congr 1
    funext b
    rw [ih (hat'.1.length_le hpos) hat'.2, List.length_append, Nat.add_assoc]

/-- A walk that returned went over a message to the end of the buffer. -/
theorem fields_sound {a r : α} {pos : Nat} (hpos : pos ≤ data.length)
    (h : fields step data a pos = .ok r) :
    ∃ fs, IsMessage (data.drop pos) fs ∧ fs.foldlM step a = .ok r := by
  fun_induction fields step data a pos with
  | case1 => cases h
  | case2 a pos hlt pos' hf ih =>
    -- a group: the body of the loop does not see it
    have hmove := nextField_pos hf
    obtain ⟨bs, hbs, hat, rfl⟩ := (nextField_iff hpos).1 hf
    obtain ⟨fs, hm, hr⟩ := ih hmove.2 h
    refine ⟨fs, ?_, hr⟩
    rw [hat.drop_eq]
    exact .cons hbs hm
  | case3 => cases h
  | case4 a pos hlt f pos' hf a' hstep ih =>
    have hmove := nextField_pos hf
    obtain ⟨bs, hbs, hat, rfl⟩ := (nextField_iff hpos).1 hf
    obtain ⟨fs, hm, hr⟩ := ih hmove.2 h
    refine ⟨f :: fs, ?_, ?_⟩
    · rw [hat.drop_eq]
      exact .cons hbs hm
    · rw [List.foldlM_cons, hstep]
      exact hr
  | case5 a pos hend =>
    obtain rfl := Except.ok.inj h
    refine ⟨[], ?_, rfl⟩
    rw [List.drop_eq_nil_of_le (by omega)]
    exact .nil

/-- **Messages.**  A walk over a buffer returns exactly when the buffer is a message and the body
    of the loop takes its fields, one by one. -/
theorem fields_iff {a r : α} :
    fields step data a 0 = .ok r ↔ ∃ fs, IsMessage data fs ∧ fs.foldlM step a = .ok r := by
  constructor
  · intro h
    exact fields_sound (Nat.zero_le _) h
  · rintro ⟨fs, hm, hr⟩
    rw [fields_message hm (Nat.zero_le _) (at_self data), hr, except_ok_bind, fields,
      if_neg (by omega)]

end

end Ser2Net.Engine.Sparkplug
