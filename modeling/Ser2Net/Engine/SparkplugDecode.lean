import Ser2Net.Engine.SparkplugRoundTrip
import Ser2Net.Lib.Loop

namespace Ser2Net.Engine.Sparkplug

open Ser2Net.Lib
open Ser2Net.Lib.Protobuf (Scalar IsKey IsVarint isKey_byte isVarint_byte)

/-!
# Decoding arbitrary bytes

What `decodePayload` does with bytes that nobody checked.

* `Safe` — fallible code returns a result with a property or raises a `ValueError`;
* `skipRound`, `fieldsRound` — one round of the `while` loops of the decoder;
* `decodePayload_total` — decoding ends, inside its buffers, with a payload or a `ValueError`;
* `decodePayload_unknown` — fields that the codec does not model are passed over, wherever they
  stand.
-/

/-! ### Code that raises only `ValueError` -/

/-- The code returns a result with property `P`, or raises a `ValueError`. -/
def Safe {α : Type} (P : α → Prop) (x : Sp α) : Prop :=
  match x with
  | .ok a => P a
  | .error e => e.isValueError = true

section
variable {α β : Type} {P : α → Prop} {Q : β → Prop}

/-- Safe code after safe code. -/
theorem Safe.bind {x : Sp α} {f : α → Sp β} (hx : Safe P x) (hf : ∀ a, P a → Safe Q (f a)) :
    Safe Q (x >>= f) := by
  cases x with
  | error e => exact hx
  | ok a => exact hf a hx

/-- Safe code returns or raises a `ValueError`. -/
theorem Safe.ok_or_valueError {x : Sp α} (h : Safe P x) :
    (∃ a, x = .ok a) ∨ ∃ e, x = .error e ∧ e.isValueError = true := by
  cases x with
  | error e => exact Or.inr ⟨e, rfl, h⟩
  | ok a => exact Or.inl ⟨a, rfl⟩

end

/-! ### The readers -/

/-- The reader looks only at bytes that are there. -/
theorem readVarintLoop_safe (data : Bytes) (n shift value pos : Nat) :
    Safe (fun _ => True) (readVarintLoop data n shift value pos) := by
  induction n generalizing shift value pos with
  | zero => rfl
  | succ n ih =>
    unfold readVarintLoop
    split
    · rfl
    next hlt =>
      rw [List.getElem?_eq_getElem (Nat.lt_of_not_le hlt)]
      dsimp only
      split
      · trivial
      · exact ih _ _ _

/-- A varint is read safely. -/
theorem readVarint_safe (data : Bytes) (pos : Nat) : Safe (fun _ => True) (readVarint data pos) :=
  readVarintLoop_safe data 10 0 0 pos

/-- A key is read safely. -/
theorem readKey_safe (data : Bytes) (pos : Nat) : Safe (fun _ => True) (readKey data pos) := by
  refine (readVarint_safe data pos).bind ?_
  rintro ⟨k, p⟩ -
  dsimp only
  split
  · trivial
  · rfl

/-- A span is taken safely. -/
theorem spanOf_safe (data : Bytes) (pos size : Nat) :
    Safe (fun _ => True) (spanOf data pos size) := by
  unfold spanOf
  split
  · rfl
  · trivial

/-- The span of a value is found safely. -/
theorem valueSpan_safe (data : Bytes) (pos wireType : Nat) :
    Safe (fun _ => True) (valueSpan data pos wireType) := by
  unfold valueSpan
  split
  · refine (readVarint_safe data pos).bind ?_
    rintro ⟨v, p⟩ -
    trivial
  split
  · exact spanOf_safe data pos 8
  split
  · exact spanOf_safe data pos 4
  split
  · refine (readVarint_safe data pos).bind ?_
    rintro ⟨size, p⟩ -
    exact spanOf_safe data p size
  · rfl

/-- A group is skipped safely, however deep. -/
theorem skipGroup_safe (data : Bytes) (pos : Nat) (stack : List Nat) :
    Safe (fun _ => True) (skipGroup data pos stack) := by
  fun_induction skipGroup data pos stack with
  | case1 => trivial
  | case2 pos top outer e hk =>
    have := readKey_safe data pos
    rwa [hk] at this
  | case3 _ _ _ _ _ _ ih => exact ih
  | case4 _ _ _ _ _ _ ih => exact ih
  | case5 => rfl
  | case6 pos top outer number wireType p hk _ _ e hs =>
    have := valueSpan_safe data p wireType
    rwa [hs] at this
  | case7 _ _ _ _ _ _ _ _ _ _ _ _ ih => exact ih

/-- The next field is read safely. -/
theorem nextField_safe (data : Bytes) (pos : Nat) :
    Safe (fun _ => True) (nextField data pos) := by
  refine (readKey_safe data pos).bind ?_
  rintro ⟨number, wireType, p⟩ -
  dsimp only
  split
  · exact (skipGroup_safe data p [number]).bind fun _ _ => trivial
  split
  · refine (readVarint_safe data p).bind ?_
    rintro ⟨v, q⟩ -
    trivial
  · refine (valueSpan_safe data p wireType).bind ?_
    rintro ⟨start, q⟩ -
    trivial

/-- A field that the walk yields: its value has the form that its wire type has. -/
def ValidField (f : Field) : Prop := ∃ bs, Scalar Raw.int Raw.bytes f.2.1 bs f.2.2

/-- The fields of a message are valid. -/
theorem validField_of_isField {bs : Bytes} {f : Field} (h : IsField bs (some f)) :
    ValidField f := by
  cases h with
  | scalar _ hv => exact ⟨_, hv⟩

/-- The walk keeps what its body keeps, and raises what its body raises. -/
theorem fields_safe {α : Type} {P : α → Prop} {step : α → Field → Sp α} {data : Bytes} {a : α}
    {pos : Nat} (hstep : ∀ a f, P a → ValidField f → Safe P (step a f)) (ha : P a)
    (hpos : pos ≤ data.length) : Safe P (fields step data a pos) := by
  fun_induction fields step data a pos with
  | case1 a pos hlt e hf =>
    have := nextField_safe data pos
    rwa [hf] at this
  | case2 a pos hlt pos' hf ih => exact ih ha (nextField_pos hf).2
  | case3 a pos hlt f pos' hf e hs =>
    obtain ⟨bs, hbs, -⟩ := (nextField_iff hpos).1 hf
    have := hstep a f ha (validField_of_isField hbs)
    rwa [hs] at this
  | case4 a pos hlt f pos' hf a' hs ih =>
    obtain ⟨bs, hbs, -⟩ := (nextField_iff hpos).1 hf
    have := hstep a f ha (validField_of_isField hbs)
    rw [hs] at this
    exact ih this (nextField_pos hf).2
  | case5 => exact ha

/-! ### Metrics and payloads -/

/-- The value seen last: one of the two integer fields holds an integer. -/
def SeenOk (st : MetricState) : Prop :=
  ∀ number wire, st.2 = some (number, wire) → number = fInt ∨ number = fLong →
    ∃ raw : Int, wire = .int raw

/-- A text is decoded safely. -/
theorem utf8_safe (raw : Bytes) (what : What) : Safe (fun _ => True) (utf8 raw what) := by
  unfold utf8
  split
  · trivial
  · rfl

/-- One field of a metric.  The fixed-width values have the width that `struct` unpacks. -/
theorem metricField_safe {st : MetricState} {f : Field} (hst : SeenOk st) (hf : ValidField f) :
    Safe SeenOk (metricField st f) := by
  obtain ⟨m, value⟩ := st
  obtain ⟨number, wireType, raw⟩ := f
  obtain ⟨bs, hv⟩ := hf
  -- a value that goes into one of the other fields of the `oneof`
  have hother : ∀ number wire, number ≠ fInt → number ≠ fLong →
      SeenOk (m, some (number, wire)) := by
    intro number wire h₁ h₂ n w heq hn
    simp only [Option.some.injEq, Prod.mk.injEq] at heq
    omega
  have hint : ∀ number (n : Nat), SeenOk (m, some (number, .int n)) := by
    intro number n k w heq _
    simp only [Option.some.injEq, Prod.mk.injEq] at heq
    exact ⟨n, heq.2.symm⟩
  unfold metricField
  cases raw with
  | int raw =>
    dsimp only
    split
    · exact hst
    split
    · exact hst
    split
    · exact hst
    split
    · exact hst
    split
    · exact hint _ _
    split
    · exact hint _ _
    split
    next h => exact hother _ _ (by rw [h]; decide) (by rw [h]; decide)
    · exact hst
  | bytes raw =>
    dsimp only
    split
    next hw =>
      split
      · exact (utf8_safe raw _).bind fun _ _ => hst
      split
      next h =>
        exact (utf8_safe raw _).bind fun _ _ => hother _ _ (by rw [h]; decide) (by rw [h]; decide)
      split
      next h => exact hother _ _ (by rw [h]; decide) (by rw [h]; decide)
      · exact hst
    split
    next h =>
      obtain ⟨hn, rfl⟩ := h
      cases hv with
      | i32 hlen =>
        rw [unpackFloat, if_pos hlen]
        exact hother _ _ (by rw [hn]; decide) (by rw [hn]; decide)
    split
    next h =>
      obtain ⟨hn, rfl⟩ := h
      cases hv with
      | i64 hlen =>
        rw [unpackDouble, if_pos hlen]
        exact hother _ _ (by rw [hn]; decide) (by rw [hn]; decide)
    · exact hst

/-- A number is converted safely. -/
theorem intFromWire_safe {m : Metric} {ty : Bool × Nat} (h : intTypes.lookup m.datatype = some ty)
    (raw fieldBits : Nat) : Safe (fun _ => True) (intFromWire raw fieldBits m) := by
  obtain ⟨sgn, bits⟩ := ty
  unfold intFromWire
  rw [h]
  dsimp only
  split
  · split
    · rfl
    · trivial
  split
  · trivial
  split
  · trivial
  · rfl

/-- The conversion by datatype meets an integer wherever it needs one. -/
theorem finishMetric_safe {st : MetricState} (hst : SeenOk st) :
    Safe (fun _ => True) (finishMetric st) := by
  obtain ⟨m, _ | ⟨number, wire⟩⟩ := st
  · trivial
  unfold finishMetric
  dsimp only
  split
  · trivial
  suffices hdec : Safe (fun _ => True) (decodeValue m number wire) from
    hdec.bind fun _ _ => trivial
  unfold decodeValue
  split
  · trivial
  next accepted hvf =>
    split
    · rfl
    next hacc =>
      rcases hint : intTypes.lookup m.datatype with _ | ⟨sgn, bits⟩
      -- only an integer datatype looks into its wire value, and its fields are varints
      · rw [if_neg (by simp)]
        trivial
      · rw [if_pos (by simp)]
        rw [(intTypes_lookup hint).2] at hvf
        obtain rfl := Option.some.inj hvf
        have hnum : number = fInt ∨ number = fLong := by
          split at hacc <;> simp at hacc <;> tauto
        obtain ⟨raw, rfl⟩ := hst number wire rfl hnum
        exact (intFromWire_safe hint raw.toNat _).bind fun _ _ => trivial

/-- A metric is decoded safely. -/
theorem decodeMetric_safe (data : Bytes) : Safe (fun _ => True) (decodeMetric data) := by
  have hwalk : Safe SeenOk (fields metricField data ({}, none) 0) :=
    fields_safe (fun _ _ => metricField_safe) (by intro _ _ h; cases h) (Nat.zero_le _)
  exact hwalk.bind fun _ => finishMetric_safe

/-- A field of a payload is taken safely. -/
theorem payloadField_safe (p : Payload) (f : Field) :
    Safe (fun _ => True) (payloadField p f) := by
  obtain ⟨number, wireType, raw⟩ := f
  unfold payloadField
  -- a field of the wrong wire type is dropped, whatever its number
  cases raw with
  | int raw =>
    dsimp only
    split
    · trivial
    split
    · trivial
    · trivial
  | bytes raw =>
    dsimp only
    split
    · split
      · exact (decodeMetric_safe raw).bind fun _ _ => trivial
      split
      · exact (utf8_safe raw _).bind fun _ _ => trivial
      split
      · trivial
      · trivial
    · trivial

/-! ### The loops -/

/-- One round of the `while` loop of `_skip_group`: the next position with the open groups, or the
    position where the loop is left. -/
def skipRound (data : Bytes) (s : Nat × List Nat) : Sp ((Nat × List Nat) ⊕ Nat) :=
  match s with
  | (pos, []) => .ok (.inr pos)
  | (pos, top :: outer) => do
    let (inner, wireType, pos) ← readKey data pos
    if wireType = wSgroup then return .inl (pos, inner :: top :: outer)
    else if wireType = wEgroup then
      if top = inner then return .inl (pos, outer) else .error .mismatchedEndGroup
    else
      let (_, fin) ← valueSpan data pos wireType
      return .inl (fin, top :: outer)

/-- One round of the `while` loop of `_fields` with the body of the loop that it feeds. -/
def fieldsRound {α : Type} (step : α → Field → Sp α) (data : Bytes) (s : α × Nat) :
    Sp ((α × Nat) ⊕ α) :=
  if s.2 < data.length then do
    let (f, pos) ← nextField data s.2
    match f with
    | none => return .inl (s.1, pos)
    | some f => return .inl (← step s.1 f, pos)
  else .ok (.inr s.1)

/-- A round of the skip moves strictly forward, inside the buffer. -/
theorem skipRound_forward {data : Bytes} {s s' : Nat × List Nat}
    (h : skipRound data s = .ok (.inl s')) : s.1 < s'.1 ∧ s'.1 ≤ data.length := by
  obtain ⟨pos, _ | ⟨top, outer⟩⟩ := s
  · cases h
  obtain ⟨⟨inner, wireType, p⟩, hk, h⟩ := except_bind_eq_ok.1 h
  have hmove := readKey_pos hk
  dsimp only at h
  split at h
  · obtain rfl := Sum.inl.inj (Except.ok.inj h)
    exact hmove
  split at h
  · split at h
    · obtain rfl := Sum.inl.inj (Except.ok.inj h)
      exact hmove
    · cases h
  · obtain ⟨⟨start, fin⟩, hs, h⟩ := except_bind_eq_ok.1 h
    have hspan := valueSpan_pos hs
    obtain rfl := Sum.inl.inj (Except.ok.inj h)
    dsimp only
    omega

/-- A round of the walk moves strictly forward, inside the buffer. -/
theorem fieldsRound_forward {α : Type} {step : α → Field → Sp α} {data : Bytes} {s s' : α × Nat}
    (h : fieldsRound step data s = .ok (.inl s')) : s.2 < s'.2 ∧ s'.2 ≤ data.length := by
  unfold fieldsRound at h
  split at h
  · obtain ⟨⟨f, p⟩, hf, h⟩ := except_bind_eq_ok.1 h
    have hmove := nextField_pos hf
    cases f with
    | none =>
      obtain rfl := Sum.inl.inj (Except.ok.inj h)
      exact hmove
    | some f =>
      obtain ⟨a, -, h⟩ := except_bind_eq_ok.1 h
      obtain rfl := Sum.inl.inj (Except.ok.inj h)
      exact hmove
  · cases h

/-- The loop of `_skip_group` ends, within as many rounds as bytes are left and one more. -/
theorem runFor_skipRound (data : Bytes) (pos : Nat) (stack : List Nat) :
    runFor (skipRound data) (data.length - pos + 1) (pos, stack) =
      some (skipGroup data pos stack) := by
  -- one unfolding of the recursion is one round; the position is the measure
  have hspec : ∀ s : Nat × List Nat, skipGroup data s.1 s.2 =
      skipRound data s >>= fun r => r.elim (fun t => skipGroup data t.1 t.2) .ok := by
    rintro ⟨pos, _ | ⟨top, outer⟩⟩
    · rw [skipGroup]
      rfl
    · rw [skipGroup]
      unfold skipRound
      dsimp only
      split
      next e hk =>
        rw [hk]
        rfl
      next inner wireType p hk =>
        rw [hk, except_ok_bind]
        dsimp only
        split
        · rfl
        split
        · split
          · rfl
          · rfl
        split
        next e hs =>
          rw [hs]
          rfl
        next start fin hs =>
          rw [hs]
          rfl
  have hdec : ∀ s s', skipRound data s = .ok (.inl s') →
      data.length - s'.1 < data.length - s.1 := by
    intro s s' h
    have := skipRound_forward h
    omega
  exact @runFor_eq _ _ _ _ (fun s => skipGroup data s.1 s.2) _ hspec hdec _ (pos, stack)
    (Nat.lt_succ_self _)

/-- The loop of `_fields` ends likewise, whatever loop it feeds. -/
theorem runFor_fieldsRound {α : Type} (step : α → Field → Sp α) (data : Bytes) (a : α)
    (pos : Nat) :
    runFor (fieldsRound step data) (data.length - pos + 1) (a, pos) =
      some (fields step data a pos) := by
  -- one round of the loop, unfolded
  have hspec : ∀ s : α × Nat, fields step data s.1 s.2 =
      fieldsRound step data s >>= fun r => r.elim (fun t => fields step data t.1 t.2) .ok := by
    rintro ⟨a, pos⟩
    rw [fields]
    unfold fieldsRound
    dsimp only
    split
    · split
      next e hf =>
        rw [hf]
        rfl
      next p hf =>
        rw [hf]
        rfl
      next f p hf =>
        rw [hf, except_ok_bind]
        dsimp only
        cases step a f with
        | error e => rfl
        | ok b => rfl
    · rfl
  -- each round takes a byte at least, which is the fuel
  have hdec : ∀ s s', fieldsRound step data s = .ok (.inl s') →
      data.length - s'.2 < data.length - s.2 := by
    intro s s' h
    have := fieldsRound_forward h
    omega
  exact @runFor_eq _ _ _ _ (fun s => fields step data s.1 s.2) _ hspec hdec _ (a, pos)
    (Nat.lt_succ_self _)

/-- **Any bytes.**  Decoding ends with a payload or a `ValueError`.  Over the buffer of whatever
    message, the payload's or a metric's: no byte is read past the end; the span of a value, with
    any claimed length, lies inside the buffer; each round of `_skip_group` and of `_fields` moves
    strictly forward and stays inside; and so both loops end, within as many rounds as bytes are
    left and one more. -/
theorem decodePayload_total (data : Bytes) :
    ((∃ p, decodePayload data = .ok p) ∨
        ∃ e, decodePayload data = .error e ∧ e.isValueError = true) ∧
      ∀ msg : Bytes,
        (∀ pos, readVarint msg pos ≠ .error .indexError) ∧
        (∀ pos wireType start fin, valueSpan msg pos wireType = .ok (start, fin) →
          pos ≤ start ∧ start ≤ fin ∧ fin ≤ msg.length) ∧
        (∀ s s', skipRound msg s = .ok (.inl s') → s.1 < s'.1 ∧ s'.1 ≤ msg.length) ∧
        (∀ pos stack, runFor (skipRound msg) (msg.length - pos + 1) (pos, stack) =
          some (skipGroup msg pos stack)) ∧
        (∀ (α : Type) (step : α → Field → Sp α) (s s' : α × Nat),
          fieldsRound step msg s = .ok (.inl s') → s.2 < s'.2 ∧ s'.2 ≤ msg.length) ∧
        (∀ (α : Type) (step : α → Field → Sp α) (a : α) (pos : Nat),
          runFor (fieldsRound step msg) (msg.length - pos + 1) (a, pos) =
            some (fields step msg a pos)) := by
  -- the loop over the fields raises what its step raises
  have hsafe : Safe (fun _ => True) (decodePayload data) :=
    fields_safe (fun p f _ _ => payloadField_safe p f) trivial (Nat.zero_le _)
  refine ⟨hsafe.ok_or_valueError, ?_⟩
  intro msg
  refine ⟨?_, ?_, ?_, ?_, ?_, ?_⟩
  · intro pos h
    have := readVarint_safe msg pos
    rw [h] at this
    cases this
  · intro pos wireType start fin h
    exact valueSpan_pos h
  · intro s s' h
    exact skipRound_forward h
  · exact runFor_skipRound msg
  · intro α step s s' h
    exact fieldsRound_forward h
  · intro α step a pos
    exact runFor_fieldsRound step msg a pos

/-! ### Unknown fields -/

/-- The fields of a payload that the codec models, by number and wire type. -/
def payloadKnown : List (Nat × Nat) :=
  [(1, wVarint), (2, wLen), (3, wVarint), (4, wLen), (5, wLen)]

/-- The fields of a metric that the codec models. -/
def metricKnown : List (Nat × Nat) :=
  [(1, wLen), (2, wVarint), (3, wVarint), (4, wVarint), (7, wVarint), (fInt, wVarint),
    (fLong, wVarint), (fFloat, wI32), (fDouble, wI64), (fBool, wVarint), (fString, wLen),
    (fBytes, wLen)]

/-- A well-formed field that is not modelled: a group with any content, or a scalar with another
    number, or with a modelled number and another wire type. -/
def Unknown (known : List (Nat × Nat)) (u : Bytes) : Prop :=
  ∃ f, IsField u f ∧ ∀ number wireType v, f = some (number, wireType, v) →
    (number, wireType) ∉ known

/-- A body that does nothing on a field goes over it. -/
theorem foldlM_unknown {α : Type} {step : α → Field → Sp α} {known : List (Nat × Nat)}
    (hstep : ∀ a number wireType v, ValidField (number, wireType, v) →
      (number, wireType) ∉ known → step a (number, wireType, v) = .ok a)
    {u : Bytes} {f : Option Field} (hf : IsField u f)
    (hnot : ∀ number wireType v, f = some (number, wireType, v) → (number, wireType) ∉ known)
    (a : α) : f.toList.foldlM step a = .ok a := by
  cases f with
  | none => rfl
  | some f =>
    obtain ⟨number, wireType, v⟩ := f
    have := hstep a number wireType v (validField_of_isField hf) (hnot _ _ _ rfl)
    rw [Option.toList_some, List.foldlM_cons, this]
    rfl

/-- A field that a payload does not know changes nothing. -/
theorem payloadField_unknown (p : Payload) {number wireType : Nat} {v : Raw}
    (hv : ValidField (number, wireType, v)) (hnot : (number, wireType) ∉ payloadKnown) :
    payloadField p (number, wireType, v) = .ok p := by
  obtain ⟨bs, hv⟩ := hv
  simp only [payloadKnown, List.mem_cons, Prod.mk.injEq, List.not_mem_nil, or_false,
    not_or, not_and] at hnot
  unfold payloadField
  cases hv with
  | varint _ =>
    dsimp only
    rw [if_neg (fun h => hnot.1 h rfl), if_neg (fun h => hnot.2.2.1 h rfl)]
  | i64 _ => rfl
  | len _ =>
    dsimp only
    rw [if_pos (by decide), if_neg (fun h => hnot.2.1 h rfl), if_neg (fun h => hnot.2.2.2.1 h rfl),
      if_neg (fun h => hnot.2.2.2.2 h rfl)]
  | i32 _ => rfl

/-- A field that a metric does not know changes nothing. -/
theorem metricField_unknown (st : MetricState) {number wireType : Nat} {v : Raw}
    (hv : ValidField (number, wireType, v)) (hnot : (number, wireType) ∉ metricKnown) :
    metricField st (number, wireType, v) = .ok st := by
  obtain ⟨bs, hv⟩ := hv
  obtain ⟨m, value⟩ := st
  unfold metricKnown at hnot
  unfold metricField
  cases hv with
  | varint _ =>
    -- the fields that a varint may be in, one after the other as the body asks for them
    have hne : ∀ n ∈ [2, 3, 4, 7, fInt, fLong, fBool], number ≠ n := by
      rintro n hn rfl
      simp [wVarint, wLen, wI32, wI64, fInt, fLong, fBool] at hn hnot
      omega
    simp only [List.forall_mem_cons] at hne
    obtain ⟨h₂, h₃, h₄, h₇, hi, hl, hb, -⟩ := hne
    dsimp only
    rw [if_neg h₂, if_neg h₃, if_neg h₄, if_neg h₇, if_neg hi, if_neg hl, if_neg hb]
  | i64 _ =>
    have hne : number ≠ fDouble := by
      rintro rfl
      exact hnot (by decide)
    dsimp only
    rw [if_neg (by decide), if_neg (by simp [wI32]), if_neg (fun h => hne h.1)]
  | len _ =>
    have hne : ∀ n ∈ [1, fString, fBytes], number ≠ n := by
      rintro n hn rfl
      simp [wVarint, wLen, wI32, wI64, fString, fBytes] at hn hnot
      omega
    simp only [List.forall_mem_cons] at hne
    obtain ⟨h₁, hs, hb, -⟩ := hne
    dsimp only
    rw [if_pos (by decide), if_neg h₁, if_neg hs, if_neg hb]
  | i32 _ =>
    have hne : number ≠ fFloat := by
      rintro rfl
      exact hnot (by decide)
    dsimp only
    rw [if_neg (by decide), if_neg (fun h => hne h.1), if_neg (by simp [wI64])]

section
variable {α : Type} {step : α → Field → Sp α} {pre post : Bytes} {fs : List Field}

/-- A walk that returned, cut at a field boundary: the fields before, and those after. -/
theorem fields_split {a r : α} (hpre : IsMessage pre fs)
    (h : fields step (pre ++ post) a 0 = .ok r) :
    ∃ b gs, fs.foldlM step a = .ok b ∧ IsMessage post gs ∧ gs.foldlM step b = .ok r := by
  have hat : At (pre ++ post) 0 pre := List.prefix_append pre post
  rw [fields_message hpre (Nat.zero_le _) hat, except_bind_eq_ok, Nat.zero_add] at h
  obtain ⟨b, hb, h⟩ := h
  obtain ⟨gs, hgs, hr⟩ := fields_sound (by simp) h
  rw [List.drop_left] at hgs
  exact ⟨b, gs, hb, hgs, hr⟩

/-- A field that the body does nothing on may stand at any field boundary. -/
theorem fields_insert {a r : α} {u : Bytes} {f : Option Field} (hpre : IsMessage pre fs)
    (hf : IsField u f) (hskip : ∀ b : α, f.toList.foldlM step b = .ok b)
    (h : fields step (pre ++ post) a 0 = .ok r) : fields step (pre ++ u ++ post) a 0 = .ok r := by
  obtain ⟨b, gs, hb, hgs, hr⟩ := fields_split hpre h
  refine fields_iff.2 ⟨fs ++ f.toList ++ gs, (hpre.append (.field hf)).append hgs, ?_⟩
  rw [List.foldlM_append, List.foldlM_append, hb, except_ok_bind, hskip, except_ok_bind, hr]

end

/-- Unknown fields anywhere in a metric. -/
theorem decodeMetric_insert {pre post u : Bytes} {fs : List Field} {m : Metric}
    (hpre : IsMessage pre fs) (hu : Unknown metricKnown u)
    (h : decodeMetric (pre ++ post) = .ok m) : decodeMetric (pre ++ u ++ post) = .ok m := by
  obtain ⟨f, hf, hnot⟩ := hu
  obtain ⟨st, hst, h⟩ := except_bind_eq_ok.1 h
  have hskip := foldlM_unknown (fun st _ _ _ => metricField_unknown st) hf hnot
  rw [decodeMetric, fields_insert hpre hf hskip hst, except_ok_bind, h]

/-- **Unknown fields.**  A well-formed field that the codec does not model may be put at any field
    boundary of a payload that decodes, or of one of its metrics with the length of the metric
    adjusted, and the payload decodes as before. -/
theorem decodePayload_unknown {pre post u : Bytes} {fs : List Field} {p : Payload}
    (hpre : IsMessage pre fs) (h : decodePayload (pre ++ post) = .ok p) :
    (Unknown payloadKnown u → decodePayload (pre ++ u ++ post) = .ok p) ∧
      ∀ (k l l' mpre mpost rest : Bytes) (gs : List Field), IsKey k 2 wLen →
        IsVarint l (mpre ++ mpost).length → IsMessage mpre gs →
        post = k ++ (l ++ (mpre ++ mpost)) ++ rest → Unknown metricKnown u →
        IsVarint l' (mpre ++ u ++ mpost).length →
        decodePayload (pre ++ (k ++ (l' ++ (mpre ++ u ++ mpost))) ++ rest) = .ok p := by
  constructor
  · rintro ⟨f, hf, hnot⟩
    exact fields_insert hpre hf (foldlM_unknown (fun p _ _ _ => payloadField_unknown p) hf hnot) h
  · rintro k l l' mpre mpost rest gs hk hl hmpre rfl hu hl'
    have hmetric : ∀ {l body : Bytes}, IsVarint l body.length →
        IsMessage (k ++ (l ++ body)) [(2, wLen, .bytes body)] := fun hl =>
      .field (.scalar hk (.len hl))
    -- the fields before the metric, the metric, and the fields after it
    obtain ⟨b, hs, hb, hhs, hr⟩ := fields_split hpre h
    obtain ⟨c, ts, hc, hts, hr⟩ := fields_split (hmetric hl) (fields_iff.2 ⟨hs, hhs, hr⟩)
    refine fields_iff.2 ⟨_, (hpre.append (hmetric hl')).append hts, ?_⟩
    -- the body of the loop decodes the metric as before
    have hstep : [(2, wLen, Raw.bytes (mpre ++ u ++ mpost))].foldlM payloadField b = .ok c := by
      simp only [List.foldlM_cons, List.foldlM_nil] at hc ⊢
      obtain ⟨c', hc', hc⟩ := except_bind_eq_ok.1 hc
      obtain ⟨m, hm, hc'⟩ := except_bind_eq_ok.1 hc'
      have hmetric' := decodeMetric_insert hmpre hu hm
      simp only [payloadField, if_true, hmetric', except_ok_bind]
      rw [← hc, ← Except.ok.inj hc']
      rfl
    rw [List.foldlM_append, List.foldlM_append, hb, except_ok_bind, hstep, except_ok_bind, hr]

/-- A group of field 5 with a varint field inside. -/
def groupSample : Bytes := [43, 8, 1, 44]

/-- The group of the example is unknown to all. -/
theorem unknown_groupSample (known : List (Nat × Nat)) : Unknown known groupSample :=
  ⟨none, @Protobuf.WireField.group _ _ _ [43] [8, 1] [44] 5 (isKey_byte (by decide) (by decide))
    (@Protobuf.Content.scalar _ _ _ [8] [1] [] 1 0 _ (isKey_byte (by decide) (by decide))
      (.varint (isVarint_byte (by decide))) .nil) (isKey_byte (by decide) (by decide)),
    fun _ _ _ h => nomatch h⟩

/-- The group before a metric, and inside it. -/
theorem decodePayload_unknown_groupSample :
    decodePayload ([8, 1] ++ groupSample ++ [18, 2, 16, 5]) =
        .ok ⟨.int 1, [{ metricAlias := .int 5 }], .none, .none, .none⟩ ∧
      decodePayload ([8, 1] ++ ([18] ++ ([6] ++ ([16, 5] ++ groupSample ++ []))) ++ []) =
        .ok ⟨.int 1, [{ metricAlias := .int 5 }], .none, .none, .none⟩ := by
  have hvar : ∀ k v : UInt8, k < 0x80 → 8 ≤ k.toNat → k.toNat % 8 = 0 → v < 0x80 →
      IsMessage [k, v] [(k.toNat / 8, wVarint, .int v.toNat)] := by
    intro k v hk hk8 hw hv
    have hkey := isKey_byte hk hk8
    rw [hw] at hkey
    exact .field (.scalar hkey (.varint (isVarint_byte hv)))
  have hpre := hvar 8 1 (by decide) (by decide) (by decide) (by decide)
  have hdec : decodePayload ([8, 1] ++ [18, 2, 16, 5]) =
      .ok ⟨.int 1, [{ metricAlias := .int 5 }], .none, .none, .none⟩ := by decide +kernel
  have h := @decodePayload_unknown _ _ groupSample _ _ hpre hdec
  refine ⟨h.1 (unknown_groupSample _), ?_⟩
  exact h.2 [18] [2] [6] [16, 5] [] [] _ (isKey_byte (by decide) (by decide))
    (isVarint_byte (by decide)) (hvar 16 5 (by decide) (by decide) (by decide) (by decide)) rfl
    (unknown_groupSample _) (isVarint_byte (by decide))

end Ser2Net.Engine.Sparkplug
