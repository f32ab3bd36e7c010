import Ser2Net.Engine.SparkplugRoundTrip

namespace Ser2Net.Engine.Sparkplug

open Ser2Net.Lib

/-!
# Truncated Sparkplug B payloads

An encoded payload is a row of top-level fields, and the decoder takes a cut-off payload exactly
when the cut falls between two of them.

* `TopField`, `topFields`, `ofFields` — a payload as the row of fields that it is sent as;
* `encodePayload_topFields` — the encoding is the encoded fields, one after the other;
* `IsField.unique` — no field is a proper prefix of another;
* `decodePayload_cut` — what each proper prefix of an encoded payload decodes to.
-/

/-! ### Payloads as rows of fields -/

/-- A top-level field of a payload. -/
inductive TopField
  | timestamp (v : Value)
  | metric (m : Metric)
  | seq (v : Value)
  | uuid (v : Value)
  | body (v : Value)

namespace TopField

/-- The field number. -/
def number : TopField → Nat
  | timestamp _ => 1
  | metric _ => 2
  | seq _ => 3
  | uuid _ => 4
  | body _ => 5

/-- The field `f` may stand before `g`: fields stand in field-number order, and only metrics
    are repeated. -/
def Before (f g : TopField) : Prop := f.number < g.number ∨ f.number = 2 ∧ g.number = 2

/-- The field is on the wire: `None` leaves a field off. -/
def Sent : TopField → Prop
  | metric _ => True
  | timestamp v | seq v | uuid v | body v => v ≠ .none

end TopField

/-- A field of a payload that is there unless it is `None`. -/
def optField (field : Value → TopField) (v : Value) : List TopField :=
  if v = .none then [] else [field v]

/-- The top-level fields of a payload in the order that they are sent in. -/
def topFields (p : Payload) : List TopField :=
  optField .timestamp p.timestamp ++ p.metrics.map .metric ++ optField .seq p.seq ++
    optField .uuid p.uuid ++ optField .body p.body

/-- A payload with one more field. -/
def addField (p : Payload) : TopField → Payload
  | .timestamp v => { p with timestamp := v }
  | .metric m => { p with metrics := p.metrics ++ [m] }
  | .seq v => { p with seq := v }
  | .uuid v => { p with uuid := v }
  | .body v => { p with body := v }

/-- The payload without fields. -/
def emptyPayload : Payload := ⟨.none, [], .none, .none, .none⟩

/-- The payload that is made of some fields. -/
def ofFields (fs : List TopField) : Payload := fs.foldl addField emptyPayload

/-- A field that is sent has a value. -/
@[simp] theorem mem_optField {field : Value → TopField} {v : Value} {f : TopField} :
    f ∈ optField field v ↔ v ≠ .none ∧ f = field v := by
  unfold optField
  split <;> simp_all

/-- A field without a value is not sent. -/
@[simp] theorem optField_none (field : Value → TopField) : optField field .none = [] := rfl

/-- A field with a value is sent. -/
theorem optField_sent (field : Value → TopField) {v : Value} (h : v ≠ .none) :
    optField field v = [field v] := if_neg h

/-- The fields of a payload. -/
theorem mem_topFields {p : Payload} {f : TopField} :
    f ∈ topFields p ↔ (p.timestamp ≠ .none ∧ f = .timestamp p.timestamp) ∨
      (∃ m ∈ p.metrics, .metric m = f) ∨ (p.seq ≠ .none ∧ f = .seq p.seq) ∨
      (p.uuid ≠ .none ∧ f = .uuid p.uuid) ∨ (p.body ≠ .none ∧ f = .body p.body) := by
  simp [topFields]

/-- The fields of a payload are sent. -/
theorem topFields_sent (p : Payload) : ∀ f ∈ topFields p, f.Sent := by
  intro f hf
  rcases mem_topFields.1 hf with ⟨h, rfl⟩ | ⟨m, -, rfl⟩ | ⟨h, rfl⟩ | ⟨h, rfl⟩ | ⟨h, rfl⟩
  · exact h
  · trivial
  · exact h
  · exact h
  · exact h

/-- One field at most is in order. -/
theorem pairwise_optField (field : Value → TopField) (v : Value) :
    (optField field v).Pairwise TopField.Before := by
  unfold optField
  split
  · exact .nil
  · exact List.pairwise_singleton _ _

/-- The fields of a payload are in the order of their numbers. -/
theorem topFields_ordered (p : Payload) : (topFields p).Pairwise TopField.Before := by
  have hmetrics : (p.metrics.map TopField.metric).Pairwise TopField.Before := by
    rw [List.pairwise_map]
    exact List.pairwise_of_forall fun _ _ => Or.inr ⟨rfl, rfl⟩
  unfold topFields
  simp only [List.pairwise_append, pairwise_optField, hmetrics, true_and,
    List.mem_append, List.mem_map, mem_optField]
  -- each part stands before the parts that follow it
  refine ⟨⟨⟨?_, ?_⟩, ?_⟩, ?_⟩ <;> intro f hf g hg <;> refine Or.inl ?_ <;>
    grind [TopField.number]

/-- A field that may stand after all fields of a payload is added at the end. -/
theorem topFields_addField {p : Payload} {f : TopField} (hsent : f.Sent)
    (hlast : ∀ g ∈ topFields p, g.Before f) : topFields (addField p f) = topFields p ++ [f] := by
  -- the fields that would have to stand after `f` are not there
  have hnone : ∀ (v : Value) (field : Value → TopField), (v ≠ .none → field v ∈ topFields p) →
      ¬ (field v).Before f → v = .none := by
    intro v field hmem hnot
    by_contra hv
    exact hnot (hlast _ (hmem hv))
  have hseq := hnone p.seq .seq (fun h => mem_topFields.2 (by simp [h]))
  have huuid := hnone p.uuid .uuid (fun h => mem_topFields.2 (by simp [h]))
  have hbody := hnone p.body .body (fun h => mem_topFields.2 (by simp [h]))
  have hts := hnone p.timestamp .timestamp (fun h => mem_topFields.2 (by simp [h]))
  have hms : ¬ (TopField.metric {}).Before f → p.metrics = [] := by
    intro hnot
    refine List.eq_nil_iff_forall_not_mem.2 fun m hm => hnot ?_
    exact hlast (.metric m) (mem_topFields.2 (by simp [hm]))
  cases f with
  | timestamp v =>
    have hv := optField_sent .timestamp hsent
    simp [topFields, addField, hv, hts, hms, hseq, huuid, hbody, TopField.Before, TopField.number]
  | metric m =>
    simp [topFields, addField, hseq, huuid, hbody, TopField.Before, TopField.number]
  | seq v =>
    have hv := optField_sent .seq hsent
    simp [topFields, addField, hv, hseq, huuid, hbody, TopField.Before, TopField.number]
  | uuid v =>
    have hv := optField_sent .uuid hsent
    simp [topFields, addField, hv, huuid, hbody, TopField.Before, TopField.number]
  | body v =>
    have hv := optField_sent .body hsent
    simp [topFields, addField, hv, hbody, TopField.Before, TopField.number]

/-- Fields in order make a payload that consists of them. -/
theorem topFields_ofFields {fs : List TopField} (hsent : ∀ f ∈ fs, f.Sent)
    (hord : fs.Pairwise TopField.Before) : topFields (ofFields fs) = fs := by
  induction fs using List.reverseRecOn with
  | nil => rfl
  | append_singleton fs f ih =>
    rw [List.pairwise_append] at hord
    have ih := ih (fun g hg => hsent g (List.mem_append_left _ hg)) hord.1
    have hadd : ofFields (fs ++ [f]) = addField (ofFields fs) f := by
      rw [ofFields, List.foldl_append]
      rfl
    have hlast : ∀ g ∈ topFields (ofFields fs), g.Before f := by
      rw [ih]
      exact fun g hg => hord.2.2 g hg f List.mem_cons_self
    rw [hadd, topFields_addField (hsent f (by simp)) hlast, ih]

/-- The fields before a cut make a payload that consists of them. -/
theorem topFields_ofFields_of_prefix {p : Payload} {front : List TopField}
    (h : front <+: topFields p) : topFields (ofFields front) = front :=
  topFields_ofFields (fun f hf => topFields_sent p f (h.subset hf))
    ((topFields_ordered p).sublist h.sublist)

/-! ### Encoding field by field -/

/-- The encoding of one top-level field. -/
def encodeField (includeDatatype : Bool) : TopField → Sp Bytes
  | .timestamp v => optUint 1 v 64 ⟨none, "payload timestamp"⟩
  | .metric m => do fieldLen 2 (← encodeMetric m includeDatatype)
  | .seq v => optUint 3 v 8 ⟨none, "payload seq"⟩
  | .uuid v => optText 4 v ⟨none, "payload uuid"⟩
  | .body v => optBlob 5 v ⟨none, "payload body"⟩

/-- The encoding of a row of fields. -/
def encodeFields (includeDatatype : Bool) : List TopField → Sp Bytes
  | [] => .ok []
  | f :: rest => do
    let bytes ← encodeField includeDatatype f
    return bytes ++ (← encodeFields includeDatatype rest)

/-- Fields are encoded one after another. -/
theorem encodeFields_append (inc : Bool) (fs gs : List TopField) :
    encodeFields inc (fs ++ gs) =
      (encodeFields inc fs >>= fun as => encodeFields inc gs >>= fun bs => .ok (as ++ bs)) := by
  induction fs with
  | nil =>
    cases h : encodeFields inc gs <;> simp [encodeFields, h]
  | cons f fs ih =>
    rw [List.cons_append, encodeFields, ih, encodeFields]
    cases encodeField inc f with
    | error e => rfl
    | ok a =>
      cases encodeFields inc fs with
      | error e => rfl
      | ok as =>
        cases encodeFields inc gs with
        | error e => rfl
        | ok bs => simp

/-- The metrics among the fields. -/
theorem encodeFields_metrics (inc : Bool) (ms : List Metric) :
    encodeFields inc (ms.map .metric) = encodeMetrics inc ms := by
  induction ms with
  | nil => rfl
  | cons m ms ih =>
    rw [List.map_cons, encodeFields, ih, encodeMetrics, encodeField, bind_assoc]

/-- A field that is `None` encodes to nothing. -/
theorem encodeFields_optField {inc : Bool} {field : Value → TopField} {v : Value}
    (hnone : encodeField inc (field .none) = .ok []) :
    encodeFields inc (optField field v) = encodeField inc (field v) := by
  unfold optField
  split
  next h =>
    rw [h, hnone]
    rfl
  next h =>
    rw [encodeFields, encodeFields]
    cases encodeField inc (field v) <;> simp

/-- **The encoding of a payload** is the encoding of its fields, one after the other. -/
theorem encodePayload_topFields (p : Payload) (inc : Bool) :
    encodePayload p inc = encodeFields inc (topFields p) := by
  simp only [topFields, encodeFields_append, encodeFields_metrics, bind_assoc]
  rw [encodeFields_optField rfl, encodeFields_optField rfl, encodeFields_optField rfl,
    encodeFields_optField rfl]
  simp only [encodePayload, encodeField, except_ok_bind]
  rfl

/-! ### Cuts -/

/-- An encoded top-level field is one field of the wire format. -/
theorem isField_encodeField {inc : Bool} {f : TopField} {b : Bytes} (hsent : f.Sent)
    (h : encodeField inc f = .ok b) : ∃ g, IsField b (some g) := by
  -- the two numbers of a payload
  have huint : ∀ {number bits : Nat} {v : Value} {what : What}, 1 ≤ number ∧ number ≤ maxField →
      v ≠ .none → optUint number v bits what = .ok b → ∃ g, IsField b (some g) := by
    intro number bits v what hnum hv h
    rw [optUint, if_neg hv] at h
    obtain ⟨n, -, h⟩ := except_bind_eq_ok.1 h
    obtain ⟨w, -, hfield⟩ := isField_varint h hnum
    exact ⟨_, hfield⟩
  -- a field of a payload is one number or one run of bytes
  cases f with
  | timestamp v => exact huint (by decide) hsent h
  | seq v => exact huint (by decide) hsent h
  | metric m =>
    obtain ⟨raw, -, h⟩ := except_bind_eq_ok.1 h
    exact ⟨_, isField_len h (by decide)⟩
  | uuid v =>
    rw [encodeField, optText, if_neg hsent] at h
    obtain ⟨raw, -, h⟩ := except_bind_eq_ok.1 h
    exact ⟨_, isField_len h (by decide)⟩
  | body v =>
    rw [encodeField, optBlob, if_neg hsent] at h
    obtain ⟨raw, -, h⟩ := except_bind_eq_ok.1 h
    exact ⟨_, isField_len h (by decide)⟩

/-- Two fields at the front of one buffer are one field: none is a proper prefix of another. -/
theorem IsField.unique {data b b' : Bytes} {f f' : Option Field} (h : IsField b f)
    (h' : IsField b' f') (hb : b <+: data) (hb' : b' <+: data) : b = b' ∧ f = f' := by
  have hread := (nextField_iff (Nat.zero_le _)).2 ⟨b, h, hb, rfl⟩
  have hread' := (nextField_iff (Nat.zero_le _)).2 ⟨b', h', hb', rfl⟩
  rw [hread] at hread'
  simp only [Except.ok.injEq, Prod.mk.injEq] at hread'
  refine ⟨?_, hread'.1⟩
  have hle : b <+: b' := List.prefix_of_prefix_length_le hb hb' (by omega)
  exact hle.eq_of_length (by omega)

/-- A field has a byte at least. -/
theorem IsField.ne_nil {b : Bytes} {f : Option Field} (h : IsField b f) : b ≠ [] := by
  rintro rfl
  have hread := (nextField_iff (Nat.zero_le _)).2 ⟨[], h, at_self [], rfl⟩
  have := nextField_pos hread
  simp at this

/-- A cut that is a message falls on a boundary of the row of fields. -/
theorem exists_front {inc : Bool} {fs : List TopField} {bs cut : Bytes} {gs : List Field}
    (hsent : ∀ f ∈ fs, f.Sent) (h : encodeFields inc fs = .ok bs) (hcut : cut <+: bs)
    (hm : IsMessage cut gs) : ∃ front, front <+: fs ∧ encodeFields inc front = .ok cut := by
  induction hm generalizing fs bs with
  | nil => exact ⟨[], List.nil_prefix, rfl⟩
  | @cons b rest f gs hf _ ih =>
    cases fs with
    | nil =>
      obtain rfl := Except.ok.inj h
      have hnil : b = [] := (List.append_eq_nil_iff.1 (List.prefix_nil.1 hcut)).1
      exact absurd hnil (IsField.ne_nil hf)
    | cons t ts =>
      obtain ⟨b', hb', h⟩ := except_bind_eq_ok.1 h
      obtain ⟨bs', hbs', h⟩ := except_bind_eq_ok.1 h
      obtain rfl := Except.ok.inj h
      -- the first field of the cut is the first field of the row
      obtain ⟨g, hg⟩ := isField_encodeField (hsent t List.mem_cons_self) hb'
      obtain ⟨rfl, -⟩ := IsField.unique hf hg ((List.prefix_append b rest).trans hcut)
        (List.prefix_append b' bs')
      obtain ⟨front, hfront, henc⟩ := ih (fun f hf => hsent f (List.mem_cons_of_mem _ hf)) hbs'
        ((List.prefix_append_right_inj b).1 hcut)
      refine ⟨t :: front, List.cons_prefix_cons.2 ⟨rfl, hfront⟩, ?_⟩
      rw [encodeFields, hb', except_ok_bind, henc]
      rfl

/-- **Cuts.**  A proper prefix of an encoded payload decodes exactly when it is the encoding of
    the first few top-level fields, which are not all, and then to the payload of these. -/
theorem decodePayload_cut {p : Payload} {includeDatatype : Bool} {bs cut : Bytes}
    (h : encodePayload p includeDatatype = .ok bs) (hcut : cut <+: bs) (hne : cut ≠ bs)
    (r : Payload) :
    decodePayload cut = .ok r ↔
      ∃ front, front <+: topFields p ∧ front ≠ topFields p ∧
        encodePayload (ofFields front) includeDatatype = .ok cut ∧
        r = receivedPayload includeDatatype (ofFields front) := by
  rw [encodePayload_topFields] at h
  have hsent := topFields_sent p
  constructor
  · intro hr
    obtain ⟨gs, hm, -⟩ := fields_iff.1 hr
    obtain ⟨front, hfront, henc⟩ := exists_front hsent h hcut hm
    have hcutenc : encodePayload (ofFields front) includeDatatype = .ok cut := by
      rw [encodePayload_topFields, topFields_ofFields_of_prefix hfront, henc]
    refine ⟨front, hfront, ?_, hcutenc, ?_⟩
    · rintro rfl
      exact hne (Except.ok.inj (henc.symm.trans h))
    · exact Except.ok.inj (hr.symm.trans (decodePayload_received hcutenc))
  · rintro ⟨front, hfront, -, henc, rfl⟩
    exact decodePayload_received henc

/-- `birthSample`, cut after its timestamp. -/
theorem decodePayload_cut_birthSample :
    decodePayload [8, 232, 7] = .ok ⟨.int 1000, [], .none, .none, .none⟩ := by
  have h : encodePayload birthSample true = .ok birthSampleBytes := by decide +kernel
  have hcut : [8, 232, 7] <+: birthSampleBytes := ⟨_, rfl⟩
  refine (decodePayload_cut h hcut (by decide) _).2 ⟨[.timestamp (.int 1000)], ⟨_, rfl⟩, ?_, ?_, rfl⟩
  · simp [topFields, birthSample, optField]
  · decide +kernel

end Ser2Net.Engine.Sparkplug
