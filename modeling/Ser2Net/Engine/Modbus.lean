import Ser2Net.Lib.Binary
import Ser2Net.Lib.Crc
import Ser2Net.Lib.Framing

namespace Ser2Net.Engine.Modbus

open Ser2Net.Lib

/-!
# Engine — Modbus framing (`app/engine/modbus.py`)

The two envelopes of a Modbus PDU: the RTU frame of the serial bus with its CRC, and the
Modbus/TCP frame with its MBAP header, which a master's stream is cut into.

* `rtuUnwrap_rtuWrap` — an RTU frame unwraps to the unit and the PDU it was made of;
* `rtuUnwrap_exact` — nothing else unwraps, and an alteration within two consecutive bytes of
  a frame is always noticed;
* `takeTcpAdu`, `tcpDecoder` — the frame popped from a streaming buffer, as a decoder;
* `takeTcpAdu_buildTcpAdu` — a built frame is popped again, whatever follows it;
* `reassembly_independent_of_chunks` — the frames, the error and the bytes left over do not
  depend on how a stream is cut, and built frames come back as they were.
-/

/-- `MAX_PDU`. -/
def maxPdu : Nat := 253

/-- `GATEWAY_TARGET_FAILED`. -/
def gatewayTargetFailed : UInt8 := 0x0B

/-- `hi << 8 | lo`. -/
def word (hi lo : UInt8) : Nat := hi.toNat <<< 8 ||| lo.toNat

/-! ### RTU -/

/-- One of the eight shifts for a byte of the CRC. -/
def crcShift (crc : UInt16) : UInt16 := if crc &&& 1 = 1 then (crc >>> 1) ^^^ 0xA001 else crc >>> 1

/-- One byte of the CRC. -/
def crcByte (crc : UInt16) (byte : UInt8) : UInt16 := crcShift^[8] (crc ^^^ byte.toUInt16)

/-- `crc16`. -/
def crc16 (data : Bytes) : UInt16 := data.foldl crcByte 0xFFFF

/-- `rtu_wrap`. -/
def rtuWrap (unit : Nat) (pdu : Bytes) : Bytes :=
  let body := UInt8.ofNat unit :: pdu
  body ++ [(crc16 body).toUInt8, (crc16 body >>> 8).toUInt8]

/-- `rtu_unwrap`; `none` is the `ValueError` of a short frame or a wrong CRC. -/
def rtuUnwrap (frame : Bytes) : Option (Nat × Bytes) :=
  if frame.length < 4 then none
  else
    let body := frame.dropLast.dropLast
    match frame.dropLast.getLast?, frame.getLast? with
    | some lo, some hi =>
      if (crc16 body).toNat ≠ word hi lo then none
      else match body with
        | unit :: pdu => some (unit.toNat, pdu)
        | [] => none
    | _, _ => none

/-- `exception_pdu`. -/
def exceptionPdu (function code : UInt8) : Bytes := [function ||| 0x80, code]

/-! ### Modbus/TCP -/

/-- A Modbus/TCP frame: transaction id, unit and PDU. -/
structure Adu where
  txn : Nat
  unit : Nat
  pdu : Bytes
  deriving DecidableEq, Repr

/-- `build_tcp_adu`. -/
def buildTcpAdu (txn unit : Nat) (pdu : Bytes) : Bytes :=
  let length := pdu.length + 1
  [UInt8.ofNat (txn >>> 8), UInt8.ofNat txn, 0, 0, UInt8.ofNat (length >>> 8), UInt8.ofNat length,
    UInt8.ofNat unit] ++ pdu

/-- The frame built of its parts. -/
def Adu.build (f : Adu) : Bytes := buildTcpAdu f.txn f.unit f.pdu

/-- `take_tcp_adu`. -/
def takeTcpAdu : Bytes → Take UInt8 Adu String
  | t1 :: t0 :: p1 :: p0 :: l1 :: l0 :: unit :: body =>
    let length := word l1 l0
    if word p1 p0 ≠ 0 then .bad "not Modbus/TCP (protocol id != 0)"
    else if ¬ (1 ≤ length ∧ length ≤ maxPdu + 1) then
      .bad ("invalid MBAP length " ++ toString length)
    -- the length counts the unit, which belongs to the header
    else if body.length < length - 1 then .need
    else .frame ⟨word t1 t0, unit.toNat, body.take (length - 1)⟩ (body.drop (length - 1))
  | _ => .need

/-! ### Words and bytes -/

theorem word_eq (hi lo : UInt8) : word hi lo = 256 * hi.toNat + lo.toNat := by
  have hlo : lo.toNat < 2 ^ 8 := lo.toNat_lt
  rw [word, ← Nat.shiftLeft_add_eq_or_of_lt hlo, Nat.shiftLeft_eq]
  omega

/-- The two bytes of a 16-bit number read back as it. -/
theorem word_ofNat (n : Nat) : word (UInt8.ofNat (n >>> 8)) (UInt8.ofNat n) = n % 65536 := by
  rw [word_eq, UInt8.toNat_ofNat', UInt8.toNat_ofNat', Nat.shiftRight_eq_div_pow]
  omega

/-- The two bytes of a CRC read back as it. -/
theorem word_crc (c : UInt16) : word (c >>> 8).toUInt8 c.toUInt8 = c.toNat := by
  have hc : c.toNat < 2 ^ 16 := c.toNat_lt
  rw [word_eq]
  simp only [UInt16.toNat_toUInt8, UInt16.toNat_shiftRight, UInt16.reduceToNat,
    Nat.shiftRight_eq_div_pow, Nat.reduceMod, Nat.reducePow]
  omega

/-! ### The RTU envelope -/

/-- **The RTU round trip.** -/
theorem rtuUnwrap_rtuWrap (unit : Nat) {pdu : Bytes} (h : pdu ≠ []) :
    rtuUnwrap (rtuWrap unit pdu) = some (unit % 256, pdu) := by
  have hlen : 1 ≤ pdu.length := List.length_pos_iff.2 h
  have hshort : ¬ (rtuWrap unit pdu).length < 4 := by
    simp only [rtuWrap, List.length_append, List.length_cons, List.length_nil]
    omega
  have hsplit : rtuWrap unit pdu = (UInt8.ofNat unit :: pdu ++
      [(crc16 (UInt8.ofNat unit :: pdu)).toUInt8]) ++
        [(crc16 (UInt8.ofNat unit :: pdu) >>> 8).toUInt8] := by
    simp [rtuWrap]
  rw [rtuUnwrap, if_neg hshort, hsplit]
  simp only [List.dropLast_concat, List.getLast?_concat, word_crc, ne_eq, not_true_eq_false,
    if_false, UInt8.toNat_ofNat']

/-- What unwraps is at least an address, a function code and a CRC. -/
theorem rtuUnwrap_pdu_ne_nil {frame pdu : Bytes} {unit : Nat}
    (h : rtuUnwrap frame = some (unit, pdu)) : pdu.length + 3 = frame.length ∧ pdu ≠ [] := by
  unfold rtuUnwrap at h
  split at h
  · cases h
  · next hlen =>
    simp only at h
    split at h
    · split at h
      · cases h
      · split at h
        · next u p hbody =>
          have hcount := congrArg List.length hbody
          simp only [List.length_dropLast, List.length_cons] at hcount
          obtain ⟨-, rfl⟩ := Prod.mk.inj (Option.some.inj h)
          constructor
          · omega
          · rintro rfl
            simp only [List.length_nil] at hcount
            omega
        · cases h
    · cases h

/-- The bytes of a 16-bit number that two bytes spell. -/
theorem bytes_of_word {c : UInt16} {hi lo : UInt8} (h : c.toNat = word hi lo) :
    c.toUInt8 = lo ∧ (c >>> 8).toUInt8 = hi := by
  have hlo : lo.toNat < 256 := lo.toNat_lt
  have hhi : hi.toNat < 256 := hi.toNat_lt
  rw [word_eq] at h
  constructor
  · apply UInt8.toNat_inj.1
    rw [UInt16.toNat_toUInt8, h]
    omega
  · apply UInt8.toNat_inj.1
    simp only [UInt16.toNat_toUInt8, UInt16.toNat_shiftRight, UInt16.reduceToNat,
      Nat.shiftRight_eq_div_pow, Nat.reduceMod, Nat.reducePow, h]
    omega

/-- What is unwrapped are a body and its CRC. -/
theorem rtuUnwrap_cases {frame pdu : Bytes} {unit : Nat} (h : rtuUnwrap frame = some (unit, pdu)) :
    ∃ (u lo hi : UInt8), frame = (u :: pdu) ++ [lo, hi] ∧ unit = u.toNat ∧
      (crc16 (u :: pdu)).toNat = word hi lo := by
  unfold rtuUnwrap at h
  split at h
  · cases h
  · next hlen =>
    simp only at h
    split at h
    · next lo hi hlo hhi =>
      split at h
      · cases h
      · next hcrc =>
        split at h
        · next u p hbody =>
          obtain ⟨rfl, rfl⟩ := Prod.mk.inj (Option.some.inj h)
          refine ⟨u, lo, hi, ?_, rfl, ?_⟩
          -- the two bytes of the sum are cut off from the right
          · have hlast := List.dropLast_append_getLast? hi hhi
            have hlast' := List.dropLast_append_getLast? lo hlo
            rw [← hlast, ← hlast', hbody, List.append_assoc]
            rfl
          · rw [← hbody]
            exact not_not.1 hcrc
        · cases h
    · cases h

/-- Only what `rtu_wrap` builds is unwrapped. -/
theorem rtuUnwrap_eq_some {frame pdu : Bytes} {unit : Nat} :
    rtuUnwrap frame = some (unit, pdu) ↔ pdu ≠ [] ∧ unit ≤ 255 ∧ frame = rtuWrap unit pdu := by
  constructor
  · intro h
    obtain ⟨u, lo, hi, hframe, hunit, hcrc⟩ := rtuUnwrap_cases h
    have hu : u.toNat < 256 := u.toNat_lt
    obtain ⟨hlo, hhi⟩ := bytes_of_word hcrc
    refine ⟨(rtuUnwrap_pdu_ne_nil h).2, by omega, ?_⟩
    have hbyte : UInt8.ofNat unit = u := by
      rw [hunit]
      exact UInt8.ofNat_toNat
    simp only [rtuWrap, hbyte, hlo, hhi]
    exact hframe
  · rintro ⟨hpdu, hunit, rfl⟩
    rw [rtuUnwrap_rtuWrap unit hpdu, Nat.mod_eq_of_lt (by omega)]

/-! ### What the CRC notices -/

/-- The polynomial of the CRC. -/
def crcPoly : BitVec 16 := 0xA001#16

/-- The register of the CRC that has taken in a whole frame, its CRC included, is clear. -/
def CrcClear (frame : Bytes) : Prop :=
  Crc.register crcPoly 8 0xFFFF#16 (frame.map fun b => b.toUInt16.toBitVec) = 0#16

theorem crcShift_toBitVec (c : UInt16) :
    (crcShift c).toBitVec = Crc.shift crcPoly c.toBitVec := by
  have hlow : c &&& 1 = 1 ↔ c.toBitVec.getLsbD 0 = true := by
    rw [← UInt16.toBitVec_inj, UInt16.toBitVec_and]
    show c.toBitVec &&& 1#16 = 1#16 ↔ _
    rw [BitVec.and_one_eq_setWidth_ofBool_getLsbD]
    cases c.toBitVec.getLsbD 0 with
    | false => decide
    | true => decide
  unfold crcShift Crc.shift
  by_cases h : c &&& 1 = 1
  · rw [if_pos h, if_pos (hlow.1 h)]
    rfl
  · rw [if_neg h, if_neg (fun hb => h (hlow.2 hb))]
    rfl

theorem crcByte_toBitVec (c : UInt16) (b : UInt8) :
    (crcByte c b).toBitVec = Crc.symbol crcPoly 8 c.toBitVec b.toUInt16.toBitVec := by
  have hiter : ∀ (n : Nat) (c : UInt16),
      (crcShift^[n] c).toBitVec = (Crc.shift crcPoly)^[n] c.toBitVec := by
    intro n
    induction n with
    | zero => intro c; rfl
    | succ n ih =>
      intro c
      rw [Function.iterate_succ_apply, Function.iterate_succ_apply, ih, crcShift_toBitVec]
  exact hiter 8 (c ^^^ b.toUInt16)

/-- `crc16` is the register of the CRC. -/
theorem crc16_toBitVec (data : Bytes) :
    (crc16 data).toBitVec =
      Crc.register crcPoly 8 0xFFFF#16 (data.map fun b => b.toUInt16.toBitVec) := by
  have hfold : ∀ (c : UInt16), (data.foldl crcByte c).toBitVec =
      Crc.register crcPoly 8 c.toBitVec (data.map fun b => b.toUInt16.toBitVec) := by
    induction data with
    | nil => intro c; rfl
    | cons b data ih =>
      intro c
      rw [List.foldl_cons, ih, crcByte_toBitVec]
      rfl
  exact hfold 0xFFFF

theorem byte_toNat_lt (b : UInt8) : b.toUInt16.toBitVec.toNat < 2 ^ 8 := by
  show b.toUInt16.toNat < 2 ^ 8
  rw [UInt8.toNat_toUInt16]
  exact b.toNat_lt

/-- A body is followed by its CRC exactly when the frame clears the register. -/
theorem crcClear_iff (body : Bytes) (lo hi : UInt8) :
    CrcClear (body ++ [lo, hi]) ↔ (crc16 body).toNat = word hi lo := by
  have hpoly : crcPoly.msb = true := by decide
  unfold CrcClear
  rw [List.map_append, Crc.register_append, ← crc16_toBitVec]
  show Crc.register crcPoly 8 (crc16 body).toBitVec [lo.toUInt16.toBitVec, hi.toUInt16.toBitVec] =
    0#16 ↔ _
  rw [Crc.register_pair_eq_zero hpoly rfl (byte_toNat_lt lo) (byte_toNat_lt hi)]
  show (crc16 body).toNat = lo.toUInt16.toNat + 256 * hi.toUInt16.toNat ↔ _
  rw [UInt8.toNat_toUInt16, UInt8.toNat_toUInt16, word_eq, Nat.add_comm]

theorem crcClear_of_unwrap {frame pdu : Bytes} {unit : Nat}
    (h : rtuUnwrap frame = some (unit, pdu)) : CrcClear frame := by
  obtain ⟨u, lo, hi, rfl, -, hcrc⟩ := rtuUnwrap_cases h
  exact (crcClear_iff (u :: pdu) lo hi).2 hcrc

/-- Two frames that clear the register and differ within two consecutive bytes only are the
    same. -/
theorem crcClear_pair {pre post : Bytes} {a b a' b' : UInt8} (h : CrcClear (pre ++ a :: b :: post))
    (h' : CrcClear (pre ++ a' :: b' :: post)) : a = a' ∧ b = b' := by
  have hpoly : crcPoly.msb = true := by decide
  have heq := h.trans h'.symm
  simp only [List.map_append, List.map_cons] at heq
  obtain ⟨ha, hb⟩ := Crc.register_pair_injective hpoly (by decide) (byte_toNat_lt a) (byte_toNat_lt b)
    (byte_toNat_lt a') (byte_toNat_lt b') heq
  have hinj : ∀ x y : UInt8, x.toUInt16.toBitVec = y.toUInt16.toBitVec → x = y := by
    intro x y hxy
    have hnat := congrArg BitVec.toNat hxy
    change x.toUInt16.toNat = y.toUInt16.toNat at hnat
    rw [UInt8.toNat_toUInt16, UInt8.toNat_toUInt16] at hnat
    exact UInt8.toNat_inj.1 hnat
  exact ⟨hinj a a' ha, hinj b b' hb⟩

/-- **The RTU envelope is exact and notices bursts.**  `rtu_unwrap` accepts exactly the frames
    that `rtu_wrap` builds, and no such frame with an alteration within two consecutive bytes,
    those of the CRC included. -/
theorem rtuUnwrap_exact :
    (∀ (frame pdu : Bytes) (unit : Nat),
      rtuUnwrap frame = some (unit, pdu) ↔ pdu ≠ [] ∧ unit ≤ 255 ∧ frame = rtuWrap unit pdu) ∧
    ∀ (unit : Nat) (pdu pre post : Bytes) (a b a' b' : UInt8), pdu ≠ [] → unit ≤ 255 →
      rtuWrap unit pdu = pre ++ a :: b :: post → (a', b') ≠ (a, b) →
      rtuUnwrap (pre ++ a' :: b' :: post) = none := by
  refine ⟨fun frame pdu unit => rtuUnwrap_eq_some, ?_⟩
  intro unit pdu pre post a b a' b' hpdu hunit hframe hne
  have hclear : CrcClear (pre ++ a :: b :: post) := by
    rw [← hframe]
    exact crcClear_of_unwrap (rtuUnwrap_eq_some.2 ⟨hpdu, hunit, rfl⟩)
  by_contra hsome
  obtain ⟨⟨u, p⟩, hu⟩ := Option.ne_none_iff_exists'.1 hsome
  obtain ⟨ha, hb⟩ := crcClear_pair hclear (crcClear_of_unwrap hu)
  exact hne (by rw [ha, hb])

/-- A burst over the last byte of the body and the first one of the CRC. -/
theorem rtuUnwrap_exact_straddling :
    rtuUnwrap ([1, 3, 0, 0, 0] ++ 2 :: 0x85 :: [0x0A]) = none :=
  rtuUnwrap_exact.2 1 [3, 0, 0, 0, 1] [1, 3, 0, 0, 0] [0x0A] 1 0x84 2 0x85 (by decide) (by decide)
    (by decide +kernel) (by decide)

/-! ### The streaming buffer -/

/-- What a popped frame says about the buffer. -/
theorem takeTcpAdu_frame {s r : Bytes} {f : Adu} (h : takeTcpAdu s = .frame f r) :
    r.length < s.length := by
  unfold takeTcpAdu at h
  split at h
  · simp only at h
    split at h
    · cases h
    · split at h
      · cases h
      · split at h
        · cases h
        · obtain ⟨-, rfl⟩ := Take.frame.inj h
          simp only [List.length_drop, List.length_cons]
          omega
  · cases h

theorem takeTcpAdu_frame_append {s r : Bytes} {f : Adu} (t : Bytes) (h : takeTcpAdu s = .frame f r) :
    takeTcpAdu (s ++ t) = .frame f (r ++ t) := by
  unfold takeTcpAdu at h
  split at h
  · next t1 t0 p1 p0 l1 l0 unit body =>
    simp only at h
    split at h
    · cases h
    · next hproto =>
      split at h
      · cases h
      · next hlen =>
        split at h
        · cases h
        · next hbody =>
          obtain ⟨rfl, rfl⟩ := Take.frame.inj h
          -- the body was complete, so what follows it stays behind
          have hlong : ¬ (body ++ t).length < word l1 l0 - 1 := by
            rw [List.length_append]
            omega
          simp only [List.cons_append, takeTcpAdu]
          rw [if_neg hproto, if_neg hlen, if_neg hlong,
            List.take_append_of_le_length (by omega), List.drop_append_of_le_length (by omega)]
  · cases h

theorem takeTcpAdu_bad_append {s : Bytes} {e : String} (t : Bytes) (h : takeTcpAdu s = .bad e) :
    takeTcpAdu (s ++ t) = .bad e := by
  unfold takeTcpAdu at h
  split at h
  · next t1 t0 p1 p0 l1 l0 unit body =>
    simp only at h
    split at h
    · next hproto =>
      cases h
      simp only [List.cons_append, takeTcpAdu]
      rw [if_pos hproto]
    · next hproto =>
      split at h
      · next hlen =>
        cases h
        simp only [List.cons_append, takeTcpAdu]
        rw [if_neg hproto, if_pos hlen]
      · split at h
        · cases h
        · cases h
  · cases h

/-- `take_tcp_adu` as a decoder of a master's stream. -/
def tcpDecoder : Decoder UInt8 Adu String where
  take := takeTcpAdu
  take_nil := rfl
  progress := takeTcpAdu_frame
  frame_append := takeTcpAdu_frame_append
  bad_append := takeTcpAdu_bad_append

/-! ### Built frames -/

/-- A frame that the header can express: a 16-bit transaction id, an 8-bit unit and a PDU of
    at most `MAX_PDU` bytes. -/
structure Adu.Fits (f : Adu) : Prop where
  txn : f.txn < 2 ^ 16
  unit : f.unit < 256
  pdu : f.pdu.length ≤ maxPdu

/-- What `take_tcp_adu` sees of a built frame of any length: the header holds the length
    modulo `2^16`. -/
theorem takeTcpAdu_build (txn unit : Nat) (pdu t : Bytes) :
    takeTcpAdu (buildTcpAdu txn unit pdu ++ t) =
      if 1 ≤ (pdu.length + 1) % 65536 ∧ (pdu.length + 1) % 65536 ≤ maxPdu + 1 then
        .frame ⟨txn % 65536, unit % 256, pdu.take ((pdu.length + 1) % 65536 - 1)⟩
          (pdu.drop ((pdu.length + 1) % 65536 - 1) ++ t)
      else .bad ("invalid MBAP length " ++ toString ((pdu.length + 1) % 65536)) := by
  have hle : (pdu.length + 1) % 65536 - 1 ≤ pdu.length := by omega
  have hbody : ¬ (pdu ++ t).length < (pdu.length + 1) % 65536 - 1 := by
    rw [List.length_append]
    omega
  have hproto : ¬ word 0 0 ≠ 0 := by decide
  simp only [buildTcpAdu, List.cons_append, List.nil_append, takeTcpAdu, word_ofNat]
  rw [if_neg hproto]
  by_cases hfit : 1 ≤ (pdu.length + 1) % 65536 ∧ (pdu.length + 1) % 65536 ≤ maxPdu + 1
  · rw [if_neg (not_not.2 hfit), if_neg hbody, if_pos hfit, List.take_append_of_le_length hle,
      List.drop_append_of_le_length hle, UInt8.toNat_ofNat']
  · rw [if_pos hfit, if_neg hfit]

/-- A frame that fits is popped again, whatever follows it. -/
theorem takeTcpAdu_buildTcpAdu {f : Adu} (hf : f.Fits) (t : Bytes) :
    takeTcpAdu (f.build ++ t) = .frame f t := by
  obtain ⟨htxn, hunit, hpdu⟩ := hf
  have htxn : f.txn < 65536 := htxn
  have hmod : (f.pdu.length + 1) % 65536 = f.pdu.length + 1 := by
    simp only [maxPdu] at hpdu
    omega
  rw [Adu.build, takeTcpAdu_build, hmod, if_pos ⟨by omega, by omega⟩, Nat.add_sub_cancel,
    List.take_length, List.drop_length, List.nil_append, Nat.mod_eq_of_lt htxn,
    Nat.mod_eq_of_lt hunit]

/-- **Reassembly.**  Two ways of cutting one byte stream into chunks give the same frames, the
    same error after the same frames or none, and the same bytes left over; and however the
    concatenation of built frames is cut, it is reassembled to exactly these frames, with
    nothing left over. -/
theorem reassembly_independent_of_chunks :
    (∀ chunks chunks' : List Bytes, chunks.flatten = chunks'.flatten →
      tcpDecoder.receive chunks = tcpDecoder.receive chunks') ∧
    ∀ (frames : List Adu) (chunks : List Bytes), (∀ f ∈ frames, f.Fits) →
      chunks.flatten = frames.flatMap Adu.build →
      tcpDecoder.receive chunks = (frames, .waiting []) := by
  constructor
  · intro chunks chunks' h
    rw [Decoder.receive_eq_drain, Decoder.receive_eq_drain, h]
  · intro frames chunks hfits h
    have htake : ∀ f ∈ frames, ∀ t, tcpDecoder.take (f.build ++ t) = .frame f t :=
      fun f hf t => takeTcpAdu_buildTcpAdu (hfits f hf) t
    have hdrain := Decoder.drain_flatMap htake []
    rw [List.append_nil, Decoder.drain_of_need tcpDecoder.take_nil, List.append_nil] at hdrain
    rw [Decoder.receive_eq_drain, h, hdrain]

/-- Two frames, cut behind the first byte and inside the second frame. -/
theorem reassembly_independent_of_chunks_cut :
    tcpDecoder.receive [[0], [5, 0, 0, 0, 2, 1, 3, 0, 6], [0, 0, 0, 3, 1, 4, 9]] =
      ([⟨5, 1, [3]⟩, ⟨6, 1, [4, 9]⟩], .waiting []) := by
  refine reassembly_independent_of_chunks.2 [⟨5, 1, [3]⟩, ⟨6, 1, [4, 9]⟩] _ ?_ (by decide)
  intro f hf
  rcases List.mem_pair.1 hf with rfl | rfl
  · exact ⟨by decide, by decide, by decide⟩
  · exact ⟨by decide, by decide, by decide⟩

end Ser2Net.Engine.Modbus
