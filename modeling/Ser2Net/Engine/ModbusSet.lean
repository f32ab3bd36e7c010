import Ser2Net.Lib.PyInt
import Ser2Net.Engine.ModbusPoint

namespace Ser2Net.Engine.Modbus

open Ser2Net.Lib Ser2Net.Config PyText

/-!
# Engine — writes over plain MQTT topics

A writable point is written by a message on `<base_topic>/<name>/set`.  `MqttPublisher` finds
the handler of a message by its topic, the gateway takes the point's name out of the topic again
and parses the payload for that point.

* `parseWritePayload` — the value in a payload; `parse_write_payload_iff` — exactly which
  spellings of an integer give it;
* `handleMessage`, `onSetMessage` — from a message to a point;
* `handle_message_iff` — exactly which points get the messages on their own topics.
-/

/-! ### Payloads -/

/-- The texts of the `ValueError`s of `parse_write_payload`. -/
inductive SetError
  /-- `expected a JSON list of coil states` -/
  | notCoilList
  /-- `a coil takes 1/0, true/false or on/off, not {text!r}` -/
  | notCoil (text : String)
  /-- `not a number: {text!r}` -/
  | notNumber (text : String)
  deriving DecidableEq, Repr

/-- What the embedding leaves open: Python's text tables, and `json.loads` (`none` is its
    `ValueError`). -/
structure SetEnv where
  py : PyEnv
  loads : String → Option Json

/-- Code that parses a payload. -/
abbrev SetM := PyM SetError

/-- `_coil`. -/
def coilOf (env : SetEnv) (text : String) : SetM Bool :=
  let t := env.py.lower (strip text)
  if t ∈ ["1", "true", "on"] then .ok true
  else if t ∈ ["0", "false", "off"] then .ok false
  else .error (.user (.notCoil text))

/-- A register's value in a stripped text. -/
def numberOf (text : String) : SetM Json :=
  if text.toList.any fun c => c = '.' ∨ c = 'e' ∨ c = 'E' then
    match PyFloat.ofText text with
    | some x => .ok (.float x)
    | none => .error (.user (.notNumber text))
  else
    match int0 text with
    | some n => .ok (.int n)
    | none => .error (.user (.notNumber text))

/-- `text` in `parse_write_payload`. -/
def payloadText (payload : Bytes) : String := strip (decodeReplace payload)

/-- `parse_write_payload`. -/
def parseWritePayload (env : SetEnv) (payload : Bytes) (p : ModbusPoint) : SetM Json :=
  let text := payloadText payload
  if p.fn.eqInt readCoils then
    if startsWith text "[" then
      match env.loads text with
      | none => .error .valueError
      | some (.arr (item :: items)) => do
        return .arr ((← (item :: items).mapM fun v => coilOf env (v.toStr env.py)).map Json.bool)
      | some _ => .error (.user .notCoilList)
    else do return .bool (← coilOf env text)
  else numberOf text

/-- **Spellings of integers.**  For a holding register, a text that `int(text, 0)` reads as `n`
    gives `n` exactly when it has no letter `e`, and a text that neither `int(text, 0)` nor
    `float(text)` reads gives a `ValueError`. -/
theorem parse_write_payload_iff (env : SetEnv) (p : ModbusPoint) (hp : p.fn.eqInt 3 = true)
    (payload : Bytes) :
    (∀ n, int0 (payloadText payload) = some n →
      (parseWritePayload env payload p = .ok (.int n) ↔
        'e' ∉ (payloadText payload).toList ∧ 'E' ∉ (payloadText payload).toList)) ∧
    (int0 (payloadText payload) = none → PyFloat.ofText (payloadText payload) = none →
      ∃ e, parseWritePayload env payload p = .error e ∧ e.isValueError = true) := by
  have hcoil : ¬ p.fn.eqInt readCoils = true := by
    intro h
    -- 3 would be 1
    unfold Json.eqInt at hp h
    cases hn : p.fn.number? with
    | none =>
      rw [hn] at hp
      cases hp
    | some x =>
      rw [hn] at hp h
      have hthree := beq_iff_eq.1 hp
      have hone := beq_iff_eq.1 h
      exact absurd (PyFloat.ofIntExact_injective (hthree.symm.trans hone)) (by decide)
  have hparse : parseWritePayload env payload p = numberOf (payloadText payload) := if_neg hcoil
  rw [hparse]
  generalize payloadText payload = text
  unfold numberOf
  constructor
  · intro n hn
    have hpoint := int0_no_point hn
    constructor
    · intro h
      split at h
      · split at h
        · cases h
        · cases h
      · next hany =>
        rw [List.any_eq_true, not_exists] at hany
        refine ⟨fun he => hany 'e' ⟨he, by decide⟩, fun he => hany 'E' ⟨he, by decide⟩⟩
    · rintro ⟨he, hE⟩
      have hnone : ¬ (text.toList.any fun c => c = '.' ∨ c = 'e' ∨ c = 'E') = true := by
        rw [List.any_eq_true]
        rintro ⟨c, hc, hlet⟩
        rcases of_decide_eq_true hlet with rfl | rfl | rfl
        · exact hpoint hc
        · exact he hc
        · exact hE hc
      rw [if_neg hnone, hn]
  · intro hint hfloat
    rw [hint, hfloat]
    split
    · exact ⟨_, rfl, rfl⟩
    · exact ⟨_, rfl, rfl⟩

/-- Text tables of ASCII, without a JSON parser. -/
def asciiEnv : SetEnv := ⟨⟨fun _ => false, fun _ => "", id⟩, fun _ => none⟩

/-- A writable holding register. -/
def register (name : String) : ModbusPoint :=
  ModbusPoint.ofMembers [("name", .str name), ("writable", .bool true)]

/-- `-0x1F` is written as -31. -/
theorem parse_write_payload_iff_hex :
    parseWritePayload asciiEnv [45, 48, 120, 49, 70] (register "level") = .ok (.int (-31)) :=
  ((parse_write_payload_iff asciiEnv (register "level") (by decide +kernel)
    [45, 48, 120, 49, 70]).1 (-31) (by decide +kernel)).2 (by decide +kernel)

/-- `0x1E` is a spelling of 30, and refused. -/
theorem parse_write_payload_hex_e :
    int0 (payloadText [48, 120, 49, 69]) = some 30 ∧
      parseWritePayload asciiEnv [48, 120, 49, 69] (register "level") ≠ .ok (.int 30) := by
  have hint : int0 (payloadText [48, 120, 49, 69]) = some 30 := by decide +kernel
  have hreg : (register "level").fn.eqInt 3 = true := by decide +kernel
  refine ⟨hint, fun h => ?_⟩
  have hchars := ((parse_write_payload_iff asciiEnv (register "level") hreg _).1 30 hint).1 h
  exact absurd hchars (by decide +kernel)

/-! ### Topics -/

/-- `s.rsplit("/", 2)[-2]`; `none` is `IndexError`. -/
def beforeLast (l : List Char) : Option (List Char) :=
  (rpartition '/' l).map fun (before, _) =>
    match rpartition '/' before with
    | some (_, name) => name
    | none => before

/-- `base_topic.rstrip("/")`. -/
def baseOfTopic (baseTopic : String) : List Char := rstripBy (· = '/') baseTopic.toList

/-- `f"{base}/{p.name}/set"`, the command topic of a point. -/
def setTopic (env : SetEnv) (baseTopic : String) (p : ModbusPoint) : List Char :=
  baseOfTopic baseTopic ++ '/' :: (p.name.toStr env.py).toList ++ "/set".toList

/-- The topics of the subscriptions, which all have the handler `_on_set_message`. -/
def subscriptions (env : SetEnv) (baseTopic : String) (points : List ModbusPoint) :
    List (List Char) :=
  (points.filter (·.writable.truthy)).map (setTopic env baseTopic)

/-- The loop of `_matches` over the levels of a filter and a topic. -/
def matchLevels : List (List Char) → List (List Char) → Bool
  | [], levels => levels.isEmpty
  | part :: parts, levels =>
    if part = ['#'] then true
    else
      match levels with
      | [] => false
      | level :: rest =>
        if part ≠ ['+'] ∧ part ≠ level then false else matchLevels parts rest

/-- `_matches`. -/
def topicMatches (pattern topic : List Char) : Bool :=
  matchLevels (pattern.splitOn '/') (topic.splitOn '/')

/-! ### From a message to a point -/

/-- What becomes of a message. -/
inductive SetAction
  /-- No handler, or no point of that name. -/
  | ignored
  /-- The payload is no value for the point: the error is published on `<topic>/result`, or
      logged if it is no `ValueError`. -/
  | refused (p : ModbusPoint) (result : List Char) (e : PyExc SetError)
  /-- `_write_soon`: `write_point` is scheduled, and its outcome goes to `<topic>/result`. -/
  | write (p : ModbusPoint) (value : Json) (result : List Char)
  /-- `IndexError`, which `handle_message` logs. -/
  | noName

/-- The payload is parsed for the point, and the value written. -/
def serve (env : SetEnv) (topic : List Char) (payload : Bytes) (p : ModbusPoint) : SetAction :=
  let result := topic ++ "/result".toList
  match parseWritePayload env payload p with
  | .ok value => .write p value result
  | .error e => .refused p result e

/-- `_on_set_message`.  The publisher calls it, so there is one. -/
def onSetMessage (env : SetEnv) (points : List ModbusPoint) (topic : List Char)
    (payload : Bytes) : SetAction :=
  match beforeLast topic with
  | none => .noName
  | some name =>
    match points.find? fun p => p.name.eqStr (String.ofList name) with
    | none => .ignored
    | some p => serve env topic payload p

/-- `MqttPublisher.handle_message` with the subscriptions of the gateway. -/
def handleMessage (env : SetEnv) (baseTopic : String) (points : List ModbusPoint)
    (topic : List Char) (payload : Bytes) : SetAction :=
  let subs := subscriptions env baseTopic points
  if topic ∈ subs ∨ (subs.any fun t => topicMatches t topic) then onSetMessage env points topic payload
  else .ignored

/-! ### Taking the topic apart -/

/-- The level before the last one, which the code takes for the name. -/
theorem beforeLast_append {a name last : List Char} (hname : '/' ∉ name) (hlast : '/' ∉ last) :
    beforeLast (a ++ '/' :: name ++ '/' :: last) = some name := by
  unfold beforeLast
  rw [rpartition_append hlast]
  show some (match rpartition '/' (a ++ '/' :: name) with
    | some (_, name) => name
    | none => a ++ '/' :: name) = some name
  rw [rpartition_append hname]

/-- The part of a text after its last slash. -/
theorem exists_last_level {l : List Char} (h : '/' ∈ l) :
    ∃ a b, l = a ++ '/' :: b ∧ '/' ∉ b := by
  induction l with
  | nil => cases h
  | cons c rest ih =>
    by_cases hrest : '/' ∈ rest
    · obtain ⟨a, b, rfl, hb⟩ := ih hrest
      exact ⟨c :: a, b, rfl, hb⟩
    · obtain rfl : '/' = c := (List.mem_cons.1 h).resolve_right hrest
      exact ⟨[], rest, rfl, hrest⟩

/-- Accepted points have texts as names, all of them different. -/
theorem names_of_validate {points : List ModbusPoint} {seen : List Json}
    (h : validatePoints seen points = .ok ()) :
    points.Pairwise (fun p q => q.name ≠ p.name) ∧ (∀ p ∈ points, ∃ s, p.name = .str s) ∧
      ∀ p ∈ points, ∀ s, Json.str s ∈ seen → p.name ≠ .str s := by
  induction points generalizing seen with
  | nil => simp
  | cons first rest ih =>
    obtain ⟨⟨⟩, hfirst, hrest⟩ := except_bind_eq_ok.1 h
    obtain ⟨hvalid, hseen⟩ := pointValid_of_validate hfirst
    obtain ⟨hpair, hnames, hfresh⟩ := ih hrest
    obtain ⟨s, hs, -⟩ := hvalid.name
    refine ⟨List.pairwise_cons.2 ⟨fun q hq => ?_, hpair⟩, ?_, ?_⟩
    · rw [hs]
      exact hfresh q hq s (hs ▸ List.mem_cons_self)
    · intro p hp
      rcases List.mem_cons.1 hp with rfl | hp
      · exact ⟨s, hs⟩
      · exact hnames p hp
    -- a name that was seen stays seen in the rest of the loop
    · intro p hp t ht
      rcases List.mem_cons.1 hp with rfl | hp
      · intro hname
        have hne := List.any_eq_false.1 hseen _ ht
        rw [Json.pyEq_str, hname] at hne
        exact hne (beq_self_eq_true _)
      · exact hfresh p hp t (List.mem_cons_of_mem _ ht)

/-- With different names, the first point of a name is the point of that name. -/
theorem find_of_name {points : List ModbusPoint}
    (hpair : points.Pairwise (fun p q => q.name ≠ p.name)) {p : ModbusPoint} (hp : p ∈ points)
    {s : String} (hs : p.name = .str s) : (points.find? fun q => q.name.eqStr s) = some p := by
  induction points with
  | nil => cases hp
  | cons first rest ih =>
    obtain ⟨hfirst, hpair⟩ := List.pairwise_cons.1 hpair
    rcases List.mem_cons.1 hp with rfl | hp
    · exact List.find?_cons_of_pos (by rw [hs]; exact beq_self_eq_true _)
    · have hne : ¬ first.name.eqStr s = true := by
        intro h
        exact hfirst p hp (hs.trans (beq_iff_eq.1 h).symm)
      rw [List.find?_cons_of_neg (by exact hne)]
      exact ih hpair hp

/-! ### A point's own topic -/

theorem serve_injective {env : SetEnv} {topic : List Char} {payload : Bytes} {p q : ModbusPoint}
    (h : serve env topic payload p = serve env topic payload q) : p = q := by
  unfold serve at h
  cases hp : parseWritePayload env payload p with
  | ok v =>
    cases hq : parseWritePayload env payload q with
    | ok w =>
      simp only [hp, hq, SetAction.write.injEq] at h
      exact h.1
    | error e => simp [hp, hq] at h
  | error e =>
    cases hq : parseWritePayload env payload q with
    | ok w => simp [hp, hq] at h
    | error e' =>
      simp only [hp, hq, SetAction.refused.injEq] at h
      exact h.1

/-- **A message on a point's own topic.**  For every accepted list of points and every base
    topic, a message on the command topic of a writable point is handed to that point, and to no
    other, exactly when the point's name has no slash. -/
theorem handle_message_iff (env : SetEnv) (q : ModbusPoll) (hq : q.validate = .ok ())
    (baseTopic : String) (p : ModbusPoint) (hp : p ∈ q.points) (hw : p.writable.truthy = true)
    (payload : Bytes) :
    handleMessage env baseTopic q.points (setTopic env baseTopic p) payload =
        serve env (setTopic env baseTopic p) payload p ↔
      '/' ∉ (p.name.toStr env.py).toList := by
  obtain ⟨hpair, hnames, -⟩ := names_of_validate (validatePoints_of_validate hq)
  obtain ⟨s, hs⟩ := hnames p hp
  have hsub : setTopic env baseTopic p ∈ subscriptions env baseTopic q.points :=
    List.mem_map_of_mem (List.mem_filter.2 ⟨hp, hw⟩)
  have hhandler : handleMessage env baseTopic q.points (setTopic env baseTopic p) payload =
      onSetMessage env q.points (setTopic env baseTopic p) payload := if_pos (Or.inl hsub)
  have hname : (p.name.toStr env.py).toList = s.toList := by rw [hs]; rfl
  have hlast : '/' ∉ "set".toList := by decide
  rw [hhandler, hname]
  unfold onSetMessage
  by_cases hslash : '/' ∈ s.toList
  · -- the code takes the part after the name's last slash for the name
    obtain ⟨a, b, hab, hb⟩ := exists_last_level hslash
    have htopic : setTopic env baseTopic p =
        (baseOfTopic baseTopic ++ '/' :: a) ++ '/' :: b ++ '/' :: "set".toList := by
      unfold setTopic
      rw [hname, hab]
      simp
    have hbefore : beforeLast (setTopic env baseTopic p) = some b := by
      rw [htopic]
      exact beforeLast_append hb hlast
    rw [hbefore]
    refine iff_of_false (fun h => ?_) (not_not.2 hslash)
    dsimp only at h
    split at h
    · unfold serve at h
      split at h
      · cases h
      · cases h
    · next r hr =>
      -- the point that is found has that part for its name, so it has no slash
      have hrp := serve_injective h
      have hrname := List.find?_some hr
      rw [hrp, hs] at hrname
      have hsb : s = String.ofList b := Json.str.inj (beq_iff_eq.1 hrname)
      rw [hsb, String.toList_ofList] at hslash
      exact hb hslash
  -- without a slash the part between the last two is the whole name
  · have htopic : setTopic env baseTopic p =
        baseOfTopic baseTopic ++ '/' :: s.toList ++ '/' :: "set".toList := by
      unfold setTopic
      rw [hname]
      rfl
    have hbefore : beforeLast (setTopic env baseTopic p) = some s.toList := by
      rw [htopic]
      exact beforeLast_append hslash hlast
    rw [hbefore]
    refine iff_of_true ?_ hslash
    dsimp only
    rw [String.ofList_toList, find_of_name hpair hp hs]

/-- A list of two writable holding registers. -/
def twoRegisters (first second : String) : ModbusPoll :=
  ⟨.ofIntExact 5, [register first, register second]⟩

theorem handle_message_iff_level :
    handleMessage asciiEnv "plant/" (twoRegisters "level" "speed").points
        (setTopic asciiEnv "plant/" (register "level")) [49] =
        serve asciiEnv (setTopic asciiEnv "plant/" (register "level")) [49] (register "level") ↔
      '/' ∉ ((register "level").name.toStr asciiEnv.py).toList :=
  handle_message_iff asciiEnv (twoRegisters "level" "speed") (by decide +kernel) "plant/"
    (register "level") List.mem_cons_self rfl [49]

/-- A message for the point `tank/level` is handed to the point `level`. -/
theorem handle_message_other_point :
    (twoRegisters "tank/level" "level").validate = .ok () ∧
      handleMessage asciiEnv "plant" (twoRegisters "tank/level" "level").points
          (setTopic asciiEnv "plant" (register "tank/level")) [49] =
        serve asciiEnv (setTopic asciiEnv "plant" (register "tank/level")) [49] (register "level") ∧
      handleMessage asciiEnv "plant" (twoRegisters "tank/level" "level").points
          (setTopic asciiEnv "plant" (register "tank/level")) [49] ≠
        serve asciiEnv (setTopic asciiEnv "plant" (register "tank/level")) [49]
          (register "tank/level") := by
  have hvalid : (twoRegisters "tank/level" "level").validate = .ok () := by decide +kernel
  have hother : handleMessage asciiEnv "plant" (twoRegisters "tank/level" "level").points
      (setTopic asciiEnv "plant" (register "tank/level")) [49] =
        serve asciiEnv (setTopic asciiEnv "plant" (register "tank/level")) [49]
          (register "level") := by
    -- the message on the topic of the one point is taken for the other
    have hsub : setTopic asciiEnv "plant" (register "tank/level") ∈
        subscriptions asciiEnv "plant" (twoRegisters "tank/level" "level").points := by
      decide +kernel
    have hbefore : beforeLast (setTopic asciiEnv "plant" (register "tank/level")) =
        some "level".toList := by decide +kernel
    have hfind : ((twoRegisters "tank/level" "level").points.find? fun p =>
        p.name.eqStr (String.ofList "level".toList)) = some (register "level") := by decide +kernel
    unfold handleMessage onSetMessage
    rw [if_pos (Or.inl hsub), hbefore]
    dsimp only
    rw [hfind]
  have hne : register "level" ≠ register "tank/level" := by decide +kernel
  refine ⟨hvalid, hother, fun h => ?_⟩
  exact hne (serve_injective (hother.symm.trans h))

end Ser2Net.Engine.Modbus
