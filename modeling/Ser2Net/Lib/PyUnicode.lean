import Ser2Net.Lib.PyValue
import Ser2Net.Lib.PyStr
import Ser2Net.Lib.Latin1

namespace Ser2Net.Lib.PyUnicode

open Ser2Net.Lib.PyText

/-!
# Values made of untrusted text

A Python `str` may hold lone surrogates: `json.loads` makes them of `\ud800` and the like, and
no encoding takes them.  Code that receives JSON from anyone runs on such texts too, so here a
text is a list of code points, and the operations on texts and values say which exception they
raise.

* `Point`, `UStr` — code points and texts;
* `Raised` — the exceptions of these operations;
* `Value` — what `json.loads` returns, with `get`, `truthy`, `toStr` and `toInt`;
* `compareDigest` — `hmac.compare_digest`, on texts;
* `Runtime` — what is left open of the interpreter;
* `Returns` — a call that does not raise.
-/

/-- A code point: a character or one of the surrogates, by its number from U+D800 on. -/
inductive Point
  | char (c : Char)
  | surrogate (n : Fin 2048)
  deriving DecidableEq, Repr

abbrev UStr := List Point

/-- A text without surrogates. -/
def ofText (t : List Char) : UStr := t.map .char

/-- The characters of a text; `none` when it has a surrogate. -/
def toText? : UStr → Option (List Char)
  | [] => some []
  | .char c :: s => (toText? s).map (c :: ·)
  | .surrogate _ :: _ => none

/-- An ASCII code point. -/
def Point.isAscii : Point → Bool
  | .char c => c.toNat < 128
  | .surrogate _ => false

/-- `s.isascii()`. -/
def isAscii (s : UStr) : Bool := s.all Point.isAscii

/-- A space, for `strip`. -/
def Point.isSpace : Point → Bool
  | .char c => PyText.isSpace c
  | .surrogate _ => false

/-- `s.strip()`. -/
def strip (s : UStr) : UStr :=
  ((s.dropWhile Point.isSpace).reverse.dropWhile Point.isSpace).reverse

/-- The exceptions of these operations. -/
inductive Raised
  | valueError
  /-- a `ValueError` too -/
  | unicodeEncodeError
  | typeError
  | attributeError
  | overflowError
  | recursionError
  deriving DecidableEq, Repr

/-- `except ValueError` catches it. -/
def Raised.isValueError : Raised → Bool
  | .valueError | .unicodeEncodeError => true
  | _ => false

/-- `s.encode("utf-8")`. -/
def encodeUtf8 (s : UStr) : Except Raised Bytes :=
  match toText? s with
  | some t => .ok (Latin1.encode t)
  | none => .error .unicodeEncodeError

/-- `s.encode("ascii")`. -/
def encodeAscii (s : UStr) : Except Raised Bytes :=
  if isAscii s then encodeUtf8 s else .error .unicodeEncodeError

/-- `data.decode("utf-8")`; `none` is `UnicodeDecodeError`, a `ValueError`. -/
def decodeUtf8 (data : Bytes) : Option UStr :=
  (String.fromUTF8? data.toByteArray).map fun s => ofText s.toList

/-- `hmac.compare_digest(a, b)` of two texts. -/
def compareDigest (a b : UStr) : Except Raised Bool :=
  if isAscii a ∧ isAscii b then .ok (decide (a = b)) else .error .typeError

/-- `data.hex()`. -/
def hexdigest (data : Bytes) : UStr :=
  ofText (data.flatMap fun b => [Nat.digitChar (b.toNat / 16), Nat.digitChar (b.toNat % 16)])

/-- A value of a parsed JSON document. -/
inductive Value
  | null
  | bool (b : Bool)
  | int (n : Int)
  | float (x : PyFloat)
  | str (s : UStr)
  | arr (l : List Value)
  | obj (kvs : List (UStr × Value))

/-- The item of a dictionary. -/
def lookup (kvs : List (UStr × Value)) (key : String) : Option Value :=
  kvs.lookup (ofText key.toList)

/-- `d.get(key, default)`. -/
def get (kvs : List (UStr × Value)) (key : String) (default : Value) : Value :=
  (lookup kvs key).getD default

/-- What the embedding leaves open of the interpreter: `json.loads`, of a text and of bytes, and
    the `str` of what is not a text, which may run too deep. -/
structure Runtime where
  loads : UStr → Except Raised Value
  loadsBytes : Bytes → Except Raised Value
  strOther : Value → Except Raised UStr

namespace Value

/-- `bool(v)`. -/
def truthy : Value → Bool
  | .null => false
  | .bool b => b
  | .int n => n ≠ 0
  | .float x => x ≠ .fin 0
  | .str s => s ≠ []
  | .arr l => !l.isEmpty
  | .obj kvs => !kvs.isEmpty

/-- `v == s` for a text `s`. -/
def eqStr (v : Value) (s : String) : Bool :=
  match v with
  | .str t => t = ofText s.toList
  | _ => false

/-- `str(v)`. -/
def toStr (py : Runtime) : Value → Except Raised UStr
  | .str s => .ok s
  | v => py.strOther v

/-- `int(v)`. -/
def toInt : Value → Except Raised Int
  | .bool b => .ok (if b then 1 else 0)
  | .int n => .ok n
  | .float x =>
    match x with
    | .nan => .error .valueError
    | .inf _ => .error .overflowError
    | .fin n => .ok (n.tdiv PyFloat.one)
  | .str s =>
    match (toText? s).bind intOf with
    | some n => .ok n
    | none => .error .valueError
  | .null | .arr _ | .obj _ => .error .typeError

/-- `v.encode("utf-8")`. -/
def encode : Value → Except Raised Bytes
  | .str s => encodeUtf8 s
  | _ => .error .attributeError

end Value

/-! ### Calls that do not raise -/

/-- The call returns. -/
def Returns {α : Type} (x : Except Raised α) : Prop := ∃ a, x = .ok a

/-- A value is returned. -/
@[simp] theorem returns_ok {α : Type} (a : α) : Returns (.ok a) := ⟨a, rfl⟩

/-- An exception is not. -/
@[simp] theorem not_returns_error {α : Type} (e : Raised) : ¬ Returns (.error e : Except Raised α) := by
  rintro ⟨a, h⟩
  cases h

/-- A sequence returns when its first step does, and the second one on the result. -/
theorem returns_bind {α β : Type} {x : Except Raised α} {f : α → Except Raised β} :
    Returns (x >>= f) ↔ ∃ a, x = .ok a ∧ Returns (f a) := by
  constructor
  · rintro ⟨b, h⟩
    obtain ⟨a, hx, hf⟩ := except_bind_eq_ok.1 h
    exact ⟨a, hx, b, hf⟩
  · rintro ⟨a, hx, b, hf⟩
    exact ⟨b, except_bind_eq_ok.2 ⟨a, hx, hf⟩⟩

/-! ### Texts -/

/-- A text of characters is one. -/
theorem toText?_ofText (t : List Char) : toText? (ofText t) = some t := by
  induction t with
  | nil => rfl
  | cons c t ih =>
    show (toText? (ofText t)).map (c :: ·) = _
    rw [ih]
    rfl

/-- A text of characters can be encoded. -/
theorem encodeUtf8_ofText (t : List Char) : encodeUtf8 (ofText t) = .ok (Latin1.encode t) := by
  rw [encodeUtf8, toText?_ofText]

/-- A text without surrogates is made of its characters. -/
theorem ofText_of_toText? {s : UStr} {t : List Char} (h : toText? s = some t) : s = ofText t := by
  induction s generalizing t with
  | nil =>
    cases h
    rfl
  | cons p s ih =>
    cases p with
    | surrogate n => cases h
    | char c =>
      rw [toText?, Option.map_eq_some_iff] at h
      obtain ⟨t', ht', rfl⟩ := h
      rw [ih ht']
      rfl

/-- UTF-8 decoding inverts encoding. -/
theorem decodeUtf8_encodeUtf8 {s : UStr} {b : Bytes} (h : encodeUtf8 s = .ok b) :
    decodeUtf8 b = some s := by
  unfold encodeUtf8 at h
  split at h
  · next t ht =>
    cases h
    have hbytes : (Latin1.encode t).toByteArray = (String.ofList t).toByteArray := by
      rw [← Latin1.encode_ofList]
      ext1
      simp
    have hdec : String.fromUTF8? (String.ofList t).toByteArray = some (String.ofList t) := by
      rw [String.fromUTF8?, dif_pos (String.ofList t).isValidUTF8]
      rfl
    rw [decodeUtf8, hbytes, hdec, ofText_of_toText? ht]
    simp
  · cases h

/-- A text of characters is ASCII when they are. -/
theorem isAscii_ofText {t : List Char} : isAscii (ofText t) = true ↔ ∀ c ∈ t, c.toNat < 128 := by
  simp [isAscii, ofText, Point.isAscii]

/-- An ASCII text has no surrogates. -/
theorem returns_encodeUtf8 {s : UStr} (h : isAscii s = true) : Returns (encodeUtf8 s) := by
  have htext : ∃ t, toText? s = some t := by
    induction s with
    | nil => exact ⟨[], rfl⟩
    | cons p s ih =>
      rw [isAscii, List.all_cons, Bool.and_eq_true] at h
      obtain ⟨t, ht⟩ := ih h.2
      cases p with
      | char c => exact ⟨c :: t, by rw [toText?, ht]; rfl⟩
      | surrogate n => exact absurd h.1 (by simp [Point.isAscii])
  obtain ⟨t, ht⟩ := htext
  exact ⟨Latin1.encode t, by rw [encodeUtf8, ht]⟩

/-- A hexadecimal digit is ASCII. -/
theorem digitChar_ascii {n : Nat} (h : n < 16) : (Nat.digitChar n).toNat < 128 := by
  interval_cases n <;> decide

/-- A digest is written in ASCII. -/
theorem isAscii_hexdigest (data : Bytes) : isAscii (hexdigest data) = true := by
  refine isAscii_ofText.2 fun c hc => ?_
  obtain ⟨b, -, hc⟩ := List.mem_flatMap.1 hc
  have hb := b.toNat_lt
  rcases List.mem_pair.1 hc with rfl | rfl
  · exact digitChar_ascii (by omega)
  · exact digitChar_ascii (Nat.mod_lt _ (by decide))

/-- The comparison raises exactly when a text is not ASCII. -/
theorem compareDigest_eq_ok {a b : UStr} {r : Bool} :
    compareDigest a b = .ok r ↔ (isAscii a = true ∧ isAscii b = true) ∧ decide (a = b) = r := by
  unfold compareDigest
  split
  · next h => simp [h]
  · next h => simp [h]

end Ser2Net.Lib.PyUnicode
