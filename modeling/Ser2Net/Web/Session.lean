import Ser2Net.Lib.Base64
import Ser2Net.Lib.PyJson

namespace Ser2Net.Web.Session

open Ser2Net.Lib Ser2Net.Lib.PyUnicode

/-!
# Web — the session cookie as a text (`auth.py`)

A token is a payload, a dot and the signature of the payload: JSON in base64, and the keyed hash
in base64.  What a request brings is any text.

* `decodeSession`, `readPayload`, `sessionUser` — the readers, with the exceptions they let out;
* `issueSession` — the writer;
* `Vouched` — a token that is signed and has not expired;
* `Usable` — the condition: the texts are ASCII, and what is signed has the fields that the reader
  converts;
* `sessions_iff` — the readers return, and vouch for no other token, exactly then, and what was
  issued is read back exactly when the secret can be encoded, the name has no two surrogates that
  make a pair, and the numbers can be written.

`hmac` is the keyed hash.  What `json.loads` makes of the bytes of a foreign payload is left to the
interpreter; of a payload that was issued here it makes what `PyJson.loads` says.
-/

/-- `_b64e`. -/
def b64e (data : Bytes) : List Char := PyText.rstripBy (· = '=') (Base64.encode data)

/-- `_b64d`; `none` is a `ValueError`. -/
def b64d (s : UStr) : Option Bytes :=
  if isAscii s then
    (toText? s).bind fun t => Base64.decode (t ++ List.replicate ((4 - t.length % 4) % 4) '=')
  else none

variable (py : Runtime) (hmac : Bytes → Bytes → Bytes)

/-- `_sign`. -/
def sign (secret payload : UStr) : Except Raised UStr := do
  let key ← encodeUtf8 secret
  let msg ← encodeAscii payload
  pure (ofText (b64e (hmac key msg)))

/-- The separator. -/
def dot : Point := .char '.'

/-- `token.rsplit(".", 1)` of a text with a dot. -/
def rsplit (t : UStr) : UStr × UStr :=
  ((t.reverse.dropWhile (· ≠ dot)).tail.reverse, (t.reverse.takeWhile (· ≠ dot)).reverse)

/-- `json.dumps` of the payload of a session. -/
def dumpsSession (exp : Int) (username : UStr) (pwdVersion : Int) : Except Raised (List Char) := do
  let expText ← PyJson.dumpsInt exp
  let versionText ← PyJson.dumpsInt pwdVersion
  pure (PyJson.dumpsObj [(ofText "exp".toList, expText),
    (ofText "u".toList, PyJson.dumpsStr username), (ofText "v".toList, versionText)])

/-- `issue_session` at the time `now`. -/
def issueSession (secret : UStr) (now ttlSeconds : Int) (username : UStr) (pwdVersion : Int) :
    Except Raised UStr := do
  let text ← dumpsSession (now + ttlSeconds) username pwdVersion
  let payload := ofText (b64e (Latin1.encode text))
  let sig ← sign hmac secret payload
  pure (payload ++ dot :: sig)

/-- `json.loads(_b64d(payload))` with `ValueError` handled. -/
def loadPayload (payload : UStr) : Except Raised (Option Value) :=
  match b64d payload with
  | none => .ok none
  | some raw =>
    match py.loadsBytes raw with
    | .ok data => .ok (some data)
    | .error e => if e.isValueError then .ok none else .error e

/-- How `decode_session` and `read_payload` begin: the payload of a signed token. -/
def openToken (secret : UStr) : Option UStr → Except Raised (Option Value)
  | none => .ok none
  | some token =>
    if token = [] ∨ dot ∉ token then .ok none
    else do
      let digest ← sign hmac secret (rsplit token).1
      let same ← compareDigest (rsplit token).2 digest
      if same then loadPayload py (rsplit token).1 else pure none

/-- `int(data.get("exp", 0))`. -/
def expiry (data : List (UStr × Value)) : Except Raised Int := (get data "exp" (.int 0)).toInt

/-- The end of `decode_session`. -/
def readSession (now : Int) : Value → Except Raised (Option (UStr × Int))
  | .obj data => do
    let exp ← expiry data
    if exp ≤ now then pure none
    else do
      let u ← (get data "u" (.str [])).toStr py
      let v ← (get data "v" (.int 0)).toInt
      pure (some (u, v))
  | _ => .error .attributeError

/-- The end of `read_payload`. -/
def readData (now : Int) : Value → Except Raised (Option (List (UStr × Value)))
  | .obj data => do
    let exp ← expiry data
    pure (if exp ≤ now then none else some data)
  | _ => .error .attributeError

/-- What is done with the payload, if there is one. -/
def andThen {α : Type} (read : Value → Except Raised (Option α)) :
    Option Value → Except Raised (Option α)
  | none => .ok none
  | some data => read data

/-- `decode_session`. -/
def decodeSession (secret : UStr) (now : Int) (token : Option UStr) :
    Except Raised (Option (UStr × Int)) := do
  let data ← openToken py hmac secret token
  andThen (readSession py now) data

/-- `read_payload`. -/
def readPayload (secret : UStr) (now : Int) (token : Option UStr) :
    Except Raised (Option (List (UStr × Value))) := do
  let data ← openToken py hmac secret token
  andThen (readData now) data

/-- What a session asks of a user. -/
structure User where
  username : UStr
  pwdVersion : Int

/-- The user that the name and the version of a session stand for. -/
def liveUser (users : List User) (u : UStr) (v : Int) : Option User :=
  match users.find? fun user => user.username = u with
  | none => none
  | some user => if user.pwdVersion ≠ v then none else some user

/-- `session_user`. -/
def sessionUser (users : List User) (secret : UStr) (now : Int) (token : Option UStr) :
    Except Raised (Option User) := do
  let data ← decodeSession py hmac secret now token
  pure (data.bind fun session => liveUser users session.1 session.2)

/-! ### What a token must be -/

/-- The token is a payload, a dot and the signature of the payload, and it has not expired. -/
def Vouched (secret : UStr) (now : Int) (token : Option UStr) : Prop :=
  ∃ payload sig raw data exp, token = some (payload ++ dot :: sig) ∧
    sign hmac secret payload = .ok sig ∧ b64d payload = some raw ∧
    py.loadsBytes raw = .ok (.obj data) ∧ expiry data = .ok exp ∧ now < exp

/-- A token without a dot, or one whose texts are ASCII and whose payload, where it is signed and
    JSON, is an object with the fields `P`. -/
def Usable (P : List (UStr × Value) → Prop) (secret : UStr) (token : Option UStr) : Prop :=
  ∀ payload sig, token = some (payload ++ dot :: sig) → dot ∉ sig →
    Returns (encodeUtf8 secret) ∧ isAscii payload = true ∧ isAscii sig = true ∧
      (sign hmac secret payload = .ok sig → ∀ raw, b64d payload = some raw →
        (∀ e, py.loadsBytes raw = .error e → e.isValueError = true) ∧
          ∀ data, py.loadsBytes raw = .ok data → ∃ kvs, data = .obj kvs ∧ P kvs)

/-- The expiry is a number, and before it the name has a text and the version is a number. -/
def SessionFields (now : Int) (data : List (UStr × Value)) : Prop :=
  ∃ exp, expiry data = .ok exp ∧
    (now < exp → Returns ((get data "u" (.str [])).toStr py) ∧ Returns (get data "v" (.int 0)).toInt)

/-! ### The parts of a token -/

/-- A token is cut at its last dot. -/
theorem rsplit_append {payload sig : UStr} (h : dot ∉ sig) :
    rsplit (payload ++ dot :: sig) = (payload, sig) := by
  have hreverse : (payload ++ dot :: sig).reverse = sig.reverse ++ dot :: payload.reverse := by
    simp
  have hall : ∀ p ∈ sig.reverse, decide (p ≠ dot) = true := fun p hp =>
    decide_eq_true fun heq => h (heq ▸ List.mem_reverse.1 hp)
  rw [rsplit, hreverse, List.dropWhile_append_of_pos hall, List.takeWhile_append_of_pos hall,
    List.dropWhile_cons_of_neg (by simp), List.takeWhile_cons_of_neg (by simp), List.tail_cons,
    List.reverse_reverse, List.append_nil, List.reverse_reverse]

/-- A token with a dot is what is before its last dot and what is behind it. -/
theorem exists_parts {t : UStr} (h : dot ∈ t) :
    ∃ payload sig, t = payload ++ dot :: sig ∧ dot ∉ sig := by
  obtain ⟨sig, payload, heq, hsig⟩ := List.eq_append_cons_of_mem (List.mem_reverse.2 h)
  refine ⟨payload.reverse, sig.reverse, ?_, fun hmem => hsig (List.mem_reverse.1 hmem)⟩
  rw [← List.reverse_reverse t, heq]
  simp

variable {py hmac} {secret : UStr}

variable (py hmac secret) in
/-- A token has two parts, or it is not opened. -/
theorem token_cases (token : Option UStr) :
    (∃ payload sig, token = some (payload ++ dot :: sig) ∧ dot ∉ sig) ∨
      ((∀ payload sig, token ≠ some (payload ++ dot :: sig)) ∧
        openToken py hmac secret token = .ok none) := by
  cases token with
  | none => exact .inr ⟨fun _ _ => nofun, rfl⟩
  | some t =>
    by_cases hdot : dot ∈ t
    · obtain ⟨payload, sig, rfl, hsig⟩ := exists_parts hdot
      exact .inl ⟨payload, sig, rfl, hsig⟩
    · refine .inr ⟨fun payload sig heq => hdot ?_, by rw [openToken, if_pos (.inr hdot)]⟩
      rw [Option.some.inj heq]
      simp

/-- A token is opened when its signature is that of its payload. -/
theorem openToken_eq {payload sig : UStr} (h : dot ∉ sig) :
    openToken py hmac secret (some (payload ++ dot :: sig)) =
      (sign hmac secret payload >>= fun digest => compareDigest sig digest >>= fun same =>
        if same then loadPayload py payload else .ok none) := by
  rw [openToken, if_neg (by simp), rsplit_append h]
  rfl

/-! ### The signature -/

/-- The characters of an encoding. -/
theorem mem_b64e {data : Bytes} {c : Char} (h : c ∈ b64e data) : c ≠ '.' ∧ c.toNat < 128 := by
  rw [b64e, Base64.rstrip_encode] at h
  obtain ⟨n, hn, rfl⟩ := Base64.mem_unpadded h
  exact (Base64.digit_spec hn).2.2

/-- An encoding is ASCII. -/
theorem isAscii_b64e (data : Bytes) : isAscii (ofText (b64e data)) = true :=
  isAscii_ofText.2 fun _ hc => (mem_b64e hc).2

/-- An encoding has no dot. -/
theorem dot_notMem_b64e (data : Bytes) : dot ∉ ofText (b64e data) := by
  intro h
  obtain ⟨c, hc, hdot⟩ := List.mem_map.1 h
  exact (mem_b64e hc).1 (Point.char.inj hdot)

/-- What was encoded comes back. -/
theorem b64d_b64e (data : Bytes) : b64d (ofText (b64e data)) = some data := by
  rw [b64d, if_pos (isAscii_b64e data), toText?_ofText, Option.bind_some, b64e,
    Base64.rstrip_encode, ← Base64.encode_eq, Base64.decode_encode]

/-- A signature is the encoded hash of an ASCII payload. -/
theorem sign_eq_ok {payload sig : UStr} : sign hmac secret payload = .ok sig ↔
    ∃ key msg, encodeUtf8 secret = .ok key ∧ encodeAscii payload = .ok msg ∧
      ofText (b64e (hmac key msg)) = sig := by
  unfold sign
  constructor
  · intro h
    obtain ⟨key, hkey, h⟩ := except_bind_eq_ok.1 h
    obtain ⟨msg, hmsg, h⟩ := except_bind_eq_ok.1 h
    exact ⟨key, msg, hkey, hmsg, Except.ok.inj h⟩
  · rintro ⟨key, msg, hkey, hmsg, rfl⟩
    exact except_bind_eq_ok.2 ⟨key, hkey, except_bind_eq_ok.2 ⟨msg, hmsg, rfl⟩⟩

/-- What encodes as ASCII is ASCII. -/
theorem isAscii_of_encodeAscii {s : UStr} {msg : Bytes} (h : encodeAscii s = .ok msg) :
    isAscii s = true := by
  unfold encodeAscii at h
  split at h
  · next hascii => exact hascii
  · cases h

/-- Signing raises only for a secret or a payload that cannot be encoded. -/
theorem returns_sign {payload : UStr} : Returns (sign hmac secret payload) ↔
    Returns (encodeUtf8 secret) ∧ isAscii payload = true := by
  constructor
  · rintro ⟨sig, h⟩
    obtain ⟨key, msg, hkey, hmsg, -⟩ := sign_eq_ok.1 h
    exact ⟨⟨key, hkey⟩, isAscii_of_encodeAscii hmsg⟩
  · rintro ⟨⟨key, hkey⟩, hascii⟩
    obtain ⟨msg, hmsg⟩ := returns_encodeUtf8 hascii
    exact ⟨_, sign_eq_ok.2 ⟨key, msg, hkey, by rw [encodeAscii, if_pos hascii, hmsg], rfl⟩⟩

/-- A signature is ASCII and has no dot. -/
theorem isAscii_sign {payload sig : UStr} (h : sign hmac secret payload = .ok sig) :
    isAscii sig = true ∧ dot ∉ sig := by
  obtain ⟨key, msg, -, -, rfl⟩ := sign_eq_ok.1 h
  exact ⟨isAscii_b64e _, dot_notMem_b64e _⟩

/-! ### Opening a token -/

/-- A payload is decoded and then read. -/
theorem loadPayload_eq_some {payload : UStr} {data : Value} :
    loadPayload py payload = .ok (some data) ↔
      ∃ raw, b64d payload = some raw ∧ py.loadsBytes raw = .ok data := by
  unfold loadPayload
  split
  · next hnone => simp [hnone]
  · next raw hraw =>
    rw [hraw]
    split
    · next v hv => simp [hv]
    · next e he =>
      constructor
      · intro h
        split at h <;> cases h
      · rintro ⟨raw', hraw', h⟩
        cases hraw'
        rw [he] at h
        cases h

/-- Reading a payload raises only what nobody catches. -/
theorem returns_loadPayload {payload : UStr} : Returns (loadPayload py payload) ↔
    ∀ raw, b64d payload = some raw → ∀ e, py.loadsBytes raw = .error e → e.isValueError = true := by
  unfold loadPayload
  split
  · next hnone => simp [hnone]
  · next raw hraw =>
    rw [hraw]
    split
    · next v hv => simp [hv]
    · next e he =>
      constructor
      · rintro h raw' hraw' e' he'
        cases hraw'
        rw [he] at he'
        cases he'
        by_contra hnot
        simp [hnot] at h
      · intro h
        rw [if_pos (h raw rfl e he)]
        exact returns_ok _

/-- What is opened is signed. -/
theorem openToken_eq_some {token : Option UStr} {data : Value} :
    openToken py hmac secret token = .ok (some data) ↔
      ∃ payload sig raw, token = some (payload ++ dot :: sig) ∧
        sign hmac secret payload = .ok sig ∧ b64d payload = some raw ∧
        py.loadsBytes raw = .ok data := by
  constructor
  · intro h
    rcases token_cases py hmac secret token with
      ⟨payload, sig, rfl, hsig⟩ | ⟨-, hnone⟩
    · rw [openToken_eq hsig] at h
      obtain ⟨digest, hdigest, h⟩ := except_bind_eq_ok.1 h
      obtain ⟨same, hsame, h⟩ := except_bind_eq_ok.1 h
      split at h
      · next htrue =>
        obtain ⟨raw, hraw, hdata⟩ := loadPayload_eq_some.1 h
        have heq : sig = digest := by
          have := (compareDigest_eq_ok.1 hsame).2
          simpa [htrue] using this
        exact ⟨payload, sig, raw, rfl, heq ▸ hdigest, hraw, hdata⟩
      · cases h
    · rw [hnone] at h
      cases h
  · rintro ⟨payload, sig, raw, rfl, hsign, hraw, hdata⟩
    -- a digest has no dot, so the token is cut where it was joined
    obtain ⟨hascii, hdot⟩ := isAscii_sign hsign
    rw [openToken_eq hdot, hsign, except_ok_bind, compareDigest_eq_ok.2 ⟨⟨hascii, hascii⟩, rfl⟩,
      except_ok_bind, if_pos (by simp)]
    exact loadPayload_eq_some.2 ⟨raw, hraw, hdata⟩

/-! ### Reading a token -/

section Read

variable {α : Type} {read : Value → Except Raised (Option α)} {token : Option UStr}

/-- A reader that needs an object with the fields `P` needs a usable token. -/
theorem returns_read {P : List (UStr × Value) → Prop}
    (hread : ∀ data, Returns (read data) ↔ ∃ kvs, data = .obj kvs ∧ P kvs) :
    Returns (openToken py hmac secret token >>= andThen read) ↔ Usable py hmac P secret token := by
  constructor
  · rintro h payload sig rfl hsig
    obtain ⟨opened, hopened, h⟩ := returns_bind.1 h
    rw [openToken_eq hsig] at hopened
    obtain ⟨digest, hdigest, hopened⟩ := except_bind_eq_ok.1 hopened
    obtain ⟨same, hsame, hopened⟩ := except_bind_eq_ok.1 hopened
    obtain ⟨⟨hascii, -⟩, heq⟩ := compareDigest_eq_ok.1 hsame
    obtain ⟨hsecret, hpayload⟩ := returns_sign.1 ⟨digest, hdigest⟩
    -- the payload is loaded, and can raise, only behind a signature that compares equal
    refine ⟨hsecret, hpayload, hascii, fun hsign raw hraw => ?_⟩
    have hsig : sig = digest := Except.ok.inj (hsign.symm.trans hdigest)
    rw [decide_eq_true hsig] at heq
    rw [← heq, if_pos rfl] at hopened
    refine ⟨returns_loadPayload.1 ⟨opened, hopened⟩ raw hraw, fun data hdata => ?_⟩
    have hsome := loadPayload_eq_some.2 ⟨raw, hraw, hdata⟩
    obtain rfl : opened = some data := Except.ok.inj (hopened.symm.trans hsome)
    exact (hread data).1 h
  · intro h
    rcases token_cases py hmac secret token with
      ⟨payload, sig, rfl, hsig⟩ | ⟨-, hnone⟩
    · obtain ⟨hsecret, hpayload, hascii, hsigned⟩ := h payload sig rfl hsig
      obtain ⟨digest, hdigest⟩ := returns_sign.2 ⟨hsecret, hpayload⟩
      have hcompare := compareDigest_eq_ok.2 ⟨⟨hascii, (isAscii_sign hdigest).1⟩, rfl⟩
      rw [openToken_eq hsig, hdigest, except_ok_bind, hcompare, except_ok_bind]
      by_cases heq : sig = digest
      · rw [if_pos (decide_eq_true heq)]
        obtain ⟨opened, hopened⟩ := returns_loadPayload.2 fun raw hraw e he =>
          (hsigned (heq ▸ hdigest) raw hraw).1 e he
        refine returns_bind.2 ⟨opened, hopened, ?_⟩
        cases opened with
        | none => exact returns_ok none
        | some data =>
          obtain ⟨raw, hraw, hdata⟩ := loadPayload_eq_some.1 hopened
          exact (hread data).2 ((hsigned (heq ▸ hdigest) raw hraw).2 data hdata)
      · rw [if_neg (by simpa using heq)]
        exact returns_ok none
    · rw [hnone]
      exact returns_ok none

/-- A reader that looks at the expiry vouches only for a signed token that has not expired. -/
theorem vouched_of_some {now : Int} (hsome : ∀ data a, read data = .ok (some a) →
      ∃ kvs exp, data = .obj kvs ∧ expiry kvs = .ok exp ∧ now < exp) {a : α}
    (h : (openToken py hmac secret token >>= andThen read) = .ok (some a)) :
    Vouched py hmac secret now token := by
  obtain ⟨opened, hopened, h⟩ := except_bind_eq_ok.1 h
  cases opened with
  | none => cases h
  | some data =>
    obtain ⟨payload, sig, raw, htoken, hsign, hraw, hdata⟩ := openToken_eq_some.1 hopened
    obtain ⟨kvs, exp, rfl, hexp, hlt⟩ := hsome data a h
    exact ⟨payload, sig, raw, kvs, exp, htoken, hsign, hraw, hdata, hexp, hlt⟩

/-- Both together. -/
theorem read_iff {P : List (UStr × Value) → Prop} {now : Int}
    (hread : ∀ data, Returns (read data) ↔ ∃ kvs, data = .obj kvs ∧ P kvs)
    (hsome : ∀ data a, read data = .ok (some a) →
      ∃ kvs exp, data = .obj kvs ∧ expiry kvs = .ok exp ∧ now < exp) :
    (∃ r, (openToken py hmac secret token >>= andThen read) = .ok r ∧
        (r ≠ none → Vouched py hmac secret now token)) ↔ Usable py hmac P secret token := by
  rw [← returns_read hread]
  constructor
  · rintro ⟨r, h, -⟩
    exact ⟨r, h⟩
  · rintro ⟨r, h⟩
    refine ⟨r, h, fun hne => ?_⟩
    obtain ⟨a, rfl⟩ := Option.ne_none_iff_exists'.1 hne
    exact vouched_of_some hsome h

end Read

variable {now : Int}

/-- A session is read when its fields are there. -/
theorem returns_readSession (data : Value) :
    Returns (readSession py now data) ↔ ∃ kvs, data = .obj kvs ∧ SessionFields py now kvs := by
  unfold readSession
  split
  · next kvs =>
    constructor
    · intro h
      obtain ⟨exp, hexp, h⟩ := returns_bind.1 h
      -- a session that is over is left before the other fields are read
      refine ⟨kvs, rfl, exp, hexp, fun hlt => ?_⟩
      rw [if_neg (not_le.2 hlt)] at h
      obtain ⟨u, hu, h⟩ := returns_bind.1 h
      obtain ⟨v, hv, -⟩ := returns_bind.1 h
      exact ⟨⟨u, hu⟩, v, hv⟩
    · rintro ⟨kvs', heq, exp, hexp, hfields⟩
      cases heq
      refine returns_bind.2 ⟨exp, hexp, ?_⟩
      split
      · exact returns_ok none
      · next hlt =>
        obtain ⟨⟨u, hu⟩, v, hv⟩ := hfields (not_le.1 hlt)
        exact returns_bind.2 ⟨u, hu, returns_bind.2 ⟨v, hv, returns_ok _⟩⟩
  · next hobj =>
    refine ⟨fun h => absurd h (not_returns_error _), ?_⟩
    rintro ⟨kvs, heq, -⟩
    exact absurd heq (hobj kvs)

/-- A session that is read has not expired. -/
theorem readSession_some {data : Value} {a : UStr × Int}
    (h : readSession py now data = .ok (some a)) :
    ∃ kvs exp, data = .obj kvs ∧ expiry kvs = .ok exp ∧ now < exp := by
  unfold readSession at h
  split at h
  · next kvs =>
    obtain ⟨exp, hexp, h⟩ := except_bind_eq_ok.1 h
    split at h
    · cases h
    · next hlt => exact ⟨kvs, exp, rfl, hexp, not_le.1 hlt⟩
  · cases h

/-- A payload is read when its expiry is. -/
theorem returns_readData (data : Value) :
    Returns (readData now data) ↔ ∃ kvs, data = .obj kvs ∧ Returns (expiry kvs) := by
  unfold readData
  split
  · next kvs =>
    constructor
    · intro h
      obtain ⟨exp, hexp, -⟩ := returns_bind.1 h
      exact ⟨kvs, rfl, exp, hexp⟩
    · rintro ⟨kvs', heq, exp, hexp⟩
      cases heq
      exact returns_bind.2 ⟨exp, hexp, returns_ok _⟩
  · next hobj =>
    refine ⟨fun h => absurd h (not_returns_error _), ?_⟩
    rintro ⟨kvs, heq, -⟩
    exact absurd heq (hobj kvs)

/-- A payload that is read has not expired. -/
theorem readData_some {data : Value} {a : List (UStr × Value)}
    (h : readData now data = .ok (some a)) :
    ∃ kvs exp, data = .obj kvs ∧ expiry kvs = .ok exp ∧ now < exp := by
  unfold readData at h
  split at h
  · next kvs =>
    obtain ⟨exp, hexp, h⟩ := except_bind_eq_ok.1 h
    split at h
    · cases h
    · next hlt => exact ⟨kvs, exp, rfl, hexp, not_le.1 hlt⟩
  · cases h

/-! ### The readers -/

/-- The sessions. -/
theorem decodeSession_iff (token : Option UStr) :
    (∃ r, decodeSession py hmac secret now token = .ok r ∧
        (r ≠ none → Vouched py hmac secret now token)) ↔
      Usable py hmac (SessionFields py now) secret token :=
  read_iff returns_readSession fun _ _ => readSession_some

/-- The signed payloads. -/
theorem readPayload_iff (token : Option UStr) :
    (∃ r, readPayload py hmac secret now token = .ok r ∧
        (r ≠ none → Vouched py hmac secret now token)) ↔
      Usable py hmac (fun data => Returns (expiry data)) secret token :=
  read_iff returns_readData fun _ _ => readData_some

/-- The accounts of the sessions. -/
theorem sessionUser_iff (users : List User) (token : Option UStr) :
    (∃ r, sessionUser py hmac users secret now token = .ok r ∧
        (r ≠ none → Vouched py hmac secret now token)) ↔
      Usable py hmac (SessionFields py now) secret token := by
  rw [← decodeSession_iff]
  constructor
  · rintro ⟨r, h, -⟩
    obtain ⟨session, hsession, -⟩ := except_bind_eq_ok.1 h
    refine ⟨session, hsession, fun hne => ?_⟩
    obtain ⟨a, rfl⟩ := Option.ne_none_iff_exists'.1 hne
    exact vouched_of_some (fun _ _ => readSession_some) hsession
  · rintro ⟨session, hsession, hvouched⟩
    refine ⟨_, except_bind_eq_ok.2 ⟨session, hsession, rfl⟩, fun hne => hvouched ?_⟩
    rintro rfl
    exact hne rfl

/-! ### What was issued -/

/-- `json.loads` of the bytes of an ASCII text reads the text, with stack for one object at least. -/
def ReadsAscii (py : Runtime) : Prop :=
  ∀ t, PyJson.Plain t → ∃ limit, 0 < limit ∧
    py.loadsBytes (Latin1.encode t) = PyJson.loads limit (ofText t)

/-- What is read of a session payload. -/
def sessionPayload (exp : Int) (username : UStr) (pwdVersion : Int) : Value :=
  .obj [(ofText "exp".toList, .int exp), (ofText "u".toList, .str username),
    (ofText "v".toList, .int pwdVersion)]

/-- A session can be written when its numbers can. -/
theorem dumpsSession_eq_ok {exp pwdVersion : Int} {username : UStr} {text : List Char} :
    dumpsSession exp username pwdVersion = .ok text ↔
      PyJson.Printable exp ∧ PyJson.Printable pwdVersion ∧
        PyJson.dumpsObj [(ofText "exp".toList, PyJson.intText exp),
          (ofText "u".toList, PyJson.dumpsStr username),
          (ofText "v".toList, PyJson.intText pwdVersion)] = text := by
  constructor
  · intro h
    obtain ⟨expText, hexp, h⟩ := except_bind_eq_ok.1 h
    obtain ⟨versionText, hversion, h⟩ := except_bind_eq_ok.1 h
    obtain ⟨hexpFits, rfl⟩ := PyJson.dumpsInt_eq_ok.1 hexp
    obtain ⟨hversionFits, rfl⟩ := PyJson.dumpsInt_eq_ok.1 hversion
    exact ⟨hexpFits, hversionFits, Except.ok.inj h⟩
  · rintro ⟨hexp, hversion, rfl⟩
    exact except_bind_eq_ok.2 ⟨_, PyJson.dumpsInt_eq_ok.2 ⟨hexp, rfl⟩,
      except_bind_eq_ok.2 ⟨_, PyJson.dumpsInt_eq_ok.2 ⟨hversion, rfl⟩, rfl⟩⟩

/-- A written session is read with the pairs of its name joined. -/
theorem loads_dumpsSession (hpy : ReadsAscii py) {exp pwdVersion : Int} {username : UStr}
    {text : List Char} (h : dumpsSession exp username pwdVersion = .ok text) :
    py.loadsBytes (Latin1.encode text) =
      .ok (sessionPayload exp (PyJson.merged username) pwdVersion) := by
  obtain ⟨hexp, hversion, rfl⟩ := dumpsSession_eq_ok.1 h
  -- what is written is plain ASCII, and what is read is the same object again
  have hplain : PyJson.Plain (PyJson.dumpsObj [(ofText "exp".toList, PyJson.intText exp),
      (ofText "u".toList, PyJson.dumpsStr username),
      (ofText "v".toList, PyJson.intText pwdVersion)]) := by
    refine PyJson.plain_dumpsObj fun m hm => ?_
    simp only [List.mem_cons, List.not_mem_nil, or_false] at hm
    rcases hm with rfl | rfl | rfl
    · exact PyJson.plain_intText exp
    · exact PyJson.plain_dumpsStr username
    · exact PyJson.plain_intText pwdVersion
  obtain ⟨limit, hlimit, hloads⟩ := hpy _ hplain
  rw [hloads]
  refine PyJson.loads_dumpsObj hlimit [(ofText "exp".toList, PyJson.intText exp, .int exp),
    (ofText "u".toList, PyJson.dumpsStr username, .str (PyJson.merged username)),
    (ofText "v".toList, PyJson.intText pwdVersion, .int pwdVersion)] fun m hm => ?_
  simp only [List.mem_cons, List.not_mem_nil, or_false] at hm
  rcases hm with rfl | rfl | rfl
  · exact PyJson.written_intText hexp
  · exact PyJson.written_dumpsStr username
  · exact PyJson.written_intText hversion

/-- A session that has not expired is read as its name and its version. -/
theorem readSession_payload {exp pwdVersion : Int} (hnow : now < exp) (username : UStr) :
    readSession py now (sessionPayload exp username pwdVersion) =
      .ok (some (username, pwdVersion)) := by
  have hexp : expiry [(ofText "exp".toList, .int exp), (ofText "u".toList, .str username),
      (ofText "v".toList, .int pwdVersion)] = .ok exp := rfl
  rw [sessionPayload, readSession, hexp, except_ok_bind, if_neg (not_le.2 hnow)]
  rfl

/-- An issued token is read, before it expires, with the pairs of its name joined. -/
theorem decodeSession_issued (hpy : ReadsAscii py) {issued ttlSeconds pwdVersion : Int}
    {username token : UStr} (hnow : now < issued + ttlSeconds)
    (h : issueSession hmac secret issued ttlSeconds username pwdVersion = .ok token) :
    decodeSession py hmac secret now (some token) =
      .ok (some (PyJson.merged username, pwdVersion)) := by
  obtain ⟨text, htext, h⟩ := except_bind_eq_ok.1 h
  obtain ⟨sig, hsig, h⟩ := except_bind_eq_ok.1 h
  obtain rfl := Except.ok.inj h
  have hopen := (@openToken_eq_some py hmac secret _ _).2
    ⟨_, sig, _, rfl, hsig, b64d_b64e _, loads_dumpsSession hpy htext⟩
  rw [decodeSession, hopen, except_ok_bind]
  exact readSession_payload hnow _

/-- When a session is issued at all. -/
theorem returns_issueSession {issued ttlSeconds pwdVersion : Int} {username : UStr} :
    Returns (issueSession hmac secret issued ttlSeconds username pwdVersion) ↔
      Returns (encodeUtf8 secret) ∧ PyJson.Printable (issued + ttlSeconds) ∧
        PyJson.Printable pwdVersion := by
  constructor
  · rintro ⟨token, h⟩
    obtain ⟨text, htext, h⟩ := except_bind_eq_ok.1 h
    obtain ⟨sig, hsig, -⟩ := except_bind_eq_ok.1 h
    obtain ⟨hexp, hversion, -⟩ := dumpsSession_eq_ok.1 htext
    exact ⟨(returns_sign.1 ⟨sig, hsig⟩).1, hexp, hversion⟩
  · rintro ⟨hsecret, hexp, hversion⟩
    have htext := (@dumpsSession_eq_ok _ _ username _).2 ⟨hexp, hversion, rfl⟩
    obtain ⟨sig, hsig⟩ := (@returns_sign hmac secret _).2 ⟨hsecret, isAscii_b64e (Latin1.encode _)⟩
    exact ⟨_, except_bind_eq_ok.2 ⟨_, htext, except_bind_eq_ok.2 ⟨sig, hsig, rfl⟩⟩⟩

/-- What was issued is read back, before it expires, when no pair of surrogates of the name is
    joined on the way. -/
theorem issued_iff (hpy : ReadsAscii py) {issued ttlSeconds pwdVersion : Int} {username : UStr}
    (hnow : now < issued + ttlSeconds) :
    (∃ token, issueSession hmac secret issued ttlSeconds username pwdVersion = .ok token ∧
        decodeSession py hmac secret now (some token) = .ok (some (username, pwdVersion))) ↔
      Returns (encodeUtf8 secret) ∧ PyJson.Printable (issued + ttlSeconds) ∧
        PyJson.Printable pwdVersion ∧ PyJson.Unpaired username := by
  rw [← PyJson.merged_eq_iff]
  constructor
  · rintro ⟨token, h, hread⟩
    obtain ⟨hsecret, hexp, hversion⟩ := returns_issueSession.1 ⟨token, h⟩
    rw [decodeSession_issued hpy hnow h] at hread
    exact ⟨hsecret, hexp, hversion,
      congrArg Prod.fst (Option.some.inj (Except.ok.inj hread))⟩
  · rintro ⟨hsecret, hexp, hversion, hname⟩
    obtain ⟨token, h⟩ := (@returns_issueSession hmac secret _ _ _ username).2
      ⟨hsecret, hexp, hversion⟩
    refine ⟨token, h, ?_⟩
    rw [decodeSession_issued hpy hnow h, hname]

/-! ### The session cookie -/

/-- **Session tokens.**  For any text as a token each reader returns, with nothing unless the
    token is signed and has not expired, exactly when the token is usable for it.  A token that
    was issued is read back as its name and version before it expires exactly when the secret can
    be encoded, the expiry and the version can be written, and the name has no two surrogates that
    make a pair. -/
theorem sessions_iff (py : Runtime) (hmac : Bytes → Bytes → Bytes) (secret : UStr) (now : Int) :
    (∀ token, (∃ r, decodeSession py hmac secret now token = .ok r ∧
          (r ≠ none → Vouched py hmac secret now token)) ↔
        Usable py hmac (SessionFields py now) secret token) ∧
      (∀ token, (∃ r, readPayload py hmac secret now token = .ok r ∧
          (r ≠ none → Vouched py hmac secret now token)) ↔
        Usable py hmac (fun data => Returns (expiry data)) secret token) ∧
      (∀ users token, (∃ r, sessionUser py hmac users secret now token = .ok r ∧
          (r ≠ none → Vouched py hmac secret now token)) ↔
        Usable py hmac (SessionFields py now) secret token) ∧
      ∀ issued ttlSeconds username pwdVersion, ReadsAscii py → now < issued + ttlSeconds →
        ((∃ token, issueSession hmac secret issued ttlSeconds username pwdVersion = .ok token ∧
            decodeSession py hmac secret now (some token) = .ok (some (username, pwdVersion))) ↔
          Returns (encodeUtf8 secret) ∧ PyJson.Printable (issued + ttlSeconds) ∧
            PyJson.Printable pwdVersion ∧ PyJson.Unpaired username) :=
  ⟨decodeSession_iff, readPayload_iff, sessionUser_iff, fun _ _ _ _ hpy => issued_iff hpy⟩

/-- An interpreter that parses every text of one byte a character, with stack for a hundred lists
    and objects. -/
def latinRuntime : Runtime where
  loads s := PyJson.loads 100 s
  loadsBytes raw := PyJson.loads 100 (ofText (raw.map Latin1.byteChar))
  strOther _ := .error .valueError

/-- The runtime of the examples reads ASCII. -/
theorem readsAscii_latinRuntime : ReadsAscii latinRuntime := by
  intro t ht
  -- the text is the bytes of its numbers, each taken as a character
  have htext : (t.map fun c => UInt8.ofNat c.toNat).map Latin1.byteChar = t := by
    rw [List.map_map]
    refine (List.map_congr_left fun c hc => ?_).trans (List.map_id t)
    have hlt := (ht c hc).2
    rw [Function.comp_apply, Latin1.byteChar_ofNat, Nat.mod_eq_of_lt (by omega), Char.ofNat_toNat, id]
  have hascii : ∀ b ∈ t.map fun c => UInt8.ofNat c.toNat, b < 0x80 := by
    intro b hb
    obtain ⟨c, hc, rfl⟩ := List.mem_map.1 hb
    have hlt := (ht c hc).2
    rw [UInt8.lt_iff_toNat_lt, UInt8.toNat_ofNat', Nat.mod_eq_of_lt (by omega)]
    exact Nat.lt_of_lt_of_le hlt (by decide)
  have hencode := (Latin1.encode_byteChars_iff _).2 hascii
  rw [htext] at hencode
  refine ⟨100, by decide, ?_⟩
  show PyJson.loads 100 (ofText ((Latin1.encode t).map Latin1.byteChar)) = _
  rw [hencode, htext]

/-- Bob's session, issued for ten minutes at the time 0 and read one second before its end. -/
theorem sessions_iff_bob :
    ∃ token, issueSession (fun key msg => key ++ msg) (ofText "secret".toList) 0 600
        (ofText "bob".toList) 1 = .ok token ∧
      decodeSession latinRuntime (fun key msg => key ++ msg) (ofText "secret".toList) 599
        (some token) = .ok (some (ofText "bob".toList, 1)) :=
  ((sessions_iff latinRuntime (fun key msg => key ++ msg) (ofText "secret".toList) 599).2.2.2 0 600
    (ofText "bob".toList) 1 readsAscii_latinRuntime (by decide)).2
    ⟨returns_encodeUtf8 (by decide), PyJson.printable_of_lt (by decide),
      PyJson.printable_of_lt (by decide), by decide⟩

/-- A cookie with a character that is not ASCII before its last dot: the reader raises. -/
theorem decodeSession_accent :
    ¬ ∃ r, decodeSession latinRuntime (fun key msg => key ++ msg) (ofText "secret".toList) 0
        (some (ofText "é.x".toList)) = .ok r ∧
      (r ≠ none → Vouched latinRuntime (fun key msg => key ++ msg) (ofText "secret".toList) 0
        (some (ofText "é.x".toList))) := by
  rintro ⟨r, h, -⟩
  have hdot : dot ∉ ofText ['x'] := by decide
  obtain ⟨opened, hopened, -⟩ := except_bind_eq_ok.1 h
  have heq : openToken latinRuntime (fun key msg => key ++ msg) (ofText "secret".toList)
      (some (ofText ['é'] ++ dot :: ofText ['x'])) = .ok opened := hopened
  rw [openToken_eq hdot] at heq
  obtain ⟨digest, hdigest, -⟩ := except_bind_eq_ok.1 heq
  exact absurd (returns_sign.1 ⟨digest, hdigest⟩).2 (by decide)

end Ser2Net.Web.Session
