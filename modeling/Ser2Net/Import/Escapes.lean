import Ser2Net.Lib.Latin1
import Ser2Net.Import.Valid

namespace Ser2Net.Import

open Ser2Net.Lib Ser2Net.Lib.Latin1 Ser2Net.Config Logged

/-!
# Import — the texts for the device

`openstr`, `closestr` and `closeon` name bytes.  ser2net reads them from a text with escapes; here
the import turns the text into an option, and the engine encodes the option again.

* `Reads` — the bytes that ser2net reads from a text;
* `convertFrom_reads` — the import makes a character of every byte;
* `MappingOptions.deviceBytes` — what the engine makes of the option;
* `escapes_kept_iff` — exactly when the engine gets the bytes back.
-/

/-! ### What ser2net reads -/

/-- The byte of a C escape. -/
def cEscape : Char → Option UInt8
  | 'a' => some 7
  | 'b' => some 8
  | 't' => some 9
  | 'n' => some 10
  | 'v' => some 11
  | 'f' => some 12
  | 'r' => some 13
  | '"' => some 34
  | '\'' => some 39
  | '?' => some 63
  | '\\' => some 92
  | _ => none

/-- `e` behind a backslash, with `rest` behind it, is an escape for a byte. -/
inductive Escape : Text → Text → UInt8 → Prop
  | c {ch : Char} {rest : Text} {b : UInt8} (h : cEscape ch = some b) : Escape [ch] rest b
  | hex {d₁ d₂ : Char} {rest : Text} (h₁ : PyText.isHexDigit d₁ = true)
    (h₂ : PyText.isHexDigit d₂ = true) :
    Escape ['x', d₁, d₂] rest (UInt8.ofNat (PyText.hexOf [d₁, d₂]))
  /-- As many digits as there are, three at most. -/
  | octal {ds rest : Text} (hne : ds ≠ []) (hlen : ds.length ≤ 3)
    (hdigits : ∀ d ∈ ds, PyText.isOctDigit d = true)
    (hend : ds.length = 3 ∨ ∀ d, rest.head? = some d → PyText.isOctDigit d = false) :
    Escape ds rest (UInt8.ofNat (PyText.octOf ds))

/-- ser2net reads the bytes from a text of plain ASCII characters and escapes. -/
inductive Reads : Text → Bytes → Prop
  | nil : Reads [] []
  | plain {c : Char} {rest : Text} {bs : Bytes} (hascii : c.toNat < 128) (hc : c ≠ '\\')
    (hrest : Reads rest bs) : Reads (c :: rest) (UInt8.ofNat c.toNat :: bs)
  | escape {e rest : Text} {b : UInt8} {bs : Bytes} (he : Escape e rest b) (hrest : Reads rest bs) :
    Reads ('\\' :: (e ++ rest)) (b :: bs)

/-! ### What the engine makes of the option -/

/-- The options that hold bytes for the device, or for its data. -/
inductive DeviceString
  /-- sent when the device opens -/
  | openstr
  /-- sent when the last client leaves -/
  | closestr
  /-- looked for in what the device sends -/
  | closeon
  deriving DecidableEq, Repr

def DeviceString.key : DeviceString → StringKey
  | .openstr => .openstr
  | .closestr => .closestr
  | .closeon => .closeon

/-- `text.encode("utf-8", "replace")`. -/
def encodeOption : Json → Bytes
  | .str s => s.toByteArray.data.toList
  | _ => []

/-- The bytes that `MappingRunner` sends or looks for. -/
def deviceBytes (o : MappingOptions) : DeviceString → Bytes
  | .openstr => encodeOption o.openstr
  | .closestr => encodeOption o.closestr
  | .closeon => encodeOption o.closeon

/-! ### One escape -/

section
variable {c : Conn}

/-- The characters of an escape are skipped. -/
theorem convertFrom_skip (kind : EscapeKind) (e rest : Text) :
    convertFrom c kind e.length (e ++ rest) = convertFrom c kind 0 rest := by
  induction e with
  | nil => rfl
  | cons ch e ih => exact ih

/-- An escape that stands for one character. -/
theorem convertFrom_escape {kind : EscapeKind} {e rest t : Text} {ch : Char}
    (he : escapeAt (e ++ rest) = some e) (hone : convertOne c kind e = ⟨[ch], [], []⟩)
    (hrest : convertFrom c kind 0 rest = ⟨t, [], []⟩) :
    convertFrom c kind 0 ('\\' :: (e ++ rest)) = ⟨ch :: t, [], []⟩ := by
  rw [convertFrom, if_pos rfl, he]
  dsimp only
  rw [hone, convertFrom_skip, hrest]
  rfl

/-- A hexadecimal digit. -/
theorem hexDigit_lt {d : Char} (h : PyText.isHexDigit d = true) : PyText.hexDigit d < 16 := by
  have hle : ∀ a b : Char, a ≤ b ↔ a.toNat ≤ b.toNat := fun a b => UInt32.le_iff_toNat_le
  have h0 : '0'.toNat = 48 := rfl
  have h9 : '9'.toNat = 57 := rfl
  have ha : 'a'.toNat = 97 := rfl
  have hf : 'f'.toNat = 102 := rfl
  have hA : 'A'.toNat = 65 := rfl
  have hF : 'F'.toNat = 70 := rfl
  unfold PyText.isHexDigit at h
  simp only [Bool.or_eq_true, Bool.and_eq_true, decide_eq_true_eq, hle,
    Char.isDigit_iff_toNat] at h
  unfold PyText.hexDigit
  simp only [hle, Char.isDigit_iff_toNat]
  split_ifs <;> omega

/-- The digits that `_ESCAPE` takes. -/
theorem takeWhile_octal {ds rest : Text} (hlen : ds.length ≤ 3)
    (hdigits : ∀ d ∈ ds, PyText.isOctDigit d = true)
    (hend : ds.length = 3 ∨ ∀ d, rest.head? = some d → PyText.isOctDigit d = false) :
    ((ds ++ rest).take 3).takeWhile PyText.isOctDigit = ds := by
  have hrest : (rest.take (3 - ds.length)).takeWhile PyText.isOctDigit = [] := by
    rcases hend with hthree | hend
    · rw [hthree]
      rfl
    · cases rest with
      | nil => simp
      | cons r rest =>
        cases 3 - ds.length with
        | zero => rfl
        | succ k => rw [List.take_succ_cons, List.takeWhile_cons, hend r rfl]; rfl
  rw [List.take_append, List.take_of_length_le hlen, List.takeWhile_append_of_pos hdigits, hrest,
    List.append_nil]

/-- An escape of ser2net is one of the import, for the character with the number of the byte. -/
theorem escape_spec {e rest : Text} {b : UInt8} (h : Escape e rest b) :
    escapeAt (e ++ rest) = some e ∧ convertOne c .bytes e = ⟨[byteChar b], [], []⟩ := by
  cases h with
  | @c ch _ _ h =>
    unfold cEscape at h
    split at h <;> cases h <;> exact ⟨rfl, rfl⟩
  | @hex d₁ d₂ _ h₁ h₂ =>
    have hsmall : PyText.hexOf [d₁, d₂] < 256 := by
      -- two hexadecimal digits are below 256, so the byte is the number
      have hd₁ := hexDigit_lt h₁
      have hd₂ := hexDigit_lt h₂
      show (0 * 16 + PyText.hexDigit d₁) * 16 + PyText.hexDigit d₂ < 256
      omega
    refine ⟨?_, ?_⟩
    · show some ('x' :: [d₁, d₂].takeWhile PyText.isHexDigit) = _
      rw [List.takeWhile_cons, if_pos h₁, List.takeWhile_cons, if_pos h₂]
      rfl
    · rw [byteChar_ofNat, Nat.mod_eq_of_lt hsmall]
      rfl
  | octal hne hlen hdigits hend =>
    have htake := takeWhile_octal hlen hdigits hend
    rw [byteChar_ofNat]
    cases e with
    | nil => exact absurd rfl hne
    | cons d ds =>
      have hd : PyText.isOctDigit d = true := hdigits d List.mem_cons_self
      -- an octal digit is no x, so the second branch is taken
      have hx : d ≠ 'x' := by
        rintro rfl
        exact absurd hd (by decide)
      refine ⟨?_, ?_⟩
      · rw [List.cons_append, escapeAt, if_neg hx, if_pos hd]
        exact congrArg some htake
      · simp only [convertOne, hx, hd, decide_false, Bool.false_and, Bool.false_eq_true, if_false,
          if_true]

/-! ### The whole text -/

/-- The import makes a character of every byte that ser2net reads. -/
theorem convertFrom_reads {text : Text} {bs : Bytes} (h : Reads text bs) :
    convertFrom c .bytes 0 text = ⟨bs.map byteChar, [], []⟩ := by
  induction h with
  | nil => rfl
  | @plain ch rest bs hascii hc _ ih =>
    have hchar : byteChar (UInt8.ofNat ch.toNat) = ch := by
      rw [byteChar_ofNat, Nat.mod_eq_of_lt (by omega), Char.ofNat_toNat]
    rw [convertFrom, if_neg hc]
    dsimp only
    rw [ih, List.map_cons, hchar]
  | escape he _ ih =>
    obtain ⟨hat, hone⟩ := escape_spec (c := c) he
    exact convertFrom_escape hat hone ih

/-- A text without the mark of dropped escapes stays. -/
theorem dropGone_eq_self {t : Text} (h : gone ∉ t) : dropGone false t = t := by
  induction t with
  | nil => rfl
  | cons c rest ih =>
    have hc : ¬ c = gone := (List.ne_of_not_mem_cons h).symm
    have hrest : gone ∉ rest := List.not_mem_of_not_mem_cons h
    cases rest with
    | nil => rw [dropGone, if_neg hc]
    | cons d rest =>
      rw [dropGone, if_neg (by simp), if_neg hc, ih hrest]

/-- The converted text. -/
theorem convert_reads {text : Text} {bs : Bytes} (h : Reads text bs) (what : Text) :
    (convert c text .bytes what).1 = bs.map byteChar := by
  have hgone : gone ∉ bs.map byteChar := by
    intro hmem
    obtain ⟨b, -, hb⟩ := List.mem_map.1 hmem
    have hval := byteChar_val b
    have hlt := b.toNat_lt
    rw [hb] at hval
    have : gone.val.toNat = 0xe000 := by decide
    omega
  unfold convert
  dsimp only
  rw [if_neg (by decide), convertFrom_reads h]
  exact dropGone_eq_self hgone

/-! ### The connection and its mapping -/

/-- A note leaves the strings. -/
@[simp] theorem note_strings (c : Conn) (msg : Text) : (c.note msg).strings = c.strings := by
  unfold Conn.note
  split <;> rfl

/-- A note leaves the options. -/
@[simp] theorem note_options (c : Conn) (msg : Text) : (c.note msg).options = c.options := by
  unfold Conn.note
  split <;> rfl

/-- A branch that keeps a field. -/
theorem ite_field {α : Type} (f : Conn → α) {p : Prop} [Decidable p] {c d e : Conn}
    (hd : f d = f c) (he : f e = f c) : f (if p then d else e) = f c := by
  split
  · exact hd
  · exact he

/-- The escapes of a text leave the strings. -/
theorem convert_strings (c : Conn) (text : Text) (kind : EscapeKind) (what : Text) :
    (convert c text kind what).2.strings = c.strings := by
  unfold convert
  dsimp only
  have hfixed : ∀ (p : Prop) [Decidable p] (msg : Text),
      (if p then c else c.note msg).strings = c.strings :=
    fun p _ msg => ite_field Conn.strings rfl (note_strings c msg)
  exact ite_field Conn.strings (hfixed _ _) ((note_strings _ _).trans (hfixed _ _))

/-- The escapes of a text leave the options. -/
theorem convert_options (c : Conn) (text : Text) (kind : EscapeKind) (what : Text) :
    (convert c text kind what).2.options = c.options := by
  unfold convert
  dsimp only
  have hfixed : ∀ (p : Prop) [Decidable p] (msg : Text),
      (if p then c else c.note msg).options = c.options :=
    fun p _ msg => ite_field Conn.options rfl (note_options c msg)
  exact ite_field Conn.options (hfixed _ _) ((note_options _ _).trans (hfixed _ _))

/-- The flow control leaves the strings. -/
theorem finishFlow_strings (c : Conn) : (finishFlow c).strings = c.strings :=
  ite_field Conn.strings (note_strings c _) rfl

/-- The protocol leaves the strings. -/
theorem finishProtocol_strings (c : Conn) : (finishProtocol c).strings = c.strings := by
  unfold finishProtocol
  dsimp only
  have hudp : ∀ (p : Prop) [Decidable p] (msg : Text) (net : ConnNetwork),
      (if p then { c.note msg with network := net } else c).strings = c.strings :=
    fun p _ msg net => ite_field Conn.strings (note_strings c msg) rfl
  exact ite_field Conn.strings ((note_strings _ _).trans (hudp _ _ _)) (hudp _ _ _)

/-- A converted string leaves the raw ones. -/
theorem finishString_strings (c : Conn) (key : StringKey) :
    (finishString c key).strings = c.strings := by
  unfold finishString
  cases c.strings.lookup key with
  | none => rfl
  | some raw => exact convert_strings c raw _ _

/-- A text for the device is converted when its turn comes, and stays. -/
theorem finishString_reads {s : DeviceString} {text : Text} {bs : Bytes} (hread : Reads text bs)
    {c : Conn} (htext : c.strings.lookup s.key = some text) (key : StringKey)
    (hkey : s.key = key ∨ c.options.strings.lookup s.key = some (bs.map byteChar)) :
    (finishString c key).options.strings.lookup s.key = some (bs.map byteChar) := by
  have hbanner : s.key ≠ .banner := by cases s <;> decide
  unfold finishString
  by_cases heq : s.key = key
  · subst heq
    rw [htext]
    dsimp only
    rw [if_neg hbanner, lookup_dictSet, if_pos rfl, convert_reads hread]
  · have hold := hkey.resolve_left heq
    cases c.strings.lookup key with
    | none => exact hold
    | some raw =>
      dsimp only
      rw [lookup_dictSet, if_neg heq, convert_options]
      exact hold

/-- After all four strings, the one that was read is there. -/
theorem finishStrings_reads {s : DeviceString} {text : Text} {bs : Bytes} (hread : Reads text bs)
    {keys : List StringKey} {c : Conn} (htext : c.strings.lookup s.key = some text)
    (hkeys : s.key ∈ keys ∨ c.options.strings.lookup s.key = some (bs.map byteChar)) :
    (keys.foldl finishString c).options.strings.lookup s.key = some (bs.map byteChar) := by
  induction keys generalizing c with
  | nil => exact hkeys.resolve_left List.not_mem_nil
  | cons key rest ih =>
    have hnext : (finishString c key).strings.lookup s.key = some text := by
      rw [finishString_strings, htext]
    rw [List.foldl_cons]
    refine ih hnext ?_
    rcases hkeys with hmem | hold
    · rcases List.mem_cons.1 hmem with hkey | hmem
      · exact .inr (finishString_reads hread htext key (.inl hkey))
      · exact .inl hmem
    · exact .inr (finishString_reads hread htext key (.inr hold))

/-- The converted texts. -/
abbrev texts (c : Conn) : List (StringKey × Text) := c.options.strings

/-- A note leaves the texts. -/
theorem note_texts (c : Conn) (msg : Text) : texts (c.note msg) = texts c := by
  rw [texts, note_options]

/-- The trace file leaves the texts. -/
theorem finishTraceFile_texts (env : ImportEnv) (c : Conn) (kind : TraceKind) (raw : Text) :
    texts (finishTraceFile env c kind raw) = texts c := by
  unfold finishTraceFile
  dsimp only
  have hconvert : texts (convert c raw .file (traceLabel c.v3 kind)).2 = texts c := by
    rw [texts, convert_options]
  generalize convert c raw .file (traceLabel c.v3 kind) = converted at hconvert ⊢
  obtain ⟨path, c₁⟩ := converted
  dsimp only at hconvert ⊢
  have hset : texts { c₁ with options := { c₁.options with traceBoth := some path } } = texts c :=
    hconvert
  have hnoted : ∀ (p : Prop) [Decidable p] (d : Conn) (msg : Text), texts d = texts c →
      texts (if p then d else d.note msg) = texts c :=
    fun p _ d msg hd => ite_field texts hd ((note_texts d msg).trans hd)
  exact ite_field texts hconvert (hnoted _ _ _ (hnoted _ _ _ hset))

/-- A loop that keeps the texts. -/
theorem foldl_texts {γ : Type} {f : Conn → γ → Conn} (hf : ∀ c x, texts (f c x) = texts c)
    (l : List γ) (c : Conn) : texts (l.foldl f c) = texts c := by
  induction l generalizing c with
  | nil => rfl
  | cons x rest ih => exact (ih (f c x)).trans (hf c x)

/-- The traces leave the texts. -/
theorem finishTrace_texts (env : ImportEnv) (c : Conn) : texts (finishTrace env c) = texts c := by
  have hmod : ∀ kind c mod, texts (finishTraceMod kind c mod) = texts c := by
    intro kind c mod
    unfold finishTraceMod
    split <;> rfl
  unfold finishTrace
  split
  · rfl
  · next kind raw _ =>
    rw [foldl_texts (hmod kind), foldl_texts fun c other => ite_field texts rfl (note_texts c _),
      finishTraceFile_texts]

/-- Holding a mapping back leaves its texts. -/
theorem finishHold_texts (c : Conn) : texts (finishHold c) = texts c := by
  unfold finishHold
  dsimp only
  have hheld : ∀ d : Conn, texts d = texts c →
      texts (if d.hold = [] then d else ({ d with enabled := false } : Conn).note d.hold) =
        texts c :=
    fun d hd => ite_field texts hd ((note_texts _ _).trans hd)
  exact hheld _ (ite_field texts rfl rfl)

/-- The list of dropped options leaves the texts. -/
theorem finishDropped_texts (c : Conn) : texts (finishDropped c) = texts c :=
  ite_field texts rfl (note_texts c _)

/-- The end of the conversion makes an option of a text for the device. -/
theorem finish_strings (env : ImportEnv) {s : DeviceString} {text : Text} {bs : Bytes}
    (hread : Reads text bs) {c : Conn} (htext : c.strings.lookup s.key = some text) :
    (finish env c).options.strings.lookup s.key = some (bs.map byteChar) := by
  have hbefore : (finishProtocol (finishFlow c)).strings.lookup s.key = some text := by
    rw [finishProtocol_strings, finishFlow_strings, htext]
  have hkey : s.key ∈ [StringKey.banner, .openstr, .closestr, .closeon] := by cases s <;> decide
  have hall := finishStrings_reads hread hbefore (.inl hkey)
  unfold finish
  dsimp only
  show (texts (finishDropped _)).lookup s.key = _
  rw [finishDropped_texts, finishHold_texts, finishTrace_texts]
  exact hall

end

/-- The engine encodes the option of the mapping. -/
theorem deviceBytes_mapping {d : Conn} {s : DeviceString} {t : Text}
    (h : d.options.strings.lookup s.key = some t) (m : Platform) (newId : String) (idle : Json) :
    deviceBytes (d.mapping m newId idle).options s = encode t := by
  have hget : ∀ k, Json.lookup d.optionMembers k = some (str t) →
      encodeOption (Json.get d.optionMembers k (.str "")) = encode t := by
    intro k hk
    unfold Json.get
    rw [hk, Option.getD_some, str, encodeOption, encode_ofList]
  cases s with
  | openstr =>
    -- the options in front of this one in the dictionary have other keys
    refine hget "openstr" ?_
    unfold Conn.optionMembers
    simp only [List.append_assoc]
    rw [lookup_optional_of_ne (by decide), lookup_optional_of_ne (by decide),
      show d.options.strings.lookup .openstr = some t from h]
    rfl
  | closestr =>
    refine hget "closestr" ?_
    unfold Conn.optionMembers
    simp only [List.append_assoc]
    rw [lookup_optional_of_ne (by decide), lookup_optional_of_ne (by decide),
      lookup_optional_of_ne (by decide), show d.options.strings.lookup .closestr = some t from h]
    rfl
  | closeon =>
    refine hget "closeon" ?_
    unfold Conn.optionMembers
    simp only [List.append_assoc]
    rw [lookup_optional_of_ne (by decide), lookup_optional_of_ne (by decide),
      lookup_optional_of_ne (by decide), lookup_optional_of_ne (by decide),
      show d.options.strings.lookup .closeon = some t from h]
    rfl

/-- **Bytes for the device.**  The engine gets back the bytes that ser2net reads from a text
    exactly when all of them are below 128: the import makes a character of every byte, and the
    engine encodes a character from 128 on as two bytes. -/
theorem escapes_kept_iff (env : ImportEnv) {c d : Conn} {s : DeviceString} {text : Text}
    {bs : Bytes} (hread : Reads text bs) (htext : c.strings.lookup s.key = some text)
    (hrenamed : Renamed (finish env c) d) {newId : String} {cfg : MappingConfig}
    (hload : MappingConfig.fromDict env.platform newId d.toDict = .ok cfg) :
    deviceBytes cfg.options s = bs ↔ ∀ b ∈ bs, b < 0x80 := by
  have hoptions : d.options = (finish env c).options := by
    obtain ⟨used, enabled, rfl, -⟩ := hrenamed
    rfl
  have hfinal : d.options.strings.lookup s.key = some (bs.map byteChar) := by
    rw [hoptions]
    exact finish_strings env hread htext
  rw [fromDict_toDict] at hload
  obtain ⟨idle, -, hload⟩ := except_bind_eq_ok.1 hload
  obtain rfl := Except.ok.inj hload
  rw [deviceBytes_mapping hfinal]
  exact encode_byteChars_iff bs

/-- A connection that keeps its name and its switch. -/
theorem renamed_self (c : Conn) : Renamed c c := ⟨[], c.enabled, rfl, id⟩

/-- A connection with a text for its device. -/
def withOpenstr (text : Text) : Conn :=
  { name := "port", label := "port", strings := [(.openstr, text)] }

/-- A letter and a line feed. -/
theorem escapes_kept_letter : ∃ cfg,
    MappingConfig.fromDict bareMachine "" (finish plainEnv (withOpenstr "\\x41\\n")).toDict = .ok cfg ∧
    deviceBytes cfg.options .openstr = [0x41, 0x0a] := by
  have hread : Reads "\\x41\\n" [0x41, 0x0a] :=
    .escape (@Escape.hex '4' '1' _ (by decide) (by decide))
      (.escape (@Escape.c 'n' _ _ (by decide)) .nil)
  have hloads : (MappingConfig.fromDict bareMachine ""
      (finish plainEnv (withOpenstr "\\x41\\n")).toDict).isOk = true := by decide +kernel
  cases hload : MappingConfig.fromDict bareMachine ""
      (finish plainEnv (withOpenstr "\\x41\\n")).toDict with
  | error e =>
    rw [hload] at hloads
    cases hloads
  | ok cfg =>
    refine ⟨cfg, rfl, ?_⟩
    exact (escapes_kept_iff plainEnv (c := withOpenstr "\\x41\\n") (s := .openstr) hread rfl
      (renamed_self _) hload).2 (by decide +kernel)

/-- The byte 255 is sent as two others. -/
theorem escape_ff_lost :
    let text : Text := "OPENSTR:open:\\xff\n2000:raw:0:/dev/ttyS0:9600 open"
    Reads "\\xff" [0xff] ∧ ∃ mapping warnings, Returns (parse plainEnv text []) ([mapping], warnings) ∧
      ∃ cfg, MappingConfig.fromDict bareMachine "" mapping = .ok cfg ∧
        deviceBytes cfg.options .openstr = [0xc3, 0xbf] := by
  intro text
  refine ⟨.escape (@Escape.hex 'f' 'f' _ (by decide) (by decide)) .nil, ?_⟩
  obtain ⟨⟨mappings, warnings⟩, hrun, hsent⟩ := exists_returns (x := parse plainEnv text [])
    (p := fun r => r.1.map (fun j => (MappingConfig.fromDict bareMachine "" j).toOption.map
      fun cfg => deviceBytes cfg.options .openstr) = [some [0xc3, 0xbf]]) (by decide +kernel)
  obtain ⟨mapping, rfl, hmapping⟩ := List.map_eq_singleton_iff.1 (of_decide_eq_true hsent)
  refine ⟨mapping, warnings, hrun, ?_⟩
  cases hload : MappingConfig.fromDict bareMachine "" mapping with
  | error e =>
    rw [hload] at hmapping
    cases hmapping
  | ok cfg =>
    rw [hload] at hmapping
    exact ⟨cfg, rfl, Option.some.inj hmapping⟩

end Ser2Net.Import
