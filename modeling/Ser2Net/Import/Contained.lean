import Ser2Net.Config.Demands
import Ser2Net.Import.Progress
import Ser2Net.Import.Sources

namespace Ser2Net.Import

open Ser2Net.Lib Ser2Net.Config Logged

/-!
# Import — which exceptions leave it

The callers of the import catch `ConfigError`.  Anything else comes from a conversion that
refuses its value: nothing else in the reader, in the options or in the last check raises.
All of this holds within the interpreter's recursion limit: the `RecursionError` of a text that
is nested some hundred levels deep is outside the model, and it is no `ConfigError` either.

* `Contained` — the code raises what nobody expects exactly when a conversion refuses;
* `watches_escapes` — the conversions of the reader, and what its callers catch;
* `Timed` — the idle timeout is in range, which the last check relies on;
* `contained_option`, `contained_connector`, … — one lemma for each function that converts;
* `contained_keepOne` — the last check raises what its caller catches;
* `parse_contained_iff` — the whole import.
-/

/-- The code raises what nobody expects exactly when a conversion refuses its value, and what it
    returns satisfies `P`. -/
abbrev Contained {α : Type} (P : α → Prop) (x : ImportM α) : Prop :=
  Clean ImportExc.Foreign Literal.Bad P x

/-! ### The reader -/

/-- The exceptions that leave the import when the reader raises them: `_from_yaml` turns a
    `_YamlError` into a `ConfigError`. -/
def ImportExc.Escapes : ImportExc → Prop
  | .config _ | .yaml .. => False
  | _ => True

/-- Inside a flow collection a `ValueError` becomes a `_YamlError` too. -/
def ImportExc.EscapesFlow : ImportExc → Prop
  | .valueError _ => False
  | e => e.Escapes

/-- `chr` of the reader refuses what is beyond Unicode. -/
theorem clean_chr (n : Nat) :
    Clean ImportExc.Escapes Literal.Bad (fun _ => True) (chr n) := by
  refine clean_convert ?_ fun _ _ => trivial
  show _ ↔ 0x110000 ≤ n
  by_cases hword : 2 ^ 31 ≤ n
  · rw [if_pos hword]
    exact ⟨fun _ => by omega, fun _ => ⟨_, rfl, trivial⟩⟩
  rw [if_neg hword]
  by_cases hrange : 0x110000 ≤ n
  · rw [if_pos hrange]
    exact ⟨fun _ => hrange, fun _ => ⟨_, rfl, trivial⟩⟩
  · rw [if_neg hrange]
    refine ⟨?_, fun h => absurd h hrange⟩
    split <;> exact fun ⟨_, he, _⟩ => nomatch he

/-- Inside a flow collection only what is no C int is refused for good. -/
theorem clean_chr_flow (n : Nat) :
    Clean ImportExc.EscapesFlow (fun l => (Reader.markFlow l).Bad) (fun _ => True) (chr n) := by
  refine clean_convert ?_ fun _ _ => trivial
  show _ ↔ 2 ^ 31 ≤ n
  by_cases hword : 2 ^ 31 ≤ n
  · rw [if_pos hword]
    exact ⟨fun _ => hword, fun _ => ⟨_, rfl, trivial⟩⟩
  rw [if_neg hword]
  refine ⟨?_, fun h => absurd h hword⟩
  rintro ⟨e, he, hescapes⟩
  split_ifs at he
  cases he
  exact hescapes.elim

/-- What the reader raises, as its caller sees it. -/
theorem watches_escapes : Watches ImportExc.Escapes ImportExc.EscapesFlow Literal.Bad
    fun l => (Reader.markFlow l).Bad where
  yaml := fun _ _ h => h
  valueError := fun _ h => h
  chr := clean_chr
  flowChr := clean_chr_flow
  caught := by
    intro line e
    cases e <;> exact Iff.rfl
  marked := fun _ => Iff.rfl

/-- The reader, behind the `except` of `_from_yaml`. -/
theorem contained_documents (env : ImportEnv) (text label : Text) :
    Contained (fun _ => True) (handle (documents env text) id (yamlToConfig label)) := by
  refine clean_handle (clean_documents watches_escapes env text) ?_ fun _ => Iff.rfl
  intro e
  cases e <;> exact Iff.rfl

/-! ### Conversions -/

/-- `int` gives the number of a text or refuses the text. -/
theorem contained_int (t : Text) :
    Contained (fun n => PyText.intOf t = some n) (int t) := by
  refine clean_convert ?_ ?_
  · show _ ↔ PyText.intOf t = none
    cases PyText.intOf t with
    | none => simp [ImportExc.Foreign]
    | some n => simp
  · intro n hn
    cases h : PyText.intOf t with
    | none =>
      rw [h] at hn
      cases hn
    | some m =>
      rw [h] at hn
      exact congrArg some (Except.ok.inj hn)

/-- The services database refuses a name with NUL; every other failure is caught. -/
theorem contained_getservbyname (env : ImportEnv) (t : Text) :
    Contained (fun _ => True) (getservbyname env t) := by
  refine clean_convert ?_ fun _ _ => trivial
  show _ ↔ Char.ofNat 0 ∈ t
  by_cases h : Char.ofNat 0 ∈ t
  · simp [h, ImportExc.Foreign]
  · simp [h]

/-- A text of digits has no sign. -/
theorem intOf_nonneg {t : Text} {n : Int} (ht : PyText.isDigitText t = true)
    (h : PyText.intOf t = some n) : 0 ≤ n := by
  have hall : ∀ c ∈ t, PyText.isDigitChar c = true := by
    unfold PyText.isDigitText at ht
    rw [Bool.and_eq_true] at ht
    exact List.all_eq_true.1 ht.2
  have hbody : ∀ c ∈ PyText.stripBy PyText.isNumberSpace t, c ∈ t := by
    intro c hc
    unfold PyText.stripBy PyText.rstripBy at hc
    have hc := (List.dropWhile_suffix _).mem (List.mem_reverse.1 hc)
    exact (List.dropWhile_suffix _).mem (List.mem_reverse.1 hc)
  -- a sign is no digit, so what is left of the text does not start with one
  have hsign : (PyText.sign (PyText.stripBy PyText.isNumberSpace t)).1 = false := by
    cases hstrip : PyText.stripBy PyText.isNumberSpace t with
    | nil => rfl
    | cons c rest =>
      have hc : PyText.isDigitChar c = true :=
        hall c (hbody c (hstrip ▸ List.mem_cons_self))
      unfold PyText.sign
      split
      · next r heq =>
        obtain ⟨rfl, -⟩ := List.cons.inj heq
        exact absurd hc (by decide)
      · rfl
      · rfl
  unfold PyText.intOf PyText.int at h
  rw [String.toList_ofList] at h
  dsimp only at h
  rw [hsign] at h
  split at h
  · cases h
  · obtain ⟨m, hm, rfl⟩ := Option.map_eq_some_iff.1 h
    obtain ⟨k, -, hk⟩ := Option.bind_eq_some_iff.1 hm
    cases hk
    exact Int.natCast_nonneg k

/-! ### The idle timeout -/

/-- The idle timeout is in the range of the timers. -/
def Timed (c : Conn) : Prop := ∀ n ∈ c.options.idleTimeoutS, 0 ≤ n ∧ n ≤ maxTimerS

section
variable {env : ImportEnv} {c d : Conn}

/-- A connection that sets no timeout. -/
theorem timed_of_none (h : c.options.idleTimeoutS = none) : Timed c := by
  intro n hn
  rw [h] at hn
  cases hn

/-- Everything but the options has changed. -/
theorem Timed.of_options (h : Timed c) (heq : d.options = c.options) : Timed d := by
  unfold Timed
  rw [heq]
  exact h

/-- A note changes no option. -/
theorem Timed.note (h : Timed c) (msg : Text) : Timed (c.note msg) := by
  unfold Conn.note
  split <;> exact h

/-- A dropped option is only listed. -/
theorem Timed.drop (h : Timed c) (option : Text) : Timed (c.drop option) := by
  unfold Conn.drop
  split <;> exact h

/-- A reason to skip the connection changes no option. -/
theorem Timed.skip (h : Timed c) (why : Text) : Timed (c.skip why) := by
  unfold Conn.skip
  refine Timed.note ?_ _
  split <;> exact h

/-- Both branches of a test. -/
theorem Timed.ite {p : Prop} [Decidable p] (hc : Timed c) (hd : Timed d) :
    Timed (if p then c else d) := by
  split
  · exact hc
  · exact hd

/-- A setting that may be absent. -/
theorem Timed.elim {α : Type} {b : Option α} {f : α → Conn} (h : Timed c)
    (hf : ∀ a, Timed (f a)) : Timed (b.elim c f) := by
  cases b with
  | none => exact h
  | some a => exact hf a

/-- A loop over settings. -/
theorem Timed.foldl {γ : Type} {f : Conn → γ → Conn} (hf : ∀ c x, Timed c → Timed (f c x))
    (l : List γ) (h : Timed c) : Timed (l.foldl f c) := by
  induction l generalizing c with
  | nil => exact h
  | cons x rest ih => exact ih (hf c x h)

/-- Only a text of digits is converted, and the result is cut at the longest timer. -/
theorem contained_idleTimeout (h : Timed c) (value : Text) :
    Contained Timed (idleTimeout c value) := by
  refine clean_ite (fun hdigits => ?_) fun _ => ?_
  · refine clean_bind (contained_int _) fun n hn => clean_pure ?_
    have hset : Timed { c with
        options := { c.options with idleTimeoutS := some (min n maxTimerS) } } := by
      rintro m ⟨⟩
      exact ⟨le_min (intOf_nonneg hdigits hn) (by decide), min_le_right _ _⟩
    exact .ite (hset.note _) hset
  · exact clean_ite (fun _ => clean_pure (h.note _)) fun _ => clean_pure h

/-! ### Options -/

/-- A flag that is not true or false leaves a note. -/
theorem Timed.flag (h : Timed c) (key value : Text) : Timed (flag env c key value).2 := by
  unfold Import.flag
  split
  · exact h.note _
  · exact h

/-- `remaddr` sets the allowed clients. -/
theorem Timed.remaddr (h : Timed c) (value : Text) : Timed (remaddr env c value) := by
  refine Timed.foldl ?_ _ (show Timed { c with accessGiven := true, network := _ } from h)
  intro c entry h
  unfold remaddrEntry
  refine .ite (h.note _) ?_
  dsimp only
  split
  · exact h.note _
  · have hport := Timed.ite (p := (remaddrFields env entry).tail = [] ||
      (remaddrFields env entry).tail.head? = some ['0']) h (h.note ("remaddr " ++ entry ++
        ": only the client address is checked here, not its port"))
    exact .ite hport hport

/-- The options: a timeout and a number of connections are converted, the others are texts. -/
theorem contained_option (h : Timed c) (key value : Text) :
    Contained Timed (option env c key value) := by
  have hflag : Timed (flag env c key value).2 := h.flag key value
  unfold option
  generalize flag env c key value = flagged at hflag ⊢
  obtain ⟨b, c₁⟩ := flagged
  dsimp only at hflag ⊢
  generalize env.lower (strip key) = k
  refine clean_ite (fun _ => contained_idleTimeout h value) fun _ => ?_
  refine clean_ite (fun _ => clean_pure (.elim hflag fun _ => hflag)) fun _ => ?_
  refine clean_ite (fun _ => clean_ite (fun _ => ?_) fun _ => clean_pure (h.note _)) fun _ => ?_
  -- `isdigit` accepts digits, such as a superscript, that `int` refuses
  · exact clean_bind (contained_int _) fun m _ => clean_pure (.ite h (h.note _))
  cases stringKeys.lookup k with
  | some s => exact clean_pure h
  | none =>
    dsimp only
    generalize (if startsWith k "trace-" then traceKinds.lookup (k.drop 6) else none) = t
    cases t with
    | some t => exact clean_pure (.ite h h)
    | none =>
      dsimp only
      cases traceMod k with
      | some m => exact clean_pure (.elim hflag fun _ => hflag)
      | none =>
        dsimp only
        refine clean_ite (fun _ => clean_pure (h.remaddr value)) fun _ => ?_
        refine clean_ite (fun _ => clean_pure (.ite hflag hflag)) fun _ => ?_
        refine clean_ite (fun _ => clean_pure (.ite (h.drop key) h)) fun _ => ?_
        exact clean_ite (fun _ => clean_pure h) fun _ => clean_pure (h.drop key)

/-! ### The listening side -/

/-- A port is a number or the name of a service. -/
theorem contained_portNumber (text : Text) :
    Contained (fun _ => True) (portNumber env text) := by
  refine clean_ite (fun _ => ?_) fun _ => ?_
  · exact clean_bind (contained_int _) fun n _ => clean_pure trivial
  · exact clean_bind (contained_getservbyname env _) fun n _ => clean_pure trivial

/-- The bind address goes into the network section. -/
theorem Timed.bindIp (h : Timed c) (host family : Text) : Timed (bindIp env c host family).2 := by
  unfold Import.bindIp
  dsimp only
  split
  · exact h
  split
  · exact h
  split
  · exact h
  split
  · exact h.note _
  split <;> exact h

/-- The listen address: only its port is converted. -/
theorem contained_listenAddress (h : Timed c) (fields : List Text) :
    Contained (fun r => Timed r.2) (listenAddress env c fields) := by
  unfold listenAddress
  generalize dropFamilies env [] (cleanFields fields) = split
  obtain ⟨family, fields⟩ := split
  cases fields with
  | nil => exact clean_pure (h.skip _)
  | cons first more =>
    dsimp only
    have hnoted : Timed (if more.length ≤ 1 then c
        else c.note ("only the first listen address is imported: " ++
          PyText.join [','] ((first :: more).take 2))) := .ite h (h.note _)
    generalize (if more.length ≤ 1 then c
      else c.note ("only the first listen address is imported: " ++
        PyText.join [','] ((first :: more).take 2))) = c₁ at hnoted ⊢
    -- the port is the only thing converted here
    refine clean_bind (contained_portNumber _) fun port _ => ?_
    cases port with
    | none => exact clean_pure (hnoted.skip _)
    | some port =>
      have hport : Timed { c₁ with network := { c₁.network with port := port } } := hnoted
      have hbind (host : Text) :
          Timed (bindIp env { c₁ with network := { c₁.network with port := port } }
            host family).2 := hport.bindIp host family
      cases more with
      | nil => exact clean_pure (hbind [])
      | cons second more => exact clean_pure (hbind first)

/-- The layers of an accepter, up to the first that ends the stack. -/
theorem contained_accepterFrom (h : Timed c) (spec : Text) (parts : List Text) :
    Contained (fun r => Timed r.2) (accepterFrom env spec c parts) := by
  induction parts generalizing c with
  | nil => exact clean_pure (h.skip _)
  | cons part rest ih =>
    unfold accepterFrom
    dsimp only
    generalize env.lower (layer part).1 = low
    refine clean_ite (fun _ => contained_listenAddress ?_ _) fun _ => ?_
    · exact .ite h (.ite (h.note _) h)
    refine clean_ite (fun _ => ih h) fun _ => ?_
    refine clean_ite (fun _ => ih (h.note _)) fun _ => ?_
    refine clean_ite (fun _ => ih (h.note _)) fun _ => ?_
    refine clean_ite (fun _ => ih h) fun _ => ?_
    exact clean_ite (fun _ => clean_pure (h.skip _)) fun _ => ih (h.note _)

/-- The accepter as a whole. -/
theorem contained_accepter (h : Timed c) (spec : Text) :
    Contained (fun r => Timed r.2) (accepter env c spec) :=
  contained_accepterFrom h spec _

/-! ### The device side -/

/-- A serial option with a name is not converted. -/
theorem Timed.namedSerialOption (h : Timed c) (tok low value : Text) (flag : Bool) :
    Timed (namedSerialOption env c tok low value flag) := by
  refine .ite h (.ite h (.ite h (.ite h (.ite ?_ (.ite ?_ (.ite ?_ ?_))))))
  · exact .ite (.ite h h) (h.note _)
  · exact .ite h (h.note _)
  · exact .ite h h
  · exact .ite (h.note _) h

/-- A serial option: of a speed the number is converted. -/
theorem contained_serialOption (h : Timed c) (tok : Text) :
    Contained Timed (serialOption env c tok) := by
  unfold serialOption
  cases speedMatch tok with
  | some m => exact clean_bind (contained_int _) fun n _ => clean_pure h
  | none =>
    dsimp only
    refine clean_ite (fun _ => clean_pure (.ite h (h.drop tok))) fun _ => ?_
    refine clean_ite (fun _ => ?_) fun _ => clean_pure (h.namedSerialOption _ _ _ _)
    cases bool env (partition '=' tok).2.2 with
    | none => exact clean_pure (h.note _)
    | some flag => exact clean_pure (h.namedSerialOption _ _ _ _)

/-- The layers of a connector, and the serial options behind its device. -/
theorem contained_connectorFrom (h : Timed c) (spec : Text) (defaults parts : List Text) :
    Contained (fun r => Timed r.2) (connectorFrom env spec defaults c parts) := by
  induction parts generalizing c with
  | nil => exact clean_pure (h.skip _)
  | cons part rest ih =>
    unfold connectorFrom
    dsimp only
    refine clean_ite (fun _ => ?_) fun _ => ?_
    · cases rest.flatMap PyText.words with
      | nil => exact clean_pure (h.skip _)
      | cons device tokens =>
        have hdevice : Timed { c with device := windowsDevice env device } := h
        refine clean_bind (P := Timed) ?_ fun d hd => clean_pure hd
        refine clean_foldlM (fun c tok _ hc => contained_serialOption hc tok) ?_
        exact .ite (hdevice.note _) hdevice
    · exact clean_ite (fun _ => clean_pure (h.skip _)) fun _ => ih (h.note _)

/-- The connector as a whole. -/
theorem contained_connector (h : Timed c) (spec : Text) (defaults : List Text) :
    Contained (fun r => Timed r.2) (connector env c spec defaults) :=
  contained_connectorFrom h spec defaults _

/-! ### The end of the conversion -/

/-- The escapes of a text leave notes at most. -/
theorem Timed.convert (h : Timed c) (text : Text) (kind : EscapeKind) (what : Text) :
    Timed (convert c text kind what).2 := by
  have hfixed : ∀ (p : Prop) [Decidable p] (msg : Text), Timed (if p then c else c.note msg) :=
    fun p _ msg => .ite h (h.note msg)
  exact .ite (hfixed _ _) (Timed.note (hfixed _ _) _)

/-- One of the four strings. -/
theorem Timed.finishString (h : Timed c) (key : StringKey) : Timed (finishString c key) := by
  unfold Import.finishString
  cases c.strings.lookup key with
  | none => exact h
  | some raw => exact h.convert raw _ _

/-- The protocol that the mode allows. -/
theorem Timed.finishProtocol (h : Timed c) : Timed (finishProtocol c) := by
  have hudp : ∀ (p : Prop) [Decidable p] (msg : Text) (net : ConnNetwork),
      Timed (if p then { c.note msg with network := net } else c) :=
    fun p _ msg net => .ite (h.note msg) h
  exact .ite (Timed.note (hudp _ _ _) _) (hudp _ _ _)

/-- The trace file and its notes. -/
theorem Timed.finishTraceFile (h : Timed c) (kind : TraceKind) (raw : Text) :
    Timed (finishTraceFile env c kind raw) := by
  have hpath : Timed (Import.convert c raw .file (traceLabel c.v3 kind)).2 := h.convert raw _ _
  unfold Import.finishTraceFile
  dsimp only
  generalize Import.convert c raw .file (traceLabel c.v3 kind) = converted at hpath ⊢
  obtain ⟨path, c₁⟩ := converted
  dsimp only at hpath ⊢
  have hset : Timed { c₁ with options := { c₁.options with traceBoth := some path } } := hpath
  have hnoted : ∀ (p : Prop) [Decidable p] (d : Conn) (msg : Text), Timed d →
      Timed (if p then d else d.note msg) :=
    fun p _ d msg hd => .ite hd (hd.note msg)
  exact .ite hpath (hnoted _ _ _ (hnoted _ _ _ hset))

/-- The traces together. -/
theorem Timed.finishTrace (h : Timed c) : Timed (finishTrace env c) := by
  unfold Import.finishTrace
  split
  · exact h
  · refine Timed.foldl ?_ _ (Timed.foldl ?_ _ (h.finishTraceFile _ _))
    · intro c mod h
      unfold finishTraceMod
      split <;> exact h
    · exact fun c other h => .ite h (h.note _)

/-- A mapping that is held back is disabled. -/
theorem Timed.finishHold (h : Timed c) : Timed (finishHold c) := by
  have hheld : ∀ d : Conn, Timed d →
      Timed (if d.hold = [] then d else ({ d with enabled := false } : Conn).note d.hold) :=
    fun d hd => .ite hd (Timed.note (c := { d with enabled := false }) hd _)
  exact hheld _ (.ite h h)

/-- `_finish` converts nothing. -/
theorem Timed.finish (h : Timed c) : Timed (finish env c) := by
  have hflow : Timed (finishFlow c) := Timed.ite (h.note _) h
  have hstrings := Timed.foldl (fun _ key h => h.finishString key)
    [StringKey.banner, .openstr, .closestr, .closeon] hflow.finishProtocol
  exact .ite hstrings.finishTrace.finishHold (hstrings.finishTrace.finishHold.note _)

/-! ### ser2net 4.x -/

/-- A text of the connection leaves notes at most. -/
theorem Timed.connText (h : Timed c) (y : Yaml) (node : Node) (what : Text) :
    Timed (y.connText c node what).2 := h

/-- One entry of `options`. -/
theorem contained_connOption (h : Timed c) (y : Yaml) (e : Text × Node × Text) :
    Contained Timed (y.connOption env c e) := by
  have htext := h.connText y e.2.1 e.1
  unfold Yaml.connOption
  generalize y.connText c e.2.1 e.1 = noted at htext ⊢
  obtain ⟨value, d⟩ := noted
  exact contained_option htext e.1 value

/-- One entry of a connection: `options`, a setting of its own, or one read before. -/
theorem contained_connEntry (h : Timed c) (y : Yaml) (e : Text × Node × Text) :
    Contained Timed (y.connEntry env c e) := by
  refine clean_ite (fun _ => ?_) fun _ => clean_ite (fun _ => clean_pure h) fun _ => ?_
  · cases e.2.1 with
    | map options => exact clean_foldlM (fun c e _ hc => contained_connOption hc y e) h
    | text t => exact clean_pure (.ite (h.note _) h)
    | seq items => exact clean_pure (.ite (h.note _) h)
  · exact contained_connOption h y e

/-- The settings of a connection: first the defaults, then its entries. -/
theorem contained_yaml_settings (h : Timed c) (y : Yaml) (body : List (Text × Node × Text)) :
    Contained Timed (y.settings env c body) := by
  unfold Yaml.settings
  have henable := h.connText y (Yaml.get env body "enable" (.text "on")) "enable"
  generalize y.connText c (Yaml.get env body "enable" (.text "on")) "enable" = enabled at henable ⊢
  obtain ⟨enable, c₁⟩ := enabled
  dsimp only at henable ⊢
  have hnoted := Timed.ite (p := bool env enable = none)
    (henable.note ("enable '" ++ enable ++ "' is not on/off: imported disabled")) henable
  generalize bool env enable = b at hnoted ⊢
  generalize (if b = none then c₁.note ("enable '" ++ enable ++
    "' is not on/off: imported disabled") else c₁) = c₂ at hnoted ⊢
  have hswitch : Timed { c₂ with enabled := b = some true } := hnoted.of_options rfl
  refine clean_bind (P := Timed) ?_ fun d hd => ?_
  · refine clean_foldlM (I := Timed) ?_ hswitch
    exact fun c option _ hc => contained_option hc option.1 option.2
  · refine clean_foldlM (I := Timed) ?_ hd
    exact fun c e _ hc => contained_connEntry hc y e

/-- A connection with its accepter: the device, then the settings. -/
theorem contained_connected (h : Timed c) (y : Yaml) (body : List (Text × Node × Text))
    (spec : Text) : Contained (fun r => Timed r.2) (y.connected env c body spec) := by
  refine clean_bind (contained_connector h spec _) fun r hr => ?_
  refine clean_ite (fun _ => ?_) fun _ => clean_pure hr
  refine clean_bind (contained_yaml_settings hr y body) fun d hd => clean_pure ?_
  dsimp only
  exact hd.finish

/-- A connection of the YAML syntax, imported or not. -/
theorem contained_yaml_makeConn (y : Yaml) (name : Text) (body : Node) :
    Contained (fun r => Timed r.2) (y.makeConn env name body) := by
  have hnew : ∀ label, Timed { name := name, label := label } := fun _ => timed_of_none rfl
  cases body with
  | text t => exact clean_pure ((hnew _).skip _)
  | seq items => exact clean_pure ((hnew _).skip _)
  | map entries =>
    unfold Yaml.makeConn
    dsimp only
    generalize (if name = [] then ("a connection without a name" : Text) else name) = label
    have haccepter := (hnew label).connText y (Yaml.get env entries "accepter" (.text []))
      "accepter"
    generalize y.connText { name := name, label := label }
      (Yaml.get env entries "accepter" (.text [])) "accepter" = accepted at haccepter ⊢
    obtain ⟨accepterText, c₁⟩ := accepted
    have hconnector := haccepter.connText y (Yaml.get env entries "connector" (.text []))
      "connector"
    dsimp only at hconnector ⊢
    generalize y.connText c₁ (Yaml.get env entries "connector" (.text [])) "connector" =
      connected at hconnector ⊢
    obtain ⟨connectorText, c₂⟩ := connected
    dsimp only at hconnector ⊢
    -- neither side may be missing, and the two are read one after the other
    refine clean_ite (fun _ => clean_pure (hconnector.skip _)) fun _ => ?_
    refine clean_bind (contained_accepter hconnector _) fun r hr => ?_
    refine clean_ite (fun _ => ?_) fun _ => clean_pure hr
    refine contained_connected ?_ y entries _
    exact .ite (hr.of_options rfl) hr

/-! ### ser2net 3.x -/

/-- A 3.x default by its name. -/
theorem contained_default (h : Timed c) (name : V3Default) (value : Text) :
    Contained Timed (V3.default env c name value) := by
  have hnumber : ∀ set : ConnSerial → Int → ConnSerial, Contained Timed
      (if PyText.isDigitText value then do
        let n ← int value
        return { c with serial := set c.serial n }
      else pure c) :=
    fun set => clean_ite (fun _ => clean_bind (contained_int _) fun n _ => clean_pure h)
      fun _ => clean_pure h
  unfold V3.default
  -- three numbers are converted here, and three settings go through the options
  cases name with
  | ignoredLocal => exact clean_pure h
  | chardelay => exact clean_pure h
  | telnetBrkOnSync => exact clean_ite (fun _ => contained_option h _ _) fun _ => clean_pure h
  | speed => exact hnumber fun s n => { s with baudrate := n }
  | databits => exact hnumber fun s n => { s with bytesize := n }
  | stopbits => exact hnumber fun s n => { s with stopbits := n }
  | parity =>
    refine clean_pure ?_
    split
    · exact h.of_options rfl
    · exact h
  | remaddr => exact clean_pure (.ite h (h.remaddr value))
  | maxConnections => exact contained_option h _ _
  | kickolduser => exact contained_option h _ _
  | xonxoff => exact clean_pure (.elim h fun _ => h.of_options rfl)
  | rtscts => exact clean_pure (.elim h fun _ => h.of_options rfl)
  | remctl => exact clean_pure (.elim h fun _ => h.of_options rfl)
  | hangupWhenDone => exact clean_pure (.elim h fun _ => h.of_options rfl)
  | nobreak => exact clean_pure (.elim h fun _ => h.of_options rfl)

/-- The connection behind a keyword, where the keyword is known. -/
def TimedSome (o : Option Conn) : Prop := ∀ d ∈ o, Timed d

/-- A token that was understood. -/
theorem Timed.some (h : Timed c) : TimedSome (some c) := by
  rintro d ⟨⟩
  exact h

/-- A token that was not. -/
theorem timedSome_none : TimedSome none := fun _ hd => nomatch hd

/-- Both branches of a test. -/
theorem TimedSome.ite {p : Prop} [Decidable p] {o o' : Option Conn} (h : TimedSome o)
    (h' : TimedSome o') : TimedSome (if p then o else o') := by
  split
  · exact h
  · exact h'

/-- A serial token of the 3.x syntax: its speed is converted. -/
theorem contained_serial (h : Timed c) (tok : Text) : Contained TimedSome (V3.serial c tok) := by
  have hset : ∀ {d : Conn}, d.options = c.options → TimedSome (some d) :=
    fun heq => (h.of_options heq).some
  unfold V3.serial
  dsimp only
  refine clean_ite (fun _ => ?_) fun _ => ?_
  · exact clean_bind (contained_int _) fun n _ => clean_pure (hset rfl)
  refine clean_ite (fun _ => clean_pure (hset rfl)) fun _ => ?_
  refine clean_ite (fun _ => clean_pure (hset rfl)) fun _ => ?_
  cases V3.dataBits tok with
  | some d => exact clean_pure (hset rfl)
  | none =>
    cases v3Parity.lookup tok with
    | some p => exact clean_pure (hset rfl)
    | none =>
      refine clean_pure (.ite (hset rfl) (.ite (hset rfl) (.ite (hset rfl) ?_)))
      refine .ite (hset rfl) (.ite (Timed.some ?_) timedSome_none)
      exact .ite h (h.note _)

/-- A keyword of the 3.x syntax that has no value. -/
theorem contained_plainOption (h : Timed c) (base : Text) (on : Bool) :
    Contained TimedSome (V3.plainOption env c base on) := by
  have hset : ∀ {d : Conn}, d.options = c.options → TimedSome (some d) :=
    fun heq => (h.of_options heq).some
  unfold V3.plainOption
  refine clean_ite (fun _ => clean_pure (hset rfl)) fun _ => ?_
  refine clean_ite (fun _ => clean_pure (hset rfl)) fun _ => ?_
  cases V3.modMatch base with
  | some m => exact clean_pure (hset rfl)
  | none =>
    refine clean_ite (fun _ => clean_ite (fun _ => ?_) fun _ => clean_pure h.some) fun _ => ?_
    · exact clean_bind (contained_option h _ _) fun d hd => clean_pure hd.some
    · exact clean_pure (.ite h.some timedSome_none)

/-- A keyword of the 3.x syntax with a value. -/
theorem contained_valueOption (h : Timed c) (p : V3) (tok name value : Text) :
    Contained TimedSome (p.valueOption env c tok name value) := by
  unfold V3.valueOption
  cases v3Trace.lookup name with
  | some kind =>
    refine clean_pure (Timed.some ?_)
    split
    · exact h.of_options rfl
    · exact h.note _
  | none =>
    refine clean_ite (fun _ => clean_pure (h.note _).some) fun _ => ?_
    refine clean_ite (fun _ => ?_) fun _ => ?_
    · exact clean_bind (contained_option h _ _) fun d hd => clean_pure hd.some
    refine clean_ite (fun _ => clean_pure (h.remaddr value).some) fun _ => ?_
    refine clean_ite (fun _ => clean_pure (h.drop _).some) fun _ => ?_
    exact clean_pure (.ite h.some timedSome_none)

/-- A token that names a string, a trace or an LED. -/
theorem Timed.named (h : Timed c) (tok : Text) (kind : Directive) (value : Text) :
    Timed (V3.named c tok kind value) := by
  unfold V3.named
  cases V3.stringKey kind with
  | some k => exact h.of_options rfl
  | none => exact .ite (h.note _) h

/-- A token of a 3.x line: serial, a keyword, a name, or unknown. -/
theorem contained_token (h : Timed c) (p : V3) (tok : Text) :
    Contained Timed (p.token env c tok) := by
  refine clean_bind (contained_serial h tok) fun o ho => ?_
  cases o with
  | some d => exact clean_pure (ho d rfl)
  | none =>
    have hoption : Contained TimedSome (p.option env c tok) :=
      clean_ite (fun _ => contained_valueOption h p _ _ _) fun _ => contained_plainOption h _ _
    refine clean_bind hoption fun o ho => ?_
    cases o with
    | some d => exact clean_pure (ho d rfl)
    | none =>
      dsimp only
      cases p.strings.lookup tok with
      | some string => exact clean_pure (h.named tok string.1 string.2)
      | none =>
        refine clean_bind (contained_serial h _) fun o ho => ?_
        cases o with
        | some d => exact clean_pure (ho d rfl)
        | none => exact clean_pure (h.note _)

/-- The settings of a 3.x line: its timeout, the defaults, then its tokens. -/
theorem contained_v3_settings (h : Timed c) (p : V3) (state : PortState)
    (timeout device options : Text) :
    Contained Timed (p.settings env c state timeout device options) := by
  unfold V3.settings
  dsimp only
  refine clean_bind (contained_idleTimeout ?_ timeout) fun c₁ h₁ => ?_
  · refine .ite (Timed.note ?_ _) ?_
    · exact h.of_options rfl
    · exact h.of_options rfl
  refine clean_bind (P := Timed) ?_ fun c₂ h₂ => ?_
  · exact clean_foldlM (I := Timed) (fun c d _ hc => contained_default hc d.1 d.2) h₁
  refine clean_bind (P := Timed) ?_ fun c₃ h₃ => clean_pure ?_
  · exact clean_foldlM (I := Timed) (fun c tok _ hc => contained_token hc p tok) h₂
  · exact .ite (.ite (h₃.of_options rfl) (h₃.note _)) h₃

/-- A connection of the 3.x syntax, imported or not. -/
theorem contained_v3_makeConn (p : V3) (n : Nat) (m : StateMatch) :
    Contained (fun r => Timed r.2) (p.makeConn env n m) := by
  unfold V3.makeConn
  dsimp only
  refine clean_bind (contained_listenAddress (timed_of_none rfl) _) fun r hr => ?_
  obtain ⟨ok, c⟩ := r
  dsimp only at hr ⊢
  refine clean_ite (fun _ => ?_) fun _ => clean_pure hr
  have hnamed : ∀ name label, Timed { c with name := name, label := label } :=
    fun name label => hr.of_options rfl
  refine clean_ite (fun _ => clean_pure ((hnamed _ _).skip _)) fun _ => ?_
  refine clean_ite (fun _ => clean_pure ((hnamed _ _).skip _)) fun _ => ?_
  refine clean_bind (contained_v3_settings (hnamed _ _) p _ _ _ _) fun d hd => clean_pure ?_
  dsimp only
  exact hd.finish

end

/-! ### The connections of a file -/

/-- The connections made so far. -/
def AllTimed (conns : List Conn) : Prop := ∀ c ∈ conns, Timed c

/-- One connection more. -/
theorem AllTimed.append {conns : List Conn} {c : Conn} (h : AllTimed conns) (hc : Timed c) :
    AllTimed (conns ++ [c]) := by
  intro d hd
  rcases List.mem_append.1 hd with hd | hd
  · exact h d hd
  · rwa [List.mem_singleton.1 hd]

/-- One connection more, when it is imported. -/
theorem AllTimed.imported {conns : List Conn} {c : Conn} (h : AllTimed conns) (hc : Timed c)
    (imported : Bool) : AllTimed (if imported then conns ++ [c] else conns) := by
  cases imported with
  | true => exact h.append hc
  | false => exact h

section
variable (env : ImportEnv)

/-- A connection is read and kept, when it can be imported. -/
theorem contained_connection (y : Yaml) (name : Text) (body : Node) (h : AllTimed y.conns) :
    Contained (fun y => AllTimed y.conns) (y.connection env name body) := by
  have hname : AllTimed (y.nameAlias name).conns := by
    unfold Yaml.nameAlias
    split <;> exact h
  refine clean_bind (contained_yaml_makeConn _ name body) fun r hr => clean_pure ?_
  exact hname.imported hr r.1

/-- The YAML syntax: only its connections convert anything. -/
theorem contained_fromYaml (text label : Text) :
    Contained (fun r => AllTimed r.1) (fromYaml env text label) := by
  refine clean_bind (contained_documents env text label) fun docs _ => ?_
  refine clean_ite (fun _ => clean_raise (fun h => h)) fun _ => ?_
  refine clean_bind (P := fun y => AllTimed y.conns) ?_ fun y hy => clean_pure hy
  refine clean_foldlM (I := fun y : Yaml => AllTimed y.conns) ?_ ?_
  · intro y e _ hy
    refine clean_ite (fun _ => ?_) fun _ => clean_pure ?_
    · refine clean_foldlM (I := fun y : Yaml => AllTimed y.conns) ?_ hy
      exact fun y m _ hy => contained_connection env y m.1 m.2 hy
    · have hfollows : Follows y y y := ⟨rfl, rfl, rfl, rfl, rfl, fun _ h => h⟩
      show AllTimed (y.setting env e.1 e.2.1 e.2.2).conns
      rw [(hfollows.setting e.1 e.2.1 e.2.2).conns]
      exact hy
  · unfold Yaml.start
    dsimp only
    split <;> exact fun c hc => nomatch hc

/-- The 3.x syntax, line by line. -/
theorem contained_fromV3 (lines : List (Nat × Text)) :
    Contained (fun r => AllTimed r.1) (fromV3 env lines) := by
  refine clean_bind (P := fun p => AllTimed p.conns) ?_ fun p hp => clean_pure hp
  refine clean_foldlM (I := fun p : V3 => AllTimed p.conns) ?_ (fun c hc => nomatch hc)
  intro p l _ hp
  unfold V3.line
  split
  · have hfollows : V3.Follows p p p := ⟨rfl, rfl, rfl, rfl, rfl, fun _ h => h⟩
    refine clean_pure ?_
    rw [(hfollows.directive l.1 _ _).conns]
    exact hp
  · refine clean_bind (contained_v3_makeConn p _ _) fun r hr => clean_pure ?_
    exact hp.imported hr r.1
  · exact clean_pure hp

end

/-! ### The last check -/

/-- A key of two lists of members. -/
theorem lookup_append (d e : List (String × Json)) (k : String) :
    Json.lookup (d ++ e) k = (Json.lookup d k).or (Json.lookup e k) := by
  simp only [Json.lookup, List.find?_append, Option.map_or]

/-- A key that may have been left out. -/
theorem lookup_optional (k k' : String) (v : Option Json) :
    Json.lookup (optional k v) k' = if k = k' then v else none := by
  cases v with
  | none => simp [optional, Json.lookup]
  | some v => by_cases h : k = k' <;> simp [optional, Json.lookup, h]

/-- The idle timeout is the only number among the options. -/
theorem get_idle (c : Conn) : c.idle = .int (c.options.idleTimeoutS.getD 0) := by
  unfold Conn.idle Json.get Conn.optionMembers
  simp only [lookup_append, lookup_optional, String.reduceEq, ↓reduceIte, Option.or_none]
  cases c.options.idleTimeoutS <;> rfl

/-- A key of the network section that a connection does not set. -/
theorem get_networkMembers (c : Conn) (v : Json) :
    ∀ k ∈ ["remote_host", "tls", "priority_client_ips"], Json.get c.networkMembers k v = v := by
  intro k hk
  unfold Json.get Conn.networkMembers
  simp only [lookup_append, lookup_optional]
  fin_cases hk <;> rfl

/-- The allowed clients, as the section has them. -/
theorem get_allowed (c : Conn) : Json.get c.networkMembers "allowed_client_ips" (.arr []) =
    .arr ((c.network.allowedClientIps.getD []).map str) := by
  unfold Json.get Conn.networkMembers
  simp only [lookup_append, lookup_optional, String.reduceEq, ↓reduceIte, Option.or_none]
  cases c.network.allowedClientIps <;> rfl

/-- The check of the network section has the texts and lists that it works on. -/
theorem faultless_network (m : Platform) (c : Conn) :
    faultless ((NetworkSettings.ofMembers c.networkMembers).checkDemands m) = true := by
  have hget := get_networkMembers c
  have hremote : (NetworkSettings.ofMembers c.networkMembers).remoteHost = .str "" :=
    hget _ _ (by decide)
  have htls : (NetworkSettings.ofMembers c.networkMembers).tls = .bool false :=
    hget _ _ (by decide)
  have hpriority : (NetworkSettings.ofMembers c.networkMembers).priorityClientIps = .arr [] :=
    hget _ _ (by decide)
  have hallowed : (NetworkSettings.ofMembers c.networkMembers).allowedClientIps = _ :=
    get_allowed c
  generalize NetworkSettings.ofMembers c.networkMembers = n at *
  -- a mapping that does not listen would need a remote host, which is a text too
  have hends : faultless n.endDemands = true := by
    unfold NetworkSettings.endDemands
    rw [hremote]
    cases n.listens <;> simp [faultless, Json.isText]
  -- the addresses are texts
  have hnets : ∀ l : List Text,
      faultless ((Json.arr (l.map str)).parts.flatMap networkDemands) = true := by
    intro l
    show faultless ((l.map str).flatMap networkDemands) = true
    induction l with
    | nil => rfl
    | cons t rest ih =>
      exact faultless_append (by simp [networkDemands, faultless, str, Json.isText]) ih
  have hlist : faultless n.listDemands = true := by
    unfold NetworkSettings.listDemands
    rw [hallowed, hpriority]
    exact faultless_append (hnets _) rfl
  have htlsDemands : n.tlsDemands m = [] := by
    unfold NetworkSettings.tlsDemands
    rw [htls]
    rfl
  unfold NetworkSettings.checkDemands
  rw [htlsDemands]
  refine faultless_holds _ <| faultless_holds _ <| faultless_append hends ?_
  iterate 9 refine faultless_holds _ ?_
  exact hlist

/-- The demands of the check of a connection: what the operations work on is always there. -/
theorem faultless_mapping (m : Platform) (c : Conn) (idle : Json) :
    faultless ((c.mapping m "" idle).checkDemands m) = true := by
  have hserial : faultless (c.mapping m "" idle).serial.checkDemands = true := by
    simp [SerialSettings.checkDemands, faultless]
  have hoptions : faultless (c.mapping m "" idle).options.checkDemands = true := by
    simp [MappingOptions.checkDemands, faultless]
  refine faultless_holds _ <| faultless_holds _ <| faultless_append hserial <|
    faultless_append (faultless_network m c) <| faultless_append hoptions ?_
  exact faultless_holds _ (faultless_holds _ rfl)

/-- The idle timeout of a connection is read back without an exception. -/
theorem legacySeconds_idle {c : Conn} (h : Timed c) :
    ∃ idle, legacySeconds c.idle = .ok idle := by
  rw [get_idle]
  have hrange : 0 ≤ c.options.idleTimeoutS.getD 0 ∧ c.options.idleTimeoutS.getD 0 ≤ maxTimerS := by
    cases hidle : c.options.idleTimeoutS with
    | none => exact ⟨le_refl _, by decide⟩
    | some n => exact h n hidle
  generalize c.options.idleTimeoutS.getD 0 = n at hrange
  unfold legacySeconds numericText
  dsimp only
  rw [ofInt?_isSome hrange.1 hrange.2, if_neg Bool.false_ne_true]
  split <;> exact ⟨_, rfl⟩

/-- The check of a connection raises a `ValueError` and nothing else. -/
theorem check_isValueError {env : ImportEnv} {c : Conn} (h : Timed c) {e : PyExc ConfigError}
    (he : c.check env = .error e) : e.isValueError = true := by
  obtain ⟨idle, hidle⟩ := legacySeconds_idle h
  unfold Conn.check MappingConfig.load at he
  rw [fromDict_toDict, hidle] at he
  have hmeets := (MappingConfig.meets_validate env.platform
    (c.mapping env.platform "" idle)).map (f := fun _ => c.mapping env.platform "" idle)
  exact hmeets.contained_iff.2 (faultless_mapping env.platform c idle) e he

section
variable (env : ImportEnv)

/-- One round of `_assemble`: what the check raises is caught. -/
theorem contained_keepOne {s : List Conn × List Text} {c : Conn} (hs : AllTimed s.1)
    (h : Timed c) : Contained (fun s => AllTimed s.1) (keepOne env s c) := by
  unfold keepOne
  dsimp only
  cases hcheck : c.check env with
  | error e =>
    have hvalue := check_isValueError h hcheck
    cases e with
    | attributeError => cases hvalue
    | overflowError => cases hvalue
    | recursionError => cases hvalue
    | _ => exact clean_pure hs
  | ok cfg =>
    dsimp only
    cases s.1.find? fun o => o.clashes c with
    | some other => exact clean_pure hs
    | none => exact clean_pure (hs.append h)

/-- `_assemble` raises nothing. -/
theorem contained_assemble {conns : List Conn} (h : AllTimed conns) (warnings : List Text) :
    Contained (fun _ => True) (assemble env conns warnings) := by
  refine clean_bind (P := fun s => AllTimed s.1) ?_ fun s _ => clean_pure trivial
  refine clean_foldlM (I := fun s : List Conn × List Text => AllTimed s.1) ?_
    (fun c hc => nomatch hc)
  exact fun s c hc hs => contained_keepOne env hs (h c hc)

/-! ### The import as a whole -/

/-- The import from the text to the list of mappings. -/
theorem contained_parse (text filename : Text) :
    Contained (fun _ => True) (parse env text filename) := by
  have hparse : Contained (fun _ => True) (parseConns env text filename) := by
    refine clean_ite (fun _ => clean_raise (fun h => h)) fun _ => ?_
    refine clean_bind (P := fun r => AllTimed r.1) ?_ fun r hr => ?_
    · refine clean_ite (fun _ => contained_fromYaml env _ _) fun _ => ?_
      exact clean_ite (fun _ => contained_fromV3 env _) fun _ => clean_raise (fun h => h)
    · exact clean_bind (contained_assemble env hr _) fun r _ => clean_pure trivial
  exact clean_bind hparse fun r _ => clean_pure trivial

/-- The values that the import of a text hands to `chr`, `int` and `getservbyname`. -/
def converted (text filename : Text) : List Literal := (parse env text filename []).2

end

/-- The callers expect `ConfigError` and nothing else. -/
theorem not_foreign_iff {e : ImportExc} : ¬ e.Foreign ↔ ∃ msg, e = .config msg := by
  cases e <;> simp [ImportExc.Foreign]

/-- Within the recursion limit, only `ConfigError` leaves the import exactly when every
    conversion that it has reached accepts its value. -/
theorem parse_contained_iff (env : ImportEnv) (text filename : Text) :
    (∀ e, (parse env text filename []).1 = .error e → ∃ msg, e = .config msg) ↔
      ∀ l ∈ converted env text filename, ¬ l.Bad := by
  obtain ⟨new, hnew, hiff, -⟩ := contained_parse env text filename []
  have hlog : converted env text filename = new := hnew
  rw [hlog]
  constructor
  · intro h l hl hbad
    obtain ⟨e, he, hforeign⟩ := hiff.2 ⟨l, hl, hbad⟩
    exact not_foreign_iff.2 (h e he) hforeign
  · intro h e he
    refine not_foreign_iff.1 fun hforeign => ?_
    obtain ⟨l, hl, hbad⟩ := hiff.1 ⟨e, he, hforeign⟩
    exact h l hl hbad

/-- `chr` refuses an escape beyond Unicode, which nobody catches. -/
example : converted plainEnv "define: &a \"\\U00110000\"" [] = [.codePoint 0x110000] := by
  decide +kernel

end Ser2Net.Import
