import Ser2Net.Import.Valid
import Ser2Net.Lib.Sifted

namespace Ser2Net.Import

open Ser2Net.Lib Ser2Net.Config Logged

/-!
# Import — where the connections come from

Every connection is made from one place of the file: a connection entry or a member of a
`connections` mapping (4.x), or a port line (3.x).  What stands before that place is in force
for it: defines and defaults, or directives.

* `Source`, `sources` — these places with what is in force for each;
* `Source.makeConn` — the connection of a source, and whether it is imported;
* `Outcome` — what becomes of a source: a mapping, or a warning;
* `parse_sifted` — the mappings that the import returns are made from the sources in order, and
  a source that gives none gives a warning of its own.
-/

/-- A place of the file that a connection is made from. -/
inductive Source
  /-- A connection entry of 4.x under its name; `y` holds the defines and defaults. -/
  | entry (y : Yaml) (name : Text) (body : Node)
  /-- A port line of 3.x with its number; `p` holds the directives. -/
  | port (p : V3) (n : Nat) (m : StateMatch)

/-- The connection of a source, and whether it is imported. -/
def Source.makeConn (env : ImportEnv) : Source → ImportM (Bool × Conn)
  | .entry y name body => y.makeConn env name body
  | .port p n m => p.makeConn env n m

/-! ### ser2net 4.x -/

/-- What an entry does one after the other. -/
inductive Step
  | conn (name : Text) (body : Node)
  | setting (e : Text × Node × Text)

/-- The steps of a top-level entry. -/
def Yaml.steps (env : ImportEnv) (e : Text × Node × Text) : List Step :=
  let k := env.lower e.1
  if k = "connection" || (k = "connections" && Yaml.entry.isMap e.2.1) then
    (Yaml.connections env e).map fun m => .conn m.1 m.2
  else [.setting e]

/-- One step. -/
def Yaml.step (env : ImportEnv) (y : Yaml) : Step → ImportM Yaml
  | .conn name body => y.connection env name body
  | .setting e => pure (y.setting env e.1 e.2.1 e.2.2)

/-- An entry, as the steps that it takes. -/
theorem entry_eq_steps (env : ImportEnv) (y : Yaml) (e : Text × Node × Text) :
    y.entry env e = (Yaml.steps env e).foldlM (Yaml.step env) y := by
  unfold Yaml.entry Yaml.steps
  dsimp only
  split
  · rw [List.foldlM_map]
    rfl
  · rfl

/-- The entries of a file, as the steps that they take. -/
theorem entries_eq_steps (env : ImportEnv) (entries : List (Text × Node × Text)) (y : Yaml) :
    entries.foldlM (Yaml.entry env) y =
      (entries.flatMap (Yaml.steps env)).foldlM (Yaml.step env) y := by
  induction entries generalizing y with
  | nil => rfl
  | cons e rest ih =>
    rw [List.foldlM_cons, List.flatMap_cons, List.foldlM_append, entry_eq_steps]
    congr 1
    funext y'
    exact ih y'

/-- What is in force for a connection: all but the connections and warnings so far. -/
def Yaml.context (y : Yaml) : Yaml := { y with warnings := [], conns := [] }

/-- The sources among the steps. -/
def Yaml.sources (env : ImportEnv) : Yaml → List Step → List Source
  | _, [] => []
  | y, .conn name body :: rest =>
    .entry (y.nameAlias name).context name body :: Yaml.sources env (y.nameAlias name) rest
  | y, .setting e :: rest => Yaml.sources env (y.setting env e.1 e.2.1 e.2.2) rest

/-! ### ser2net 3.x -/

/-- What is in force for a port line. -/
def V3.context (p : V3) : V3 := { p with warnings := [], conns := [] }

/-- The sources among the lines. -/
def V3.sources : V3 → List (Nat × Text) → List Source
  | _, [] => []
  | p, l :: rest =>
    match directiveMatch l.2, stateMatch l.2 with
    | some (kind, text), _ => V3.sources (p.directive l.1 kind text) rest
    | none, some m => .port p.context l.1 m :: V3.sources p rest
    | none, none => V3.sources p rest

/-- The state before the first entry. -/
def Yaml.startFor (env : ImportEnv) (entries : List (Text × Node × Text)) : Yaml :=
  Yaml.start (entries.any fun e => v1Keys.contains (env.lower e.1))
    (entries.any fun e => v2Keys.contains (env.lower e.1))

/-- The sources of a file: its connection entries and the members of its `connections`
    mappings, or its port lines. -/
def sources (env : ImportEnv) (text : Text) : List Source :=
  let text := normalize text
  if looksYaml text then
    match (documents env text []).1 with
    | .ok docs =>
      Yaml.sources env (Yaml.startFor env (topEntries docs))
        ((topEntries docs).flatMap (Yaml.steps env))
    | .error _ => []
  else V3.sources {} (v3Lines text)

/-! ### What stands between the connections -/

/-- The run is at `y`, with what is in force in `z`; since `base` it has made no connection and
    taken no warning back. -/
structure Follows (base y z : Yaml) : Prop where
  act : y.act = z.act
  aliases : y.aliases = z.aliases
  serialDefaults : y.serialDefaults = z.serialDefaults
  optionDefaults : y.optionDefaults = z.optionDefaults
  conns : y.conns = base.conns
  warnings : ∀ w ∈ base.warnings, w ∈ y.warnings

section
variable {env : ImportEnv} {base y z : Yaml}

/-- The state so far as the base of what follows. -/
theorem Follows.restart (h : Follows base y z) : Follows y y z :=
  ⟨h.act, h.aliases, h.serialDefaults, h.optionDefaults, rfl, fun _ hw => hw⟩

/-- What follows has the same context. -/
theorem Follows.context_eq (h : Follows base y z) : y.context = z.context := by
  obtain ⟨act, aliases, warnings, conns, serialDefaults, optionDefaults⟩ := y
  obtain ⟨rfl, rfl, rfl, rfl, -, -⟩ := h
  rfl

/-- A warning is no part of the context. -/
theorem Follows.warn (h : Follows base y z) (msg msg' : Text) :
    Follows base (y.warn msg) (z.warn msg') :=
  ⟨h.act, h.aliases, h.serialDefaults, h.optionDefaults, h.conns,
    fun w hw => List.mem_append_left _ (h.warnings w hw)⟩

/-- A name for itself. -/
theorem Follows.nameAlias (h : Follows base y z) (name : Text) :
    Follows base (y.nameAlias name) (z.nameAlias name) := by
  unfold Yaml.nameAlias
  split
  · exact h
  · exact { h with aliases := by rw [h.aliases] }

/-- A text is substituted alike. -/
theorem Follows.text (h : Follows base y z) (node : Node) (what : Text) :
    y.text node what = z.text node what := by
  unfold Yaml.text
  rw [h.act, h.aliases]

/-- A text outside a connection is substituted alike. -/
theorem Follows.gtext (h : Follows base y z) (node : Node) (what : Text) :
    (y.gtext node what).1 = (z.gtext node what).1 ∧
      Follows base (y.gtext node what).2 (z.gtext node what).2 := by
  refine ⟨?_, h.act, h.aliases, h.serialDefaults, h.optionDefaults, h.conns,
    fun w hw => List.mem_append_left _ (h.warnings w hw)⟩
  show (y.text node what).1 = (z.text node what).1
  rw [h.text]

/-- A default. -/
theorem Follows.default (h : Follows base y z) (name value cls : Text) :
    Follows base (y.default env name value cls) (z.default env name value cls) := by
  unfold Yaml.default
  dsimp only
  split
  · exact h
  split
  · exact { h with serialDefaults := by rw [h.serialDefaults] }
  split
  · exact { h with optionDefaults := by rw [h.optionDefaults] }
  · exact h.warn _ _

/-- A default that is deleted. -/
theorem Follows.deleteDefault (h : Follows base y z) (name : Text) :
    Follows base (y.deleteDefault env name) (z.deleteDefault env name) := by
  refine { h with serialDefaults := ?_, optionDefaults := ?_ }
  · show y.serialDefaults.filter _ = z.serialDefaults.filter _
    rw [h.serialDefaults]
  · show y.optionDefaults.filter _ = z.optionDefaults.filter _
    rw [h.optionDefaults]

/-- A definition. -/
theorem Follows.define (h : Follows base y z) (name : Text) (value : Node) :
    Follows base (y.define name value) (z.define name value) := by
  obtain ⟨htext, hfollows⟩ := h.gtext value ("define " ++ name)
  refine { hfollows with aliases := ?_ }
  show dictSet (y.gtext value ("define " ++ name)).2.aliases name
      (y.gtext value ("define " ++ name)).1 =
    dictSet (z.gtext value ("define " ++ name)).2.aliases name (z.gtext value ("define " ++ name)).1
  rw [hfollows.aliases, htext]

/-- One member of `defaults`. -/
theorem Follows.defaultMember (h : Follows base y z) (name : Text) (body : Node) :
    Follows base (y.defaultMember env name body) (z.defaultMember env name body) := by
  unfold Yaml.defaultMember
  cases body with
  | text t => exact h
  | seq items => exact h
  | map entries =>
    obtain ⟨hvalue, h₁⟩ := h.gtext (Yaml.get env entries "value" (.text [])) ("default " ++ name)
    obtain ⟨hcls, h₂⟩ := h₁.gtext (Yaml.get env entries "class" (.text [])) ("default " ++ name)
    dsimp only
    rw [hvalue, hcls]
    exact h₂.default _ _ _

/-- An entry `default`. -/
theorem Follows.defaultEntry (h : Follows base y z) (entries : List (Text × Node × Text)) :
    Follows base (y.defaultEntry env entries) (z.defaultEntry env entries) := by
  obtain ⟨hname, h₁⟩ := h.gtext (Yaml.get env entries "name" (.text [])) "default"
  obtain ⟨hvalue, h₂⟩ := h₁.gtext (Yaml.get env entries "value" (.text [])) "default"
  obtain ⟨hcls, h₃⟩ := h₂.gtext (Yaml.get env entries "class" (.text [])) "default"
  unfold Yaml.defaultEntry
  dsimp only
  rw [hname, hvalue, hcls]
  exact h₃.default _ _ _

/-- A loop over the members of an entry. -/
theorem Follows.foldl {γ : Type} {f : Yaml → γ → Yaml}
    (hf : ∀ y z e, Follows base y z → Follows base (f y e) (f z e)) (l : List γ)
    (h : Follows base y z) : Follows base (l.foldl f y) (l.foldl f z) := by
  induction l generalizing y z with
  | nil => exact h
  | cons e rest ih => exact ih (hf y z e h)

/-- A top-level entry with one value. -/
theorem Follows.plainSetting (h : Follows base y z) (k : Text) (value : Node) (anchor : Text) :
    Follows base (y.plainSetting env k value anchor) (z.plainSetting env k value anchor) := by
  have hrotators (names : List Text) : Follows base (y.rotators names) (z.rotators names) :=
    Follows.foldl (fun _ _ _ h => h.warn _ _) _ h
  unfold Yaml.plainSetting
  dsimp only
  split
  · exact hrotators _
  split
  · exact hrotators _
  split
  · exact h.warn _ _
  split
  · exact (h.gtext value "include").2.warn _ _
  split
  · exact h
  · exact h.warn _ _

/-- A top-level entry other than a connection. -/
theorem Follows.setting (h : Follows base y z) (k : Text) (value : Node) (anchor : Text) :
    Follows base (y.setting env k value anchor) (z.setting env k value anchor) := by
  unfold Yaml.setting
  dsimp only
  -- the tests of the source in its order, on both readers alike
  split
  · split
    · exact h
    · exact h.define _ _
  cases value with
  | text t => exact h.plainSetting _ _ _
  | seq items => exact h.plainSetting _ _ _
  | map entries =>
    dsimp only
    split
    · exact Follows.foldl (fun _ _ e h => h.define e.1 e.2.1) entries h
    split
    · exact h.defaultEntry _
    split
    · exact Follows.foldl (fun _ _ e h => h.defaultMember e.1 e.2.1) entries h
    split
    · obtain ⟨hname, h₁⟩ := h.gtext (Yaml.get env entries "name" (.text [])) "delete_default"
      rw [hname]
      exact h₁.deleteDefault _
    split
    · exact Follows.foldl (fun _ _ e h => h.deleteDefault e.1) entries h
    · exact h.plainSetting _ _ _

end

/-- The same for the lines of 3.x. -/
structure V3.Follows (base p q : V3) : Prop where
  strings : p.strings = q.strings
  devices : p.devices = q.devices
  tracefiles : p.tracefiles = q.tracefiles
  defaults : p.defaults = q.defaults
  conns : p.conns = base.conns
  warnings : ∀ w ∈ base.warnings, w ∈ p.warnings

namespace V3.Follows

variable {base p q : V3}

/-- The state so far as the base of what follows. -/
theorem restart (h : Follows base p q) : Follows p p q :=
  ⟨h.strings, h.devices, h.tracefiles, h.defaults, rfl, fun _ hw => hw⟩

/-- What follows has the same context. -/
theorem context_eq (h : Follows base p q) : p.context = q.context := by
  obtain ⟨strings, devices, tracefiles, defaults, warnings, conns⟩ := p
  obtain ⟨rfl, rfl, rfl, rfl, -, -⟩ := h
  rfl

/-- A warning is no part of the context. -/
theorem warn (h : Follows base p q) (msg msg' : Text) : Follows base (p.warn msg) (q.warn msg') :=
  ⟨h.strings, h.devices, h.tracefiles, h.defaults, h.conns,
    fun w hw => List.mem_append_left _ (h.warnings w hw)⟩

/-- A directive. -/
theorem directive (h : Follows base p q) (n : Nat) (kind : Directive) (rest : Text) :
    Follows base (p.directive n kind rest) (q.directive n kind rest) := by
  -- a directive that names a string, with its warning when it is not supported
  have hnamed (p q : V3) (h : Follows base p q) (name : Text) (v : Directive × Text) :
      Follows base { p with strings := dictSet p.strings name v }
        { q with strings := dictSet q.strings name v } :=
    { h with strings := by rw [h.strings] }
  unfold V3.directive
  generalize partition ':' rest = parts
  obtain ⟨name, eq, value⟩ := parts
  cases kind with
  | controlport => exact h.warn _ _
  | default =>
    dsimp only
    cases v3DefaultNames.lookup name with
    | some d => exact { h with defaults := by rw [h.defaults] }
    | none => exact h.warn _ _
  | device => exact { h with devices := by rw [h.devices] }
  | tracefile => exact { h with tracefiles := by rw [h.tracefiles] }
  | signature | rotator | led => exact hnamed _ _ (h.warn _ _) name _
  | banner | openstr | closestr | closeon | rs485conf => exact hnamed _ _ h name _

end V3.Follows

/-! ### What a run makes -/

/-- The connection of a source that is imported, or nothing; its notes are among the warnings. -/
def Made (env : ImportEnv) (warnings : List Text) (src : Source) (o : Option Conn) : Prop :=
  ∃ imported c, Returns (src.makeConn env) (imported, c) ∧
    o = (if imported then some c else none) ∧ ∀ w ∈ notes c imported, w ∈ warnings

section
variable {env : ImportEnv}

/-- The steps of the entries of a `ser2net.yaml`; `z` is what is in force before them. -/
theorem steps_sifted {steps : List Step} {y z y' : Yaml} (hfollows : Follows y y z)
    (h : Returns (steps.foldlM (Yaml.step env) y) y') :
    ∃ conns, y'.conns = y.conns ++ conns ∧ (∀ w ∈ y.warnings, w ∈ y'.warnings) ∧
      Sifted (Made env y'.warnings) (Yaml.sources env z steps) conns := by
  induction steps generalizing y z with
  | nil =>
    obtain rfl := returns_pure.1 h
    exact ⟨[], (List.append_nil _).symm, fun w hw => hw, .nil⟩
  | cons step rest ih =>
    rw [List.foldlM_cons] at h
    obtain ⟨y₁, hstep, hrest⟩ := returns_bind h
    cases step with
    | setting e =>
      obtain rfl := returns_pure.1 hstep
      have hnext := @Follows.setting env _ _ _ hfollows e.1 e.2.1 e.2.2
      obtain ⟨conns, hconns, hwarn, hsifted⟩ := ih hnext.restart hrest
      exact ⟨conns, by rw [hconns, hnext.conns], fun w hw => hwarn w (hnext.warnings w hw), hsifted⟩
    | conn name body =>
      obtain ⟨⟨imported, c⟩, hmake, hstep⟩ := returns_bind hstep
      have hnext := hfollows.nameAlias name
      have hsrc : Returns ((Source.entry (z.nameAlias name).context name body).makeConn env)
          (imported, c) := by
        rw [← hnext.context_eq]
        exact hmake
      -- the state behind the connection
      have hy := returns_pure.1 hstep
      have hnext₁ : Follows y₁ y₁ (z.nameAlias name) := by
        rw [← hy]
        exact ⟨hnext.act, hnext.aliases, hnext.serialDefaults, hnext.optionDefaults, rfl,
          fun _ hw => hw⟩
      have hconns₁ : y₁.conns = y.conns ++ (if imported then some c else none).toList := by
        rw [← hy, ← hnext.conns]
        cases imported with
        | true => rfl
        | false => exact (List.append_nil _).symm
      have hwarn₁ : y₁.warnings = (y.nameAlias name).warnings ++ notes c imported := by rw [← hy]
      obtain ⟨conns, hconns, hwarn, hsifted⟩ := ih hnext₁ hrest
      rw [hwarn₁] at hwarn
      refine ⟨(if imported then some c else none).toList ++ conns, ?_, ?_, .cons ?_ hsifted⟩
      · rw [hconns, hconns₁, List.append_assoc]
      · intro w hw
        exact hwarn w (List.mem_append_left _ (hnext.warnings w hw))
      · exact ⟨imported, c, hsrc, rfl, fun w hw => hwarn w (List.mem_append_right _ hw)⟩

/-- The lines of a `ser2net.conf`. -/
theorem lines_sifted {lines : List (Nat × Text)} {p q p' : V3} (hfollows : V3.Follows p p q)
    (h : Returns (lines.foldlM (V3.line env) p) p') :
    ∃ conns, p'.conns = p.conns ++ conns ∧ (∀ w ∈ p.warnings, w ∈ p'.warnings) ∧
      Sifted (Made env p'.warnings) (V3.sources q lines) conns := by
  induction lines generalizing p q with
  | nil =>
    obtain rfl := returns_pure.1 h
    exact ⟨[], (List.append_nil _).symm, fun w hw => hw, .nil⟩
  | cons l rest ih =>
    rw [List.foldlM_cons] at h
    obtain ⟨p₁, hline, h⟩ := returns_bind h
    unfold V3.line at hline
    unfold V3.sources
    -- a directive changes the settings for the lines after it
    cases hdirective : directiveMatch l.2 with
    | some d =>
      rw [hdirective] at hline
      obtain rfl := returns_pure.1 hline
      have hnext := hfollows.directive l.1 d.1 d.2
      obtain ⟨conns, hconns, hwarn, hsifted⟩ := ih hnext.restart h
      exact ⟨conns, by rw [hconns, hnext.conns], fun w hw => hwarn w (hnext.warnings w hw), hsifted⟩
    | none =>
      rw [hdirective] at hline
      -- a line that is neither a directive nor a port leaves a warning
      cases hstate : stateMatch l.2 with
      | none =>
        rw [hstate] at hline
        have hnext : V3.Follows p p₁ q := by
          obtain rfl := returns_pure.1 hline
          exact { hfollows with warnings := fun w hw => List.mem_append_left _ hw }
        obtain ⟨conns, hconns, hwarn, hsifted⟩ := ih hnext.restart h
        exact ⟨conns, by rw [hconns, hnext.conns], fun w hw => hwarn w (hnext.warnings w hw),
          hsifted⟩
      -- a port line gives its connection or leaves a reason
      | some m =>
        rw [hstate] at hline
        obtain ⟨⟨imported, c⟩, hmake, hline⟩ := returns_bind hline
        have hsrc : Returns ((Source.port q.context l.1 m).makeConn env) (imported, c) := by
          rw [← hfollows.context_eq]
          exact hmake
        have hp := returns_pure.1 hline
        have hnext : V3.Follows p₁ p₁ q := by
          rw [← hp]
          exact { hfollows with conns := rfl, warnings := fun _ hw => hw }
        have hconns₁ : p₁.conns = p.conns ++ (if imported then some c else none).toList := by
          rw [← hp]
          cases imported with
          | true => rfl
          | false => exact (List.append_nil _).symm
        have hwarn₁ : p₁.warnings = p.warnings ++ notes c imported := by rw [← hp]
        obtain ⟨conns, hconns, hwarn, hsifted⟩ := ih hnext h
        rw [hwarn₁] at hwarn
        refine ⟨(if imported then some c else none).toList ++ conns, ?_, ?_, .cons ?_ hsifted⟩
        · rw [hconns, hconns₁, List.append_assoc]
        · intro w hw
          exact hwarn w (List.mem_append_left _ hw)
        · exact ⟨imported, c, hsrc, rfl, fun w hw => hwarn w (List.mem_append_right _ hw)⟩

/-- The connections of a file. -/
theorem fromText_sifted {text label : Text} {conns : List Conn} {warnings : List Text}
    (h : Returns (fromText env (normalize text) label) (conns, warnings)) :
    Sifted (Made env warnings) (sources env text) conns := by
  unfold fromText at h
  unfold sources
  dsimp only
  -- the syntax is told from the text, and each reader starts from nothing
  rcases returns_ite h with ⟨hyaml, h⟩ | ⟨hyaml, h⟩
  · rw [if_pos hyaml]
    obtain ⟨docs, hdocs, h⟩ := returns_bind h
    rw [run_of_returns_handle hdocs]
    rcases returns_ite h with ⟨-, h⟩ | ⟨-, h⟩
    · exact absurd h not_returns_raise
    obtain ⟨y, hentries, h⟩ := returns_bind h
    obtain ⟨rfl, rfl⟩ := Prod.mk.inj (returns_pure.1 h)
    rw [entries_eq_steps] at hentries
    obtain ⟨conns, hconns, -, hsifted⟩ := steps_sifted
      (z := Yaml.startFor env (topEntries docs)) ⟨rfl, rfl, rfl, rfl, rfl, fun _ hw => hw⟩ hentries
    have hnone : (Yaml.startFor env (topEntries docs)).conns = [] := by
      unfold Yaml.startFor Yaml.start
      dsimp only
      split <;> rfl
    have hconns : y.conns = conns := hconns.trans (by
      show (Yaml.startFor env (topEntries docs)).conns ++ conns = conns
      rw [hnone, List.nil_append])
    exact hconns ▸ hsifted
  · rw [if_neg hyaml]
    rcases returns_ite h with ⟨-, h⟩ | ⟨-, h⟩
    · obtain ⟨p, hlines, h⟩ := returns_bind h
      obtain ⟨rfl, rfl⟩ := Prod.mk.inj (returns_pure.1 h)
      obtain ⟨conns, hconns, -, hsifted⟩ := lines_sifted
        (q := {}) ⟨rfl, rfl, rfl, rfl, rfl, fun _ hw => hw⟩ hlines
      have hconns : p.conns = conns := hconns
      exact hconns ▸ hsifted
    · exact absurd h not_returns_raise

/-! ### What the import returns -/

/-- The first loop of `_assemble` as a whole: a connection is kept, or a warning that begins
    with its label says why not. -/
theorem keepAll_sifted {conns : List Conn} {s s' : List Conn × List Text}
    (h : Returns (conns.foldlM (keepOne env) s) s') :
    ∃ kept, s'.1 = s.1 ++ kept ∧ (∀ w ∈ s.2, w ∈ s'.2) ∧
      Sifted (fun c o => o = some c ∨ o = none ∧ ∃ why : Text, c.label ++ (": " ++ why) ∈ s'.2) conns
        kept := by
  induction conns generalizing s with
  | nil =>
    obtain rfl := returns_pure.1 h
    exact ⟨[], (List.append_nil _).symm, fun w hw => hw, .nil⟩
  | cons c rest ih =>
    rw [List.foldlM_cons] at h
    obtain ⟨s₁, hkeep, h⟩ := returns_bind h
    obtain ⟨kept, hkept, hwarn, hsifted⟩ := ih h
    rcases keepOne_returns hkeep with ⟨-, -, rfl⟩ | ⟨why, rfl⟩
    · exact ⟨c :: kept, by rw [hkept, List.append_assoc, List.singleton_append], hwarn,
        .keep (.inl rfl) hsifted⟩
    · refine ⟨kept, hkept, fun w hw => hwarn w (List.mem_append_left _ hw),
        .drop (.inr ⟨rfl, why, hwarn _ ?_⟩) hsifted⟩
      exact List.mem_append_right _ (List.mem_singleton.2 rfl)

/-- What becomes of a source among the connections that are returned. -/
inductive Outcome (env : ImportEnv) (warnings : List Text) (src : Source) : Option Conn → Prop
  /-- It gives a mapping, under its final name. -/
  | mapping {c d : Conn} (hmake : Returns (src.makeConn env) (true, c)) (hrenamed : Renamed c d) :
    Outcome env warnings src (some d)
  /-- Its connection does not validate, or listens where another one does. -/
  | dropped {c : Conn} {why : Text} (hmake : Returns (src.makeConn env) (true, c))
    (hwarn : c.label ++ (": " ++ why) ∈ warnings) : Outcome env warnings src none
  /-- It makes no connection. -/
  | skipped {c : Conn} (hmake : Returns (src.makeConn env) (false, c))
    (hwarn : ∀ w ∈ notes c false, w ∈ warnings) : Outcome env warnings src none

/-- **What becomes of every source.**  The connections returned are made from the sources in
    order. -/
theorem parseConns_sifted {text filename : Text} {conns : List Conn} {warnings : List Text}
    (h : Returns (parseConns env text filename) (conns, warnings)) :
    Sifted (Outcome env warnings) (sources env text) conns := by
  unfold parseConns at h
  dsimp only at h
  rcases returns_ite h with ⟨-, h⟩ | ⟨-, h⟩
  · exact absurd h not_returns_raise
  obtain ⟨⟨found, noted⟩, hfound, h⟩ := returns_bind h
  obtain ⟨⟨final, warned⟩, hassemble, h⟩ := returns_bind h
  obtain ⟨rfl, hwarnings⟩ := Prod.mk.inj (returns_pure.1 h)
  obtain ⟨⟨kept, skipped⟩, hkept, hassemble⟩ := returns_bind hassemble
  obtain ⟨hfinal, hwarned⟩ := Prod.mk.inj (returns_pure.1 hassemble)
  obtain ⟨new, hnew, hkeep, hkeepAll⟩ := keepAll_sifted hkept
  obtain ⟨conns, more, hconns, hrenamed, -, hnamed⟩ :=
    nameAll_spec kept { warnings := skipped } (namingInv_start skipped)
  -- the warnings of the three stages are all returned
  have hskipped : ∀ w ∈ skipped, w ∈ warnings := by
    intro w hw
    have hmem : w ∈ warned := by
      rw [← hwarned, hnamed]
      exact List.mem_append_left _ hw
    rw [← hwarnings]
    split
    · exact hmem
    · exact List.mem_append_left _ hmem
  have hfinal : conns = final := by rw [← hfinal]; exact hconns.symm
  have hkept : kept = new := hnew
  subst hfinal hkept
  have hmade : Sifted (Made env warnings) (sources env text) found :=
    (fromText_sifted hfound).imp fun src o ⟨imported, c, hmake, ho, hnotes⟩ =>
      ⟨imported, c, hmake, ho, fun w hw => hskipped w (hkeep w (hnotes w hw))⟩
  have hrenamed : Sifted (fun c o => ∃ d, o = some d ∧ Renamed c d) kept conns :=
    .of_forall₂ hrenamed fun c d hcd => ⟨d, rfl, hcd⟩
  have hassembled : Sifted (fun c o => (∃ d, o = some d ∧ Renamed c d) ∨
      o = none ∧ ∃ why : Text, c.label ++ (": " ++ why) ∈ warnings) found conns := by
    refine hkeepAll.comp hrenamed ?_ ?_
    · rintro c (hc | ⟨-, why, hwhy⟩)
      · cases hc
      · exact .inr ⟨rfl, why, hskipped _ hwhy⟩
    · rintro c d o (hc | ⟨hc, -⟩) hd
      · obtain rfl := Option.some.inj hc
        exact .inl hd
      · cases hc
  refine hmade.comp hassembled ?_ ?_
  · rintro src ⟨imported, c, hmake, ho, hnotes⟩
    cases imported with
    | true => cases ho
    | false => exact .skipped hmake hnotes
  · rintro src c o ⟨imported, c', hmake, ho, -⟩ hc
    cases imported with
    | false => cases ho
    | true =>
      obtain rfl := Option.some.inj ho
      rcases hc with ⟨d, rfl, hcd⟩ | ⟨rfl, why, hwhy⟩
      · exact .mapping hmake hcd
      · exact .dropped hmake hwhy

end

end Ser2Net.Import
