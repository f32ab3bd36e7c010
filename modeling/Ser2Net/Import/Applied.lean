import Ser2Net.Import.Assemble

namespace Ser2Net.Import

open Ser2Net.Lib Ser2Net.Config Logged

/-!
# Import — what the settings of a connection leave alone

The many options of a connection change its serial settings, its texts and its notes.  None of
them changes its names, the address it listens on, or the reason for which it is held back; and
only `remaddr` touches the clients that may connect.

* `Applied` — options were applied, the values of `remaddr` among them being `given`;
* `option_applied`, `V3.token_applied`, … — one lemma for each function that applies options;
* `finish_applied` — what the end of the conversion makes of it: a connection that stays enabled
  is not held back, and has allowed clients when it was given some.
-/

/-- `host` is the address of an entry of the `remaddr` value `v`. -/
def NamesClient (env : ImportEnv) (v host : Text) : Prop :=
  ∃ entry ∈ remaddrEntries v, ¬ startsWith entry ['!'] ∧ host = (remaddrFields env entry).headD [] ∧
    (Ipaddress.ipNetwork (String.ofList host)).isSome

/-- Options were applied to `c` and gave `d`; the values of `remaddr` among them are `given`. -/
structure Applied (env : ImportEnv) (given : List Text) (c d : Conn) : Prop where
  name : d.name = c.name
  label : d.label = c.label
  bindIp : d.network.bindIp = c.network.bindIp
  hold : d.hold = c.hold
  access : d.accessGiven = true ↔ c.accessGiven = true ∨ given ≠ []
  allowed : ∀ h ∈ d.network.allowedClientIps.getD [],
    h ∈ c.network.allowedClientIps.getD [] ∨ ∃ v ∈ given, NamesClient env v h

section
variable {env : ImportEnv} {given more : List Text} {c d e : Conn}

/-- No option that matters was applied. -/
theorem Applied.of_eq (name : d.name = c.name) (label : d.label = c.label)
    (bindIp : d.network.bindIp = c.network.bindIp) (hold : d.hold = c.hold)
    (access : d.accessGiven = c.accessGiven)
    (allowed : d.network.allowedClientIps = c.network.allowedClientIps) :
    Applied env [] c d where
  name := name
  label := label
  bindIp := bindIp
  hold := hold
  access := by simp [access]
  allowed h hh := .inl (by rwa [← allowed])

/-- Nothing was applied. -/
theorem Applied.refl (env : ImportEnv) (c : Conn) : Applied env [] c c :=
  .of_eq rfl rfl rfl rfl rfl rfl

/-- One option after another. -/
theorem Applied.trans (h : Applied env given c d) (h' : Applied env more d e) :
    Applied env (given ++ more) c e where
  name := h'.name.trans h.name
  label := h'.label.trans h.label
  bindIp := h'.bindIp.trans h.bindIp
  hold := h'.hold.trans h.hold
  access := by
    rw [h'.access, h.access, or_assoc]
    simp only [ne_eq, List.append_eq_nil_iff, not_and_or]
  allowed host hh := by
    rcases h'.allowed host hh with hh | ⟨v, hv, hnames⟩
    · rcases h.allowed host hh with hh | ⟨v, hv, hnames⟩
      · exact .inl hh
      · exact .inr ⟨v, List.mem_append_left _ hv, hnames⟩
    · exact .inr ⟨v, List.mem_append_right _ hv, hnames⟩

/-- Behind options that do not matter. -/
theorem Applied.after (h : Applied env given c d) (h' : Applied env [] d e) :
    Applied env given c e := by
  have := h.trans h'
  rwa [List.append_nil] at this

/-- What was applied before something that sets no clients. -/
theorem Applied.before (h : Applied env [] c d) (h' : Applied env given d e) :
    Applied env given c e := h.trans h'

/-- Both branches of a test. -/
theorem Applied.ite {p : Prop} [Decidable p] (h : Applied env given c d)
    (h' : Applied env given c e) : Applied env given c (if p then d else e) := by
  split
  · exact h
  · exact h'

/-- A loop applies options one after the other. -/
theorem applied_foldlM {γ : Type} {f : Conn → γ → ImportM Conn} {given : γ → List Text}
    (hf : ∀ c x d, Returns (f c x) d → Applied env (given x) c d) (l : List γ)
    (h : Returns (l.foldlM f c) d) : Applied env (l.flatMap given) c d := by
  induction l generalizing c with
  | nil =>
    obtain rfl := returns_pure.1 h
    exact .refl env c
  | cons x rest ih =>
    rw [List.foldlM_cons] at h
    obtain ⟨c₁, hx, h⟩ := returns_bind h
    rw [List.flatMap_cons]
    exact (hf c x c₁ hx).trans (ih h)

/-- A loop of settings that set no clients. -/
theorem applied_foldl {γ : Type} {f : Conn → γ → Conn}
    (hf : ∀ c x, Applied env [] c (f c x)) (l : List γ) (c : Conn) :
    Applied env [] c (l.foldl f c) := by
  induction l generalizing c with
  | nil => exact .refl env c
  | cons x rest ih => exact (hf c x).before (ih (f c x))

/-! ### Notes and flags -/

/-- A note changes the notes only. -/
theorem note_fields (c : Conn) (msg : Text) : (c.note msg).name = c.name ∧
    (c.note msg).label = c.label ∧ (c.note msg).network = c.network ∧ (c.note msg).hold = c.hold ∧
    (c.note msg).accessGiven = c.accessGiven ∧ (c.note msg).skipped = c.skipped := by
  unfold Conn.note
  split <;> exact ⟨rfl, rfl, rfl, rfl, rfl, rfl⟩

/-- A note. -/
theorem note_applied (env : ImportEnv) (c : Conn) (msg : Text) : Applied env [] c (c.note msg) := by
  unfold Conn.note
  split
  · exact .refl env c
  · exact .of_eq rfl rfl rfl rfl rfl rfl

/-- An option without an equivalent. -/
theorem drop_applied (env : ImportEnv) (c : Conn) (o : Text) : Applied env [] c (c.drop o) := by
  unfold Conn.drop
  split
  · exact .refl env c
  · exact .of_eq rfl rfl rfl rfl rfl rfl

/-- A note that is only made in some cases. -/
theorem noteIf_applied (env : ImportEnv) (p : Prop) [Decidable p] (c : Conn) (msg : Text) :
    Applied env [] c (if p then c.note msg else c) := by
  split
  · exact note_applied env c msg
  · exact .refl env c

/-- A flag of an option. -/
theorem flag_applied (c : Conn) (key value : Text) :
    Applied env [] c (flag env c key value).2 := by
  unfold flag
  split
  · exact note_applied env c _
  · exact .refl env c

/-- The idle timeout. -/
theorem idleTimeout_applied {value : Text} (h : Returns (idleTimeout c value) d) :
    Applied env [] c d := by
  unfold idleTimeout at h
  dsimp only at h
  split at h
  · obtain ⟨n, -, h⟩ := returns_bind h
    obtain rfl := returns_pure.1 h
    have hset : Applied env [] c
        { c with options := { c.options with idleTimeoutS := some (min n maxTimerS) } } :=
      .of_eq rfl rfl rfl rfl rfl rfl
    exact hset.after (noteIf_applied env _ _ _)
  · split at h
    · obtain rfl := returns_pure.1 h
      exact note_applied env c _
    · obtain rfl := returns_pure.1 h
      exact .refl env c

/-! ### The allowed clients -/

/-- One entry of `remaddr` adds at most the address that it names. -/
theorem remaddrEntry_spec (env : ImportEnv) (c : Conn) (entry : Text) :
    (remaddrEntry env c entry).name = c.name ∧ (remaddrEntry env c entry).label = c.label ∧
    (remaddrEntry env c entry).network.bindIp = c.network.bindIp ∧
    (remaddrEntry env c entry).hold = c.hold ∧
    (remaddrEntry env c entry).accessGiven = c.accessGiven ∧
    ∀ h ∈ (remaddrEntry env c entry).network.allowedClientIps.getD [],
      h ∈ c.network.allowedClientIps.getD [] ∨
        (¬ startsWith entry ['!'] ∧ h = (remaddrFields env entry).headD [] ∧
          (Ipaddress.ipNetwork (String.ofList h)).isSome) := by
  unfold remaddrEntry
  split
  · obtain ⟨h₁, h₂, h₃, h₄, h₅, -⟩ := note_fields c ("remaddr " ++ entry ++
      ": connect-back addresses are not imported")
    exact ⟨h₁, h₂, by rw [h₃], h₄, h₅, fun h hh => .inl (by rwa [h₃] at hh)⟩
  next hback =>
    dsimp only
    split
    · obtain ⟨h₁, h₂, h₃, h₄, h₅, -⟩ := note_fields c ("remaddr " ++ entry ++
        ": only IP addresses and subnets can be imported")
      exact ⟨h₁, h₂, by rw [h₃], h₄, h₅, fun h hh => .inl (by rwa [h₃] at hh)⟩
    next net hnet =>
      -- with or without the note about the port
      have hport : ∃ c', (if (remaddrFields env entry).tail = [] ||
            (remaddrFields env entry).tail.head? = some ['0'] then c
          else c.note ("remaddr " ++ entry ++
            ": only the client address is checked here, not its port")) = c' ∧
          c'.name = c.name ∧ c'.label = c.label ∧ c'.network = c.network ∧ c'.hold = c.hold ∧
          c'.accessGiven = c.accessGiven := by
        refine ⟨_, rfl, ?_⟩
        split
        · exact ⟨rfl, rfl, rfl, rfl, rfl⟩
        · obtain ⟨h₁, h₂, h₃, h₄, h₅, -⟩ := note_fields c ("remaddr " ++ entry ++
            ": only the client address is checked here, not its port")
          exact ⟨h₁, h₂, h₃, h₄, h₅⟩
      obtain ⟨c', hc', h₁, h₂, h₃, h₄, h₅⟩ := hport
      rw [hc', h₃]
      split
      · exact ⟨h₁, h₂, by rw [h₃], h₄, h₅, fun h hh => .inl (by rwa [h₃] at hh)⟩
      · refine ⟨h₁, h₂, rfl, h₄, h₅, fun h hh => ?_⟩
        have hh : h ∈ c.network.allowedClientIps.getD [] ++ [(remaddrFields env entry).headD []] := hh
        rcases List.mem_append.1 hh with hh | hh
        · exact .inl hh
        · obtain rfl := List.mem_singleton.1 hh
          exact .inr ⟨hback, rfl, by rw [hnet]; rfl⟩

/-- `remaddr` gives access to the addresses that it names and to no others. -/
theorem remaddr_applied (c : Conn) (value : Text) :
    Applied env [value] c (remaddr env c value) := by
  -- the loop over the entries
  have hloop : ∀ (l : List Text) (c₁ : Conn), (∀ entry ∈ l, entry ∈ remaddrEntries value) →
      c₁.accessGiven = true → ∀ d, l.foldl (remaddrEntry env) c₁ = d →
      d.name = c₁.name ∧ d.label = c₁.label ∧ d.network.bindIp = c₁.network.bindIp ∧
      d.hold = c₁.hold ∧ d.accessGiven = true ∧
      ∀ h ∈ d.network.allowedClientIps.getD [],
        h ∈ c₁.network.allowedClientIps.getD [] ∨ NamesClient env value h := by
    intro l
    induction l with
    | nil =>
      rintro c₁ - haccess d rfl
      exact ⟨rfl, rfl, rfl, rfl, haccess, fun h hh => .inl hh⟩
    | cons entry rest ih =>
      intro c₁ hmem haccess d hd
      obtain ⟨h₁, h₂, h₃, h₄, h₅, hallowed⟩ := remaddrEntry_spec env c₁ entry
      obtain ⟨k₁, k₂, k₃, k₄, k₅, hmore⟩ := ih (remaddrEntry env c₁ entry)
        (fun x hx => hmem x (List.mem_cons_of_mem _ hx)) (h₅.trans haccess) d hd
      refine ⟨k₁.trans h₁, k₂.trans h₂, k₃.trans h₃, k₄.trans h₄, k₅, fun h hh => ?_⟩
      rcases hmore h hh with hh | hh
      · rcases hallowed h hh with hh | ⟨hback, rfl, hnet⟩
        · exact .inl hh
        · exact .inr ⟨entry, hmem entry List.mem_cons_self, hback, rfl, hnet⟩
      · exact .inr hh
  obtain ⟨h₁, h₂, h₃, h₄, h₅, hallowed⟩ := hloop (remaddrEntries value) _
    (fun entry h => h) rfl (remaddr env c value) rfl
  refine ⟨h₁, h₂, h₃, h₄, ?_, fun h hh => ?_⟩
  · simp [h₅]
  · rcases hallowed h hh with hh | hh
    · exact .inl hh
    · exact .inr ⟨value, List.mem_singleton_self value, hh⟩

/-! ### Options -/

/-- The key of an option is `remaddr`. -/
def isRemaddr (env : ImportEnv) (key : Text) : Bool := env.lower (strip key) = "remaddr"

/-- The value of `remaddr` that an option gives. -/
def optionRemaddr (env : ImportEnv) (key value : Text) : List Text :=
  if isRemaddr env key then [value] else []

/-- The option `remaddr`. -/
theorem option_remaddr {key : Text} (hkey : env.lower (strip key) = "remaddr") (value : Text) :
    option env c key value = pure (remaddr env c value) := by
  have hstring : stringKeys.lookup ("remaddr" : Text) = none := by decide
  have htrace : (if startsWith ("remaddr" : Text) "trace-" then
      traceKinds.lookup (("remaddr" : Text).drop 6) else none) = none := by decide
  have hmod : traceMod "remaddr" = none := by decide
  unfold option
  dsimp only
  rw [hkey, if_neg (by decide), if_neg (by decide), if_neg (by decide), hstring]
  dsimp only
  rw [htrace]
  dsimp only
  rw [hmod]
  exact if_pos rfl

/-- One option: `remaddr` sets the allowed clients, the others leave them. -/
theorem option_applied {key value : Text} (h : Returns (option env c key value) d) :
    Applied env (optionRemaddr env key value) c d := by
  -- `remaddr` is the one option that sets the clients, so it goes first here
  by_cases hkey : env.lower (strip key) = "remaddr"
  · rw [option_remaddr hkey] at h
    obtain rfl := returns_pure.1 h
    have hgiven : optionRemaddr env key value = [value] := if_pos (decide_eq_true hkey)
    rw [hgiven]
    exact remaddr_applied c value
  have hgiven : optionRemaddr env key value = [] :=
    if_neg fun heq => hkey (of_decide_eq_true heq)
  rw [hgiven]
  have hc₁ : Applied env [] c (flag env c key value).2 := flag_applied c key value
  unfold option at h
  generalize flag env c key value = flagged at h hc₁
  obtain ⟨b, c₁⟩ := flagged
  dsimp only at h hc₁
  generalize env.lower (strip key) = k at h hkey
  -- the tests of the source, from the top
  rcases returns_ite h with ⟨-, h⟩ | ⟨-, h⟩
  · exact idleTimeout_applied h
  rcases returns_ite h with ⟨-, h⟩ | ⟨-, h⟩
  · -- kickolduser
    obtain rfl := returns_pure.1 h
    cases b with
    | none => exact hc₁
    | some b => exact hc₁.after (.of_eq rfl rfl rfl rfl rfl rfl)
  rcases returns_ite h with ⟨-, h⟩ | ⟨-, h⟩
  · -- max-connections
    rcases returns_ite h with ⟨-, h⟩ | ⟨-, h⟩
    · obtain ⟨n, -, h⟩ := returns_bind h
      obtain rfl := returns_pure.1 h
      exact .ite (.of_eq rfl rfl rfl rfl rfl rfl) (note_applied env c _)
    · obtain rfl := returns_pure.1 h
      exact note_applied env c _
  generalize stringKeys.lookup k = s at h
  cases s with
  | some s =>
    obtain rfl := returns_pure.1 h
    exact .of_eq rfl rfl rfl rfl rfl rfl
  | none =>
    dsimp only at h
    generalize (if startsWith k "trace-" then traceKinds.lookup (k.drop 6) else none) = t at h
    cases t with
    | some t =>
      obtain rfl := returns_pure.1 h
      exact .ite (.of_eq rfl rfl rfl rfl rfl rfl) (.refl env c)
    | none =>
      dsimp only at h
      generalize traceMod k = m at h
      cases m with
      | some m =>
        obtain rfl := returns_pure.1 h
        cases b with
        | none => exact hc₁
        | some b => exact hc₁.after (.of_eq rfl rfl rfl rfl rfl rfl)
      | none =>
        dsimp only at h
        rcases returns_ite h with ⟨hk, -⟩ | ⟨-, h⟩
        · exact absurd hk hkey
        rcases returns_ite h with ⟨-, h⟩ | ⟨-, h⟩
        · -- no-acc-to-con
          obtain rfl := returns_pure.1 h
          exact .ite (hc₁.after (.of_eq rfl rfl rfl rfl rfl rfl)) hc₁
        rcases returns_ite h with ⟨-, h⟩ | ⟨-, h⟩
        · obtain rfl := returns_pure.1 h
          exact .ite (drop_applied env c key) (.refl env c)
        rcases returns_ite h with ⟨-, h⟩ | ⟨-, h⟩
        · obtain rfl := returns_pure.1 h
          exact .refl env c
        · obtain rfl := returns_pure.1 h
          exact drop_applied env c key

/-! ### The device side -/

/-- A serial option by its name. -/
theorem namedSerialOption_applied (c : Conn) (tok low value : Text) (flag : Bool) :
    Applied env [] c (namedSerialOption env c tok low value flag) := by
  have hset : ∀ s : ConnSerial, Applied env [] c { c with serial := s } :=
    fun s => .of_eq rfl rfl rfl rfl rfl rfl
  unfold namedSerialOption
  refine .ite (.of_eq rfl rfl rfl rfl rfl rfl) (.ite (.of_eq rfl rfl rfl rfl rfl rfl) ?_)
  refine .ite (.of_eq rfl rfl rfl rfl rfl rfl) (.ite (.of_eq rfl rfl rfl rfl rfl rfl) ?_)
  refine .ite (.ite (.ite (hset _) (hset _)) (note_applied env c _)) ?_
  refine .ite (.ite (.refl env c) (note_applied env c _)) ?_
  refine .ite (.ite (.of_eq rfl rfl rfl rfl rfl rfl) (.refl env c)) ?_
  exact noteIf_applied env _ c _

/-- A serial option. -/
theorem serialOption_applied {tok : Text} (h : Returns (serialOption env c tok) d) :
    Applied env [] c d := by
  unfold serialOption at h
  generalize speedMatch tok = m at h
  cases m with
  | some m =>
    -- `speedMatch` gives the digits, `int` the speed
    obtain ⟨n, -, h⟩ := returns_bind h
    obtain rfl := returns_pure.1 h
    exact .of_eq rfl rfl rfl rfl rfl rfl
  | none =>
    dsimp only at h
    rcases returns_ite h with ⟨-, h⟩ | ⟨-, h⟩
    · obtain rfl := returns_pure.1 h
      exact .ite (.refl env c) (drop_applied env c tok)
    rcases returns_ite h with ⟨-, h⟩ | ⟨-, h⟩
    · generalize bool env (partition '=' tok).2.2 = v at h
      cases v with
      | none =>
        obtain rfl := returns_pure.1 h
        exact note_applied env c _
      | some flag =>
        obtain rfl := returns_pure.1 h
        exact namedSerialOption_applied c _ _ _ _
    · obtain rfl := returns_pure.1 h
      exact namedSerialOption_applied c _ _ _ _

/-- A reason to skip the connection. -/
theorem skip_applied (env : ImportEnv) (c : Conn) (why : Text) : Applied env [] c (c.skip why) := by
  unfold Conn.skip
  dsimp only
  refine Applied.after ?_ (note_applied env _ _)
  exact .ite (.refl env c) (.of_eq rfl rfl rfl rfl rfl rfl)

/-- A connection that is skipped has a reason. -/
theorem skip_skipped (c : Conn) (why : Text) : (c.skip why).skipped ≠ [] := by
  unfold Conn.skip
  dsimp only
  rw [(note_fields _ _).2.2.2.2.2]
  split
  · next h => exact List.ne_nil_of_mem (List.contains_iff_mem.1 h)
  · exact List.append_ne_nil_of_right_ne_nil _ (List.cons_ne_nil _ _)

/-- The connection of a side that could not be converted says why. -/
structure Side (env : ImportEnv) (ok : Bool) (c d : Conn) : Prop where
  applied : Applied env [] c d
  skipped : ok = false → d.skipped ≠ []

/-- A connection that is skipped has no device side. -/
theorem side_skip (env : ImportEnv) (ok : Bool) (c : Conn) (why : Text) :
    Side env ok c (c.skip why) :=
  ⟨skip_applied env c why, fun _ => skip_skipped c why⟩

/-- What happened before does not matter for the device side. -/
theorem Side.before (h : Applied env [] c d) {ok : Bool} (h' : Side env ok d e) :
    Side env ok c e := ⟨h.before h'.applied, h'.skipped⟩

/-- The layers of a connector, up to its device. -/
theorem connectorFrom_side {spec : Text} {defaults : List Text} {ok : Bool} {parts : List Text}
    (h : Returns (connectorFrom env spec defaults c parts) (ok, d)) : Side env ok c d := by
  induction parts generalizing c with
  | nil =>
    obtain ⟨rfl, rfl⟩ := Prod.mk.inj (returns_pure.1 h)
    exact side_skip env _ c _
  | cons part rest ih =>
    unfold connectorFrom at h
    generalize layer part = l at h
    obtain ⟨name, opts⟩ := l
    dsimp only at h
    rcases returns_ite h with ⟨-, h⟩ | ⟨-, h⟩
    · generalize rest.flatMap PyText.words = tokens at h
      cases tokens with
      | nil =>
        obtain ⟨rfl, rfl⟩ := Prod.mk.inj (returns_pure.1 h)
        exact side_skip env _ c _
      -- the device layer ends the list of layers
      | cons device tokens =>
        dsimp only at h
        obtain ⟨c₂, hloop, h⟩ := returns_bind h
        obtain ⟨rfl, rfl⟩ := Prod.mk.inj (returns_pure.1 h)
        have hloop : Applied env ((defaults ++ opts ++ tokens).flatMap fun _ => []) _ c₂ :=
          applied_foldlM (fun c x d hx => serialOption_applied hx) _ hloop
        rw [List.flatMap_eq_nil_iff.2 fun _ _ => rfl] at hloop
        refine ⟨Applied.before ?_ hloop, fun hok => by cases hok⟩
        have hdevice : Applied env [] c { c with device := windowsDevice env device } :=
          .of_eq rfl rfl rfl rfl rfl rfl
        exact hdevice.after (noteIf_applied env _ _ _)
    rcases returns_ite h with ⟨-, h⟩ | ⟨-, h⟩
    · obtain ⟨rfl, rfl⟩ := Prod.mk.inj (returns_pure.1 h)
      exact side_skip env _ c _
    -- any other layer is noted and passed over
    · exact Side.before (note_applied env c _) (ih h)

/-- The connector as a whole. -/
theorem connector_side {spec : Text} {defaults : List Text} {ok : Bool}
    (h : Returns (connector env c spec defaults) (ok, d)) : Side env ok c d :=
  connectorFrom_side h

/-! ### The listening side -/

/-- The host that the fields of an address name, without brackets. -/
def listenHost (env : ImportEnv) (fields : List Text) : Text :=
  match (dropFamilies env [] (cleanFields fields)).2 with
  | first :: _ :: _ => PyText.stripBy (fun ch => ch = '[' || ch = ']') first
  | _ => []

/-- The mapping listens on the address that the host names. -/
def BindsTo (env : ImportEnv) (host ip : Text) : Prop :=
  (env.lower host = "localhost" ∧ ip = "127.0.0.1") ∨
    ∃ a, Ipaddress.ofText host = some a ∧
      ip = if a.isV6Loopback then ("127.0.0.1" : Text) else a.str

/-- The listening side of a connection was converted: it listens where the host says, or it is
    held back. -/
structure Listens (env : ImportEnv) (ok : Bool) (host : Text) (c d : Conn) : Prop where
  name : d.name = c.name
  label : d.label = c.label
  access : d.accessGiven = c.accessGiven
  allowed : d.network.allowedClientIps = c.network.allowedClientIps
  skipped : ok = false → d.skipped ≠ []
  bound : ok = true → host ≠ [] → d.hold = [] → BindsTo env host d.network.bindIp

/-- What happened before does not matter for the listen address. -/
theorem Listens.before {ok : Bool} {host : Text} (h : Applied env [] c d)
    (hnet : d.network.allowedClientIps = c.network.allowedClientIps)
    (h' : Listens env ok host d e) : Listens env ok host c e where
  name := h'.name.trans h.name
  label := h'.label.trans h.label
  access := by
    have haccess := h.access
    simp only [ne_eq, not_true_eq_false, or_false] at haccess
    rw [h'.access, Bool.eq_iff_iff]
    exact haccess
  allowed := h'.allowed.trans hnet
  skipped := h'.skipped
  bound := h'.bound

/-- A connection that is skipped listens nowhere. -/
theorem listens_skip (env : ImportEnv) (host : Text) (c : Conn) (why : Text) :
    Listens env false host c (c.skip why) := by
  have happlied := skip_applied env c why
  refine .before happlied ?_
    ⟨rfl, rfl, rfl, rfl, fun _ => skip_skipped c why, fun hok => by cases hok⟩
  unfold Conn.skip
  dsimp only
  rw [(note_fields _ _).2.2.1]
  split <;> rfl

/-- The bind address of a host. -/
theorem bindIp_spec (env : ImportEnv) (c : Conn) (host family : Text) :
    ∃ d ip, bindIp env c host family = (ip, d) ∧ d.name = c.name ∧ d.label = c.label ∧
      d.network = c.network ∧ d.accessGiven = c.accessGiven ∧ d.skipped = c.skipped ∧
      (PyText.stripBy (fun ch => ch = '[' || ch = ']') host ≠ [] → d.hold = [] →
        BindsTo env (PyText.stripBy (fun ch => ch = '[' || ch = ']') host) ip) := by
  unfold bindIp
  generalize PyText.stripBy (fun ch => ch = '[' || ch = ']') host = h
  dsimp only
  by_cases hempty : h = []
  · rw [if_pos hempty]
    exact ⟨c, _, rfl, rfl, rfl, rfl, rfl, rfl, fun hne => absurd hempty hne⟩
  rw [if_neg hempty]
  by_cases hlocal : env.lower h = "localhost"
  · rw [if_pos hlocal]
    exact ⟨c, _, rfl, rfl, rfl, rfl, rfl, rfl, fun _ _ => .inl ⟨hlocal, rfl⟩⟩
  rw [if_neg hlocal]
  -- a host that is not an address holds the mapping back
  have hheld : ∀ why : Text, why ≠ [] → ∃ d ip, (("0.0.0.0" : Text), { c with hold := why }) =
      (ip, d) ∧ d.name = c.name ∧ d.label = c.label ∧ d.network = c.network ∧
      d.accessGiven = c.accessGiven ∧ d.skipped = c.skipped ∧
      (h ≠ [] → d.hold = [] → BindsTo env h ip) := fun why hwhy =>
    ⟨_, _, rfl, rfl, rfl, rfl, rfl, rfl, fun _ hhold => absurd hhold hwhy⟩
  have hwhy : ∀ t : Text, ("listen address '" : Text) ++ t ≠ [] := fun t => by simp
  cases haddress : Ipaddress.ofText h with
  | none =>
    refine hheld _ ?_
    rw [List.append_assoc, List.append_assoc]
    exact hwhy _
  | some a =>
    dsimp only
    by_cases hloop : a.isV6Loopback = true
    · rw [if_pos hloop]
      have hnote := note_fields c ("listen address " ++ host ++
        " (IPv6 loopback) is not accepted as a bind IP here: the mapping listens on 127.0.0.1")
      refine ⟨_, _, rfl, hnote.1, hnote.2.1, hnote.2.2.1, hnote.2.2.2.2.1, hnote.2.2.2.2.2,
        fun _ _ => .inr ⟨a, haddress, ?_⟩⟩
      rw [if_pos hloop]
    rw [if_neg hloop]
    by_cases huse : (!a.isMulticast && !(a.isReserved && !a.isWildcard)) = true
    · rw [if_pos huse]
      refine ⟨c, _, rfl, rfl, rfl, rfl, rfl, rfl, fun _ _ => .inr ⟨a, haddress, ?_⟩⟩
      rw [if_neg hloop]
    · rw [if_neg huse]
      refine hheld _ ?_
      rw [List.append_assoc, List.append_assoc]
      exact hwhy _

/-- A port and the bind address of a host. -/
theorem listens_bind (c : Conn) (host family : Text) (port : Int) :
    Listens env true (PyText.stripBy (fun ch => ch = '[' || ch = ']') host) c
      (let r := bindIp env { c with network := { c.network with port := port } } host family
      { r.2 with network := { r.2.network with bindIp := r.1 } }) := by
  obtain ⟨d, ip, hbind, hname, hlabel, hnetwork, haccess, -, hbound⟩ :=
    bindIp_spec env { c with network := { c.network with port := port } } host family
  rw [hbind]
  refine ⟨hname, hlabel, haccess, ?_, fun hok => absurd hok (by decide), fun _ => hbound⟩
  show d.network.allowedClientIps = _
  rw [hnetwork]

/-- The listen address, from the fields behind the terminal layer. -/
theorem listenAddress_listens {fields : List Text} {ok : Bool}
    (h : Returns (listenAddress env c fields) (ok, d)) :
    Listens env ok (listenHost env fields) c d := by
  unfold listenAddress at h
  unfold listenHost
  generalize dropFamilies env [] (cleanFields fields) = split at h ⊢
  obtain ⟨family, fields⟩ := split
  dsimp only at h ⊢
  cases fields with
  | nil =>
    obtain ⟨rfl, rfl⟩ := Prod.mk.inj (returns_pure.1 h)
    exact listens_skip env _ c _
  | cons first more =>
    dsimp only at h
    -- the note about further addresses does not matter
    obtain ⟨c₁, hc₁, happlied, hnet⟩ : ∃ c₁, (if more.length ≤ 1 then c
        else c.note ("only the first listen address is imported: " ++
          PyText.join [','] ((first :: more).take 2))) = c₁ ∧ Applied env [] c c₁ ∧
        c₁.network = c.network := by
      refine ⟨_, rfl, .ite (.refl env c) (note_applied env c _), ?_⟩
      split
      · rfl
      · exact (note_fields c _).2.2.1
    rw [hc₁] at h
    obtain ⟨port, -, h⟩ := returns_bind h
    cases port with
    | none =>
      obtain ⟨rfl, rfl⟩ := Prod.mk.inj (returns_pure.1 h)
      exact .before happlied (by rw [hnet]) (listens_skip env _ c₁ _)
    | some port =>
      refine .before happlied (by rw [hnet]) ?_
      cases more with
      | nil =>
        obtain ⟨rfl, rfl⟩ := Prod.mk.inj (returns_pure.1 h)
        exact listens_bind c₁ [] family port
      | cons second rest =>
        obtain ⟨rfl, rfl⟩ := Prod.mk.inj (returns_pure.1 h)
        exact listens_bind c₁ first family port

/-- The fields behind the first layer that is a network terminal. -/
def accepterFields (env : ImportEnv) (parts : List Text) : List Text :=
  (parts.dropWhile fun p => !netTerminals.contains (env.lower (layer p).1)).tail

/-- The layers of an accepter, up to the terminal one. -/
theorem accepterFrom_listens {spec : Text} {parts : List Text} {ok : Bool}
    (h : Returns (accepterFrom env spec c parts) (ok, d)) :
    Listens env ok (listenHost env (accepterFields env parts)) c d := by
  induction parts generalizing c with
  | nil =>
    obtain ⟨rfl, rfl⟩ := Prod.mk.inj (returns_pure.1 h)
    exact listens_skip env _ c _
  | cons part rest ih =>
    unfold accepterFrom at h
    unfold accepterFields
    rw [List.dropWhile_cons]
    unfold accepterFields at ih
    generalize layer part = l at h ⊢
    obtain ⟨name, opts⟩ := l
    dsimp only at h ⊢
    generalize env.lower name = low at h ⊢
    -- the network layer ends the search, every other layer is one that is passed over
    rcases returns_ite h with ⟨hnet, h⟩ | ⟨hnet, h⟩
    · rw [hnet, if_neg (by decide)]
      refine .before ?_ ?_ (listenAddress_listens h)
      · exact .ite (.of_eq rfl rfl rfl rfl rfl rfl) (noteIf_applied env _ c _)
      · split
        · rfl
        · split
          · rw [(note_fields c _).2.2.1]
          · rfl
    rw [Bool.not_eq_true] at hnet
    rw [hnet, if_pos (by decide)]
    rcases returns_ite h with ⟨-, h⟩ | ⟨-, h⟩
    · have hrest := ih h
      refine Listens.before ?_ ?_ hrest
      · exact .of_eq rfl rfl rfl rfl rfl rfl
      · rfl
    rcases returns_ite h with ⟨-, h⟩ | ⟨-, h⟩
    · exact .before (note_applied env c _) (by rw [(note_fields c _).2.2.1]) (ih h)
    rcases returns_ite h with ⟨-, h⟩ | ⟨-, h⟩
    · exact .before (note_applied env c _) (by rw [(note_fields c _).2.2.1]) (ih h)
    rcases returns_ite h with ⟨-, h⟩ | ⟨-, h⟩
    · exact ih h
    rcases returns_ite h with ⟨-, h⟩ | ⟨-, h⟩
    · obtain ⟨rfl, rfl⟩ := Prod.mk.inj (returns_pure.1 h)
      exact listens_skip env _ c _
    · exact .before (note_applied env c _) (by rw [(note_fields c _).2.2.1]) (ih h)

/-- The accepter as a whole. -/
theorem accepter_listens {spec : Text} {ok : Bool} (h : Returns (accepter env c spec) (ok, d)) :
    Listens env ok (listenHost env (accepterFields env (splitGensio spec))) c d :=
  accepterFrom_listens h

/-! ### Settings of 4.x -/

/-- A text of the connection. -/
theorem connText_applied (y : Yaml) (c : Conn) (node : Node) (what : Text) :
    Applied env [] c (y.connText c node what).2 := .of_eq rfl rfl rfl rfl rfl rfl

/-- The value of `remaddr` that an entry of `options:` gives. -/
def Yaml.optionRemaddr (env : ImportEnv) (y : Yaml) (e : Text × Node × Text) : List Text :=
  Import.optionRemaddr env e.1 (y.text e.2.1 e.1).1

/-- The values of `remaddr` that an entry of a connection gives. -/
def Yaml.entryRemaddrs (env : ImportEnv) (y : Yaml) (e : Text × Node × Text) : List Text :=
  let k := env.lower e.1
  if k = "options" then
    match e.2.1 with
    | .map options => options.flatMap (y.optionRemaddr env)
    | _ => []
  else if (["accepter", "connector", "enable"] : List Text).contains k then []
  else y.optionRemaddr env e

/-- The values of `remaddr` that a connection gives, after those of the defaults in force. -/
def Yaml.remaddrs (env : ImportEnv) (y : Yaml) (body : List (Text × Node × Text)) : List Text :=
  y.optionDefaults.flatMap (fun d => Import.optionRemaddr env d.1 d.2) ++
    body.flatMap (y.entryRemaddrs env)

/-- One entry of `options`. -/
theorem connOption_applied {y : Yaml} {o : Text × Node × Text}
    (h : Returns (y.connOption env c o) d) : Applied env (y.optionRemaddr env o) c d :=
  (connText_applied y c o.2.1 o.1).before (option_applied h)

/-- One entry of a connection. -/
theorem connEntry_applied {y : Yaml} {o : Text × Node × Text}
    (h : Returns (y.connEntry env c o) d) : Applied env (y.entryRemaddrs env o) c d := by
  unfold Yaml.connEntry at h
  unfold Yaml.entryRemaddrs
  dsimp only at h ⊢
  generalize env.lower o.1 = k at h ⊢
  -- the entries of `options`, the two sides and `enable`, any other option
  by_cases hoptions : k = "options"
  · rw [if_pos hoptions] at h ⊢
    generalize o.2.1 = v at h ⊢
    cases v with
    | map options => exact applied_foldlM (fun c x d hx => connOption_applied hx) options h
    | text t =>
      obtain rfl := returns_pure.1 h
      exact noteIf_applied env _ c _
    | seq items =>
      obtain rfl := returns_pure.1 h
      exact noteIf_applied env _ c _
  rw [if_neg hoptions] at h ⊢
  by_cases hsides : (["accepter", "connector", "enable"] : List Text).contains k = true
  · rw [if_pos hsides] at h ⊢
    obtain rfl := returns_pure.1 h
    exact .refl env c
  · rw [if_neg hsides] at h ⊢
    exact connOption_applied h

/-- The settings of a connection: the allowed clients are those of its `remaddr` entries. -/
theorem yaml_settings_applied {y : Yaml} {body : List (Text × Node × Text)}
    (h : Returns (y.settings env c body) d) : Applied env (y.remaddrs env body) c d := by
  unfold Yaml.settings at h
  have hc₁ : Applied env [] c (y.connText c (Yaml.get env body "enable" (.text "on")) "enable").2 :=
    connText_applied y c _ _
  generalize y.connText c (Yaml.get env body "enable" (.text "on")) "enable" = enabled at h hc₁
  obtain ⟨enable, c₁⟩ := enabled
  dsimp only at h hc₁
  have hc₂ := hc₁.after (noteIf_applied env (bool env enable = none) c₁
    ("enable '" ++ enable ++ "' is not on/off: imported disabled"))
  generalize bool env enable = b at h hc₂
  generalize (if b = none then c₁.note ("enable '" ++ enable ++
    "' is not on/off: imported disabled") else c₁) = c₂ at h hc₂
  obtain ⟨c₃, hdefaults, h⟩ := returns_bind h
  have hdefaults : Applied env (y.optionDefaults.flatMap fun d => optionRemaddr env d.1 d.2) _ c₃ :=
    applied_foldlM (fun c x d hx => option_applied hx) _ hdefaults
  have hbody : Applied env (body.flatMap (y.entryRemaddrs env)) c₃ d :=
    applied_foldlM (fun c x d hx => connEntry_applied hx) body h
  have hswitch : Applied env [] c₂ { c₂ with enabled := b = some true } :=
    .of_eq rfl rfl rfl rfl rfl rfl
  exact (hc₂.after hswitch).before (hdefaults.trans hbody)

/-! ### Settings of 3.x -/

/-- The value of `remaddr` that a default gives; an empty one gives none. -/
def V3.defaultRemaddr (d : V3Default × Text) : List Text :=
  if d.1 = .remaddr && d.2 ≠ [] then [d.2] else []

/-- The value of `remaddr` that a keyword gives. -/
def V3.tokenRemaddr (tok : Text) : List Text :=
  let (name, eq, value) := partition '=' tok
  if eq && name = "remaddr" then [value] else []

/-- The values of `remaddr` that apply to a port with the options. -/
def V3.remaddrs (p : V3) (options : Text) : List Text :=
  p.defaults.flatMap V3.defaultRemaddr ++ (PyText.words options).flatMap V3.tokenRemaddr

/-- The options that 3.x has under their names in 4.x, `remaddr` apart. -/
def v3OptionKeys : List Text := ["telnet-brk-on-sync", "max-connections", "kickolduser"]

/-- The options that 3.x keywords map onto leave the clients alone. -/
theorem v3Option_applied {key value : Text} (hkey : key ∈ v3OptionKeys)
    (h : Returns (option env c key value) d) : Applied env [] c d := by
  have hascii : ∀ k ∈ v3OptionKeys, (strip k).all (fun c => c.toNat < 128) = true := by decide
  have hne : ∀ k ∈ v3OptionKeys, (PyText.lower (String.ofList (strip k))).toList ≠ "remaddr" := by
    decide +kernel
  have hlower : env.lower (strip key) = (PyText.lower (String.ofList (strip key))).toList := by
    unfold ImportEnv.lower PyEnv.lower
    rw [String.toList_ofList, if_pos (hascii key hkey)]
  have hgiven : optionRemaddr env key value = [] := by
    refine if_neg fun heq => hne key hkey ?_
    rw [← hlower]
    exact of_decide_eq_true heq
  have happlied := option_applied h
  rwa [hgiven] at happlied

/-- A setting that a flag switches. -/
theorem elim_applied {b : Option Bool} {f : Bool → Conn} (hf : ∀ b, Applied env [] c (f b)) :
    Applied env [] c (b.elim c f) := by
  cases b with
  | none => exact .refl env c
  | some b => exact hf b

/-- A 3.x default: only `remaddr` sets clients. -/
theorem v3_default_applied {name : V3Default} {value : Text}
    (h : Returns (V3.default env c name value) d) :
    Applied env (V3.defaultRemaddr (name, value)) c d := by
  -- three defaults are numbers
  have hnumber : ∀ (set : ConnSerial → Int → ConnSerial),
      Returns (if PyText.isDigitText value = true then do
          let n ← int value
          return { c with serial := set c.serial n }
        else pure c) d → Applied env [] c d := by
    intro set h
    rcases returns_ite h with ⟨-, h⟩ | ⟨-, h⟩
    · obtain ⟨n, -, h⟩ := returns_bind h
      obtain rfl := returns_pure.1 h
      exact .of_eq rfl rfl rfl rfl rfl rfl
    · obtain rfl := returns_pure.1 h
      exact .refl env c
  -- one branch for each default of the 3.x syntax
  cases name with
  | ignoredLocal | chardelay =>
    obtain rfl := returns_pure.1 h
    exact .refl env c
  | telnetBrkOnSync =>
    rcases returns_ite h with ⟨-, h⟩ | ⟨-, h⟩
    · exact v3Option_applied List.mem_cons_self h
    · obtain rfl := returns_pure.1 h
      exact .refl env c
  | speed => exact hnumber (fun s n => { s with baudrate := n }) h
  | databits => exact hnumber (fun s n => { s with bytesize := n }) h
  | stopbits => exact hnumber (fun s n => { s with stopbits := n }) h
  | parity =>
    obtain rfl := returns_pure.1 h
    generalize v3Parity.lookup (env.upper value) = p
    cases p with
    | none => exact .refl env c
    | some p => exact .of_eq rfl rfl rfl rfl rfl rfl
  | remaddr =>
    obtain rfl := returns_pure.1 h
    by_cases hvalue : value = []
    · rw [if_pos hvalue, hvalue]
      exact .refl env c
    · have hgiven : V3.defaultRemaddr (.remaddr, value) = [value] := by
        simp [V3.defaultRemaddr, hvalue]
      rw [if_neg hvalue, hgiven]
      exact remaddr_applied c value
  | maxConnections =>
    have h : Returns (option env c "max-connections" value) d := h
    exact v3Option_applied (by decide) h
  | kickolduser =>
    have h : Returns (option env c "kickolduser" value) d := h
    exact v3Option_applied (by decide) h
  | xonxoff | rtscts | remctl | hangupWhenDone | nobreak =>
    obtain rfl := returns_pure.1 h
    generalize bool env value = b
    exact elim_applied fun b => .of_eq rfl rfl rfl rfl rfl rfl

/-- A serial token of the 3.x syntax. -/
theorem v3_serial_applied {tok : Text} (h : Returns (V3.serial c tok) (some d)) :
    Applied env [] c d := by
  unfold V3.serial at h
  dsimp only at h
  rcases returns_ite h with ⟨-, h⟩ | ⟨-, h⟩
  · obtain ⟨n, -, h⟩ := returns_bind h
    obtain rfl := Option.some.inj (returns_pure.1 h)
    exact .of_eq rfl rfl rfl rfl rfl rfl
  rcases returns_ite h with ⟨-, h⟩ | ⟨-, h⟩
  · obtain rfl := Option.some.inj (returns_pure.1 h)
    exact .of_eq rfl rfl rfl rfl rfl rfl
  rcases returns_ite h with ⟨-, h⟩ | ⟨-, h⟩
  · obtain rfl := Option.some.inj (returns_pure.1 h)
    exact .of_eq rfl rfl rfl rfl rfl rfl
  generalize V3.dataBits tok = bits at h
  cases bits with
  | some b =>
    obtain rfl := Option.some.inj (returns_pure.1 h)
    exact .of_eq rfl rfl rfl rfl rfl rfl
  | none =>
    dsimp only at h
    generalize v3Parity.lookup tok = parity at h
    cases parity with
    | some p =>
      obtain rfl := Option.some.inj (returns_pure.1 h)
      exact .of_eq rfl rfl rfl rfl rfl rfl
    | none =>
      have h := returns_pure.1 h
      -- the keywords that switch something
      split_ifs at h with h₁ h₂ h₃ h₄ h₅ h₆
      all_goals obtain rfl := Option.some.inj h
      · exact .of_eq rfl rfl rfl rfl rfl rfl
      · exact .of_eq rfl rfl rfl rfl rfl rfl
      · exact .of_eq rfl rfl rfl rfl rfl rfl
      · exact .of_eq rfl rfl rfl rfl rfl rfl
      · exact .refl env c
      · exact note_applied env c _

/-- A keyword of the 3.x syntax that has no value. -/
theorem v3_plainOption_applied {base : Text} {on : Bool}
    (h : Returns (V3.plainOption env c base on) (some d)) : Applied env [] c d := by
  unfold V3.plainOption at h
  -- `remctl` and `kickolduser`, then the modifiers of the traces
  rcases returns_ite h with ⟨-, h⟩ | ⟨-, h⟩
  · obtain rfl := Option.some.inj (returns_pure.1 h)
    exact .of_eq rfl rfl rfl rfl rfl rfl
  rcases returns_ite h with ⟨-, h⟩ | ⟨-, h⟩
  · obtain rfl := Option.some.inj (returns_pure.1 h)
    exact .of_eq rfl rfl rfl rfl rfl rfl
  generalize V3.modMatch base = m at h
  cases m with
  | some m =>
    obtain rfl := Option.some.inj (returns_pure.1 h)
    exact .of_eq rfl rfl rfl rfl rfl rfl
  | none =>
    dsimp only at h
    -- `telnet_brk_on_sync` alone goes through the options of the YAML syntax
    rcases returns_ite h with ⟨-, h⟩ | ⟨-, h⟩
    · rcases returns_ite h with ⟨-, h⟩ | ⟨-, h⟩
      · obtain ⟨c₁, hoption, h⟩ := returns_bind h
        obtain rfl := Option.some.inj (returns_pure.1 h)
        exact v3Option_applied List.mem_cons_self hoption
      · obtain rfl := Option.some.inj (returns_pure.1 h)
        exact .refl env c
    · have h := returns_pure.1 h
      split_ifs at h
      obtain rfl := Option.some.inj h
      exact .refl env c

/-- The keyword `remaddr`. -/
theorem v3_valueOption_remaddr (p : V3) (c : Conn) (tok value : Text) :
    p.valueOption env c tok "remaddr" value = pure (some (remaddr env c value)) := by
  have htrace : v3Trace.lookup ("remaddr" : Text) = none := by decide
  unfold V3.valueOption
  rw [htrace]
  dsimp only
  rw [if_neg (by decide), if_neg (by decide), if_pos rfl]

/-- A keyword of the 3.x syntax with a value: only `remaddr` sets clients. -/
theorem v3_valueOption_applied {p : V3} {tok name value : Text}
    (h : Returns (p.valueOption env c tok name value) (some d)) :
    Applied env (if name = "remaddr" then [value] else []) c d := by
  by_cases hname : name = "remaddr"
  · rw [if_pos hname]
    rw [hname, v3_valueOption_remaddr] at h
    obtain rfl := Option.some.inj (returns_pure.1 h)
    exact remaddr_applied c value
  rw [if_neg hname]
  unfold V3.valueOption at h
  -- with a value: a trace, the number of connections, then what is only noted
  generalize v3Trace.lookup name = kind at h
  cases kind with
  | some kind =>
    dsimp only at h
    generalize p.tracefiles.lookup value = file at h
    obtain rfl := Option.some.inj (returns_pure.1 h)
    cases file with
    | none => exact note_applied env c _
    | some file => exact .of_eq rfl rfl rfl rfl rfl rfl
  | none =>
    dsimp only at h
    rcases returns_ite h with ⟨-, h⟩ | ⟨-, h⟩
    · obtain rfl := Option.some.inj (returns_pure.1 h)
      exact note_applied env c _
    rcases returns_ite h with ⟨hmax, h⟩ | ⟨-, h⟩
    · obtain ⟨c₁, hoption, h⟩ := returns_bind h
      obtain rfl := Option.some.inj (returns_pure.1 h)
      subst hmax
      exact v3Option_applied (by decide) hoption
    rw [if_neg hname] at h
    rcases returns_ite h with ⟨-, h⟩ | ⟨-, h⟩
    · obtain rfl := Option.some.inj (returns_pure.1 h)
      exact drop_applied env c name
    · have h := returns_pure.1 h
      split_ifs at h
      obtain rfl := Option.some.inj h
      exact .refl env c

/-- A keyword of the 3.x syntax. -/
theorem v3_option_applied {p : V3} {tok : Text} (h : Returns (p.option env c tok) (some d)) :
    Applied env (V3.tokenRemaddr tok) c d := by
  unfold V3.option at h
  unfold V3.tokenRemaddr
  generalize partition '=' tok = parts at h ⊢
  obtain ⟨name, eq, value⟩ := parts
  dsimp only at h ⊢
  cases eq with
  | false => exact v3_plainOption_applied h
  | true =>
    simp only [Bool.true_and, decide_eq_true_eq]
    exact v3_valueOption_applied h

/-- A token that names a string, a trace or an LED. -/
theorem v3_named_applied (c : Conn) (tok : Text) (kind : Directive) (value : Text) :
    Applied env [] c (V3.named c tok kind value) := by
  unfold V3.named
  split
  · exact .of_eq rfl rfl rfl rfl rfl rfl
  · exact noteIf_applied env _ c _

/-- The serial keywords do not begin like `remaddr`. -/
theorem v3_serial_remaddr (c : Conn) (rest : Text) : V3.serial c ('r' :: rest) = pure none := by
  -- the text of `remaddr` is no digit, no parity, no number of bits and no keyword
  have hdigit : PyText.isDigitText ('r' :: rest) = false := by
    have hr : PyText.isDigitChar 'r' = false := by decide +kernel
    simp [PyText.isDigitText, hr]
  have hne : ∀ {t : Text}, t.head? ≠ some 'r' → 'r' :: rest ≠ t := by
    rintro t ht rfl
    exact ht rfl
  have hparity : v3Parity.lookup ('r' :: rest) = none := by
    refine lookup_eq_none.2 fun hmem => ?_
    have hkeys : ∀ t ∈ v3Parity.map Prod.fst, t.head? ≠ some 'r' := by decide
    exact hkeys _ hmem rfl
  have hbase : ('r' :: rest).dropWhile (· = '-') = 'r' :: rest :=
    List.dropWhile_cons_of_neg (by decide)
  unfold V3.serial
  dsimp only
  rw [hdigit, if_neg Bool.false_ne_true, if_neg (hne (by decide)), if_neg (hne (by decide))]
  have hbits : V3.dataBits ('r' :: rest) = none := by
    unfold V3.dataBits
    exact if_neg fun h => absurd h.2.1 (by decide)
  rw [hbits, hparity]
  dsimp only
  rw [hbase, if_neg (hne (by decide)), if_neg (hne (by decide)), if_neg (hne (by decide)),
    if_neg (hne (by decide)), if_neg (hne (by decide))]

/-- A keyword that gives `remaddr` begins with it. -/
theorem tokenRemaddr_cases (tok : Text) : V3.tokenRemaddr tok = [] ∨
    ∃ rest value, tok = 'r' :: rest ∧ partition '=' tok = ("remaddr".toList, true, value) := by
  unfold V3.tokenRemaddr
  rcases hparts : partition '=' tok with ⟨name, eq, value⟩
  dsimp only
  by_cases hgiven : (eq && decide (name = "remaddr")) = true
  · refine .inr ?_
    obtain ⟨heq, hname⟩ := Bool.and_eq_true_iff.1 hgiven
    have hname : name = "remaddr" := of_decide_eq_true hname
    subst heq hname
    unfold partition PyText.partition at hparts
    by_cases hmem : '=' ∈ tok
    -- the name in front of the sign is `remaddr`, so the token begins with an r
    · rw [if_pos hmem] at hparts
      have htake : tok.takeWhile (fun ch => ch ≠ '=') = "remaddr" := (Prod.mk.inj hparts).1
      cases tok with
      | nil => cases hmem
      | cons ch rest =>
        rw [List.takeWhile_cons] at htake
        split at htake
        · obtain rfl : ch = 'r' := (List.cons.inj htake).1
          exact ⟨rest, value, rfl, rfl⟩
        · cases htake
    · rw [if_neg hmem] at hparts
      cases (Prod.mk.inj (Prod.mk.inj hparts).2).1
  · exact .inl (if_neg hgiven)

/-- A token of a 3.x line. -/
theorem v3_token_applied {p : V3} {tok : Text} (h : Returns (p.token env c tok) d) :
    Applied env (V3.tokenRemaddr tok) c d := by
  unfold V3.token at h
  obtain ⟨serial, hserial, h⟩ := returns_bind h
  rcases tokenRemaddr_cases tok with hgiven | ⟨rest, value, rfl, hparts⟩
  · rw [hgiven]
    cases serial with
    | some c₁ =>
      obtain rfl := returns_pure.1 h
      exact v3_serial_applied hserial
    | none =>
      obtain ⟨option, hoption, h⟩ := returns_bind h
      cases option with
      | some c₁ =>
        obtain rfl := returns_pure.1 h
        exact hgiven ▸ v3_option_applied hoption
      | none =>
        dsimp only at h
        generalize p.strings.lookup tok = named at h
        cases named with
        | some named =>
          obtain rfl := returns_pure.1 h
          exact v3_named_applied c tok named.1 named.2
        | none =>
          obtain ⟨upper, hupper, h⟩ := returns_bind h
          cases upper with
          | some c₁ =>
            obtain rfl := returns_pure.1 h
            exact v3_serial_applied hupper
          | none =>
            obtain rfl := returns_pure.1 h
            exact note_applied env c _
  · -- neither a serial keyword nor another option
    rw [v3_serial_remaddr] at hserial
    obtain rfl := returns_pure.1 hserial
    obtain ⟨option, hoption, h⟩ := returns_bind h
    have hoption' := hoption
    unfold V3.option at hoption'
    rw [hparts] at hoption'
    dsimp only at hoption'
    rw [if_pos rfl, v3_valueOption_remaddr] at hoption'
    obtain rfl := returns_pure.1 hoption'
    obtain rfl := returns_pure.1 h
    exact v3_option_applied hoption

/-- The settings of a 3.x line: the allowed clients are those of its defaults and tokens. -/
theorem v3_settings_applied {p : V3} {state : PortState} {timeout device options : Text}
    (h : Returns (p.settings env c state timeout device options) d) :
    Applied env (p.remaddrs options) c d := by
  unfold V3.settings at h
  dsimp only at h
  obtain ⟨c₂, htimeout, h⟩ := returns_bind h
  obtain ⟨c₃, hdefaults, h⟩ := returns_bind h
  obtain ⟨c₄, htokens, h⟩ := returns_bind h
  -- the timeout, then the defaults, then the tokens
  obtain rfl := returns_pure.1 h
  have hc₁ : Applied env [] c { c with
      device := device
      enabled := state ≠ .off
      network := { c.network with
        protocol := if state = .telnet then Protocol.telnet else .raw } } :=
    .of_eq rfl rfl rfl rfl rfl rfl
  have hc₂ := (hc₁.after (noteIf_applied env _ _ _)).after (idleTimeout_applied htimeout)
  have hdefaults : Applied env (p.defaults.flatMap V3.defaultRemaddr) c₂ c₃ :=
    applied_foldlM (fun c x d hx => v3_default_applied hx) _ hdefaults
  have htokens : Applied env ((PyText.words options).flatMap V3.tokenRemaddr) c₃ c₄ :=
    applied_foldlM (fun c x d hx => v3_token_applied hx) _ htokens
  have hall := hc₂.before (hdefaults.trans htokens)
  refine hall.after (.ite (.ite ?_ (note_applied env c₄ _)) (.refl env c₄))
  exact .of_eq rfl rfl rfl rfl rfl rfl

/-! ### The end of the conversion -/

/-- The escapes of a text. -/
theorem convert_applied (c : Conn) (text : Text) (kind : EscapeKind) (what : Text) :
    Applied env [] c (convert c text kind what).2 := by
  unfold convert
  dsimp only
  refine Applied.after ?_ (.ite (.refl env _) (note_applied env _ _))
  exact .ite (.refl env c) (note_applied env c _)

/-- The flow control. -/
theorem finishFlow_applied (c : Conn) : Applied env [] c (finishFlow c) := by
  have hset : ∀ (c : Conn) (s : ConnSerial), Applied env [] c { c with serial := s } :=
    fun c s => .of_eq rfl rfl rfl rfl rfl rfl
  exact (noteIf_applied env (c.rtscts && c.xonxoff) c _).after (hset _ _)

/-- The protocol that the mode allows. -/
theorem finishProtocol_applied (c : Conn) : Applied env [] c (finishProtocol c) := by
  have hnote : ∀ (c : Conn) (msg : Text) (net : ConnNetwork), net.bindIp = c.network.bindIp →
      net.allowedClientIps = c.network.allowedClientIps →
      Applied env [] c { c.note msg with network := net } := by
    intro c msg net hip hallowed
    obtain ⟨h₁, h₂, -, h₄, h₅, -⟩ := note_fields c msg
    exact .of_eq h₁ h₂ hip h₄ h₅ hallowed
  have hnet : ∀ (c : Conn) (msg : Text), (c.note msg).network = c.network :=
    fun c msg => (note_fields c msg).2.2.1
  unfold finishProtocol
  dsimp only
  refine Applied.after (.ite ?_ (.refl env c)) (.ite ?_ (.refl env _))
  · exact hnote _ _ _ (by simp only [hnet]) (by simp only [hnet])
  · exact hnote _ _ _ (by simp only [hnet]) (by simp only [hnet])

/-- One of the four strings. -/
theorem finishString_applied (c : Conn) (key : StringKey) :
    Applied env [] c (finishString c key) := by
  unfold finishString
  generalize c.strings.lookup key = raw
  cases raw with
  | none => exact .refl env c
  | some raw =>
    refine (convert_applied c raw (if key = .banner then .banner else .bytes) key.text).after ?_
    exact .of_eq rfl rfl rfl rfl rfl rfl

/-- The trace file. -/
theorem finishTraceFile_applied (c : Conn) (kind : TraceKind) (raw : Text) :
    Applied env [] c (finishTraceFile env c kind raw) := by
  unfold finishTraceFile
  dsimp only
  have hc₁ : Applied env [] c (convert c raw .file (traceLabel c.v3 kind)).2 :=
    convert_applied c raw .file _
  generalize convert c raw .file (traceLabel c.v3 kind) = converted at hc₁ ⊢
  obtain ⟨path, c₁⟩ := converted
  dsimp only at hc₁ ⊢
  have hset : Applied env [] c₁ { c₁ with options := { c₁.options with traceBoth := some path } } :=
    .of_eq rfl rfl rfl rfl rfl rfl
  have hnoted : ∀ c₂ msg, Applied env [] c₁ c₂ →
      Applied env [] c₁ (if kind = .both then c₂ else c₂.note msg) := fun c₂ msg h =>
    .ite h (h.after (note_applied env c₂ msg))
  refine hc₁.after (.ite (.refl env c₁) (.ite (hnoted _ _ hset) ?_))
  exact (hnoted _ _ hset).after (note_applied env _ _)

/-- The traces together. -/
theorem finishTrace_applied (c : Conn) : Applied env [] c (finishTrace env c) := by
  have hmod : ∀ (kind : TraceKind) (c : Conn) (mod : TraceMod),
      Applied env [] c (finishTraceMod kind c mod) := by
    intro kind c mod
    unfold finishTraceMod
    split
    · exact .refl env c
    · exact .of_eq rfl rfl rfl rfl rfl rfl
  unfold finishTrace
  split
  · exact .refl env c
  · next kind raw _ =>
    refine Applied.after ?_ (applied_foldl (hmod kind) _ _)
    refine (finishTraceFile_applied c kind raw).after (applied_foldl (fun c other => ?_) _ _)
    exact .ite (.refl env c) (note_applied env c _)

/-- A connection with a reason to be held back is switched off. -/
theorem held_back (c : Conn) (hne : c.hold ≠ []) :
    let d := if c.hold = [] then c else ({ c with enabled := false } : Conn).note c.hold
    d.name = c.name ∧ d.label = c.label ∧ d.network = c.network ∧ d.enabled = false := by
  dsimp only
  rw [if_neg hne]
  unfold Conn.note
  split <;> exact ⟨rfl, rfl, rfl, rfl⟩

/-- A connection stays enabled only when nothing holds it back, and when it has allowed clients
    if it was given some. -/
theorem finishHold_spec (c : Conn) : (finishHold c).name = c.name ∧
    (finishHold c).label = c.label ∧ (finishHold c).network = c.network ∧
      ((finishHold c).enabled = true → c.hold = [] ∧
        (c.accessGiven = true → c.network.allowedClientIps.getD [] ≠ [])) := by
  unfold finishHold
  dsimp only
  have hopened : ("remaddr could not be imported: the mapping is imported disabled rather " ++
      "than open to every client" : Text) ≠ [] := by decide
  generalize ("remaddr could not be imported: the mapping is imported disabled rather " ++
    -- a given list of clients that came out empty holds the mapping back
    "than open to every client" : Text) = why at hopened ⊢
  by_cases hopen : (c.accessGiven && c.network.allowedClientIps.getD [] = []) = true
  · rw [if_pos hopen]
    obtain ⟨h₁, h₂, h₃, h₄⟩ := held_back { c with hold := why } hopened
    exact ⟨h₁, h₂, h₃, fun h => absurd (h₄.symm.trans h) Bool.false_ne_true⟩
  rw [if_neg hopen]
  by_cases hhold : c.hold = []
  · rw [if_pos hhold]
    refine ⟨rfl, rfl, rfl, fun _ => ⟨hhold, fun haccess hempty => hopen ?_⟩⟩
    rw [haccess, hempty]
    rfl
  · obtain ⟨h₁, h₂, h₃, h₄⟩ := held_back c hhold
    exact ⟨h₁, h₂, h₃, fun h => absurd (h₄.symm.trans h) Bool.false_ne_true⟩

/-- What the end of the conversion makes of a connection. -/
theorem finish_spec (c : Conn) : ∃ c₁, Applied env [] c c₁ ∧ (finish env c).name = c₁.name ∧
    (finish env c).label = c₁.label ∧ (finish env c).network = c₁.network ∧
    ((finish env c).enabled = true → c₁.hold = [] ∧
      (c₁.accessGiven = true → c₁.network.allowedClientIps.getD [] ≠ [])) := by
  have hflow : Applied env [] c (finishProtocol (finishFlow c)) :=
    (finishFlow_applied c).after (finishProtocol_applied _)
  have hstrings : Applied env [] c ([StringKey.banner, .openstr, .closestr, .closeon].foldl
      finishString (finishProtocol (finishFlow c))) :=
    hflow.after (applied_foldl finishString_applied _ _)
  refine ⟨_, hstrings.after (finishTrace_applied _), ?_⟩
  unfold finish
  dsimp only
  generalize finishTrace env _ = c₁
  obtain ⟨hname, hlabel, hnetwork, henabled⟩ := finishHold_spec c₁
  -- the list of what was dropped is only a note
  have hdropped : (finishDropped (finishHold c₁)).name = (finishHold c₁).name ∧
      (finishDropped (finishHold c₁)).label = (finishHold c₁).label ∧
      (finishDropped (finishHold c₁)).network = (finishHold c₁).network ∧
      (finishDropped (finishHold c₁)).enabled = (finishHold c₁).enabled := by
    unfold finishDropped Conn.note
    split_ifs <;> exact ⟨rfl, rfl, rfl, rfl⟩
  obtain ⟨h₁, h₂, h₃, h₄⟩ := hdropped
  exact ⟨h₁.trans hname, h₂.trans hlabel, h₃.trans hnetwork, fun h => henabled (h₄ ▸ h)⟩

end

end Ser2Net.Import
