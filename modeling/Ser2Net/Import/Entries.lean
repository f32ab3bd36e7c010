import Ser2Net.Import.Applied
import Ser2Net.Import.Sources

namespace Ser2Net.Import

open Ser2Net.Lib Ser2Net.Config Logged

/-!
# Import — every entry of the file

What the import makes of a source: whether a mapping comes out of it or a warning under its own
label, and that the mapping lets nobody in whom the source kept out.

* `Source.remaddrs`, `Source.host` — the restrictions that a source carries;
* `Restricted` — a connection keeps them;
* `converted_of_makeConn` — the connection of one source;
* `entries_accounted`, `access_not_widened` — the whole import.
-/

/-! ### What a source says -/

/-- The host that the accepter of a connection entry names. -/
def Yaml.host (env : ImportEnv) (y : Yaml) (body : List (Text × Node × Text)) : Text :=
  listenHost env (accepterFields env (splitGensio
    (strip (y.text (Yaml.get env body "accepter" (.text [])) "accepter").1)))

/-- The host that a source names, without brackets; empty when it names none. -/
def Source.host (env : ImportEnv) : Source → Text
  | .entry y _ (.map body) => y.host env body
  | .entry _ _ _ => []
  | .port _ _ m => listenHost env (V3.portFields env (m.before.splitOn ',')).2

/-- The options of a port line. -/
def StateMatch.options (m : StateMatch) : Text :=
  (partition ':' (partition ':' m.after).2.2).2.2

/-- The values of `remaddr` that apply to a source: those of the defaults in force for it, then
    its own. -/
def Source.remaddrs (env : ImportEnv) : Source → List Text
  | .entry y _ (.map body) => y.remaddrs env body
  | .entry _ _ _ => []
  | .port p _ m => p.remaddrs m.options

/-- Every value of `remaddr` that a source carries, those of 3.x defaults included that are
    empty. -/
def Source.carried (env : ImportEnv) : Source → List Text
  | .port p _ m => ((p.defaults.filter fun d => d.1 = .remaddr).map Prod.snd) ++
      (PyText.words m.options).flatMap V3.tokenRemaddr
  | src => src.remaddrs env

/-- The label is one of the source's own. -/
def Source.OwnLabel : Source → Text → Prop
  | .entry _ name _, label =>
    if name = [] then label = "a connection without a name" ∨
      ∃ port, label = "ser2net-" ++ PyText.ofInt port
    else label = name
  | .port _ n _, label =>
    label = "line " ++ PyText.ofNat n ∨
      ∃ name : Text, label = name ++ " (line " ++ PyText.ofNat n ++ ")"

/-- The connection lets in only clients that `given` names, and listens only where `host`
    says. -/
structure Restricted (env : ImportEnv) (given : List Text) (host : Text) (c : Conn) : Prop where
  nonempty : given ≠ [] → c.network.allowedClientIps.getD [] ≠ []
  named : ∀ ip ∈ c.network.allowedClientIps.getD [], ∃ v ∈ given, NamesClient env v ip
  bound : host ≠ [] → BindsTo env host c.network.bindIp
  wildcard : c.network.bindIp = "0.0.0.0" ∨ c.network.bindIp = "::" →
    host = [] ∨ ∃ a, Ipaddress.ofText host = some a ∧ a.str = c.network.bindIp

/-- What is made of a source. -/
structure Converted (env : ImportEnv) (src : Source) (imported : Bool) (c : Conn) : Prop where
  label : src.OwnLabel c.label
  skipped : imported = false → c.skipped ≠ []
  restricted : imported = true → c.enabled = true →
    Restricted env (src.remaddrs env) (src.host env) c

section
variable {env : ImportEnv}

/-- A host that is bound to an address of any interface is that address. -/
theorem BindsTo.wildcard {host ip : Text} (h : BindsTo env host ip)
    (hip : ip = "0.0.0.0" ∨ ip = "::") : ∃ a, Ipaddress.ofText host = some a ∧ a.str = ip := by
  have hloop : ip ≠ "127.0.0.1" := by
    rintro rfl
    revert hip
    decide
  rcases h with ⟨-, hlocal⟩ | ⟨a, ha, heq⟩
  · exact absurd hlocal hloop
  · by_cases hv6 : a.isV6Loopback = true
    · rw [if_pos hv6] at heq
      exact absurd heq hloop
    · rw [if_neg hv6] at heq
      exact ⟨a, ha, heq.symm⟩

/-- The end of the conversion keeps the restrictions, or switches the connection off. -/
theorem restricted_finish {given : List Text} {host : Text} {c d : Conn}
    (hallowed : c.network.allowedClientIps = none)
    (hbound : host ≠ [] → c.hold = [] → BindsTo env host c.network.bindIp)
    (happlied : Applied env given c d) (hen : (finish env d).enabled = true) :
    Restricted env given host (finish env d) := by
  obtain ⟨d₁, hfinish, -, -, hnetwork, henabled⟩ := @finish_spec env d
  obtain ⟨hhold, hnonempty⟩ := henabled hen
  have hall := happlied.after hfinish
  rw [hall.hold] at hhold
  have hbinds : host ≠ [] → BindsTo env host (finish env d).network.bindIp := by
    intro hhost
    -- enabled, so nothing holds it back and its clients are those of `remaddr`
    rw [hnetwork, hall.bindIp]
    exact hbound hhost hhold
  refine ⟨?_, ?_, hbinds, ?_⟩
  · intro hgiven
    rw [hnetwork]
    exact hnonempty (hall.access.2 (.inr hgiven))
  · intro ip hip
    rw [hnetwork] at hip
    rcases hall.allowed ip hip with hold | hnamed
    · rw [hallowed] at hold
      cases hold
    · exact hnamed
  · intro hip
    -- an empty bind address means every interface, which the entry then asks for
    by_cases hhost : host = []
    · exact .inl hhost
    · exact .inr ((hbinds hhost).wildcard hip)

theorem finish_label (d : Conn) : (finish env d).label = d.label := by
  obtain ⟨d₁, hfinish, -, hlabel, -⟩ := @finish_spec env d
  exact hlabel.trans hfinish.label

/-! ### One source -/

/-- A source whose connection is skipped. -/
theorem converted_skip {src : Source} {c : Conn} (hlabel : src.OwnLabel c.label) (why : Text) :
    Converted env src false (c.skip why) := by
  refine ⟨?_, fun _ => skip_skipped c why, nofun⟩
  rw [(skip_applied env c why).label]
  exact hlabel

/-- The label under which the conversion of an entry begins. -/
theorem ownLabel_entry (y : Yaml) (name : Text) (body : Node) :
    (Source.entry y name body).OwnLabel
      (if name = [] then ("a connection without a name" : Text) else name) := by
  dsimp only [Source.OwnLabel]
  by_cases hname : name = []
  · rw [if_pos hname, if_pos hname]
    exact .inl rfl
  · rw [if_neg hname, if_neg hname]

/-- A connection entry of 4.x behind its accepter. -/
theorem converted_connected {y : Yaml} {name : Text} {entries : List (Text × Node × Text)}
    {imported : Bool} {spec : Text} {c₁ c : Conn}
    (hlabel : (Source.entry y name (.map entries)).OwnLabel c₁.label)
    (hallowed : c₁.network.allowedClientIps = none)
    (hbound : y.host env entries ≠ [] → c₁.hold = [] →
      BindsTo env (y.host env entries) c₁.network.bindIp)
    (h : Returns (y.connected env c₁ entries spec) (imported, c)) :
    Converted env (.entry y name (.map entries)) imported c := by
  obtain ⟨⟨ok, c₂⟩, hconnector, h⟩ := returns_bind h
  have hside := connector_side hconnector
  cases ok with
  -- a connector that is skipped leaves its reason
  | false =>
    obtain ⟨rfl, rfl⟩ := Prod.mk.inj (returns_pure.1 h)
    exact ⟨hside.applied.label ▸ hlabel, hside.skipped, nofun⟩
  | true =>
    obtain ⟨c₃, hsettings, h⟩ := returns_bind h
    obtain ⟨rfl, rfl⟩ := Prod.mk.inj (returns_pure.1 h)
    have happlied := hside.applied.before (yaml_settings_applied hsettings)
    refine ⟨?_, nofun, fun _ hen => ?_⟩
    · rw [finish_label, happlied.label]
      exact hlabel
    · exact restricted_finish hallowed hbound happlied hen

/-- A connection entry of 4.x. -/
theorem converted_entry {y : Yaml} {name : Text} {body : Node} {imported : Bool} {c : Conn}
    (h : Returns (y.makeConn env name body) (imported, c)) :
    Converted env (.entry y name body) imported c := by
  unfold Yaml.makeConn at h
  have hbegin := ownLabel_entry y name body
  cases body with
  | text t =>
    obtain ⟨rfl, rfl⟩ := Prod.mk.inj (returns_pure.1 h)
    exact converted_skip hbegin _
  | seq items =>
    obtain ⟨rfl, rfl⟩ := Prod.mk.inj (returns_pure.1 h)
    exact converted_skip hbegin _
  | map entries =>
    -- the texts of the two sides, and the notes made on the way to them
    dsimp only [Yaml.connText] at h
    generalize hspec : strip (y.text (Yaml.get env entries "accepter" (.text [])) "accepter").1 =
      spec at h
    generalize ([] ++ (y.text (Yaml.get env entries "accepter" (.text [])) "accepter").2 ++
      (y.text (Yaml.get env entries "connector" (.text [])) "connector").2 : List Text) = noted at h
    rcases returns_ite h with ⟨-, h⟩ | ⟨-, h⟩
    · obtain ⟨rfl, rfl⟩ := Prod.mk.inj (returns_pure.1 h)
      exact converted_skip hbegin _
    obtain ⟨⟨ok, c₁⟩, haccepter, h⟩ := returns_bind h
    have hlistens := accepter_listens haccepter
    have hhost : y.host env entries = listenHost env (accepterFields env (splitGensio spec)) := by
      rw [← hspec]
      rfl
    rw [← hhost] at hlistens
    cases ok with
    | false =>
      obtain ⟨rfl, rfl⟩ := Prod.mk.inj (returns_pure.1 h)
      exact ⟨hlistens.label ▸ hbegin, hlistens.skipped, nofun⟩
    | true =>
      dsimp only at h
      rw [if_pos rfl] at h
      by_cases hname : name = []
      · -- a connection without a name is called after its port
        rw [if_pos hname] at h
        refine converted_connected ?_ ?_ ?_ h
        · dsimp only [Source.OwnLabel]
          rw [if_pos hname]
          exact .inr ⟨_, rfl⟩
        · exact hlistens.allowed
        · exact hlistens.bound rfl
      · rw [if_neg hname] at h
        exact converted_connected (hlistens.label ▸ hbegin) hlistens.allowed (hlistens.bound rfl) h

/-- A port line of 3.x. -/
theorem converted_port {p : V3} {n : Nat} {m : StateMatch} {imported : Bool} {c : Conn}
    (h : Returns (p.makeConn env n m) (imported, c)) : Converted env (.port p n m) imported c := by
  unfold V3.makeConn at h
  have hoptions : m.options = (partition ':' (partition ':' m.after).2.2).2.2 := rfl
  have hhost : (Source.port p n m).host env =
    listenHost env (V3.portFields env (m.before.splitOn ',')).2 := rfl
  -- the three parts of the line behind the state
  generalize partition ':' m.after = parts at h hoptions
  obtain ⟨timeout, eq₁, rest⟩ := parts
  dsimp only at h hoptions
  generalize partition ':' rest = parts at h hoptions
  obtain ⟨device, eq₂, options⟩ := parts
  dsimp only at h hoptions
  generalize (p.devices.lookup (strip device)).getD (strip device) = device at h
  generalize V3.portFields env (m.before.splitOn ',') = parts at h hhost
  obtain ⟨mode, fields⟩ := parts
  dsimp only at h hhost
  obtain ⟨⟨ok, c₁⟩, haddress, h⟩ := returns_bind h
  have hlistens := listenAddress_listens haddress
  rw [← hhost] at hlistens
  cases ok with
  | false =>
    obtain ⟨rfl, rfl⟩ := Prod.mk.inj (returns_pure.1 h)
    exact ⟨Or.inl hlistens.label, hlistens.skipped, nofun⟩
  | true =>
    dsimp only at h
    rw [if_pos rfl] at h
    -- no device at all, then IPMI, before anything is read of the settings
    rcases returns_ite h with ⟨-, h⟩ | ⟨-, h⟩
    · obtain ⟨rfl, rfl⟩ := Prod.mk.inj (returns_pure.1 h)
      refine converted_skip ?_ _
      exact Or.inr ⟨_, rfl⟩
    rcases returns_ite h with ⟨-, h⟩ | ⟨-, h⟩
    · obtain ⟨rfl, rfl⟩ := Prod.mk.inj (returns_pure.1 h)
      refine converted_skip ?_ _
      exact Or.inr ⟨_, rfl⟩
    obtain ⟨c₂, hsettings, h⟩ := returns_bind h
    obtain ⟨rfl, rfl⟩ := Prod.mk.inj (returns_pure.1 h)
    have happlied := v3_settings_applied hsettings
    rw [← hoptions] at happlied
    refine ⟨Or.inr ⟨_, (finish_label c₂).trans happlied.label⟩, nofun, fun _ hen => ?_⟩
    refine restricted_finish ?_ ?_ happlied hen
    · exact hlistens.allowed
    · exact hlistens.bound rfl

/-- What is made of a source. -/
theorem converted_of_makeConn {src : Source} {imported : Bool} {c : Conn}
    (h : Returns (src.makeConn env) (imported, c)) : Converted env src imported c := by
  cases src with
  | entry y name body => exact converted_entry h
  | port p n m => exact converted_port h

/-! ### The whole import -/

/-- The connections of the import, each made from a source. -/
theorem parse_sifted {text filename : Text} {mappings : List Json} {warnings : List Text}
    (h : Returns (parse env text filename) (mappings, warnings)) {T : Source → Option Json → Prop}
    (hT : ∀ src o, Outcome env warnings src o → T src (o.map Conn.toDict)) :
    Sifted T (sources env text) mappings := by
  obtain ⟨⟨conns, noted⟩, hconns, h⟩ := returns_bind h
  obtain ⟨rfl, rfl⟩ := Prod.mk.inj (returns_pure.1 h)
  exact (parseConns_sifted hconns).map hT

/-- A source gave a mapping, its connection under its final name; or a warning begins with the
    label of its connection. -/
def Accounted (env : ImportEnv) (warnings : List Text) (src : Source) : Option Json → Prop
  | some j => ∃ c d, Returns (src.makeConn env) (true, c) ∧ Renamed c d ∧ j = d.toDict
  | none => ∃ imported c, ∃ why : Text, Returns (src.makeConn env) (imported, c) ∧
      src.OwnLabel c.label ∧ c.label ++ (": " ++ why) ∈ warnings

/-- **No connection is lost silently.**  The mappings are made from the sources in their order,
    at most one from each, and a source that gives none has a warning of its own. -/
theorem entries_accounted (env : ImportEnv) (text filename : Text) {mappings : List Json}
    {warnings : List Text} (h : Returns (parse env text filename) (mappings, warnings)) :
    Sifted (Accounted env warnings) (sources env text) mappings := by
  refine parse_sifted h fun src o ho => ?_
  cases ho with
  | mapping hmake hrenamed => exact ⟨_, _, hmake, hrenamed, rfl⟩
  | dropped hmake hwarn => exact ⟨true, _, _, hmake, (converted_of_makeConn hmake).label, hwarn⟩
  | @skipped c hmake hwarn =>
    have hconverted := converted_of_makeConn hmake
    -- a reason why it was skipped
    obtain ⟨why, hwhy⟩ := List.exists_mem_of_ne_nil _ (hconverted.skipped rfl)
    refine ⟨false, c, why, hmake, hconverted.label, hwarn _ ?_⟩
    exact List.mem_map.2 ⟨why, hwhy, List.append_assoc _ _ _⟩

/-- Two ports on one number: the first one gives a mapping, the second one a warning. -/
theorem entries_accounted_ports :
    let text : Text := "2000:raw:0:/dev/ttyS0:9600\n2000:raw:0:/dev/ttyS1:"
    ∃ mappings warnings, Returns (parse plainEnv text []) (mappings, warnings) ∧
      mappings.length = 1 ∧ (sources plainEnv text).length = 2 ∧
      Sifted (Accounted plainEnv warnings) (sources plainEnv text) mappings := by
  intro text
  obtain ⟨⟨mappings, warnings⟩, hrun, hlength⟩ :=
    exists_returns (x := parse plainEnv text []) (p := fun r => r.1.length == 1) (by decide +kernel)
  exact ⟨mappings, warnings, hrun, by simpa using hlength, by decide +kernel,
    entries_accounted plainEnv text [] hrun⟩

/-- **Access is not widened.**  A mapping that comes out enabled lets in only clients that the
    `remaddr` values of its source name, some of them when there are such values, and listens only
    where its source says. -/
theorem access_not_widened (env : ImportEnv) (text filename : Text) {mappings : List Json}
    {warnings : List Text} (h : Returns (parse env text filename) (mappings, warnings)) :
    Sifted (fun src o => ∀ j, o = some j → ∃ c d, Returns (src.makeConn env) (true, c) ∧
        Renamed c d ∧ j = d.toDict ∧
          (d.enabled = true → Restricted env (src.remaddrs env) (src.host env) d))
      (sources env text) mappings := by
  refine parse_sifted h fun src o ho => ?_
  rintro j hj
  cases ho with
  | dropped hmake hwarn => cases hj
  | skipped hmake hwarn => cases hj
  | @mapping c d hmake hrenamed =>
    refine ⟨c, d, hmake, hrenamed, (Option.some.inj hj).symm, fun hen => ?_⟩
    -- the second loop changes the name, and may switch it off
    obtain ⟨used, enabled, rfl, henabled⟩ := hrenamed
    obtain ⟨h₁, h₂, h₃, h₄⟩ := (converted_of_makeConn hmake).restricted rfl (henabled hen)
    exact ⟨h₁, h₂, h₃, h₄⟩

/-- A port for one client on one address. -/
theorem access_not_widened_client :
    let text : Text := "127.0.0.1,2000:raw:0:/dev/ttyS0:9600 remaddr=10.0.0.5"
    ∃ mappings warnings, Returns (parse plainEnv text []) (mappings, warnings) ∧
      (sources plainEnv text).map (fun src => (src.remaddrs plainEnv, src.host plainEnv)) =
        [([("10.0.0.5" : Text)], ("127.0.0.1" : Text))] ∧
      Sifted (fun src o => ∀ j, o = some j → ∃ c d, Returns (src.makeConn plainEnv) (true, c) ∧
          Renamed c d ∧ j = d.toDict ∧
            (d.enabled = true → Restricted plainEnv (src.remaddrs plainEnv) (src.host plainEnv) d))
        (sources plainEnv text) mappings := by
  intro text
  obtain ⟨⟨mappings, warnings⟩, hrun, -⟩ :=
    exists_returns (x := parse plainEnv text []) (p := fun r => r.1.length == 1) (by decide +kernel)
  exact ⟨mappings, warnings, hrun, by decide +kernel, access_not_widened plainEnv text [] hrun⟩

/-- A default for `remaddr` without a value restricts nothing: the port comes out enabled and
    open to every client. -/
theorem empty_default_open :
    let text : Text := "DEFAULT:remaddr:\n2000:raw:0:/dev/ttyS0:9600"
    (sources plainEnv text).map (Source.carried plainEnv) = [[[]]] ∧
      ∃ (c : Conn) (warnings : List Text),
        Returns (parse plainEnv text []) ([c.toDict], warnings) ∧
        c.enabled = true ∧ c.network.allowedClientIps.getD [] = [] := by
  intro text
  refine ⟨by decide +kernel, ?_⟩
  obtain ⟨⟨conns, warnings⟩, hrun, hconns⟩ :=
    exists_returns (x := parseConns plainEnv text [])
      (p := fun r => r.1.map (fun c => (c.enabled, c.network.allowedClientIps)) = [(true, none)])
      (by decide +kernel)
  obtain ⟨c, rfl, hc⟩ := List.map_eq_singleton_iff.1 (of_decide_eq_true hconns)
  obtain ⟨henabled, hallowed⟩ := Prod.mk.inj hc
  exact ⟨c, warnings, returns_bind_pure hrun fun r => (r.1.map Conn.toDict, r.2), henabled,
    by rw [hallowed]; rfl⟩

end

end Ser2Net.Import
