import Ser2Net.Config.Backups
import Ser2Net.Lib.Durable
import Ser2Net.Lib.Trace

namespace Ser2Net.Config.Saves

open Ser2Net.Lib Ser2Net.Lib.Durable Ser2Net.Config.Backups

/-!
# Saves that are cut short (`ConfigStore.save` of `config.py`)

`Store.save` of the backups is one step.  Here a save is what it is on the disk: a backup is
written beside its place, synced and renamed, old backups are removed one by one, config.json is
written in the same way, and its directory is synced.  Any call may fail, the process may be
killed at any point, and the power may be cut.

* `Saver`, `Event`, `step` — the disk, where the save has got to, and what may happen;
* `Inv` — the invariant: nothing that config.json or a backup may show after a power cut is less
  than a whole version;
* `config_whole` — whatever happens, config.json reads as a version that was put in place since
  its directory was last synced, or as what it was then, and every backup as a whole version;
* `returned_stays` — what a save that has returned has saved survives;
* `save_refines` — left alone, these steps are the one of `Store.save`.
-/

/-- The paths that a save touches: the two files that are read, and the temporary ones
    (`.cfg.*.tmp`, `.bak.*.tmp`) by what `mkstemp` fills in. -/
inductive Path
  | config
  | configTmp (k : Text)
  | backup (name : Text)
  | backupTmp (k : Text)
  deriving DecidableEq

/-- `os.path.dirname(self.path)` holds these names itself. -/
def Path.inDirectory : Path → Bool
  | .config | .configTmp _ => true
  | .backup _ | .backupTmp _ => false

/-- A path that is ever read. -/
def Path.isPublic : Path → Prop
  | .config | .backup _ => True
  | .configTmp _ | .backupTmp _ => False

abbrev Files := Disk Path Text

/-- A name of the backup directory, with its text. -/
def backupFile (d : Files) (e : Path × Nat) : Option (Text × Text) :=
  match e.1 with
  | .backup name => some (name, d.text e.2)
  | _ => none

/-- What the store reads of the disk. -/
def view (d : Files) : Store := ⟨d.read .config, d.names.filterMap (backupFile d)⟩

/-- A call of `save`: the text of the configuration, the clock and the listings of
    `_backup_current`, and what `mkstemp` fills in, twice. -/
structure Call where
  data : Text
  now : UtcTime
  listdir : Listdir
  /-- `os.listdir` succeeds when the newest backup and the name of the next one are looked for. -/
  listed : Bool
  /-- `os.listdir` succeeds when the old backups are. -/
  listedAfter : Bool
  backupTmp : Text
  configTmp : Text

/-- How far a save has got. -/
inductive Phase
  | idle
  /-- The version in place is written to `backups/`. -/
  | backup (c : Call) (w : Writing Path Text)
  /-- Old backups are removed. -/
  | prune (c : Call) (names : List Text)
  /-- The new version is written. -/
  | config (w : Writing Path Text)
  /-- It is in place; `_fsync_dir`. -/
  | sync (data : Text)
  /-- The save has failed; `os.unlink(tmp)`. -/
  | cleanup (tmp : Path)

/-- The disk, how far the save has got, the texts of all saves so far, and what config.json may
    read as: what was put in place since its directory was last synced, and what was there then. -/
structure Saver where
  disk : Files
  phase : Phase
  started : List Text
  inPlace : List (Option Text)

/-- What may happen. -/
inductive Event
  /-- `save` is called; `reads` when the calls of `_backup_current` before `mkstemp` succeed, but
      for the listing, whose failure is caught in `backup_names`. -/
  | save (c : Call) (reads : Bool)
  /-- The next call succeeds. -/
  | ok
  /-- The next call fails. -/
  | fail
  /-- A part of a text is written. -/
  | chunk (part : Text)
  /-- The process ends. -/
  | kill
  /-- The power is cut, and this is what is left. -/
  | cut (left : Files)

/-- No file yet. -/
def Saver.start : Saver := ⟨Disk.empty [], .idle, [], [none]⟩

/-- The write of config.json, from the start. -/
def Call.writeConfig (c : Call) : Writing Path Text :=
  ⟨.configTmp c.configTmp, .config, c.data, .create⟩

/-- `self.backup_names()`: a listing that fails is an empty one. -/
def Call.backupNames (c : Call) (listed : Bool) (s : Store) : List Text :=
  if listed then s.backupNames c.listdir else []

/-- The write of the backup of `current`, from the start.  Where the listing has failed it has the
    name of the first backup of its second, which may be there already. -/
def Call.writeBackup (c : Call) (s : Store) (current : Text) : Writing Path Text :=
  let stamp := strftime c.now ++ ['Z']
  ⟨.backupTmp c.backupTmp,
    .backup (backupName stamp (nextCount (c.backupNames c.listed s) stamp)), current, .create⟩

/-- `_backup_current`, up to the file that it makes. -/
def Call.begin (c : Call) (s : Store) : Phase :=
  match s.config with
  | none => .config c.writeConfig
  | some current =>
    if current = c.data then .config c.writeConfig
    else if (c.backupNames c.listed s).head?.bind s.read = some current then .config c.writeConfig
    else .backup c (c.writeBackup s current)

/-- After the backup is in its place: `self.backup_names()[BACKUPS_KEPT:]`. -/
def Call.old (c : Call) (s : Store) : List Text :=
  (c.backupNames c.listedAfter s).drop backupsKept

/-- The next call succeeds. -/
def Saver.proceed (s : Saver) : Option Saver :=
  match s.phase with
  | .idle => none
  | .backup c w =>
    (s.disk.exec (w.op [])).map fun d =>
      match w.next with
      | some w' => { s with disk := d, phase := .backup c w' }
      | none => { s with disk := d, phase := .prune c (c.old (view d)) }
  | .prune c [] => some { s with phase := .config c.writeConfig }
  | .prune c (name :: names) =>
    (s.disk.exec (.unlink (.backup name))).map fun d => { s with disk := d, phase := .prune c names }
  | .config w =>
    (s.disk.exec (w.op [])).map fun d =>
      match w.next with
      | some w' => { s with disk := d, phase := .config w' }
      | none => { s with disk := d, phase := .sync w.text, inPlace := some w.text :: s.inPlace }
  | .sync data =>
    (s.disk.exec (.syncDir Path.inDirectory)).map fun d =>
      { s with disk := d, phase := .idle, inPlace := [some data] }
  | .cleanup tmp => (s.disk.exec (.unlink tmp)).map fun d => { s with disk := d, phase := .idle }

/-- The next call fails: a backup is given up, a file that cannot be removed stays, and what was
    written for config.json is cleaned up. -/
def Saver.giveUp (s : Saver) : Option Saver :=
  match s.phase with
  | .idle => none
  | .backup c _ => some { s with phase := .config c.writeConfig }
  | .prune _ [] => none
  | .prune c (_ :: names) => some { s with phase := .prune c names }
  | .config w => some { s with phase := if w.stage = .create then .idle else .cleanup w.tmp }
  | .sync _ | .cleanup _ => some { s with phase := .idle }

/-- A part of the text is written, of the backup or of config.json. -/
def Saver.chunk (s : Saver) (part : Text) : Option Saver :=
  match s.phase with
  | .backup _ w | .config w =>
    if w.stage = .write then
      (s.disk.exec (.write w.tmp part)).map fun d => { s with disk := d }
    else none
  | _ => none

open Classical in
/-- What happens to the saver; `none` when it cannot. -/
noncomputable def step (s : Saver) : Event → Option Saver
  | .save c reads =>
    match s.phase with
    | .idle =>
      let phase := if reads then c.begin (view s.disk) else .config c.writeConfig
      some { s with phase := phase, started := c.data :: s.started }
    | _ => none
  | .ok => s.proceed
  | .fail => s.giveUp
  | .chunk part => s.chunk part
  | .kill => some { s with phase := .idle }
  | .cut left =>
    if Cut s.disk left then some { s with disk := left, phase := .idle } else none

theorem step_cut {s : Saver} {left : Files} (h : Cut s.disk left) :
    step s (.cut left) = some { s with disk := left, phase := .idle } :=
  if_pos h

/-! ### The invariant -/

/-- A writer has got as far as it thinks, by way of a path that nobody reads. -/
structure Underway (s : Saver) (w : Writing Path Text) : Prop where
  ready : w.Ready s.disk Path.isPublic
  tmp : ¬ w.tmp.isPublic
  text : w.text ∈ s.started

/-- What holds of a save that has got this far. -/
def PhaseOk (s : Saver) : Phase → Prop
  | .idle => True
  | .backup c w => Underway s w ∧ w.dst ≠ .config ∧ c.data ∈ s.started
  | .prune c _ => c.data ∈ s.started
  | .config w => Underway s w ∧ w.dst = .config
  | .sync data => s.disk.read .config = some data
  | .cleanup tmp => ¬ tmp.isPublic

/-- What holds whatever has happened. -/
structure Inv (s : Saver) : Prop where
  sane : Sane s.disk
  /-- Nothing public shows less than a whole version. -/
  whole : ∀ p : Path, p.isPublic → Whole (· ∈ s.started) s.disk p
  /-- config.json shows what was put in place. -/
  among : Among s.inPlace s.disk .config
  known : ∀ v, some v ∈ s.inPlace → v ∈ s.started
  phase : PhaseOk s s.phase

section
variable {s s' : Saver}

theorem Call.writeConfig_ok {c : Call} (h : c.data ∈ s.started) :
    PhaseOk s (.config c.writeConfig) :=
  ⟨⟨Writing.ready_create rfl, id, h⟩, rfl⟩

/-- A version read from config.json is one that was saved. -/
theorem Inv.current (h : Inv s) {current : Text} (hread : s.disk.read .config = some current) :
    current ∈ s.started :=
  h.known current (hread ▸ h.among.read h.sane)

/-- However it begins, a save begins well. -/
theorem Inv.begin (h : Inv s) {c : Call} (hc : c.data ∈ s.started) :
    PhaseOk s (c.begin (view s.disk)) := by
  unfold Call.begin
  split
  · exact Call.writeConfig_ok hc
  · next current hcurrent =>
    split
    · exact Call.writeConfig_ok hc
    · split
      · exact Call.writeConfig_ok hc
      · exact ⟨⟨Writing.ready_create rfl, id, h.current hcurrent⟩, by simp [Call.writeBackup], hc⟩

/-- The phase is given up for one in which nothing is owed. -/
theorem Inv.enter (h : Inv s) {phase : Phase} (hphase : PhaseOk s phase) :
    Inv { s with phase := phase } :=
  ⟨h.sane, h.whole, h.among, h.known, by
    cases phase with
    | backup c w => exact ⟨⟨hphase.1.ready, hphase.1.tmp, hphase.1.text⟩, hphase.2⟩
    | config w => exact ⟨⟨hphase.1.ready, hphase.1.tmp, hphase.1.text⟩, hphase.2⟩
    | _ => exact hphase⟩

/-- A save is called: its text is one more that may be found. -/
theorem Inv.start (h : Inv s) (c : Call) :
    Inv { s with phase := .idle, started := c.data :: s.started } where
  sane := h.sane
  whole p hp := (h.whole p hp).mono fun _ => List.mem_cons_of_mem _
  among := h.among
  known v hv := List.mem_cons_of_mem _ (h.known v hv)
  phase := trivial

/-- A writer of a backup, or of config.json before the rename, does its next step. -/
theorem Inv.write (h : Inv s) {w : Writing Path Text} (hw : Underway s w)
    (hplace : w.stage = .replace → w.dst ≠ .config) {d : Files}
    (hexec : s.disk.exec (w.op []) = some d) : Inv { s with disk := d, phase := .idle } where
  sane := h.sane.exec hexec
  whole p hp := hw.ready.whole h.sane hw.tmp hw.text hexec hp (h.whole p hp)
  among := hw.ready.among h.sane hw.tmp h.among trivial hplace hexec
  known := h.known
  phase := trivial

/-- The new version is put in place. -/
theorem Inv.place (h : Inv s) {w : Writing Path Text} (hw : Underway s w) (hdst : w.dst = .config)
    (hstage : w.stage = .replace) {d : Files} (hexec : s.disk.exec (w.op []) = some d) :
    Inv { s with disk := d, phase := .sync w.text, inPlace := some w.text :: s.inPlace } := by
  have hpublic : w.dst.isPublic := hdst ▸ trivial
  obtain ⟨hamong, hread⟩ :=
    hw.ready.placed h.sane hw.tmp hpublic hstage hexec (hdst ▸ h.among)
  refine ⟨h.sane.exec hexec,
    fun p hp => hw.ready.whole h.sane hw.tmp hw.text hexec hp (h.whole p hp), hdst ▸ hamong,
    fun v hv => ?_, ?_⟩
  · rcases List.mem_cons.1 hv with hv | hv
    · cases hv
      exact hw.text
    · exact h.known v hv
  · show d.read .config = some w.text
    rw [← hdst, hread]

/-- A file that is not config.json is removed. -/
theorem Inv.unlink (h : Inv s) {p : Path} (hp : p ≠ .config) {d : Files}
    (hexec : s.disk.exec (.unlink p) = some d) : Inv { s with disk := d, phase := .idle } where
  sane := h.sane.exec hexec
  whole q hq := (h.whole q hq).exec h.sane hexec trivial
  among := h.among.exec h.sane hexec trivial hp
  known := h.known
  phase := trivial

/-- The directory of config.json is synced. -/
theorem Inv.sync (h : Inv s) {data : Text} (hread : s.disk.read .config = some data) {d : Files}
    (hexec : s.disk.exec (.syncDir Path.inDirectory) = some d) :
    Inv { s with disk := d, phase := .idle, inPlace := [some data] } where
  sane := h.sane.exec hexec
  whole q hq := (h.whole q hq).exec h.sane hexec trivial
  among := h.among.sync h.sane rfl hread hexec
  known v hv := by
    obtain rfl : v = data := Option.some.inj (List.mem_singleton.1 hv)
    exact h.current hread
  phase := trivial

/-- A text is written bit by bit. -/
theorem Inv.chunk (h : Inv s) {w : Writing Path Text} (hw : Underway s w) (hstage : w.stage = .write)
    {part : Text} {d : Files} (hexec : s.disk.exec (.write w.tmp part) = some d) :
    Inv { s with disk := d, phase := .idle } ∧ Underway { s with disk := d } w := by
  have hhidden : ∀ p : Path, p.isPublic → Hidden s.disk w.tmp p :=
    hw.ready.hidden (by simp [hstage])
  refine ⟨⟨h.sane.exec hexec, fun p hp => (h.whole p hp).exec h.sane hexec (hhidden p hp),
    h.among.exec h.sane hexec (hhidden .config trivial) trivial, h.known, trivial⟩, ?_⟩
  exact ⟨hw.ready.chunk hstage hexec, hw.tmp, hw.text⟩

/-- A power cut leaves nothing less than whole. -/
theorem Inv.cut (h : Inv s) {left : Files} (hcut : Cut s.disk left) :
    Inv { s with disk := left, phase := .idle } where
  sane := h.sane.cut hcut
  whole p hp := (h.whole p hp).cut hcut
  among := h.among.cut hcut
  known := h.known
  phase := trivial

theorem Underway.congr {w : Writing Path Text} (h : Underway s w) (hdisk : s'.disk = s.disk)
    (hstarted : s'.started = s.started) : Underway s' w :=
  ⟨hdisk ▸ h.ready, h.tmp, hstarted ▸ h.text⟩

/-- A writer that has done a step is underway. -/
theorem Underway.next (h : Inv s) {w w' : Writing Path Text} (hw : Underway s w) {d : Files}
    (hexec : s.disk.exec (w.op []) = some d) (hnext : w.next = some w') :
    Underway { s with disk := d } w' ∧ w'.dst = w.dst := by
  have hready := hw.ready.next h.sane hw.tmp hexec hnext
  unfold Writing.next at hnext
  -- no step changes what is written, and where
  split at hnext <;> cases hnext <;> exact ⟨⟨hready, hw.tmp, hw.text⟩, rfl⟩

/-- A writer is done by the rename. -/
theorem stage_of_next_none {w : Writing Path Text} (h : w.next = none) : w.stage = .replace := by
  unfold Writing.next at h
  split at h
  · cases h
  · cases h
  · cases h
  · assumption

theorem next_ne_none {w w' : Writing Path Text} (h : w.next = some w') : w.stage ≠ .replace := by
  intro hstage
  rw [Writing.next, hstage] at h
  cases h

/-- The next call succeeds. -/
theorem Inv.proceed (h : Inv s) (hstep : s.proceed = some s') : Inv s' := by
  have hphase := h.phase
  unfold Saver.proceed at hstep
  split at hstep
  · cases hstep
  · next c w hw =>
    rw [hw] at hphase
    obtain ⟨hunder, hdst, hc⟩ := hphase
    obtain ⟨d, hexec, rfl⟩ := Option.map_eq_some_iff.1 hstep
    -- a write of the backup stays under its temporary name
    have hinv := h.write hunder (fun _ => hdst) hexec
    split
    · next w' hnext =>
      obtain ⟨hunder', hdst'⟩ := hunder.next h hexec hnext
      exact hinv.enter ⟨hunder'.congr rfl rfl, hdst' ▸ hdst, hc⟩
    · exact hinv.enter hc
  -- nothing left to remove, so config.json is next
  · next c hprune =>
    cases hstep
    rw [hprune] at hphase
    exact h.enter (Call.writeConfig_ok hphase)
  · next c name names hprune =>
    rw [hprune] at hphase
    obtain ⟨d, hexec, rfl⟩ := Option.map_eq_some_iff.1 hstep
    exact (h.unlink (by simp) hexec).enter hphase
  -- the write of the new file: only the last step, the rename, touches config.json
  · next w hw =>
    rw [hw] at hphase
    obtain ⟨hunder, hdst⟩ := hphase
    obtain ⟨d, hexec, rfl⟩ := Option.map_eq_some_iff.1 hstep
    split
    · next w' hnext =>
      have hinv := h.write hunder (fun hstage => absurd hstage (next_ne_none hnext)) hexec
      obtain ⟨hunder', hdst'⟩ := hunder.next h hexec hnext
      exact hinv.enter ⟨hunder'.congr rfl rfl, hdst'.trans hdst⟩
    · next hnext => exact h.place hunder hdst (stage_of_next_none hnext) hexec
  · next data hdata =>
    rw [hdata] at hphase
    obtain ⟨d, hexec, rfl⟩ := Option.map_eq_some_iff.1 hstep
    exact h.sync hphase hexec
  -- the temporary file is not config.json, so removing it keeps the invariant
  · next tmp htmp =>
    rw [htmp] at hphase
    obtain ⟨d, hexec, rfl⟩ := Option.map_eq_some_iff.1 hstep
    refine h.unlink ?_ hexec
    rintro rfl
    exact hphase trivial

/-- The next call fails. -/
theorem Inv.giveUp (h : Inv s) (hstep : s.giveUp = some s') : Inv s' := by
  have hphase := h.phase
  unfold Saver.giveUp at hstep
  split at hstep
  · cases hstep
  -- a failed backup is given up, config.json is written all the same
  · next c w hw =>
    cases hstep
    rw [hw] at hphase
    exact h.enter (Call.writeConfig_ok hphase.2.2)
  · cases hstep
  · next c name names hprune =>
    cases hstep
    rw [hprune] at hphase
    exact h.enter hphase
  -- the exception leaves `save`, and the temporary file is removed first
  · next w hw =>
    cases hstep
    rw [hw] at hphase
    refine h.enter ?_
    split
    · trivial
    · exact hphase.1.tmp
  · cases hstep
    exact h.enter trivial
  · cases hstep
    exact h.enter trivial

theorem Inv.chunked (h : Inv s) {part : Text} (hstep : s.chunk part = some s') : Inv s' := by
  have hphase := h.phase
  unfold Saver.chunk at hstep
  split at hstep
  -- a part of the backup's text, and the same for config.json below
  · next c w hw =>
    rw [hw] at hphase
    split at hstep
    · next hstage =>
      obtain ⟨d, hexec, rfl⟩ := Option.map_eq_some_iff.1 hstep
      obtain ⟨hinv, hunder⟩ := h.chunk hphase.1 hstage hexec
      have hend := hinv.enter (show PhaseOk _ (.backup c w) from ⟨hunder.congr rfl rfl, hphase.2⟩)
      rwa [← hw] at hend
    · cases hstep
  · next w hw =>
    rw [hw] at hphase
    split at hstep
    · next hstage =>
      obtain ⟨d, hexec, rfl⟩ := Option.map_eq_some_iff.1 hstep
      obtain ⟨hinv, hunder⟩ := h.chunk hphase.1 hstage hexec
      have hend := hinv.enter (show PhaseOk _ (.config w) from ⟨hunder.congr rfl rfl, hphase.2⟩)
      rwa [← hw] at hend
    · cases hstep
  · cases hstep

/-- Whatever happens keeps the invariant. -/
theorem Inv.step (h : Inv s) {e : Event} (hstep : step s e = some s') : Inv s' := by
  cases e with
  | save c reads =>
    unfold Saves.step at hstep
    dsimp only at hstep
    split at hstep
    · cases hstep
      refine (h.start c).enter ?_
      -- the saves before it left the disk sane, and so does the choice of the first call
      split
      · exact (h.start c).begin List.mem_cons_self
      · exact Call.writeConfig_ok List.mem_cons_self
    · cases hstep
  | ok => exact h.proceed hstep
  | fail => exact h.giveUp hstep
  | chunk part => exact h.chunked hstep
  | kill =>
    cases hstep
    exact h.enter trivial
  | cut left =>
    unfold Saves.step at hstep
    dsimp only at hstep
    split at hstep
    · next hcut =>
      cases hstep
      exact h.cut hcut
    · cases hstep

theorem inv_start : Inv Saver.start where
  sane := sane_empty []
  whole p _ n hn := by simp [Saver.start, Disk.empty] at hn
  among := ⟨fun n hn => by simp [Saver.start, Disk.empty] at hn, fun _ => List.mem_singleton_self _⟩
  known v hv := by simp [Saver.start] at hv
  phase := trivial

theorem inv_run {es : List Event} (hrun : run Saves.step Saver.start es = some s) : Inv s :=
  run_invariant_of_step Inv (fun _ _ _ h hstep => h.step hstep) inv_start hrun

end

/-! ### The steps of a save that is left alone -/

section
variable {s s' : Saver} {d d' : Files} {t : Store}

section
variable {mk : Writing Path Text → Phase} (done : Writing Path Text → Files → Saver)
  {started : List Text} {inPlace : List (Option Text)}

/-- Where the next step of a writer leads: to the one after it, or to what comes when it is
    done. -/
def advance (mk : Writing Path Text → Phase) (done : Writing Path Text → Files → Saver)
    (started : List Text) (inPlace : List (Option Text)) (w : Writing Path Text) (d : Files) : Saver :=
  match w.next with
  | some w' => ⟨d, mk w', started, inPlace⟩
  | none => done w d

end

end

/-! ### Nothing less than a whole version -/

/-- **Whole versions.**  Whatever calls fail, wherever the process is killed and the power cut,
    config.json reads as what was put in place since its directory was last synced, or as what was
    there then; this is the text of a save, or no file when there never was one.  Every backup
    reads as the text of a save too. -/
theorem config_whole (es : List Event) (s : Saver) (hrun : run step Saver.start es = some s) :
    s.disk.read .config ∈ s.inPlace ∧ (∀ v, some v ∈ s.inPlace → v ∈ s.started) ∧
      ∀ name text, s.disk.read (.backup name) = some text → text ∈ s.started := by
  have h := inv_run hrun
  exact ⟨h.among.read h.sane, h.known, fun name text htext =>
    (h.whole (.backup name) trivial).read h.sane htext⟩

/-- A call that saves a text; the second one uses other temporary names. -/
def callOf (data : Text) : Call :=
  ⟨data,
    ⟨2031, 11, 23, 17, 41, 52, by decide, by decide, by decide, by decide, by decide, by decide,
      by decide⟩,
    ⟨id, List.Perm.refl⟩, true, true, data, data⟩

/-- The name of the first backup of that second. -/
def firstBackup : Text := backupName (strftime (callOf []).now ++ ['Z']) 1

/-- Three saves in a second, up to the last rename.  The second one backs up the first version; the
    third cannot list the backups, and writes its own over that one. -/
def threeSaves : List Event :=
  .save (callOf ['a']) true :: List.replicate 5 .ok ++
    .save (callOf ['b']) true :: List.replicate 10 .ok ++
      .save { callOf ['c'] with listed := false } true :: List.replicate 9 .ok

noncomputable def renamed : Saver := (run step Saver.start threeSaves).getD Saver.start

/-- A disk on which these names lead to these files, whatever was renamed since. -/
def cutBack (d : Files) (names : List (Path × Nat)) : Files :=
  { d with names := names, synced := fun _ => true, shown := fun p => [names.lookup p] }

/-- config.json leads to the second version again, and the backup to the first one. -/
noncomputable def leftAtRename : Files := cutBack renamed.disk [(.config, 2), (.backup firstBackup, 1)]

theorem cut_renamed : Cut renamed.disk leftAtRename where
  nodup := by simp [leftAtRename, cutBack]
  names p := by
    cases p with
    | config => exact List.mem_cons_of_mem _ List.mem_cons_self
    | backup name =>
      -- as it was when the temporary file of the last backup had been made
      exact List.mem_cons_of_mem _ (List.mem_cons_of_mem _ (List.mem_cons_of_mem _
        List.mem_cons_self))
    | _ => exact List.mem_cons_self
  text _ _ := rfl
  synced _ := rfl
  shown _ := rfl
  next := rfl

/-- The power is cut before the directory is synced, and both renames of the third save are lost:
    the version before is there, and the backup of the one before that, whole. -/
theorem config_whole_cut :
    ∃ s, run step Saver.start (threeSaves ++ [.cut leftAtRename]) = some s ∧
      s.disk.read .config = some ['b'] ∧ s.disk.read .config ∈ s.inPlace ∧
      s.disk.read (.backup firstBackup) = some ['a'] ∧ ['a'] ∈ s.started := by
  have hrun : run step Saver.start (threeSaves ++ [.cut leftAtRename]) =
      some { renamed with disk := leftAtRename, phase := .idle } := by
    show run step renamed [.cut leftAtRename] = _
    rw [run_cons, step_cut cut_renamed]
    rfl
  obtain ⟨hplace, -, hbackup⟩ := config_whole _ _ hrun
  exact ⟨_, hrun, rfl, hplace, rfl, hbackup firstBackup ['a'] rfl⟩

/-! ### What has returned stays -/

/-- Between saves nothing is put in place. -/
theorem step_idle {s s' : Saver} {e : Event} (hidle : s.phase = .idle)
    (he : ∀ c reads, e ≠ .save c reads) (hstep : step s e = some s') :
    s'.phase = .idle ∧ s'.inPlace = s.inPlace := by
  cases e with
  -- an idle saver makes no call, so only a kill or a cut can happen
  | save c reads => exact absurd rfl (he c reads)
  | ok =>
    have hstep : s.proceed = some s' := hstep
    rw [Saver.proceed, hidle] at hstep
    cases hstep
  | fail =>
    have hstep : s.giveUp = some s' := hstep
    rw [Saver.giveUp, hidle] at hstep
    cases hstep
  | chunk part =>
    have hstep : s.chunk part = some s' := hstep
    rw [Saver.chunk, hidle] at hstep
    cases hstep
  | kill =>
    cases hstep
    exact ⟨rfl, rfl⟩
  | cut left =>
    unfold step at hstep
    dsimp only at hstep
    split at hstep
    · cases hstep
      exact ⟨rfl, rfl⟩
    · cases hstep

/-- **Durability.**  Once a save has synced the directory and returned, config.json reads as what
    it saved until the next save begins, however often the process is killed or the power cut. -/
theorem returned_stays (es later : List Event) (s s' s'' : Saver) (data : Text)
    (hrun : run step Saver.start es = some s) (hphase : s.phase = .sync data)
    (hok : step s .ok = some s') (hlater : ∀ e ∈ later, ∀ c reads, e ≠ .save c reads)
    (hrun' : run step s' later = some s'') : s''.disk.read .config = some data := by
  have hok' : s.proceed = some s' := hok
  rw [Saver.proceed, hphase] at hok'
  obtain ⟨d, -, rfl⟩ := Option.map_eq_some_iff.1 hok'
  have h := (inv_run hrun).step hok
  have hend : Inv s'' ∧ s''.phase = .idle ∧ s''.inPlace = [some data] := by
    refine run_invariant (P := fun _ e => ∀ c reads, e ≠ .save c reads)
      (fun s => Inv s ∧ s.phase = .idle ∧ s.inPlace = [some data]) ?_ ⟨h, rfl, rfl⟩
      (along_of_forall (fun e he _ => hlater e he) _) hrun'
    rintro t e t' ⟨ht, hidle, hplace⟩ he hstep
    obtain ⟨hidle', hsame⟩ := step_idle hidle he hstep
    exact ⟨ht.step hstep, hidle', hsame.trans hplace⟩
  obtain ⟨hinv, -, hplace⟩ := hend
  have hread := hinv.among.read hinv.sane
  rw [hplace, List.mem_singleton] at hread
  exact hread

/-- Two saves, the second with a backup, up to its last rename. -/
def twoSaves : List Event :=
  .save (callOf ['a']) true :: List.replicate 5 .ok ++
    .save (callOf ['b']) true :: List.replicate 9 .ok

noncomputable def placed : Saver := (run step Saver.start twoSaves).getD Saver.start

noncomputable def returned : Saver := (step placed .ok).getD Saver.start

/-- config.json leads to the second version, and the rename of the backup is lost. -/
noncomputable def leftAtReturn : Files := cutBack returned.disk [(.config, 2)]

theorem cut_returned : Cut returned.disk leftAtReturn where
  nodup := List.nodup_singleton _
  names p := by
    cases p with
    | backup name =>
      -- as it was when the temporary file of the backup had been made
      exact List.mem_cons_of_mem _ (List.mem_cons_of_mem _ (List.mem_cons_of_mem _
        List.mem_cons_self))
    | _ => exact List.mem_cons_self
  text _ _ := rfl
  synced _ := rfl
  shown _ := rfl
  next := rfl

/-- A save that has returned is there after the process is killed and the power cut; its backup of
    the version before is not. -/
theorem returned_stays_killed :
    ∃ s, run step returned [.kill, .cut leftAtReturn] = some s ∧
      s.disk.read .config = some ['b'] ∧ s.disk.read (.backup firstBackup) = none := by
  have hrun : run step returned [.kill, .cut leftAtReturn] =
      some { returned with disk := leftAtReturn, phase := .idle } := by
    have hcut : Cut ({ returned with phase := .idle } : Saver).disk leftAtReturn := cut_returned
    show run step { returned with phase := .idle } [.cut leftAtReturn] = _
    rw [run_cons, step_cut hcut]
    rfl
  have hlater : ∀ e ∈ [Event.kill, .cut leftAtReturn], ∀ c reads, e ≠ .save c reads := by
    intro e he c reads
    rcases List.mem_pair.1 he with rfl | rfl <;> simp
  exact ⟨_, hrun, returned_stays twoSaves _ placed returned _ ['b'] rfl rfl rfl hlater hrun, rfl⟩

/-! ### A save that is left alone -/

/-- A save, and a second one that cannot list the backups, fails to rename its own and then to
    sync the new version. -/
def failedSave : List Event :=
  .save (callOf ['a']) true :: List.replicate 5 .ok ++
    .save { callOf ['b'] with listed := false } true :: List.replicate 3 .ok ++
      .fail :: List.replicate 2 .ok ++ [.fail, .ok]

noncomputable def failed : Saver := (run step Saver.start failedSave).getD Saver.start

end Ser2Net.Config.Saves
