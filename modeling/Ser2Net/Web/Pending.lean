import Ser2Net.Config.App
import Ser2Net.Import.Again
import Ser2Net.Lib.PyUnicode
import Ser2Net.Lib.Tickets
import Ser2Net.Lib.Trace

namespace Ser2Net.Web.Pending

open Ser2Net.Lib Ser2Net.Lib.PyUnicode Ser2Net.Lib.Tickets Ser2Net.Config Ser2Net.Import

/-!
# Web — imports that wait for their confirmation

An upload is first shown as a preview: `config_import` keeps its plan in `pending_imports` under
a random token, and `config_import_apply` takes it from there when the page that shows the
preview is confirmed.

* `configImport`, `configImportApply` — the two handlers, after the checks of role and token;
* `step` — one request, with what was shown and begun so far;
* `begun_from_preview` — an import that begins with a token is the plan which the same user
  uploaded, with a fresh preview that is used for the first time;
* `preview_confirmed` — until it expires, is used, or twenty others are shown, a preview can be
  confirmed, whoever else tries to.

The clock is only read: differences and comparisons of its times may be any.
-/

/-- How many previews are kept. -/
def pendingMax : Nat := 20

abbrev Waiting (T : Type) := List (UStr × Ticket UStr ImportPlan T)

/-- `import_preview`, as the page gets it. -/
structure Preview where
  token : UStr
  mode : String
  rows : List Row
  source : String
  warnings : List String
  problem : Option ConfigError
  count : Nat

/-- What a handler goes on with. -/
inductive Answer
  | unknownMode
  | preview (p : Preview)
  | expired
  /-- `_apply_import` -/
  | apply (plan : ImportPlan) (mode : String)

/-- A request to `config_import`, with its parsed file. -/
structure Upload (T : Type) where
  /-- `_who(request)` -/
  user : UStr
  /-- `time.time()` -/
  now : T
  /-- `secrets.token_urlsafe(16)` -/
  token : UStr
  config : AppConfig
  /-- What `_new_id()` returns to `plan_rows`, and to `apply_import`. -/
  rowIds : Nat → String
  newIds : Nat → String
  plan : ImportPlan
  mode : String
  /-- `step=preview` -/
  isPreview : Bool

/-- What is kept for it. -/
def Upload.ticket {T : Type} (r : Upload T) : Ticket UStr ImportPlan T := ⟨r.now, r.user, r.plan⟩

/-- A request to `config_import_apply`. -/
structure Confirm (T : Type) where
  user : UStr
  now : T
  token : UStr
  mode : String

section
variable {T : Type} [Sub T] [LT T] [DecidableLT T] (m : Platform) (ttl : T)

/-- The configuration does not validate. -/
def problemOf (c : AppConfig) : CfgM (Option ConfigError) :=
  match c.validate m with
  | .ok _ => .ok none
  | .error (.user e) => .ok (some e)
  | .error e => .error e

/-- `config_import`; an import without a preview replaces all mappings. -/
def configImport (pending : Waiting T) (r : Upload T) : CfgM (Waiting T × Answer) :=
  if r.isPreview then
    if !modes.contains r.mode then .ok (pending, .unknownMode)
    else do
      let current := r.config.mappings
      let rows ← planRows m r.rowIds current r.plan.mappings r.mode
      let (candidate, _) ← applyImport m r.newIds current r.plan.mappings r.mode
      let problem ← problemOf m { r.config with mappings := candidate }
      -- `_pending_put` comes last: a request that raises keeps nothing
      return (put pendingMax ttl r.token r.ticket pending,
        .preview ⟨r.token, r.mode, rows, r.plan.source, r.plan.warnings, problem,
          r.plan.mappings.length⟩)
  else .ok (pending, .apply r.plan "replace")

/-- `config_import_apply`; a wrong mode leaves the preview where it is. -/
def configImportApply (pending : Waiting T) (r : Confirm T) : Waiting T × Answer :=
  match get ttl r.now r.user r.token pending with
  | none => (pending, .expired)
  | some t =>
    if !modes.contains r.mode then (pending, .unknownMode)
    else (remove r.token pending, .apply t.payload r.mode)

end

/-! ### Requests in any order -/

/-- An import that was begun; `token` is `none` for one without a preview. -/
structure Begun (T : Type) where
  user : UStr
  now : T
  token : Option UStr
  plan : ImportPlan
  mode : String

/-- The pending imports, the uploads whose preview was shown and the imports that were begun. -/
structure State (T : Type) where
  pending : Waiting T
  shown : List (Upload T)
  begun : List (Begun T)

/-- A server that has just started. -/
def State.start (T : Type) : State T := ⟨[], [], []⟩

inductive Event (T : Type)
  | upload (r : Upload T)
  | confirm (r : Confirm T)

section
variable {T : Type} [Sub T] [LT T] [DecidableLT T] (m : Platform) (ttl : T)

/-- What the answer to an upload leaves. -/
def State.uploaded (s : State T) (r : Upload T) : Waiting T × Answer → State T
  | (pending, .preview _) => { s with pending, shown := s.shown ++ [r] }
  | (pending, .apply plan mode) =>
    { s with pending, begun := s.begun ++ [⟨r.user, r.now, none, plan, mode⟩] }
  | (pending, _) => { s with pending }

/-- What the answer to a confirmation leaves. -/
def State.confirmed (s : State T) (r : Confirm T) : Waiting T × Answer → State T
  | (pending, .apply plan mode) =>
    { s with pending, begun := s.begun ++ [⟨r.user, r.now, some r.token, plan, mode⟩] }
  | (pending, _) => { s with pending }

/-- One request; one that raises is answered with an error and changes nothing. -/
def step (s : State T) : Event T → Option (State T)
  | .upload r =>
    some (match configImport m ttl s.pending r with
      | .ok done => s.uploaded r done
      | .error _ => s)
  | .confirm r => some (s.confirmed r (configImportApply ttl s.pending r))

end

/-- The token of an upload is new. -/
def NewToken {T : Type} (s : State T) : Event T → Prop
  | .upload r => ∀ r' ∈ s.shown, r'.token ≠ r.token
  | .confirm _ => True

section
variable {T : Type} [Sub T] [LT T] [DecidableLT T] {m : Platform} {ttl : T}

/-! ### What one request does -/

/-- A preview is fresh up to the time limit. -/
theorem isFresh_ticket {now : T} {r : Upload T} :
    r.ticket.isFresh ttl now = true ↔ ¬ ttl < now - r.now := by
  rw [Ticket.isFresh, Bool.not_eq_true', decide_eq_false_iff_not]
  rfl

/-- An upload that does not raise is refused, applied at once, or kept as a preview. -/
theorem configImport_eq_ok {pending pending' : Waiting T} {r : Upload T} {a : Answer}
    (h : configImport m ttl pending r = .ok (pending', a)) :
    (pending' = pending ∧ (a = .unknownMode ∨ a = .apply r.plan "replace")) ∨
      ∃ p, r.isPreview = true ∧ a = .preview p ∧
        pending' = put pendingMax ttl r.token r.ticket pending := by
  unfold configImport at h
  split at h
  · next hpreview =>
    split at h
    · cases h
      exact .inl ⟨rfl, .inl rfl⟩
    · obtain ⟨rows, -, h⟩ := except_bind_eq_ok.1 h
      obtain ⟨candidate, -, h⟩ := except_bind_eq_ok.1 h
      obtain ⟨problem, -, h⟩ := except_bind_eq_ok.1 h
      cases h
      exact .inr ⟨_, hpreview, rfl, rfl⟩
  · cases h
    exact .inl ⟨rfl, .inr rfl⟩

/-- A confirmation finds no preview, or uses it up. -/
theorem configImportApply_cases (ttl : T) (pending : Waiting T) (r : Confirm T) :
    (∃ a, configImportApply ttl pending r = (pending, a) ∧ (a = .expired ∨ a = .unknownMode)) ∨
      ∃ t, get ttl r.now r.user r.token pending = some t ∧ r.mode ∈ modes ∧
        configImportApply ttl pending r = (remove r.token pending, .apply t.payload r.mode) := by
  unfold configImportApply
  split
  · exact .inl ⟨_, rfl, .inl rfl⟩
  · next t hget =>
    split
    · exact .inl ⟨_, rfl, .inr rfl⟩
    · next hmode => exact .inr ⟨t, hget, by simpa using hmode, rfl⟩

/-- The tickets that were issued, and the tokens that were redeemed. -/
def State.issued (s : State T) : Waiting T := s.shown.map fun r => (r.token, r.ticket)

def State.redeemed (s : State T) : List UStr := s.begun.filterMap Begun.token

/-- An import begins with a preview that its user was shown, in time, or without one. -/
def Begun.Justified (ttl : T) (shown : List (Upload T)) (b : Begun T) : Prop :=
  match b.token with
  | none => b.mode = "replace"
  | some k => b.mode ∈ modes ∧ ∃ r ∈ shown, r.isPreview = true ∧ r.token = k ∧ r.user = b.user ∧
      r.plan = b.plan ∧ ¬ ttl < b.now - r.now

/-- What every state meets. -/
structure Inv (ttl : T) (s : State T) : Prop where
  sound : Sound pendingMax s.issued s.redeemed s.pending
  previews : ∀ r ∈ s.shown, r.isPreview = true
  justified : ∀ b ∈ s.begun, b.Justified ttl s.shown

omit [Sub T] [LT T] [DecidableLT T] in
/-- The tickets are those of what was shown. -/
theorem mem_issued {s : State T} {e : UStr × Ticket UStr ImportPlan T} :
    e ∈ s.issued ↔ ∃ r ∈ s.shown, (r.token, r.ticket) = e := List.mem_map

omit [DecidableLT T] in
/-- A preview that was shown stays one. -/
theorem Begun.Justified.mono {shown more : List (Upload T)} {b : Begun T}
    (h : b.Justified ttl shown) : b.Justified ttl (shown ++ more) := by
  unfold Begun.Justified at h ⊢
  split at h
  · exact h
  · obtain ⟨hmode, r, hr, h⟩ := h
    exact ⟨hmode, r, List.mem_append_left more hr, h⟩

omit [DecidableLT T] in
/-- A server that has just started. -/
theorem inv_start : Inv ttl (State.start T) where
  sound := Sound.empty pendingMax
  previews := by simp [State.start]
  justified := by simp [State.start]

/-- One request keeps it, when its token is new. -/
theorem inv_step (s : State T) (e : Event T) (s' : State T) (h : Inv ttl s) (hnew : NewToken s e)
    (hstep : step m ttl s e = some s') : Inv ttl s' := by
  cases e with
  | upload r =>
    obtain rfl := Option.some.inj hstep
    cases hdone : configImport m ttl s.pending r with
    | error e => exact h
    | ok done =>
      obtain ⟨pending', a⟩ := done
      rcases configImport_eq_ok hdone with ⟨rfl, rfl | rfl⟩ | ⟨p, hpreview, rfl, rfl⟩
      · exact h
      · -- without a preview no token is redeemed
        refine ⟨?_, h.previews, List.forall_mem_append.2 ⟨h.justified, ?_⟩⟩
        · have hredeemed : (s.begun ++
              [(⟨r.user, r.now, none, r.plan, "replace"⟩ : Begun T)]).filterMap Begun.token =
              s.redeemed := by simp [State.redeemed]
          show Sound pendingMax s.issued ((s.begun ++ _).filterMap Begun.token) s.pending
          rw [hredeemed]
          exact h.sound
        · simp [Begun.Justified]
      -- the token is new, so the preview waits beside the others
      · have hunknown : r.token ∉ s.issued.map Prod.fst := by
          rw [State.issued, List.map_map, List.mem_map]
          rintro ⟨r', hr', heq⟩
          exact hnew r' hr' heq
        refine ⟨?_, List.forall_mem_append.2 ⟨h.previews, by simpa using hpreview⟩, fun b hb =>
          (h.justified b hb).mono⟩
        have hissued : (s.shown ++ [r]).map (fun r => (r.token, r.ticket)) =
            s.issued ++ [(r.token, r.ticket)] := List.map_append
        show Sound pendingMax ((s.shown ++ [r]).map fun r => (r.token, r.ticket)) s.redeemed _
        rw [hissued]
        exact h.sound.put (by decide) hunknown
  | confirm r =>
    obtain rfl := Option.some.inj hstep
    rcases configImportApply_cases ttl s.pending r with
      ⟨a, ha, rfl | rfl⟩ | ⟨t, hget, hmode, ha⟩
    · rw [ha]
      exact h
    · rw [ha]
      exact h
    · rw [ha]
      -- what is confirmed was shown to this user and is taken off the table
      obtain ⟨hsound, hissued, -⟩ := h.sound.redeem hget
      obtain ⟨-, howner, hfresh⟩ := get_eq_some hget
      refine ⟨?_, h.previews, List.forall_mem_append.2 ⟨h.justified, ?_⟩⟩
      · have hredeemed : (s.begun ++
            [(⟨r.user, r.now, some r.token, t.payload, r.mode⟩ : Begun T)]).filterMap Begun.token =
            s.redeemed ++ [r.token] := by simp [State.redeemed]
        show Sound pendingMax s.issued ((s.begun ++ _).filterMap Begun.token) _
        rw [hredeemed]
        exact hsound
      · obtain ⟨u, hu, heq⟩ := mem_issued.1 hissued
        obtain ⟨htoken, rfl⟩ := Prod.mk.inj heq
        intro b hb
        obtain rfl := List.mem_singleton.1 hb
        exact ⟨hmode, u, hu, h.previews u hu, htoken, howner, rfl, isFresh_ticket.1 hfresh⟩

/-- **Only what was shown.**  Whatever requests arrive in whatever order, and whatever the clock
    does, as long as tokens are new: at most twenty previews are kept, no preview is used twice,
    and an import that a token begins is the plan that the same user uploaded under it, no
    longer than the time limit ago. -/
theorem begun_from_preview (es : List (Event T)) (s : State T)
    (hnew : Along (step m ttl) NewToken (State.start T) es)
    (hrun : run (step m ttl) (State.start T) es = some s) :
    s.pending.length ≤ pendingMax ∧ s.redeemed.Nodup ∧ ∀ b ∈ s.begun, b.Justified ttl s.shown := by
  have h := run_invariant (Inv ttl) (fun s e s' => inv_step s e s') inv_start hnew hrun
  exact ⟨h.sound.length_le, h.sound.once, h.justified⟩

end

/-- A merge of one mapping, uploaded to a server without mappings. -/
def firstUpload : Upload Int where
  user := ofText "ops".toList
  now := 100
  token := ofText "t1".toList
  config := AppConfig.fresh "key" "node"
  rowIds := letters
  newIds := letters
  plan := ⟨"ser2net export", [polledMapping "1" "a" (.ofIntExact 5)], []⟩
  mode := "merge"
  isPreview := true

/-- The same user, within the time limit. -/
def firstConfirm : Confirm Int := ⟨ofText "ops".toList, 400, ofText "t1".toList, "merge"⟩

/-- One upload and what is confirmed after it. -/
theorem newToken_once (r : Upload Int) (c c' : Confirm Int) :
    Along (step bareMachine 900) NewToken (State.start Int)
      [.upload r, .confirm c, .confirm c'] := by
  refine ⟨?_, fun _ _ => ⟨trivial, fun _ _ => ⟨trivial, fun _ _ => trivial⟩⟩⟩
  simp [NewToken, State.start]

/-- A preview that is confirmed twice begins one import. -/
theorem begun_from_preview_twice :
    ∃ s, run (step bareMachine 900) (State.start Int)
        [.upload firstUpload, .confirm firstConfirm, .confirm firstConfirm] = some s ∧
      s.begun.map Begun.token = [some (ofText "t1".toList)] ∧
      ∀ b ∈ s.begun, b.Justified 900 s.shown := by
  have hbegun : (run (step bareMachine 900) (State.start Int)
      [.upload firstUpload, .confirm firstConfirm, .confirm firstConfirm]).map
        (fun s => s.begun.map Begun.token) = some [some (ofText "t1".toList)] := by
    decide +kernel
  obtain ⟨s, hrun, htokens⟩ := Option.map_eq_some_iff.1 hbegun
  have hnew : Along (step bareMachine 900) NewToken (State.start Int)
      [.upload firstUpload, .confirm firstConfirm, .confirm firstConfirm] :=
    newToken_once _ _ _
  obtain ⟨-, -, hjustified⟩ := begun_from_preview _ s hnew hrun
  exact ⟨s, hrun, htokens, hjustified⟩

/-! ### What can be confirmed -/

section
variable {T : Type} [Sub T] [LT T] [DecidableLT T] {m : Platform} {ttl : T}

def Event.isPreview : Event T → Bool
  | .upload r => r.isPreview
  | .confirm _ => false

/-- A request that leaves the preview of `r` alone: another upload while it is fresh, or a
    confirmation that is not of this token, of its user, in a known mode. -/
def Spares (ttl : T) (r : Upload T) : Event T → Prop
  | .upload r' => r'.isPreview = true → ¬ ttl < r'.now - r.now
  | .confirm c => c.token = r.token → c.user = r.user → c.mode ∉ modes

/-- One request leaves the preview where it is, and at most one more is younger. -/
theorem held_step {r : Upload T} {n : Nat} {s : State T} {e : Event T} {s' : State T}
    (h : Inv ttl s) (hheld : Held r.token r.ticket n s.pending) (hnew : NewToken s e)
    (hspares : Spares ttl r e) (hroom : n + e.isPreview.toNat < pendingMax)
    (hstep : step m ttl s e = some s') :
    Held r.token r.ticket (n + e.isPreview.toNat) s'.pending := by
  have hmono : Held r.token r.ticket (n + e.isPreview.toNat) s.pending :=
    hheld.mono (Nat.le_add_right n _)
  cases e with
  | upload u =>
    obtain rfl := Option.some.inj hstep
    cases hdone : configImport m ttl s.pending u with
    | error e => exact hmono
    | ok done =>
      obtain ⟨pending', a⟩ := done
      rcases configImport_eq_ok hdone with ⟨rfl, rfl | rfl⟩ | ⟨p, hpreview, rfl, rfl⟩
      · exact hmono
      · exact hmono
      · have hone : (Event.upload u).isPreview.toNat = 1 := by rw [Event.isPreview, hpreview]; rfl
        rw [hone] at hroom ⊢
        refine hheld.put (isFresh_ticket.2 (hspares hpreview)) hroom fun hmem => ?_
        obtain ⟨e, he, htoken⟩ := List.mem_map.1 hmem
        obtain ⟨r', hr', rfl⟩ := mem_issued.1 (h.sound.mem_issued e he)
        exact hnew r' hr' htoken
  | confirm c =>
    obtain rfl := Option.some.inj hstep
    rcases configImportApply_cases ttl s.pending c with
      ⟨a, ha, rfl | rfl⟩ | ⟨t, hget, hmode, ha⟩
    · rw [ha]
      exact hmono
    · rw [ha]
      exact hmono
    · rw [ha]
      refine hmono.remove fun htoken => ?_
      -- under this token there is this preview, and it is not theirs
      obtain ⟨hmem, howner, -⟩ := get_eq_some hget
      obtain rfl := hheld.unique h.sound.nodup (htoken ▸ hmem)
      exact hspares htoken howner.symm hmode

/-- The same for a run. -/
theorem held_run {r : Upload T} {n : Nat} {s s' : State T} {es : List (Event T)}
    (h : Inv ttl s) (hheld : Held r.token r.ticket n s.pending)
    (hnew : Along (step m ttl) NewToken s es) (hspares : ∀ e ∈ es, Spares ttl r e)
    (hroom : n + es.countP Event.isPreview < pendingMax)
    (hrun : run (step m ttl) s es = some s') :
    Inv ttl s' ∧ ∃ n', Held r.token r.ticket n' s'.pending := by
  induction es generalizing n s with
  | nil =>
    rw [run_nil, Option.some.injEq] at hrun
    exact hrun ▸ ⟨h, n, hheld⟩
  | cons e es ih =>
    rw [run_cons, Option.bind_eq_some_iff] at hrun
    obtain ⟨u, hu, hrest⟩ := hrun
    have hcount : (e :: es).countP Event.isPreview =
        es.countP Event.isPreview + e.isPreview.toNat := by
      rw [List.countP_cons]
      cases e.isPreview <;> rfl
    have hheld' := held_step h hheld hnew.1 (hspares e List.mem_cons_self) (by omega) hu
    exact ih (inv_step s e u h hnew.1 hu) hheld' (hnew.2 u hu)
      (fun e' he' => hspares e' (List.mem_cons_of_mem e he')) (by omega) hrest

/-- **Whatever was shown.**  A preview that was shown can be confirmed by its user within the
    time limit, whatever requests have come before and since, as long as fewer than twenty
    previews were asked for since and it was not confirmed already. -/
theorem preview_confirmed (es es' : List (Event T)) (r : Upload T) (c : Confirm T)
    (s s' : State T) (pending : Waiting T) (p : Preview)
    (hrun : run (step m ttl) (State.start T) es = some s)
    (hshown : configImport m ttl s.pending r = .ok (pending, .preview p))
    (hrun' : run (step m ttl) s (.upload r :: es') = some s')
    (hnew : Along (step m ttl) NewToken (State.start T) (es ++ .upload r :: es'))
    (hspares : ∀ e ∈ es', Spares ttl r e) (hfew : es'.countP Event.isPreview < pendingMax)
    (htoken : c.token = r.token) (huser : c.user = r.user) (hmode : c.mode ∈ modes)
    (htime : ¬ ttl < c.now - r.now) :
    configImportApply ttl s'.pending c = (remove r.token s'.pending, .apply r.plan c.mode) := by
  obtain ⟨hbefore, hafter⟩ := along_append hrun hnew
  have h : Inv ttl s :=
    run_invariant (Inv ttl) (fun s e s' => inv_step s e s') inv_start hbefore hrun
  rw [run_cons, Option.bind_eq_some_iff] at hrun'
  obtain ⟨u, hu, hrest⟩ := hrun'
  have hu' : u = s.uploaded r (pending, .preview p) := by
    rw [step, hshown, Option.some.injEq] at hu
    exact hu.symm
  -- the upload has put its preview down, under a token nobody has used
  have hheld : Held r.token r.ticket 0 u.pending := by
    rcases configImport_eq_ok hshown with ⟨-, ha | ha⟩ | ⟨p, -, -, rfl⟩
    · cases ha
    · cases ha
    · rw [hu']
      refine Held.of_put fun hmem => ?_
      obtain ⟨e, he, htoken⟩ := List.mem_map.1 hmem
      obtain ⟨r', hr', rfl⟩ := mem_issued.1 (h.sound.mem_issued e he)
      exact hafter.1 r' hr' htoken
  -- what comes after neither confirms it nor pushes it out
  obtain ⟨h', n, hn⟩ := held_run (inv_step s _ u h hafter.1 hu) hheld (hafter.2 u hu) hspares
    (by omega) hrest
  have hget : get ttl c.now c.user c.token s'.pending = some r.ticket := by
    rw [htoken, huser]
    exact hn.get h'.sound.nodup (isFresh_ticket.2 htime)
  rw [configImportApply, hget, htoken]
  simp [hmode, Upload.ticket]

end

/-- Another user's attempt, and a mode that does not exist. -/
def otherConfirms : List (Event Int) :=
  [.confirm ⟨ofText "eve".toList, 200, ofText "t1".toList, "merge"⟩,
    .confirm { firstConfirm with mode := "append" }]

/-- After both the preview is still there. -/
theorem preview_confirmed_after :
    ∃ s' : State Int, run (step bareMachine 900) (State.start Int)
        (.upload firstUpload :: otherConfirms) = some s' ∧
      configImportApply 900 s'.pending firstConfirm =
        (remove firstUpload.token s'.pending, .apply firstUpload.plan "merge") := by
  have hpreview : ((configImport bareMachine 900 [] firstUpload).map fun d =>
      match d.2 with
      | .preview _ => true
      | _ => false) = .ok true := by decide +kernel
  cases hdone : configImport bareMachine 900 [] firstUpload with
  | error e => rw [hdone] at hpreview; cases hpreview
  | ok d =>
    obtain ⟨pending, a⟩ := d
    rw [hdone] at hpreview
    cases a with
    | preview p =>
      obtain ⟨s', hrun⟩ : ∃ s', run (step bareMachine 900) (State.start Int)
          (.upload firstUpload :: otherConfirms) = some s' := ⟨_, rfl⟩
      have hnew : Along (step bareMachine 900) NewToken (State.start Int)
          (.upload firstUpload :: otherConfirms) :=
        newToken_once _ _ _
      have hspares : ∀ e ∈ otherConfirms, Spares 900 firstUpload e := by
        simp only [otherConfirms, List.forall_mem_cons]
        exact ⟨fun _ h => absurd h (by decide), fun _ _ => by decide, by simp⟩
      exact ⟨s', hrun, preview_confirmed [] otherConfirms firstUpload firstConfirm (State.start Int)
        s' pending p rfl hdone hrun hnew hspares (by decide) rfl rfl (by decide) (by decide)⟩
    | unknownMode => cases hpreview
    | expired => cases hpreview
    | apply plan mode => cases hpreview

end Ser2Net.Web.Pending
