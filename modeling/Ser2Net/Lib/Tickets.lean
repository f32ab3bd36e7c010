import Ser2Net.Lib.Dict

namespace Ser2Net.Lib.Tickets

open Ser2Net.Lib

/-!
# One-time tickets

A store hands out a token for something that its owner may come back for: once, before it has
expired, and while there is room for it.  The store is a dictionary in the order of the tickets'
age; what makes room is the oldest ticket.

* `put`, `get`, `remove` — the operations;
* `Sound` — what is redeemed was issued to the one who redeems it, is fresh, and is redeemed for
  the first time (`Sound.put`, `Sound.redeem`);
* `Held` — how many tickets at most are younger than this one; while they are few and it is
  fresh, it can be redeemed (`Held.put`, `Held.remove`, `Held.get`).
-/

/-- What is kept under a token. -/
structure Ticket (ω π T : Type) where
  created : T
  owner : ω
  payload : π

variable {κ ω π T : Type}

/-- The oldest go until one more fits under `cap`. -/
def makeRoom {α : Type} (cap : Nat) : List α → List α
  | [] => []
  | e :: d => if cap ≤ d.length + 1 then makeRoom cap d else e :: d

/-- What is kept is the end of the list: the youngest. -/
theorem makeRoom_suffix {α : Type} (cap : Nat) (d : List α) : makeRoom cap d <:+ d := by
  induction d with
  | nil => exact List.suffix_rfl
  | cons e d ih =>
    unfold makeRoom
    split
    · exact ih.trans (List.suffix_cons e d)
    · exact List.suffix_rfl

/-- There is room for one more. -/
theorem length_makeRoom {α : Type} {cap : Nat} (hcap : 0 < cap) (d : List α) :
    (makeRoom cap d).length < cap := by
  induction d with
  | nil => exact hcap
  | cons e d ih =>
    unfold makeRoom
    split
    · exact ih
    · next h =>
      rw [List.length_cons]
      omega

/-- A ticket with few behind it stays when room is made. -/
theorem makeRoom_append {α : Type} {cap : Nat} (before after : List α) (e : α)
    (h : after.length + 1 < cap) :
    ∃ before', makeRoom cap (before ++ e :: after) = before' ++ e :: after := by
  induction before with
  | nil =>
    refine ⟨[], ?_⟩
    rw [List.nil_append, makeRoom, if_neg (by omega)]
  | cons x before ih =>
    rw [List.cons_append, makeRoom]
    split
    · exact ih
    · exact ⟨x :: before, rfl⟩

section
variable [Sub T] [LT T] [DecidableLT T]

def Ticket.isFresh (ttl now : T) (t : Ticket ω π T) : Bool := !decide (ttl < now - t.created)

/-- The tickets that have not expired. -/
def sweep (ttl now : T) (d : List (κ × Ticket ω π T)) : List (κ × Ticket ω π T) :=
  d.filter fun e => e.2.isFresh ttl now

variable [DecidableEq κ]

/-- A new ticket, when the expired ones are gone and there is room. -/
def put (cap : Nat) (ttl : T) (token : κ) (t : Ticket ω π T) (d : List (κ × Ticket ω π T)) :
    List (κ × Ticket ω π T) :=
  dictSet (makeRoom cap (sweep ttl t.created d)) token t

/-- The ticket of a token, for its owner. -/
def get [DecidableEq ω] (ttl now : T) (owner : ω) (token : κ) (d : List (κ × Ticket ω π T)) :
    Option (Ticket ω π T) :=
  (d.lookup token).filter fun t => t.owner = owner && t.isFresh ttl now

/-- `pop(token, None)`. -/
def remove (token : κ) (d : List (κ × Ticket ω π T)) : List (κ × Ticket ω π T) :=
  d.filter fun e => e.1 ≠ token

variable {cap : Nat} {ttl now : T} {token k : κ} {t u : Ticket ω π T}
  {issued d : List (κ × Ticket ω π T)} {redeemed : List κ}

/-- What `get` finds is a ticket of this owner that has not expired. -/
theorem get_eq_some [DecidableEq ω] {owner : ω} (h : get ttl now owner token d = some t) :
    (token, t) ∈ d ∧ t.owner = owner ∧ t.isFresh ttl now = true := by
  rw [get, Option.filter_eq_some_iff, Bool.and_eq_true, decide_eq_true_eq] at h
  exact ⟨mem_of_lookup h.1, h.2⟩

omit [DecidableEq κ] in
/-- Making room only takes tickets away. -/
theorem kept_sublist (cap : Nat) (ttl now : T) (d : List (κ × Ticket ω π T)) :
    (makeRoom cap (sweep ttl now d)).Sublist d :=
  (makeRoom_suffix cap _).sublist.trans List.filter_sublist

/-! ### What is redeemed -/

/-- The tickets that are kept, among those that were issued and those that were redeemed. -/
structure Sound (cap : Nat) (issued : List (κ × Ticket ω π T)) (redeemed : List κ)
    (d : List (κ × Ticket ω π T)) : Prop where
  length_le : d.length ≤ cap
  nodup : (d.map Prod.fst).Nodup
  mem_issued : ∀ e ∈ d, e ∈ issued
  unused : ∀ k ∈ redeemed, k ∉ d.map Prod.fst
  known : ∀ k ∈ redeemed, k ∈ issued.map Prod.fst
  once : redeemed.Nodup

omit [Sub T] [LT T] [DecidableLT T] [DecidableEq κ] in
/-- A store without tickets. -/
theorem Sound.empty (cap : Nat) : Sound cap ([] : List (κ × Ticket ω π T)) [] [] where
  length_le := Nat.zero_le cap
  nodup := List.nodup_nil
  mem_issued := by simp
  unused := by simp
  known := by simp
  once := List.nodup_nil

/-- A ticket under a token that is new. -/
theorem Sound.put (h : Sound cap issued redeemed d) (hcap : 0 < cap)
    (hnew : token ∉ issued.map Prod.fst) :
    Sound cap (issued ++ [(token, t)]) redeemed (put cap ttl token t d) := by
  have hsub := kept_sublist cap ttl t.created d
  have hroom := length_makeRoom hcap (sweep ttl t.created d)
  have hfresh : token ∉ d.map Prod.fst := by
    -- a fresh token is not among those kept
    intro hk
    obtain ⟨e, he, rfl⟩ := List.mem_map.1 hk
    exact hnew (List.mem_map_of_mem (h.mem_issued e he))
  have hkeys := fun hk => hfresh ((hsub.map Prod.fst).subset hk)
  unfold Tickets.put
  constructor
  · rw [dictSet, if_neg hkeys, List.length_append, List.length_singleton]
    omega
  · exact dictSet_nodup (h.nodup.sublist (hsub.map _)) token t
  · rintro ⟨l, w⟩ he
    rcases mem_dictSet he with ⟨rfl, rfl⟩ | ⟨-, he⟩
    · simp
    · exact List.mem_append_left _ (h.mem_issued _ (hsub.subset he))
  · intro l hl
    rw [dictSet_keys, if_neg hkeys, List.mem_append, List.mem_singleton]
    rintro (hk | rfl)
    · exact h.unused l hl ((hsub.map Prod.fst).subset hk)
    · exact hnew (h.known l hl)
  · intro l hl
    rw [List.map_append]
    exact List.mem_append_left _ (h.known l hl)
  · exact h.once

/-- A ticket is redeemed. -/
theorem Sound.redeem [DecidableEq ω] {owner : ω} (h : Sound cap issued redeemed d)
    (hget : get ttl now owner token d = some t) :
    Sound cap issued (redeemed ++ [token]) (remove token d) ∧ (token, t) ∈ issued ∧
      token ∉ redeemed := by
  obtain ⟨hmem, -, -⟩ := get_eq_some hget
  have hkey : token ∈ d.map Prod.fst := List.mem_map_of_mem hmem
  have hsub : (remove token d).Sublist d := List.filter_sublist
  have hunused : token ∉ redeemed := fun hk => h.unused token hk hkey
  refine ⟨⟨?_, ?_, ?_, ?_, ?_, ?_⟩, h.mem_issued _ hmem, hunused⟩
  · exact Nat.le_trans hsub.length_le h.length_le
  · exact h.nodup.sublist (hsub.map _)
  · exact fun e he => h.mem_issued e (hsub.subset he)
  -- what is redeemed is removed, so it is not found again
  · intro l hl
    rcases List.mem_append.1 hl with hl | hl
    · exact fun hk => h.unused l hl ((hsub.map Prod.fst).subset hk)
    · obtain rfl := List.mem_singleton.1 hl
      simp [remove]
  · intro l hl
    rcases List.mem_append.1 hl with hl | hl
    · exact h.known l hl
    · exact List.mem_singleton.1 hl ▸ List.mem_map_of_mem (h.mem_issued _ hmem)
  · exact List.nodup_append.2 ⟨h.once, List.nodup_singleton token, by
      rintro a ha b hb rfl
      exact hunused (List.mem_singleton.1 hb ▸ ha)⟩

/-! ### What can be redeemed -/

/-- The ticket is there, and at most `n` are younger. -/
def Held (token : κ) (t : Ticket ω π T) (n : Nat) (d : List (κ × Ticket ω π T)) : Prop :=
  ∃ before after, d = before ++ (token, t) :: after ∧ after.length ≤ n

/-- The ticket that was just put is the youngest. -/
theorem Held.of_put (hnew : token ∉ d.map Prod.fst) : Held token t 0 (put cap ttl token t d) := by
  have hkeys := fun hk => hnew (((kept_sublist cap ttl t.created d).map Prod.fst).subset hk)
  refine ⟨makeRoom cap (sweep ttl t.created d), [], ?_, Nat.le_refl 0⟩
  rw [Tickets.put, dictSet, if_neg hkeys]

/-- Another ticket, in time and while there is room for both. -/
theorem Held.put {n : Nat} (h : Held token t n d) (hfresh : t.isFresh ttl u.created = true)
    (hroom : n + 1 < cap) (hnew : k ∉ d.map Prod.fst) :
    Held token t (n + 1) (put cap ttl k u d) := by
  obtain ⟨before, after, rfl, hafter⟩ := h
  have hkeys := fun hk =>
    hnew (((kept_sublist cap ttl u.created (before ++ (token, t) :: after)).map Prod.fst).subset hk)
  have hsweep : sweep ttl u.created (before ++ (token, t) :: after) =
      sweep ttl u.created before ++ (token, t) :: sweep ttl u.created after := by
    simp [sweep, hfresh]
  have hlen : (sweep ttl u.created after).length ≤ after.length := List.length_filter_le _ _
  have hfew : (sweep ttl u.created after).length + 1 < cap := by omega
  obtain ⟨before', heq⟩ := makeRoom_append (sweep ttl u.created before) _ (token, t) hfew
  refine ⟨before', sweep ttl u.created after ++ [(k, u)], ?_, ?_⟩
  · rw [Tickets.put, dictSet, if_neg hkeys, hsweep, heq, List.append_assoc, List.cons_append]
  · rw [List.length_append, List.length_singleton]
    omega

omit [Sub T] [LT T] [DecidableLT T] [DecidableEq κ] in
/-- More may be younger. -/
theorem Held.mono {n n' : Nat} (h : Held token t n d) (hle : n ≤ n') : Held token t n' d := by
  obtain ⟨before, after, heq, hafter⟩ := h
  exact ⟨before, after, heq, Nat.le_trans hafter hle⟩

omit [Sub T] [LT T] [DecidableLT T] in
/-- It is the only one under its token. -/
theorem Held.unique {n : Nat} (h : Held token t n d) (hnd : (d.map Prod.fst).Nodup)
    (hu : (token, u) ∈ d) : u = t := by
  obtain ⟨before, after, rfl, -⟩ := h
  have ht := lookup_of_mem hnd (by simp : (token, t) ∈ _)
  rw [lookup_of_mem hnd hu, Option.some.injEq] at ht
  exact ht

omit [Sub T] [LT T] [DecidableLT T] in
/-- Another ticket is redeemed. -/
theorem Held.remove {n : Nat} (h : Held token t n d) (hk : k ≠ token) :
    Held token t n (remove k d) := by
  obtain ⟨before, after, rfl, hafter⟩ := h
  refine ⟨before.filter fun e => e.1 ≠ k, after.filter fun e => e.1 ≠ k, ?_, ?_⟩
  · rw [Tickets.remove, List.filter_append, List.filter_cons_of_pos (by simp [hk.symm])]
  · exact Nat.le_trans (List.length_filter_le _ _) hafter

/-- It can be redeemed. -/
theorem Held.get [DecidableEq ω] {n : Nat} (h : Held token t n d) (hnd : (d.map Prod.fst).Nodup)
    (hfresh : t.isFresh ttl now = true) : get ttl now t.owner token d = some t := by
  obtain ⟨before, after, rfl, -⟩ := h
  rw [Tickets.get, lookup_of_mem hnd (by simp : (token, t) ∈ _), Option.filter_some, if_pos]
  simp [hfresh]

end

end Ser2Net.Lib.Tickets
