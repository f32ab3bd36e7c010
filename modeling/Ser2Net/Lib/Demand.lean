import Ser2Net.Lib.PyValue

namespace Ser2Net.Lib

/-!
# What a check of untyped values demands of them

A program that checks a value of unknown type makes a row of demands on it: an operation of
the language raises on a value it does not work on, and a check of the program refuses a
value it does not like.  The first demand that is not met decides how the program ends.

* `Demand`, `verdict` — the demands in the order of the code, and how they end it;
* `faultless` — no operation gets a value it does not work on, unless a check refused before;
* `Meets` — a program ends as its demands say, with a rule for each way to put programs
  together; `contained_iff` reads off when only `ValueError` leaves it.
-/

/-- A demand on a value: that an operation of the language `works` on it, or that a check of
    the program `holds` of it. -/
inductive Demand
  | works (ok : Bool)
  | holds (ok : Bool)
  deriving DecidableEq, Repr

/-- How a row of demands ends: all are met, a check refuses, or an operation fails. -/
inductive Verdict
  | passed
  | refused
  | broken
  deriving DecidableEq, Repr

/-- The first demand that is not met decides. -/
def verdict : List Demand → Verdict
  | [] => .passed
  | .works ok :: ds => if ok then verdict ds else .broken
  | .holds ok :: ds => if ok then verdict ds else .refused

/-- Every operation works, up to the first check that refuses. -/
def faultless : List Demand → Bool
  | [] => true
  | .works ok :: ds => ok && faultless ds
  | .holds ok :: ds => !ok || faultless ds

/-- Faultless are the demands whose verdict is not that something breaks. -/
theorem faultless_iff {ds : List Demand} : faultless ds = true ↔ verdict ds ≠ .broken := by
  induction ds with
  | nil => simp [faultless, verdict]
  | cons d ds ih =>
    cases d with
    | works ok => cases ok <;> simp [faultless, verdict, ih]
    | holds ok => cases ok <;> simp [faultless, verdict, ih]

/-- A condition that is met or refused breaks nothing. -/
theorem faultless_holds {ds : List Demand} (ok : Bool) (h : faultless ds = true) :
    faultless (.holds ok :: ds) = true := by
  cases ok with
  | true => exact h
  | false => rfl

/-- Demands one after another. -/
theorem faultless_append {ds es : List Demand} (h : faultless ds = true)
    (h' : faultless es = true) : faultless (ds ++ es) = true := by
  induction ds with
  | nil => exact h'
  | cons d ds ih =>
    cases d with
    | works ok =>
      simp only [faultless, Bool.and_eq_true, List.cons_append] at h ⊢
      exact ⟨h.1, ih h.2⟩
    | holds ok =>
      simp only [faultless, Bool.or_eq_true, List.cons_append] at h ⊢
      exact h.imp_right ih

/-- What follows counts only when everything before it passed. -/
theorem verdict_append (ds es : List Demand) :
    verdict (ds ++ es) = if verdict ds = .passed then verdict es else verdict ds := by
  induction ds with
  | nil => rfl
  | cons d ds ih =>
    cases d with
    | works ok => cases ok <;> simp [verdict, ih]
    | holds ok => cases ok <;> simp [verdict, ih]

section
variable {ε α β : Type} {x : PyM ε α} {ds es : List Demand} {a : α} {b : β}

/-- The program returns `a` when its demands are met; it raises a `ValueError` when a check
    refuses, and something else when an operation fails. -/
structure Meets (x : PyM ε α) (ds : List Demand) (a : α) : Prop where
  passed : verdict ds = .passed → x = .ok a
  refused : verdict ds = .refused → ∃ e, x = .error e ∧ e.isValueError = true
  broken : verdict ds = .broken → ∃ e, x = .error e ∧ e.isValueError = false

/-- Only `ValueError` leaves a program whose demands are faultless, and no other program. -/
theorem Meets.contained_iff (h : Meets x ds a) :
    (∀ e, x = .error e → e.isValueError = true) ↔ faultless ds = true := by
  rw [faultless_iff]
  cases hv : verdict ds with
  | passed => simp [h.passed hv]
  | refused =>
    obtain ⟨e, rfl, he⟩ := h.refused hv
    simp [he]
  | broken =>
    obtain ⟨e, rfl, he⟩ := h.broken hv
    simp [he]

/-- Code that returns asks for nothing. -/
theorem Meets.pure : Meets (.ok a : PyM ε α) [] a where
  passed := fun _ => rfl
  refused := nofun
  broken := nofun

/-- An operation that works is only asked for. -/
theorem Meets.works_true (h : Meets x ds a) : Meets x (.works true :: ds) a :=
  ⟨h.passed, h.refused, h.broken⟩

/-- A condition that is met is only asked for. -/
theorem Meets.holds_true (h : Meets x ds a) : Meets x (.holds true :: ds) a :=
  ⟨h.passed, h.refused, h.broken⟩

/-- An operation that does not work raises something other than a `ValueError`. -/
theorem Meets.works_false {e : PyExc ε} (he : e.isValueError = false) :
    Meets (.error e : PyM ε α) (.works false :: ds) a where
  passed := nofun
  refused := nofun
  broken := fun _ => ⟨e, rfl, he⟩

/-- A condition that is not met raises a `ValueError`. -/
theorem Meets.holds_false {e : PyExc ε} (he : e.isValueError = true) :
    Meets (.error e : PyM ε α) (.holds false :: ds) a where
  passed := nofun
  refused := fun _ => ⟨e, rfl, he⟩
  broken := nofun

/-- A program behind a test of the value it works on. -/
theorem Meets.guard {ok : Bool} {e : PyExc ε} (he : e.isValueError = false) (h : Meets x ds a) :
    Meets (if ok then x else .error e) (.works ok :: ds) a := by
  cases ok with
  | true => exact h.works_true
  | false => exact .works_false he

/-- One program after another. -/
theorem Meets.bind {f : α → PyM ε β} (h : Meets x ds a) (hf : Meets (f a) es b) :
    Meets (x >>= f) (ds ++ es) b := by
  have hdecided := verdict_append ds es
  cases hv : verdict ds with
  | passed =>
    rw [hv, if_pos rfl] at hdecided
    obtain rfl := h.passed hv
    exact ⟨fun he => hf.passed (hdecided ▸ he), fun he => hf.refused (hdecided ▸ he),
      fun he => hf.broken (hdecided ▸ he)⟩
  | refused =>
    rw [hv] at hdecided
    obtain ⟨e, rfl, he⟩ := h.refused hv
    exact ⟨by simp [hdecided], fun _ => ⟨e, rfl, he⟩, by simp [hdecided]⟩
  | broken =>
    rw [hv] at hdecided
    obtain ⟨e, rfl, he⟩ := h.broken hv
    exact ⟨by simp [hdecided], by simp [hdecided], fun _ => ⟨e, rfl, he⟩⟩

/-- A value before a program. -/
theorem Meets.ok_bind {f : α → PyM ε β} (hf : Meets (f a) es b) : Meets (.ok a >>= f) es b := hf

/-- A program with one demand before another. -/
theorem Meets.step {f : α → PyM ε β} {d : Demand} (h : Meets x [d] a) (hf : Meets (f a) es b) :
    Meets (x >>= f) (d :: es) b :=
  h.bind hf

/-- The last thing a program does is to return. -/
theorem Meets.map {f : α → β} (h : Meets x ds a) : Meets (x >>= fun a => .ok (f a)) ds (f a) := by
  have hb := h.bind (f := fun a => .ok (f a)) (Meets.pure (a := f a))
  rwa [List.append_nil] at hb

/-- A branch makes its own demands. -/
theorem Meets.ite {c : Bool} {y : PyM ε α} (hx : Meets x ds a) (hy : Meets y es a) :
    Meets (if c then x else y) (if c then ds else es) a := by
  cases c with
  | true => exact hx
  | false => exact hy

/-- A loop over the elements of a list. -/
theorem Meets.mapM {f : β → PyM ε α} {g : β → α} {demands : β → List Demand}
    (h : ∀ b, Meets (f b) (demands b) (g b)) (l : List β) :
    Meets (l.mapM f) (l.flatMap demands) (l.map g) := by
  induction l with
  | nil => exact Meets.pure
  | cons b rest ih =>
    rw [List.mapM_cons, List.flatMap_cons]
    exact (h b).bind ih.map

end

/-! ### The operations -/

namespace Json

variable {ε : Type}

/-- A text: what has `strip`. -/
def isText : Json → Bool
  | .str _ => true
  | _ => false

/-- A value that a `for` loop runs over. -/
def isIterable : Json → Bool
  | .arr _ | .str _ | .obj _ => true
  | _ => false

/-- The text is blank. -/
def isBlank : Json → Bool
  | .str s => PyText.blank s
  | _ => true

/-- An object: what has `items`. -/
def isObject : Json → Bool
  | .obj _ => true
  | _ => false

/-- What a `for` loop runs over. -/
def parts : Json → List Json
  | .arr l => l
  | .str s => s.toList.map fun c => .str (String.ofList [c])
  | .obj kvs => kvs.map fun p => .str p.1
  | _ => []

/-- A value that numbers compare with. -/
def isComparable (v : Json) : Bool := v.number?.isSome

/-- The text without the white space around it. -/
def stripped : Json → String
  | .str s => PyText.strip s
  | _ => ""

/-- What `float` works on: a text, or a number that is no int beyond the doubles. -/
def isFloatable : Json → Bool
  | .bool _ | .float _ | .str _ => true
  | .int n => (PyFloat.ofInt? n).isSome
  | _ => false

/-- A text reads as a number. -/
def readsAsFloat : Json → Bool
  | .str s => (PyFloat.ofText s).isSome
  | _ => true

/-- The number that `float` makes of a value. -/
def floatValue : Json → PyFloat
  | .bool b => .ofIntExact (if b then 1 else 0)
  | .int n => (PyFloat.ofInt? n).getD .nan
  | .float x => x
  | .str s => (PyFloat.ofText s).getD .nan
  | _ => .nan

/-- What `in` looks for a character in. -/
def has (c : Char) : Json → Bool
  | .str s => s.toList.contains c
  | .arr l => l.any fun x => x.eqStr (String.ofList [c])
  | .obj kvs => kvs.any fun p => p.1 == String.ofList [c]
  | _ => false

/-- What `dict` demands of an element of a list: a sequence of two, the first of them a key. -/
def pairDemands (e : Json) : List Demand :=
  [.works e.isIterable, .holds (e.parts.length == 2), .works (e.parts.head?.all hashable)]

/-- The member that a pair adds. -/
def addPair (d : List (String × Json)) (e : Json) : List (String × Json) :=
  match e.parts with
  | [.str s, v] => dictSet d s v
  | _ => d

/-- What `dict(v or {})` demands of `v`. -/
def dictDemands (v : Json) : List Demand :=
  if v.truthy then
    match v with
    | .obj _ => []
    | .arr l => l.flatMap pairDemands
    | .str _ => [.holds false]
    | _ => [.works false]
  else []

/-- The members of `dict(v or {})`. -/
def members : Json → List (String × Json)
  | .obj kvs => kvs
  | .arr l => l.foldl addPair []
  | _ => []

/-- `not v.strip()` asks for a text. -/
theorem meets_blank (v : Json) : Meets (v.blank : PyM ε Bool) [.works v.isText] v.isBlank := by
  cases v with
  | str s => exact .works_true .pure
  | _ => exact .works_false rfl

/-- `v.strip()` asks for a text. -/
theorem meets_strip (v : Json) : Meets (v.strip : PyM ε String) [.works v.isText] v.stripped := by
  cases v with
  | str s => exact .works_true .pure
  | _ => exact .works_false rfl

/-- A loop asks for something to go through. -/
theorem meets_elements (v : Json) :
    Meets (v.elements : PyM ε (List Json)) [.works v.isIterable] v.parts := by
  cases v with
  | arr l => exact .works_true .pure
  | str s => exact .works_true .pure
  | obj kvs => exact .works_true .pure
  | _ => exact .works_false rfl

/-- A comparison with two bounds asks for a number. -/
theorem meets_inRange (v : Json) (lo hi : Int) :
    Meets (v.inRange lo hi : PyM ε Bool) [.works v.isComparable] (v.betweenInts lo hi) := by
  unfold inRange isComparable betweenInts between
  cases v.number? with
  | none => exact .works_false rfl
  | some x => exact .works_true .pure

/-- A search for a character asks for something to search in. -/
theorem meets_containsChar (v : Json) (c : Char) :
    Meets (v.containsChar c : PyM ε Bool) [.works v.isIterable] (v.has c) := by
  cases v with
  | arr l => exact .works_true .pure
  | str s => exact .works_true .pure
  | obj kvs => exact .works_true .pure
  | _ => exact .works_false rfl

/-- `float` of an int; as in `toFloat_int_eq_ok`, the conversion is a variable. -/
theorem meets_toFloat_int {n : Int} {f : Int → Option PyFloat} (hf : f = PyFloat.ofInt?) :
    Meets ((Json.int n).toFloat : PyM ε PyFloat) [.works (f n).isSome, .holds true]
      ((f n).getD .nan) := by
  rw [Json.toFloat.eq_def, ← hf]
  dsimp only
  cases f n with
  | none => exact .works_false rfl
  | some x => exact .works_true (.holds_true .pure)

/-- `float` of a text asks for the text of a number. -/
theorem meets_toFloat_str {s : String} {f : String → Option PyFloat} (hf : f = PyFloat.ofText) :
    Meets ((Json.str s).toFloat : PyM ε PyFloat) [.works true, .holds (f s).isSome]
      ((f s).getD .nan) := by
  rw [Json.toFloat.eq_def, ← hf]
  dsimp only
  cases f s with
  | none => exact .works_true (.holds_false rfl)
  | some x => exact .works_true (.holds_true .pure)

/-- `float` asks for a number or the text of one. -/
theorem meets_toFloat (v : Json) :
    Meets (v.toFloat : PyM ε PyFloat) [.works v.isFloatable, .holds v.readsAsFloat]
      v.floatValue := by
  cases v with
  | int n =>
    simp only [isFloatable, readsAsFloat, floatValue]
    exact meets_toFloat_int rfl
  | str s =>
    simp only [isFloatable, readsAsFloat, floatValue]
    exact meets_toFloat_str rfl
  | bool b => exact .works_true (.holds_true .pure)
  | float x => exact .works_true (.holds_true .pure)
  | null => exact .works_false rfl
  | arr l => exact .works_false rfl
  | obj kvs => exact .works_false rfl

/-- What `dict(pairs)` does with a first element that is a sequence. -/
theorem dictOfPairs_cons {e : Json} (he : e.isIterable = true) (d : List (String × Json))
    (rest : List Json) :
    (dictOfPairs d (e :: rest) : PyM ε _) =
      match e.parts with
      | [k, _] => if k.hashable then dictOfPairs (addPair d e) rest else .error .typeError
      | _ => .error .valueError := by
  have hstep : (dictOfPairs d (e :: rest) : PyM ε _) =
      match e.parts with
      | [k, v] =>
        if k.hashable then
          dictOfPairs (match k with | .str s => dictSet d s v | _ => d) rest
        else .error .typeError
      | _ => .error .valueError := by
    cases e with
    | arr l => rfl
    | str s => rfl
    | obj kvs => rfl
    | _ => cases he
  rw [hstep]
  unfold addPair
  -- a pair has two parts
  rcases e.parts with _ | ⟨k, _ | ⟨v, _ | ⟨w, more⟩⟩⟩
  · rfl
  · rfl
  · cases k <;> rfl
  · rfl

/-- The pairs of a list in turn, each on top of the members before it. -/
theorem meets_dictOfPairs (d : List (String × Json)) (l : List Json) :
    Meets (dictOfPairs d l : PyM ε _) (l.flatMap pairDemands) (l.foldl addPair d) := by
  induction l generalizing d with
  | nil => exact .pure
  | cons e rest ih =>
    rw [List.flatMap_cons, List.foldl_cons]
    unfold pairDemands
    -- what is no iterable has no parts to unpack
    cases he : e.isIterable with
    | false =>
      cases e with
      | arr l => cases he
      | str s => cases he
      | obj kvs => cases he
      | _ => exact .works_false rfl
    | true =>
      rw [dictOfPairs_cons he]
      have ih := ih (addPair d e)
      rcases e.parts with _ | ⟨k, _ | ⟨v, _ | ⟨w, more⟩⟩⟩
      · exact .works_true (.holds_false rfl)
      · exact .works_true (.holds_false rfl)
      · exact .works_true (.holds_true (ih.guard rfl))
      · have hlength : ((k :: v :: w :: more).length == 2) = false := by simp
        rw [hlength]
        exact .works_true (.holds_false rfl)

/-- `dict(v)` asks for pairs. -/
theorem meets_toDict (v : Json) : Meets (v.toDict : PyM ε _) v.dictDemands v.members := by
  unfold toDict dictDemands
  cases v with
  | null => exact .ite (.works_false rfl) .pure
  | bool b => exact .ite (.works_false rfl) .pure
  | int n => exact .ite (.works_false rfl) .pure
  | float x => exact .ite (.works_false rfl) .pure
  | str s => exact .ite (.holds_false rfl) .pure
  | arr l =>
    cases l with
    | nil => exact .pure
    | cons e rest => exact meets_dictOfPairs [] (e :: rest)
  | obj kvs =>
    cases kvs with
    | nil => exact .pure
    | cons kv rest => exact .pure

/-- A value that counts as false has no members. -/
theorem members_of_not_truthy {v : Json} (h : v.truthy = false) : v.members = [] := by
  cases v with
  | arr l =>
    cases l with
    | nil => rfl
    | cons e rest => cases h
  | obj kvs =>
    cases kvs with
    | nil => rfl
    | cons kv rest => cases h
  | _ => rfl

/-- `(v or {}).items()`. -/
theorem meets_items (v : Json) :
    Meets (if v.truthy then v.items else .ok [] : PyM ε _)
      [.works (!v.truthy || v.isObject)] v.members := by
  cases ht : v.truthy with
  | false =>
    rw [members_of_not_truthy ht]
    exact .works_true .pure
  | true =>
    cases v with
    | obj kvs => exact .works_true .pure
    | _ => exact .works_false rfl

end Json

end Ser2Net.Lib
