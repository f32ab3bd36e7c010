import Mathlib.Data.List.Basic
import Mathlib.Tactic.Common

namespace Ser2Net.Lib.Uri

/-!
# The address an HTTP URL names

Splitting a URL into scheme, authority, host and port as RFC 3986 does: the scheme ends at
the first colon, the authority at the next `/`, `?` or `#`, the user information at the last
`@`, and the host at the colon of the port unless it is a bracketed literal.

* `httpAddress` — host and port of an `http` or `https` URL, with the scheme's default port;
* `httpAddress_build` — the address of `scheme://host:port/…` put together from parts;
* `httpAddress_of_separator` — a scheme that holds a separator decides the address alone.
-/

/-- A character that ends the authority. -/
def isDelim (c : Char) : Bool := c == '/' || c == '?' || c == '#'

/-- A character that a scheme cannot contain. -/
def isSep (c : Char) : Bool := c == ':' || isDelim c

/-- The scheme in front of the first colon, and what follows the colon. -/
def splitScheme (l : List Char) : Option (List Char × List Char) :=
  match l.dropWhile fun c => !isSep c with
  | ':' :: rest =>
    if l.takeWhile (fun c => !isSep c) = [] then none
    else some (l.takeWhile fun c => !isSep c, rest)
  | _ => none

/-- The authority after `//`. -/
def authority : List Char → Option (List Char)
  | '/' :: '/' :: rest => some (rest.takeWhile fun c => !isDelim c)
  | _ => none

/-- The authority without its user information. -/
def dropUserinfo (l : List Char) : List Char := (l.reverse.takeWhile fun c => c != '@').reverse

/-- The port behind the host: a colon and digits, or nothing. -/
def portDigits : List Char → Option (List Char)
  | [] => some []
  | ':' :: ds => if ds.all Char.isDigit then some ds else none
  | _ => none

/-- Where the host ends: behind the bracket of a literal, or at the first colon. -/
def splitHost (l : List Char) : Option (List Char × List Char) :=
  if l.head? = some '[' then
    match l.dropWhile fun c => c != ']' with
    | ']' :: rest => some (l.takeWhile (fun c => c != ']') ++ [']'], rest)
    | _ => none
  else some (l.takeWhile (fun c => c != ':'), l.dropWhile fun c => c != ':')

/-- The default port of the scheme, in any letter case; only these two are HTTP. -/
def defaultPort (scheme : List Char) : Option Nat :=
  if scheme.map Char.toLower = "http".toList then some 80
  else if scheme.map Char.toLower = "https".toList then some 443
  else none

/-- Host and port digits of an authority without user information. -/
def hostPort (l : List Char) : Option (List Char × List Char) :=
  (splitHost l).bind fun (host, tail) => (portDigits tail).map fun ds => (host, ds)

/-- Host and port of an `http` or `https` URL. -/
def httpAddress (url : List Char) : Option (List Char × Nat) :=
  (splitScheme url).bind fun (scheme, rest) =>
    (defaultPort scheme).bind fun standard =>
      (authority rest).bind fun auth =>
        (hostPort (dropUserinfo auth)).map fun (host, ds) =>
          (host, if ds = [] then standard else Nat.ofDigitChars 10 ds 0)

/-- A text without a colon or an end of the authority: it can only be a scheme. -/
def NoSep (l : List Char) : Prop := ∀ c ∈ l, isSep c = false

instance (l : List Char) : Decidable (NoSep l) :=
  List.decidableBAll (p := fun c => isSep c = false) (l := l)

/-- A host as RFC 3986 has it, but for colons: none of the characters that move the ends of
    the authority or of the user information, and brackets only around the whole. -/
structure PlainHost (h : List Char) : Prop where
  noDelim : ∀ c ∈ h, isDelim c = false ∧ c ≠ '@'
  brackets : (∀ c ∈ h, c ≠ '[' ∧ c ≠ ']') ∨
    ∃ inner, h = '[' :: inner ++ [']'] ∧ ∀ c ∈ inner, c ≠ '[' ∧ c ≠ ']'

/-- The host can be followed by a port: it is a bracketed literal, or has no colon. -/
def TakesPort (h : List Char) : Prop := h.head? = some '[' ∨ ':' ∉ h

instance (h : List Char) : Decidable (TakesPort h) :=
  inferInstanceAs (Decidable (h.head? = some '[' ∨ ':' ∉ h))

/-! ### Splitting what was put together -/

theorem takeWhile_stop {p : Char → Bool} {l r : List Char} {c : Char} (hl : ∀ x ∈ l, p x = true)
    (hc : p c = false) : (l ++ c :: r).takeWhile p = l := by
  rw [List.takeWhile_append_of_pos hl, List.takeWhile_cons_of_neg (by simp [hc]), List.append_nil]

theorem dropWhile_stop {p : Char → Bool} {l r : List Char} {c : Char} (hl : ∀ x ∈ l, p x = true)
    (hc : p c = false) : (l ++ c :: r).dropWhile p = c :: r := by
  rw [List.dropWhile_append_of_pos hl, List.dropWhile_cons_of_neg (by simp [hc])]

theorem splitScheme_build {scheme rest : List Char} (h : NoSep scheme) :
    splitScheme (scheme ++ ':' :: rest) =
      if scheme = [] then none else some (scheme, rest) := by
  have hall : ∀ x ∈ scheme, (!isSep x) = true := fun x hx => by rw [h x hx]; rfl
  unfold splitScheme
  rw [dropWhile_stop hall rfl, takeWhile_stop hall rfl]
  rfl

/-- The port and what follows it do not reach into the authority's end. -/
theorem authority_build {auth path : List Char} (h : ∀ c ∈ auth, isDelim c = false) :
    authority ("//".toList ++ (auth ++ '/' :: path)) = some auth := by
  show some ((auth ++ '/' :: path).takeWhile fun c => !isDelim c) = some auth
  rw [takeWhile_stop (fun x hx => by rw [h x hx]; rfl) rfl]

theorem dropUserinfo_of_noAt {l : List Char} (h : '@' ∉ l) : dropUserinfo l = l := by
  have hall : ∀ c ∈ l.reverse, (c != '@') = true := by
    intro c hc
    simp only [bne_iff_ne, ne_eq]
    rintro rfl
    exact h (List.mem_reverse.1 hc)
  have htake : l.reverse.takeWhile (fun c => c != '@') = l.reverse := by
    have h0 : (l.reverse ++ []).takeWhile (fun c => c != '@') = l.reverse ++ [].takeWhile _ :=
      List.takeWhile_append_of_pos hall
    simpa using h0
  rw [dropUserinfo, htake, List.reverse_reverse]

/-- A bracketed literal keeps its brackets, and the port follows them. -/
theorem splitHost_bracketed {inner tail : List Char} (h : ∀ c ∈ inner, c ≠ '[' ∧ c ≠ ']') :
    splitHost ('[' :: inner ++ [']'] ++ tail) = some ('[' :: inner ++ [']'], tail) := by
  have hall : ∀ x ∈ '[' :: inner, (x != ']') = true := by
    intro x hx
    rcases List.mem_cons.1 hx with rfl | hx
    · rfl
    · simpa using (h x hx).2
  have hhead : ('[' :: inner ++ [']'] ++ tail).head? = some '[' := rfl
  unfold splitHost
  rw [if_pos hhead, List.append_assoc, List.singleton_append, dropWhile_stop hall rfl,
    takeWhile_stop hall rfl]
  rfl

theorem splitHost_plain {host port : List Char} (hb : host.head? ≠ some '[') (hc : ':' ∉ host) :
    splitHost (host ++ ':' :: port) = some (host, ':' :: port) := by
  have hhead : (host ++ ':' :: port).head? ≠ some '[' := by
    cases host with
    | nil => simp
    | cons x rest => exact hb
  have hall : ∀ x ∈ host, (x != ':') = true := by
    intro x hx
    simp only [bne_iff_ne, ne_eq]
    rintro rfl
    exact hc hx
  unfold splitHost
  rw [if_neg hhead, dropWhile_stop hall rfl, takeWhile_stop hall rfl]

/-- A colon in a host without brackets ends the host early, and what follows is no port. -/
theorem portDigits_early {host port : List Char} (hc : ':' ∈ host) :
    portDigits ((host ++ ':' :: port).dropWhile fun c => c != ':') = none := by
  obtain ⟨a, b, rfl, ha⟩ := List.eq_append_cons_of_mem hc
  have hall : ∀ x ∈ a, (x != ':') = true := by
    intro x hx
    simp only [bne_iff_ne, ne_eq]
    rintro rfl
    exact ha hx
  rw [List.append_assoc, List.cons_append, dropWhile_stop hall rfl]
  show (if (b ++ ':' :: port).all Char.isDigit then some (b ++ ':' :: port) else none) = none
  exact if_neg (by simp [List.all_append])

/-- A plain host and a port come apart again exactly when the host takes a port and the port
    is written with digits. -/
theorem hostPort_build {host port : List Char} (hp : PlainHost host) :
    hostPort (host ++ ':' :: port) =
      if TakesPort host ∧ port.all Char.isDigit = true then some (host, port) else none := by
  rcases hp.brackets with hno | ⟨inner, rfl, hinner⟩
  · have hb : host.head? ≠ some '[' := fun e => (hno '[' (List.mem_of_head? e)).1 rfl
    by_cases hc : ':' ∈ host
    · have hhead : (host ++ ':' :: port).head? ≠ some '[' := by
        cases host with
        | nil => simp
        | cons x rest => exact hb
      rw [if_neg (fun h => h.1.elim hb fun hn => hn hc), hostPort, splitHost, if_neg hhead]
      show (portDigits ((host ++ ':' :: port).dropWhile _)).map _ = none
      rw [portDigits_early hc]
      rfl
    · rw [hostPort, splitHost_plain hb hc]
      -- what is left of the authority is the port
      show (if port.all Char.isDigit then some port else none).map (fun ds => (host, ds)) = _
      by_cases hd : port.all Char.isDigit = true
      · rw [if_pos hd, if_pos ⟨Or.inr hc, hd⟩]
        rfl
      · rw [if_neg hd, if_neg (fun h => hd h.2)]
        rfl
  · rw [hostPort, splitHost_bracketed hinner]
    show (if port.all Char.isDigit then some port else none).map
      (fun ds => ('[' :: inner ++ [']'], ds)) = _
    by_cases hd : port.all Char.isDigit = true
    · rw [if_pos hd, if_pos ⟨Or.inl rfl, hd⟩]
      rfl
    · rw [if_neg hd, if_neg (fun h => hd h.2)]
      rfl

/-! ### The port -/

/-- The text of a natural port is a non-empty digit string. -/
theorem toList_toString_ofNat (n : Nat) : (toString (n : Int)).toList = Nat.toDigits 10 n := by
  simp [toString, Int.repr, Nat.repr]

/-- The port is written with digits alone unless it is negative. -/
theorem all_isDigit_toString (port : Int) :
    (toString port).toList.all Char.isDigit = decide (0 ≤ port) := by
  cases port with
  | ofNat n =>
    have hd : (Nat.toDigits 10 n).all Char.isDigit = true :=
      List.all_eq_true.2 fun c hc => Nat.isDigit_of_mem_toDigits (by omega) (by omega) hc
    rw [Int.ofNat_eq_natCast, toList_toString_ofNat, hd]
    simp
  | negSucc n => simp [toString, Int.repr]

/-- No character of a port moves the ends of the authority. -/
theorem port_noDelim (port : Int) :
    ∀ c ∈ (toString port).toList, isDelim c = false ∧ c ≠ '@' := by
  -- a decimal digit is neither a delimiter nor an at sign
  have digit : ∀ {n : Nat} {c : Char}, c ∈ Nat.toDigits 10 n → isDelim c = false ∧ c ≠ '@' := by
    intro n c hc
    have hd := Nat.isDigit_of_mem_toDigits (by omega) (by omega) hc
    constructor
    · rw [isDelim, Bool.or_eq_false_iff, Bool.or_eq_false_iff]
      refine ⟨⟨?_, ?_⟩, ?_⟩ <;>
        · rw [beq_eq_false_iff_ne]
          rintro rfl
          exact absurd hd (by decide)
    · rintro rfl
      exact absurd hd (by decide)
  intro c hc
  cases port with
  | ofNat n =>
    rw [Int.ofNat_eq_natCast, toList_toString_ofNat] at hc
    exact digit hc
  | negSucc n =>
    have hc : c = '-' ∨ c ∈ Nat.toDigits 10 (n + 1) := by
      simpa [toString, Int.repr, Nat.repr] using hc
    rcases hc with rfl | hc
    · exact ⟨rfl, by decide⟩
    · exact digit hc

/-! ### Putting a URL together -/

/-- **The address of a URL put together from parts.**  With a scheme that holds no separator
    and a plain host, the address is the host and the port that were put in, provided the
    scheme is an HTTP one, the host takes a port and the port is not negative; otherwise the
    URL has no address. -/
theorem httpAddress_build {scheme host path : List Char} (port : Int) (hs : NoSep scheme)
    (hp : PlainHost host) :
    httpAddress (scheme ++ ':' :: ("//".toList ++
        ((host ++ ':' :: (toString port).toList) ++ '/' :: path))) =
      if (defaultPort scheme).isSome ∧ TakesPort host ∧ 0 ≤ port then some (host, port.toNat)
      else none := by
  -- the authority has no delimiter, so it ends at the slash that was put behind it
  have hauth : ∀ c ∈ host ++ ':' :: (toString port).toList, isDelim c = false ∧ c ≠ '@' := by
    intro c hc
    rcases List.mem_append.1 hc with hc | hc
    · exact hp.noDelim c hc
    · rcases List.mem_cons.1 hc with rfl | hc
      · exact ⟨rfl, by decide⟩
      · exact port_noDelim port c hc
  have hnoAt : '@' ∉ host ++ ':' :: (toString port).toList := fun h => (hauth _ h).2 rfl
  rw [httpAddress, splitScheme_build hs]
  by_cases hnil : scheme = []
  · subst hnil
    rfl
  rw [if_neg hnil]
  show ((defaultPort scheme).bind fun standard => _) = _
  -- an unknown scheme has no standard port, and then there is no address
  cases hport : defaultPort scheme with
  | none => simp
  | some standard =>
    rw [Option.bind_some, authority_build fun c hc => (hauth c hc).1, Option.bind_some,
      dropUserinfo_of_noAt hnoAt, hostPort_build hp, all_isDigit_toString]
    by_cases h : TakesPort host ∧ 0 ≤ port
    · have hd : TakesPort host ∧ decide (0 ≤ port) = true := ⟨h.1, decide_eq_true h.2⟩
      rw [if_pos hd, if_pos ⟨rfl, h⟩]
      obtain ⟨n, rfl⟩ := Int.eq_ofNat_of_zero_le h.2
      show some (host, if (toString (n : Int)).toList = [] then standard
        else Nat.ofDigitChars 10 (toString (n : Int)).toList 0) = _
      rw [toList_toString_ofNat, if_neg Nat.toDigits_ne_nil, Nat.ofDigitChars_ten_toDigits]
      rfl
    · rw [if_neg (fun hd => h ⟨hd.1, of_decide_eq_true hd.2⟩), if_neg (fun hd => h hd.2)]
      rfl

/-- The first separator of a text that has one. -/
theorem exists_first_sep {l : List Char} (h : ¬ NoSep l) :
    ∃ a c b, l = a ++ c :: b ∧ NoSep a ∧ isSep c = true := by
  induction l with
  | nil => exact absurd (fun c hc => absurd hc (List.not_mem_nil)) h
  | cons x rest ih =>
    by_cases hx : isSep x = true
    · exact ⟨[], x, rest, rfl, fun c hc => absurd hc (List.not_mem_nil), hx⟩
    · have hx : isSep x = false := by simpa using hx
      have hrest : ¬ NoSep rest := by
        intro hr
        apply h
        intro c hc
        rcases List.mem_cons.1 hc with rfl | hc
        · exact hx
        · exact hr c hc
      obtain ⟨a, c, b, rfl, ha, hc⟩ := ih hrest
      refine ⟨x :: a, c, b, rfl, ?_, hc⟩
      intro y hy
      rcases List.mem_cons.1 hy with rfl | hy
      · exact hx
      · exact ha y hy

/-- A text whose first separator is not a colon has no scheme. -/
theorem splitScheme_of_delim {a rest : List Char} {c : Char} (ha : NoSep a)
    (hc : isSep c = true) (hne : c ≠ ':') : splitScheme (a ++ c :: rest) = none := by
  have hall : ∀ x ∈ a, (!isSep x) = true := fun x hx => by rw [ha x hx]; rfl
  unfold splitScheme
  rw [dropWhile_stop hall (by rw [hc]; rfl)]
  split
  · rename_i heq
    exact absurd (List.cons.inj heq).1 hne
  · rfl

/-- Behind a colon, an authority ends at the next slash if it has not ended before. -/
theorem authority_colon (l rest : List Char) :
    authority (l ++ ':' :: '/' :: rest) = authority (l ++ [':']) := by
  have hstop : ∀ m : List Char, (m ++ ':' :: '/' :: rest).takeWhile (fun c => !isDelim c) =
      (m ++ [':']).takeWhile fun c => !isDelim c := by
    intro m
    induction m with
    | nil => rfl
    | cons x m ih =>
      rw [List.cons_append, List.cons_append, List.takeWhile_cons, List.takeWhile_cons, ih]
  match l with
  | [] => rfl
  | [x] =>
    unfold authority
    split <;> simp_all
  | x :: y :: m =>
    by_cases hxy : x = '/' ∧ y = '/'
    · obtain ⟨rfl, rfl⟩ := hxy
      exact congrArg some (hstop m)
    · unfold authority
      split <;> simp_all

/-- **A scheme that holds a separator decides the address alone.**  The first separator in it
    is where a parser ends the scheme, so that the host and the port put behind it are read as
    a path, a query or a fragment. -/
theorem httpAddress_of_separator {scheme rest : List Char} (h : ¬ NoSep scheme) :
    httpAddress (scheme ++ ':' :: ("//".toList ++ rest)) = httpAddress (scheme ++ [':']) := by
  obtain ⟨a, c, b, rfl, ha, hc⟩ := exists_first_sep h
  rw [List.append_assoc, List.append_assoc, List.cons_append, List.cons_append]
  by_cases hcolon : c = ':'
  · subst hcolon
    rw [httpAddress, httpAddress, splitScheme_build ha, splitScheme_build ha]
    by_cases hnil : a = []
    · rw [if_pos hnil, if_pos hnil]
    · rw [if_neg hnil, if_neg hnil, Option.bind_some, Option.bind_some]
      -- the scheme is the same, and so is the authority behind it
      have hauth : authority (b ++ ':' :: ("//".toList ++ rest)) = authority (b ++ [':']) :=
        authority_colon b ('/' :: rest)
      simp only [hauth]
  · rw [httpAddress, httpAddress, splitScheme_of_delim ha hc hcolon,
      splitScheme_of_delim ha hc hcolon]

end Ser2Net.Lib.Uri
