import Ser2Net.Lib.Delimited

namespace Ser2Net.Lib.PyText

/-!
# Lines and columns of a text

Python's `str.splitlines`, the newline translation of a file opened for reading, and what
they make of a file that was written line by line.

* `splitLines_lines` — lines without a line boundary are read back as they were written;
* `flatten_splitLinesKeep` — the lines with their ends are the text;
* `not_isLineBreak_of_mem` — no line that is read has a line boundary in it, whatever was
  written.
-/

/-- The line boundaries of `str.splitlines`. -/
def isLineBreak (c : Char) : Bool :=
  let n := c.toNat
  (0x0a ≤ n && n ≤ 0x0d) || (0x1c ≤ n && n ≤ 0x1e) || n == 0x85 || n == 0x2028 || n == 0x2029

/-- The loop of `s.splitlines()`, with the line it is in. -/
def splitLinesFrom (line : List Char) : List Char → List (List Char)
  | [] => if line = [] then [] else [line]
  | '\r' :: '\n' :: rest => line :: splitLinesFrom [] rest
  | c :: rest =>
    if isLineBreak c then line :: splitLinesFrom [] rest else splitLinesFrom (line ++ [c]) rest

/-- `s.splitlines()`. -/
def splitLines (l : List Char) : List (List Char) := splitLinesFrom [] l

/-- The loop of `s.splitlines(keepends=True)`, with the line it is in. -/
def splitLinesKeepFrom (line : List Char) : List Char → List (List Char)
  | [] => if line = [] then [] else [line]
  | '\r' :: '\n' :: rest => (line ++ ['\r', '\n']) :: splitLinesKeepFrom [] rest
  | c :: rest =>
    if isLineBreak c then (line ++ [c]) :: splitLinesKeepFrom [] rest
    else splitLinesKeepFrom (line ++ [c]) rest

/-- `s.splitlines(keepends=True)`. -/
def splitLinesKeep (l : List Char) : List (List Char) := splitLinesKeepFrom [] l

/-- Reading in text mode: every `\r\n` and `\r` is a `\n`. -/
def universalNewlines : List Char → List Char
  | [] => []
  | '\r' :: '\n' :: rest => '\n' :: universalNewlines rest
  | c :: rest => (if c = '\r' then '\n' else c) :: universalNewlines rest

example : splitLines "a\r\nb\x0bc\n".toList = ["a".toList, "b".toList, "c".toList] := by decide

/-! ### What is written is read -/

theorem splitLinesFrom_append {line more : List Char} (hmore : ∀ c ∈ more, isLineBreak c = false)
    (rest : List Char) :
    splitLinesFrom line (more ++ '\n' :: rest) = (line ++ more) :: splitLines rest := by
  induction more generalizing line with
  | nil =>
    rw [List.nil_append, List.append_nil]
    rfl
  | cons c more ih =>
    have hc : isLineBreak c = false := hmore c (by simp)
    have hne : c ≠ '\r' := by
      rintro rfl
      exact absurd hc (by decide)
    have hstep : splitLinesFrom line (c :: (more ++ '\n' :: rest)) =
        splitLinesFrom (line ++ [c]) (more ++ '\n' :: rest) := by
      rw [splitLinesFrom.eq_3 _ _ _ (fun _ h _ => absurd h hne), hc]
      rfl
    rw [List.cons_append, hstep, ih fun d hd => hmore d (by simp [hd]), List.append_assoc]
    rfl

/-- Lines without a boundary are read back as they were written. -/
theorem splitLines_lines (ls : List (List Char)) (h : ∀ l ∈ ls, ∀ c ∈ l, isLineBreak c = false) :
    splitLines (ls.flatMap fun l => l ++ ['\n']) = ls := by
  induction ls with
  | nil => rfl
  | cons l ls ih =>
    have hrest := ih fun l' hl' => h l' (by simp [hl'])
    rw [List.flatMap_cons, List.append_assoc, List.singleton_append, splitLines,
      splitLinesFrom_append (h l (by simp)), hrest]
    rfl

theorem flatten_splitLinesKeepFrom (line l : List Char) :
    (splitLinesKeepFrom line l).flatten = line ++ l := by
  induction line, l using splitLinesKeepFrom.induct with
  | case1 => rfl
  | case2 line hne => rw [splitLinesKeepFrom, if_neg hne, List.flatten_singleton, List.append_nil]
  | case3 line rest ih => rw [splitLinesKeepFrom, List.flatten_cons, ih, List.append_assoc]; rfl
  | case4 line c rest hne hc ih =>
    rw [splitLinesKeepFrom.eq_3 _ _ _ hne, if_pos hc, List.flatten_cons, ih, List.append_assoc]
    rfl
  | case5 line c rest hne hc ih =>
    rw [splitLinesKeepFrom.eq_3 _ _ _ hne, if_neg hc, ih, List.append_assoc]
    rfl

/-- The lines with their ends are the text. -/
theorem flatten_splitLinesKeep (l : List Char) : (splitLinesKeep l).flatten = l :=
  flatten_splitLinesKeepFrom [] l

/-- No line that is read holds a boundary. -/
theorem not_isLineBreak_of_mem_from {line l piece : List Char}
    (hline : ∀ c ∈ line, isLineBreak c = false) (hpiece : piece ∈ splitLinesFrom line l) :
    ∀ c ∈ piece, isLineBreak c = false := by
  -- by the branches of the function: a break closes the line, a character goes onto it
  induction line, l using splitLinesFrom.induct with
  | case1 => simp [splitLinesFrom] at hpiece
  | case2 line hne =>
    rw [splitLinesFrom, if_neg hne, List.mem_singleton] at hpiece
    exact hpiece ▸ hline
  | case3 line rest ih =>
    rw [splitLinesFrom, List.mem_cons] at hpiece
    rcases hpiece with rfl | hpiece
    · exact hline
    · exact ih (by simp) hpiece
  | case4 line c rest hne hc ih =>
    rw [splitLinesFrom.eq_3 _ _ _ hne, if_pos hc, List.mem_cons] at hpiece
    rcases hpiece with rfl | hpiece
    · exact hline
    · exact ih (by simp) hpiece
  | case5 line c rest hne hc ih =>
    rw [splitLinesFrom.eq_3 _ _ _ hne, if_neg hc] at hpiece
    refine ih ?_ hpiece
    intro d hd
    rcases List.mem_append.mp hd with hd | hd
    · exact hline d hd
    · rw [List.mem_singleton] at hd
      subst hd
      simpa using hc

theorem not_isLineBreak_of_mem {l piece : List Char} (hpiece : piece ∈ splitLines l) :
    ∀ c ∈ piece, isLineBreak c = false :=
  not_isLineBreak_of_mem_from (by simp) hpiece

theorem universalNewlines_of_notMem {l : List Char} (h : '\r' ∉ l) : universalNewlines l = l := by
  induction l with
  | nil => rfl
  | cons c rest ih =>
    have hne : c ≠ '\r' := by
      rintro rfl
      exact h (by simp)
    have hrest : '\r' ∉ rest := fun hmem => h (by simp [hmem])
    rw [universalNewlines.eq_3 _ _ (fun _ h _ => absurd h hne), if_neg hne, ih hrest]

/-- The parts of a joined text are parts of it. -/
theorem mem_intercalate {sep part : List Char} {parts : List (List Char)} {c : Char}
    (hpart : part ∈ parts) (hc : c ∈ part) : c ∈ sep.intercalate parts := by
  induction parts with
  | nil => cases hpart
  | cons p parts ih =>
    rcases List.mem_cons.mp hpart with rfl | hpart
    · cases parts with
      | nil => rwa [List.intercalate_singleton]
      | cons q parts =>
        rw [List.intercalate_cons_cons]
        simp [hc]
    · cases parts with
      | nil => cases hpart
      | cons q parts =>
        rw [List.intercalate_cons_cons]
        exact List.mem_append_right _ (ih hpart)

/-- A joined text is made of the separator and the parts. -/
theorem mem_of_mem_intercalate {sep : List Char} {parts : List (List Char)} {c : Char}
    (hc : c ∈ sep.intercalate parts) : c ∈ sep ∨ ∃ part ∈ parts, c ∈ part := by
  induction parts with
  | nil => cases hc
  | cons p parts ih =>
    cases parts with
    | nil =>
      rw [List.intercalate_singleton] at hc
      exact .inr ⟨p, by simp, hc⟩
    | cons q parts =>
      rw [List.intercalate_cons_cons] at hc
      rcases List.mem_append.mp hc with hc | hc
      · rcases List.mem_append.mp hc with hc | hc
        · exact .inr ⟨p, by simp, hc⟩
        · exact .inl hc
      · rcases ih hc with hsep | ⟨part, hpart, hmem⟩
        · exact .inl hsep
        · exact .inr ⟨part, List.mem_cons_of_mem _ hpart, hmem⟩

/-- A piece of a split is made of characters of the text. -/
theorem mem_of_mem_splitOn {sep c : Char} {l piece : List Char} (hpiece : piece ∈ l.splitOn sep)
    (hc : c ∈ piece) : c ∈ l := by
  have hjoin : [sep].intercalate (l.splitOn sep) = l := List.intercalate_splitOn sep
  rw [← hjoin]
  exact mem_intercalate hpiece hc

/-- The separator is in no piece of a split. -/
theorem notMem_of_mem_splitOn {sep : Char} {l piece : List Char} (hpiece : piece ∈ l.splitOn sep) :
    sep ∉ piece := by
  obtain ⟨pieces, rest, rfl, hpieces, hrest⟩ := exists_terminated sep l
  rw [splitOn_terminated hpieces, List.splitOn_eq_singleton hrest] at hpiece
  rcases List.mem_append.1 hpiece with hpiece | hpiece
  · exact hpieces piece hpiece
  · rwa [List.mem_singleton.1 hpiece]

end Ser2Net.Lib.PyText
