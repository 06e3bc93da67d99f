import DocShape.Proofs.Text.Delimited

/-!
# Lines of a text

A line that starts with a dot, behind its blanks, goes on with the expression of the line
before it.  Whether a text has such lines is seen by reading it from left to right: all
that has to be known is whether anything but blanks has stood in the line so far.  So a
text without such lines can be put together from pieces, each of which is read from the
start of a line or from inside of one.

* `lines`, `unindented`: the lines of a text, and what stands in a line.
* `Scans`: **a piece in which no line goes on with the line before**.
* `Scans.append`, `Scans.flatMap`, `Scans.cons`: pieces put together.
* `Scans.head?_unindented_ne`: what that means for the lines.
* `splitOn_append_rows`: the lines of a text that ends with a row of lines.
-/

namespace DocShape.Text

/-- The lines of a text. -/
def lines (text : String) : List (List Char) := text.toList.splitOn '\n'

/-- What stands in a line behind its blanks. -/
def unindented (line : List Char) : List Char := line.dropWhile (· = ' ')

theorem unindented_blanks_append (n : Nat) {c : Char} (hc : c ≠ ' ') (rest : List Char) :
    unindented (List.replicate n ' ' ++ c :: rest) = c :: rest := by
  rw [unindented, List.dropWhile_append_of_pos]
  · rw [List.dropWhile_cons_of_neg (by simpa using hc)]
  · intro d hd
    simpa using List.eq_of_mem_replicate hd

/-! ### Pieces -/

/-- Whether only blanks have stood in the line, after one more character.  It fails at a dot that is
the first other character of its line. -/
def scan? (atStart : Bool) (c : Char) : Option Bool :=
  if c = '\n' then some true
  else if atStart && c = '.' then none
  else some (atStart && c = ' ')

/-- **A piece in which no line goes on with the line before**, read from the start of a line or from
inside of one, up to the start of a line or the inside of one. -/
def Scans (atStart atStart' : Bool) (text : List Char) : Prop :=
  text.foldlM scan? atStart = some atStart'

namespace Scans

variable {start next last : Bool}

theorem append {xs ys : List Char} (hxs : Scans start next xs) (hys : Scans next last ys) :
    Scans start last (xs ++ ys) := by
  rw [Scans, List.foldlM_append, hxs]
  exact hys

/-- A piece can be cut anywhere. -/
theorem exists_of_append {xs ys : List Char} (h : Scans start last (xs ++ ys)) :
    ∃ next, Scans start next xs ∧ Scans next last ys := by
  rw [Scans, List.foldlM_append] at h
  exact Option.bind_eq_some_iff.1 h

theorem flatMap {α : Type} {items : List α} {f : α → List Char}
    (h : ∀ item ∈ items, Scans start start (f item)) : Scans start start (items.flatMap f) := by
  induction items with
  | nil => rfl
  | cons item items ih =>
    rw [List.forall_mem_cons] at h
    rw [List.flatMap_cons]
    exact h.1.append (ih h.2)

theorem intercalate {separator : List Char} {items : List (List Char)}
    (hseparator : Scans start start separator) (h : ∀ item ∈ items, Scans start start item) :
    Scans start start (separator.intercalate items) := by
  cases items with
  | nil => rfl
  | cons item items =>
    rw [List.forall_mem_cons] at h
    rw [intercalate_cons]
    exact h.1.append (flatMap fun next hnext => hseparator.append (h.2 next hnext))

theorem blanks (n : Nat) : Scans true true (List.replicate n ' ') := by
  induction n with
  | zero => rfl
  | succ n ih => exact ih

/-- A character that is no dot starts what stands in a line. -/
theorem cons {c : Char} {rest : List Char} (hc : c ∉ ['\n', '.', ' '])
    (hrest : Scans false last rest) : Scans start last (c :: rest) := by
  simp only [List.mem_cons, List.not_mem_nil, or_false, not_or] at hc
  have hscan : scan? start c = some false := by simp [scan?, hc]
  rw [Scans, List.foldlM_cons, hscan]
  exact hrest

/-- The rest of a line. -/
theorem of_newline_notMem {text : List Char} (h : '\n' ∉ text) : Scans false false text := by
  induction text with
  | nil => rfl
  | cons c rest ih =>
    rw [List.mem_cons, not_or] at h
    have hscan : scan? false c = some false := by simp [scan?, Ne.symm h.1]
    rw [Scans, List.foldlM_cons, hscan]
    exact ih h.2

/-! ### Lines -/

/-- What stands in a line that is read from its start does not start with a dot. -/
theorem head?_unindented_ne_of_line {line : List Char} (h : Scans true last line) :
    (unindented line).head? ≠ some '.' := by
  induction line with
  | nil => simp [unindented]
  | cons c rest ih =>
    by_cases hblank : c = ' '
    · subst hblank
      exact ih h
    · rw [unindented, List.dropWhile_cons_of_neg (by simpa using hblank), List.head?_cons]
      rintro hdot
      obtain rfl := Option.some.inj hdot
      cases h

theorem head?_unindented_ne_of_intercalate {lines : List (List Char)}
    (h : Scans true last (['\n'].intercalate lines)) :
    ∀ line ∈ lines, (unindented line).head? ≠ some '.' := by
  induction lines with
  | nil => exact fun _ h => nomatch h
  | cons line lines ih =>
    cases lines with
    | nil =>
      rw [List.intercalate_singleton] at h
      exact List.forall_mem_singleton.2 (head?_unindented_ne_of_line h)
    | cons second lines =>
      rw [List.intercalate_cons_cons, List.append_assoc] at h
      obtain ⟨next, hline, hrest⟩ := h.exists_of_append
      -- After a line break the next line is read from its start.
      exact List.forall_mem_cons.2 ⟨head?_unindented_ne_of_line hline, ih hrest⟩

/-- **No line of a text that is scanned goes on with the line before.** -/
theorem head?_unindented_ne {text : List Char} (h : Scans true last text) :
    ∀ line ∈ text.splitOn '\n', (unindented line).head? ≠ some '.' := by
  have htext : ['\n'].intercalate (text.splitOn '\n') = text := List.intercalate_splitOn '\n'
  rw [← htext] at h
  exact head?_unindented_ne_of_intercalate h

end Scans

/-- Lines in a row behind a text are lines of the whole. -/
theorem splitOn_append_rows {α : Type} {rows : List α} {f : α → List Char}
    (h : ∀ row ∈ rows, '\n' ∉ f row) (text : List Char) :
    (text ++ rows.flatMap fun row => '\n' :: f row).splitOn '\n' =
      text.splitOn '\n' ++ rows.map f := by
  induction rows generalizing text with
  | nil => simp
  | cons row rows ih =>
    rw [List.forall_mem_cons] at h
    have hrow : (text ++ '\n' :: f row).splitOn '\n' = text.splitOn '\n' ++ [f row] := by
      rw [List.splitOn, List.splitOnP_append_cons _ _ (by decide)]
      exact congrArg _ (List.splitOn_eq_singleton h.1)
    rw [List.flatMap_cons, ← List.append_assoc, ih h.2, hrow, List.map_cons, List.append_assoc,
      List.singleton_append]

end DocShape.Text
