import DocShape.Proofs.Shape.DeclarationText
import DocShape.Proofs.Text.Quotation

/-!
# Texts up to spacing

Blanks and line breaks outside quotes only serve the layout, and so does a comma that
stands before a closing parenthesis once they are gone.  `condensed` takes both out of a
text.

Whether a comma goes is not decided by the comma alone, so a text in a row with another
is condensed on its own only if it does not end with a comma, or if the other one does not
start with a parenthesis.  Expressions do neither: they are **solid**.

* `condensed`: **a text without the spacing and the commas of its layout**.
* `trimmed_append`: where a text may be cut.
* `Solid`, `trimmed_intercalate`: solid texts between commas, whatever follows them.
* `trimmed_rows`: rows that do not start with a parenthesis.
-/

namespace DocShape.Text

/-- Whether a glyph only serves the layout. -/
def Glyph.isSpace (glyph : Glyph) : Bool :=
  !glyph.quoted && (glyph.char = ' ' || glyph.char = '\n')

/-- The glyphs that do not only serve the layout. -/
def ink (glyphs : List Glyph) : List Glyph := glyphs.filter fun glyph => !glyph.isSpace

/-- The glyphs of a text that do not only serve the layout. -/
def inkOf (text : String) : List Glyph := ink (glyphs text.toList)

/-- A comma that is not quoted. -/
def comma : Glyph := ⟨',', false⟩

/-- A closing parenthesis that is not quoted. -/
def close : Glyph := ⟨')', false⟩

/-- Without the commas that stand directly before a closing parenthesis. -/
def trimmed : List Glyph → List Glyph
  | [] => []
  | glyph :: rest =>
    if glyph = comma ∧ rest.head? = some close then trimmed rest else glyph :: trimmed rest

/-- **A text without the spacing and the commas of its layout**: outside quotes all blanks and line
breaks are deleted, and then every comma directly before a closing parenthesis. -/
def condensed (text : String) : String :=
  String.ofList ((trimmed (inkOf text)).map Glyph.char)

theorem ink_append (xs ys : List Glyph) : ink (xs ++ ys) = ink xs ++ ink ys :=
  List.filter_append ..

theorem ink_flatMap {α : Type} (items : List α) (f : α → List Glyph) :
    ink (items.flatMap f) = items.flatMap fun item => ink (f item) :=
  List.filter_flatMap

theorem ink_intercalate (separator : List Glyph) (items : List (List Glyph)) :
    ink (separator.intercalate items) = (ink separator).intercalate (items.map ink) := by
  cases items with
  | nil => rfl
  | cons item items =>
    rw [intercalate_cons, ink_append, ink_flatMap, List.map_cons, intercalate_cons,
      List.flatMap_map]
    simp only [ink_append]

theorem ink_plain_replicate (n : Nat) : ink (plain (List.replicate n ' ')) = [] := by
  rw [ink, plain, List.filter_eq_nil_iff, List.forall_mem_map]
  intro c hc
  rw [List.eq_of_mem_replicate hc]
  decide

/-! ### Texts in a row -/

/-- **Where a text may be cut**: not between a comma and a closing parenthesis. -/
theorem trimmed_append {xs ys : List Glyph}
    (h : xs.getLast? ≠ some comma ∨ ys.head? ≠ some close) :
    trimmed (xs ++ ys) = trimmed xs ++ trimmed ys := by
  induction xs with
  | nil => rfl
  | cons glyph rest ih =>
    cases rest with
    | nil =>
      have hkeep : ¬ (glyph = comma ∧ ys.head? = some close) := by
        rintro ⟨rfl, hclose⟩
        rcases h with h | h
        · exact h rfl
        · exact h hclose
      simp [trimmed, hkeep]
    | cons next rest =>
      have hrest := ih (by simpa using h)
      have hhead : (next :: rest ++ ys).head? = (next :: rest).head? := rfl
      rw [List.cons_append, trimmed, trimmed, hrest, hhead]
      by_cases hdrop : glyph = comma ∧ (next :: rest).head? = some close
      · rw [if_pos hdrop, if_pos hdrop]
      · rw [if_neg hdrop, if_neg hdrop, List.cons_append]

/-- A text that may be put between commas and parentheses. -/
structure Solid (xs : List Glyph) : Prop where
  ne_nil : xs ≠ []
  head_ne : xs.head? ≠ some close
  getLast_ne : xs.getLast? ≠ some comma

theorem Solid.trimmed_append {xs : List Glyph} (h : Solid xs) (ys : List Glyph) :
    trimmed (xs ++ ys) = trimmed xs ++ trimmed ys :=
  Text.trimmed_append (Or.inl h.getLast_ne)

/-- A comma before a solid text stays, whatever follows them. -/
theorem Solid.trimmed_comma_append {xs : List Glyph} (h : Solid xs) (ys : List Glyph) :
    trimmed ([comma] ++ xs ++ ys) = [comma] ++ trimmed xs ++ trimmed ys := by
  have hclose : (xs ++ ys).head? ≠ some close := by
    rw [List.head?_append_of_ne_nil _ h.ne_nil]
    exact h.head_ne
  rw [List.append_assoc, List.singleton_append, trimmed, if_neg fun hcomma => hclose hcomma.2,
    h.trimmed_append]
  rfl

/-- **Solid texts between commas**, whatever follows them. -/
theorem trimmed_intercalate {items : List (List Glyph)} (h : ∀ item ∈ items, Solid item)
    (rest : List Glyph) :
    trimmed ([comma].intercalate items ++ rest) =
      [comma].intercalate (items.map trimmed) ++ trimmed rest := by
  have hseparated : ∀ items : List (List Glyph), (∀ item ∈ items, Solid item) →
      trimmed ((items.flatMap fun next => [comma] ++ next) ++ rest) =
        (items.flatMap fun next => [comma] ++ trimmed next) ++ trimmed rest := by
    intro items h
    induction items with
    | nil => rfl
    | cons item items ih =>
      rw [List.forall_mem_cons] at h
      rw [List.flatMap_cons, List.append_assoc, h.1.trimmed_comma_append, ih h.2,
        List.flatMap_cons]
      simp only [List.append_assoc]
  cases items with
  | nil => rfl
  | cons item items =>
    rw [List.forall_mem_cons] at h
    rw [intercalate_cons, List.append_assoc, h.1.trimmed_append, hseparated items h.2,
      List.map_cons, intercalate_cons, List.flatMap_map, List.append_assoc]

theorem trimmed_terminated {items : List (List Glyph)} (h : ∀ item ∈ items, Solid item) :
    trimmed ((items.flatMap fun item => item ++ [comma]) ++ [close]) =
      [comma].intercalate (items.map trimmed) ++ [close] := by
  by_cases hitems : items = []
  · subst hitems
    rfl
  · rw [← intercalate_append hitems, List.append_assoc, trimmed_intercalate h]
    rfl

example : condensed "f(\n  \"a, (\",\n  b,\n)" = "f(\"a, (\",b)" := by decide

/-- A row of a name and what follows its colon, closed by a comma. -/
theorem trimmed_row (key value : List Glyph) :
    trimmed (key ++ plain [':'] ++ value ++ [comma]) =
      trimmed (key ++ plain [':']) ++ trimmed value ++ [comma] := by
  have hcolon : (key ++ plain [':']).getLast? ≠ some comma := by
    rw [plain, List.map_singleton, List.getLast?_concat]
    decide
  rw [trimmed_append (Or.inr (by decide)), trimmed_append (Or.inl hcolon)]
  rfl

theorem head_append_ne {xs ys : List Glyph} {glyph : Glyph} (hxs : xs.head? ≠ some glyph)
    (hys : ys.head? ≠ some glyph) : (xs ++ ys).head? ≠ some glyph := by
  cases xs with
  | nil => exact hys
  | cons x xs => exact hxs

/-- **Rows that do not start with a parenthesis**, followed by something that does not either. -/
theorem trimmed_rows {α : Type} {rows : List α} {f : α → List Glyph} {rest : List Glyph}
    (hrows : ∀ row ∈ rows, (f row).head? ≠ some close) (hrest : rest.head? ≠ some close) :
    trimmed (rows.flatMap f ++ rest) =
      (rows.flatMap fun row => trimmed (f row)) ++ trimmed rest := by
  have hhead : ∀ rows : List α, (∀ row ∈ rows, (f row).head? ≠ some close) →
      (rows.flatMap f ++ rest).head? ≠ some close := by
    intro rows hrows
    induction rows with
    | nil => exact hrest
    | cons row rows ih =>
      rw [List.forall_mem_cons] at hrows
      rw [List.flatMap_cons, List.append_assoc]
      exact head_append_ne hrows.1 (ih hrows.2)
  induction rows with
  | nil => rfl
  | cons row rows ih =>
    rw [List.forall_mem_cons] at hrows
    rw [List.flatMap_cons, List.flatMap_cons, List.append_assoc, List.append_assoc,
      trimmed_append (Or.inr (hhead rows hrows.2)), ih hrows.2]

end DocShape.Text
