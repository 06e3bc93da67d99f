import DocShape.Proofs.Text.Quoted

/-!
# What stands between quotes

The layout of a declaration is about what stands outside its quoted names and strings.
Whoever reads a text from left to right knows of each character whether it is quoted, if
he keeps in mind whether a quote is open, and whether the last character was a backslash
behind an open quote.

A text that closes the quotes it opens leaves the reader where he was.  So texts of that
kind in a row are read one by one, and what `glyphs` says of the whole is what it says
of the parts, put together.

* `Quotation`, `Quotation.next`: where a reader stands, and one character on.
* `glyphs`: **the characters of a text, each with whether it is quoted**.
* `ClosesQuotes`, `glyphs_append`: texts in a row are read one by one.
* `glyphs_of_notMem`, `glyphs_quote`: nothing is quoted in a text without a quote, and all of
  a quoted text is.
-/

namespace DocShape.Text

/-- Where a reader stands with respect to quotes. -/
inductive Quotation where
  | outside
  | inside
  /-- Behind a backslash between quotes. -/
  | escaped
deriving DecidableEq

/-- Where a reader stands after one more character. -/
def Quotation.next : Quotation → Char → Quotation
  | outside, c => if c = '"' then inside else outside
  | inside, c => if c = '"' then outside else if c = '\\' then escaped else inside
  | escaped, _ => inside

/-- A character as it stands in a text. -/
structure Glyph where
  char : Char
  /-- Whether it is a quote or stands between quotes. -/
  quoted : Bool
deriving DecidableEq

/-- The characters of a text for a reader who stands somewhere. -/
def glyphsFrom : Quotation → List Char → List Glyph
  | _, [] => []
  | state, c :: rest => ⟨c, state ≠ .outside || c = '"'⟩ :: glyphsFrom (state.next c) rest

/-- **The characters of a text**, each with whether it is quoted. -/
def glyphs (text : List Char) : List Glyph := glyphsFrom .outside text

/-- The characters of a text outside quotes. -/
def plain (text : List Char) : List Glyph := text.map fun c => ⟨c, false⟩

/-- Whether a text closes all quotes that it opens. -/
def ClosesQuotes (text : List Char) : Prop :=
  text.foldl Quotation.next .outside = .outside

/-! ### Texts in a row -/

theorem glyphsFrom_append (state : Quotation) (xs ys : List Char) :
    glyphsFrom state (xs ++ ys) =
      glyphsFrom state xs ++ glyphsFrom (xs.foldl Quotation.next state) ys := by
  induction xs generalizing state with
  | nil => rfl
  | cons c rest ih => rw [List.cons_append, glyphsFrom, ih, glyphsFrom]; rfl

theorem map_char_glyphsFrom (state : Quotation) (text : List Char) :
    (glyphsFrom state text).map Glyph.char = text := by
  induction text generalizing state with
  | nil => rfl
  | cons c rest ih => rw [glyphsFrom, List.map_cons, ih]

/-- **Texts in a row are read one by one.** -/
theorem glyphs_append {xs : List Char} (h : ClosesQuotes xs) (ys : List Char) :
    glyphs (xs ++ ys) = glyphs xs ++ glyphs ys := by
  rw [glyphs, glyphsFrom_append, h]
  rfl

theorem glyphs_cons {c : Char} (h : c ≠ '"') (rest : List Char) :
    glyphs (c :: rest) = ⟨c, false⟩ :: glyphs rest := by
  simp [glyphs, glyphsFrom, Quotation.next, h]

namespace ClosesQuotes

theorem nil : ClosesQuotes [] := rfl

theorem append {xs ys : List Char} (hxs : ClosesQuotes xs) (hys : ClosesQuotes ys) :
    ClosesQuotes (xs ++ ys) := by
  rw [ClosesQuotes, List.foldl_append, hxs, hys]

theorem cons {c : Char} {rest : List Char} (hc : c ≠ '"') (h : ClosesQuotes rest) :
    ClosesQuotes (c :: rest) := by
  rw [ClosesQuotes, List.foldl_cons, Quotation.next, if_neg hc, h]

theorem flatMap {α : Type} {items : List α} {f : α → List Char}
    (h : ∀ item ∈ items, ClosesQuotes (f item)) : ClosesQuotes (items.flatMap f) := by
  induction items with
  | nil => exact nil
  | cons item items ih =>
    rw [List.forall_mem_cons] at h
    rw [List.flatMap_cons]
    exact h.1.append (ih h.2)

theorem of_notMem {text : List Char} (h : '"' ∉ text) : ClosesQuotes text := by
  induction text with
  | nil => exact nil
  | cons c rest ih =>
    rw [List.mem_cons, not_or] at h
    exact cons (Ne.symm h.1) (ih h.2)

theorem intercalate {separator : List Char} {items : List (List Char)}
    (hseparator : '"' ∉ separator) (h : ∀ item ∈ items, ClosesQuotes item) :
    ClosesQuotes (separator.intercalate items) := by
  cases items with
  | nil => exact nil
  | cons item items =>
    rw [List.forall_mem_cons] at h
    rw [intercalate_cons]
    refine h.1.append (flatMap ?_)
    intro next hnext
    exact (of_notMem hseparator).append (h.2 next hnext)

end ClosesQuotes

theorem glyphs_flatMap {α : Type} {items : List α} {f : α → List Char}
    (h : ∀ item ∈ items, ClosesQuotes (f item)) :
    glyphs (items.flatMap f) = items.flatMap fun item => glyphs (f item) := by
  induction items with
  | nil => rfl
  | cons item items ih =>
    rw [List.forall_mem_cons] at h
    rw [List.flatMap_cons, List.flatMap_cons, glyphs_append h.1, ih h.2]

/-- In a text without a quote nothing is quoted. -/
theorem glyphs_of_notMem {text : List Char} (h : '"' ∉ text) :
    glyphs text = plain text := by
  induction text with
  | nil => rfl
  | cons c rest ih =>
    rw [List.mem_cons, not_or] at h
    rw [glyphs_cons (Ne.symm h.1), ih h.2]
    rfl

theorem glyphs_append_plain {xs ys : List Char} (hxs : ClosesQuotes xs) (hys : '"' ∉ ys) :
    glyphs (xs ++ ys) = glyphs xs ++ plain ys := by
  rw [glyphs_append hxs, glyphs_of_notMem hys]

theorem glyphs_plain_append {xs : List Char} (hxs : '"' ∉ xs) (ys : List Char) :
    glyphs (xs ++ ys) = plain xs ++ glyphs ys := by
  rw [glyphs_append (ClosesQuotes.of_notMem hxs), glyphs_of_notMem hxs]

theorem glyphs_intercalate {separator : List Char} {items : List (List Char)}
    (hseparator : '"' ∉ separator) (h : ∀ item ∈ items, ClosesQuotes item) :
    glyphs (separator.intercalate items) = (plain separator).intercalate (items.map glyphs) := by
  cases items with
  | nil => rfl
  | cons item items =>
    rw [List.forall_mem_cons] at h
    have hitems : ∀ next ∈ items, ClosesQuotes (separator ++ next) :=
      fun next hnext => (ClosesQuotes.of_notMem hseparator).append (h.2 next hnext)
    rw [intercalate_cons, glyphs_append h.1, glyphs_flatMap hitems, List.map_cons,
      intercalate_cons, List.flatMap_map]
    congr 1
    exact List.flatMap_congr fun next _ => glyphs_plain_append hseparator next

/-! ### Quoted texts -/

/-- Plain characters between quotes leave the reader there. -/
theorem foldl_next_inside {text : List Char} (h : ∀ c ∈ text, c ≠ '"' ∧ c ≠ '\\') :
    text.foldl Quotation.next .inside = .inside := by
  induction text with
  | nil => rfl
  | cons c rest ih =>
    rw [List.forall_mem_cons] at h
    rw [List.foldl_cons, Quotation.next, if_neg h.1.1, if_neg h.1.2, ih h.2]

theorem glyphsFrom_inside {text : List Char} (h : ∀ c ∈ text, c ≠ '"' ∧ c ≠ '\\') :
    glyphsFrom .inside text = text.map fun c => ⟨c, true⟩ := by
  induction text with
  | nil => rfl
  | cons c rest ih =>
    rw [List.forall_mem_cons] at h
    rw [glyphsFrom, Quotation.next, if_neg h.1.1, if_neg h.1.2, ih h.2]
    rfl

/-- An escape is read between the quotes. -/
theorem read_escape (c : Char) :
    (escape c).foldl Quotation.next .inside = .inside ∧
      glyphsFrom .inside (escape c) = (escape c).map fun c => ⟨c, true⟩ := by
  rcases escape_cases c with ⟨he, hquote, hbackslash, -⟩ | ⟨d, he, -⟩ | ⟨digits, he, hdigits⟩
  · have hplain : ∀ d ∈ [c], d ≠ '"' ∧ d ≠ '\\' := by simp [hquote, hbackslash]
    rw [he]
    exact ⟨foldl_next_inside hplain, glyphsFrom_inside hplain⟩
  · rw [he]
    exact ⟨rfl, rfl⟩
  · have hplain : ∀ d ∈ digits, d ≠ '"' ∧ d ≠ '\\' := by
      intro d hd
      constructor
      · rintro rfl
        exact absurd (hdigits _ hd) (by decide)
      · rintro rfl
        exact absurd (hdigits _ hd) (by decide)
    have hstate : digits.foldl Quotation.next .inside = .inside := foldl_next_inside hplain
    rw [he]
    refine ⟨hstate, ?_⟩
    show ⟨'\\', true⟩ :: ⟨'u', true⟩ :: glyphsFrom .inside digits = _
    rw [glyphsFrom_inside hplain]
    rfl

theorem read_escapes (text : List Char) :
    (text.flatMap escape).foldl Quotation.next .inside = .inside ∧
      glyphsFrom .inside (text.flatMap escape) =
        (text.flatMap escape).map fun c => ⟨c, true⟩ := by
  induction text with
  | nil => exact ⟨rfl, rfl⟩
  | cons c rest ih =>
    obtain ⟨hstate, hglyphs⟩ := read_escape c
    rw [List.flatMap_cons, List.foldl_append, glyphsFrom_append, hstate, hglyphs, ih.2,
      List.map_append]
    exact ⟨ih.1, rfl⟩

/-- A quoted text closes its quotes. -/
theorem closesQuotes_quote (s : String) : ClosesQuotes (quote s).toList := by
  rw [ClosesQuotes, toList_quote, List.foldl_cons, List.foldl_append]
  show ((s.toList.flatMap escape).foldl Quotation.next .inside).next '"' = .outside
  rw [(read_escapes s.toList).1]
  rfl

/-- **All of a quoted text is quoted.** -/
theorem glyphs_quote (s : String) :
    glyphs (quote s).toList = (quote s).toList.map fun c => ⟨c, true⟩ := by
  obtain ⟨hstate, hglyphs⟩ := read_escapes s.toList
  rw [toList_quote, List.map_cons, List.map_append]
  show ⟨'"', true⟩ :: glyphsFrom .inside (s.toList.flatMap escape ++ ['"']) = _
  rw [glyphsFrom_append, hstate, hglyphs]
  rfl

end DocShape.Text
