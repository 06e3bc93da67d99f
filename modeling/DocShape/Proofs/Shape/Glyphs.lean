import DocShape.Proofs.Shape.Unambiguous
import DocShape.Proofs.Text.Quotation

/-!
# The glyphs of a declaration

A declaration closes all quotes that it opens, and so does every piece of it.  So its
glyphs are those of its pieces put together: what is quoted in it are the quoted names
and strings, and nothing else.

* `Shape.closesQuotes_renderAt`: **a declaration closes its quotes**.
* `Shape.glyphs_renderAt`: the glyphs of a call; `Shape.glyphs_fieldRow`,
  `Shape.glyphs_variantRow`: of a line in a block.
* `Shape.glyphs_arguments_object`, `Shape.glyphs_arguments_record`,
  `Shape.glyphs_arguments_union`: of the arguments of shapes with parts.
-/

namespace DocShape

open Text (ClosesQuotes Glyph glyphs plain)

theorem Layout.quote_notMem_indent (layout : Layout) (level : Nat) :
    '"' ∉ (layout.indent level).toList := by
  rw [toList_indent]
  intro h
  exact absurd (List.eq_of_mem_replicate h) (by decide)

theorem Layout.closesQuotes_indent (layout : Layout) (level : Nat) :
    ClosesQuotes (layout.indent level).toList :=
  ClosesQuotes.of_notMem (layout.quote_notMem_indent level)

theorem Literal.closesQuotes_text (value : Literal) : ClosesQuotes value.text.toList := by
  rcases quoted_or_plain value with ⟨s, rfl⟩ | ⟨hquote, -⟩
  · exact Text.closesQuotes_quote s
  · exact ClosesQuotes.of_notMem hquote

namespace Shape

theorem closesQuotes_fieldKey (name : String) : ClosesQuotes (fieldKey name).toList := by
  unfold fieldKey
  split
  · next h => exact ClosesQuotes.of_notMem (Text.notMem_of_isIdentifier h (by decide))
  · exact Text.closesQuotes_quote name

theorem closesQuotes_call {name : String} {arguments : List Char} (hname : '"' ∉ name.toList)
    (h : ClosesQuotes arguments) : ClosesQuotes (call name arguments) := by
  have hopen : ClosesQuotes ('v' :: '.' :: (name.toList ++ ['('])) := by
    apply ClosesQuotes.of_notMem
    simp [hname]
  have hclose : ClosesQuotes [')'] := rfl
  have hcall := (hopen.append h).append hclose
  simpa [call] using hcall

/-- What stands before the arguments of a call. -/
def callStart (name : String) : List Glyph := plain ('v' :: '.' :: (name.toList ++ ['(']))

/-- The glyphs of a call are those of its arguments, between its name and its end. -/
theorem glyphs_call {name : String} {arguments : List Char} (hname : '"' ∉ name.toList)
    (h : ClosesQuotes arguments) :
    glyphs (call name arguments) =
      callStart name ++ glyphs arguments ++ plain [')'] := by
  have hopen : '"' ∉ 'v' :: '.' :: (name.toList ++ ['(']) := by simp [hname]
  have hcall : call name arguments =
      'v' :: '.' :: (name.toList ++ ['(']) ++ (arguments ++ [')']) := by simp [call]
  rw [hcall, Text.glyphs_plain_append hopen, Text.glyphs_append_plain h (by decide), callStart,
    List.append_assoc]

section

variable {layout : Layout} {level : Nat}

theorem closesQuotes_markOptional {optional : Bool} {text : String}
    (h : ClosesQuotes text.toList) : ClosesQuotes (markOptional optional text).toList := by
  rw [toList_markOptional]
  cases optional with
  | false => exact h
  | true => exact closesQuotes_call (by decide) h

theorem closesQuotes_fieldRow {field : Field Shape}
    (h : ClosesQuotes (field.shape.renderAt layout (level + 1)).toList) :
    ClosesQuotes (fieldRow layout level field) := by
  have hkey := (layout.closesQuotes_indent level).append (closesQuotes_fieldKey field.name)
  have hcolon : ClosesQuotes [':', ' '] := rfl
  have hcomma : ClosesQuotes [',', '\n'] := rfl
  exact ((hkey.append hcolon).append (closesQuotes_markOptional h)).append hcomma

theorem closesQuotes_variantRow {variant : Shape}
    (h : ClosesQuotes (variant.renderAt layout (level + 1)).toList) :
    ClosesQuotes (variantRow layout level variant) := by
  have hcomma : ClosesQuotes [',', '\n'] := rfl
  exact ((layout.closesQuotes_indent level).append h).append hcomma

end

/-- **A declaration closes its quotes.** -/
theorem closesQuotes_arguments (layout : Layout) (shape : Shape) :
    ∀ level, ClosesQuotes (shape.arguments layout level) := by
  have hrender : ∀ shape : Shape, (∀ level, ClosesQuotes (shape.arguments layout level)) →
      ∀ level, ClosesQuotes (shape.renderAt layout level).toList := by
    intro shape h level
    rw [toList_renderAt]
    exact closesQuotes_call (notMem_kindText shape (by decide)) (h level)
  induction shape using Shape.ind with
  | literal value => exact fun _ => value.closesQuotes_text
  | id tableName => exact fun _ => Text.closesQuotes_quote tableName
  | array element ih => exact hrender element ih
  | object fields ih =>
    intro level
    rw [arguments]
    split
    · rfl
    · have hrows : ClosesQuotes ((userFields fields).flatMap (fieldRow layout level)) := by
        refine ClosesQuotes.flatMap ?_
        intro field hfield
        exact closesQuotes_fieldRow (hrender _ (ih field (mem_userFields.1 hfield).1) _)
      have hopen : ClosesQuotes ['{', '\n'] := rfl
      have hclose : ClosesQuotes ['}'] := rfl
      exact ((hopen.append hrows).append (layout.closesQuotes_indent _)).append hclose
  | record keys values optional ihkeys ihvalues =>
    intro level
    have hcomma : ClosesQuotes [',', ' '] := rfl
    exact ((hrender keys ihkeys level).append hcomma).append
      (closesQuotes_markOptional (hrender values ihvalues level))
  | union variants ih =>
    intro level
    rw [arguments]
    split
    · have hrows : ClosesQuotes (variants.flatMap (variantRow layout level)) := by
        refine ClosesQuotes.flatMap ?_
        intro variant hvariant
        exact closesQuotes_variantRow (hrender _ (ih variant hvariant) _)
      exact ClosesQuotes.cons (by decide) (hrows.append (layout.closesQuotes_indent _))
    · refine ClosesQuotes.intercalate (by decide) ?_
      rw [List.forall_mem_map]
      intro variant hvariant
      exact hrender _ (ih variant hvariant) level
  | _ => exact fun _ => rfl

theorem closesQuotes_renderAt (layout : Layout) (level : Nat) (shape : Shape) :
    ClosesQuotes (shape.renderAt layout level).toList := by
  rw [toList_renderAt]
  exact closesQuotes_call (notMem_kindText shape (by decide))
    (closesQuotes_arguments layout shape level)

/-! ### Glyphs -/

section

variable (layout : Layout) (level : Nat)

theorem glyphs_renderAt (shape : Shape) :
    glyphs (shape.renderAt layout level).toList =
      callStart shape.kindText ++ glyphs (shape.arguments layout level) ++ plain [')'] := by
  rw [toList_renderAt]
  exact glyphs_call (notMem_kindText shape (by decide)) (closesQuotes_arguments layout shape level)

theorem glyphs_markOptional {optional : Bool} {text : String} (h : ClosesQuotes text.toList) :
    glyphs (markOptional optional text).toList =
      if optional then callStart "optional" ++ glyphs text.toList ++ plain [')']
      else glyphs text.toList := by
  rw [toList_markOptional]
  cases optional with
  | false => rfl
  | true => exact glyphs_call (by decide) h

theorem glyphs_fieldRow (field : Field Shape) :
    glyphs (fieldRow layout level field) =
      plain (layout.indent level).toList ++ glyphs (fieldKey field.name).toList ++
        plain [':', ' '] ++
        glyphs (markOptional field.optional (field.shape.renderAt layout (level + 1))).toList ++
        plain [',', '\n'] := by
  have hindent := layout.closesQuotes_indent level
  have hkey := hindent.append (closesQuotes_fieldKey field.name)
  have hcolon : ClosesQuotes [':', ' '] := rfl
  have hvalue : ClosesQuotes
      (markOptional field.optional (field.shape.renderAt layout (level + 1))).toList :=
    closesQuotes_markOptional (closesQuotes_renderAt layout (level + 1) field.shape)
  rw [fieldRow, Text.glyphs_append_plain ((hkey.append hcolon).append hvalue) (by decide),
    Text.glyphs_append (hkey.append hcolon), Text.glyphs_append_plain hkey (by decide),
    Text.glyphs_plain_append (layout.quote_notMem_indent level)]

theorem glyphs_variantRow (variant : Shape) :
    glyphs (variantRow layout level variant) =
      plain (layout.indent level).toList ++
        glyphs (variant.renderAt layout (level + 1)).toList ++ plain [',', '\n'] := by
  have hindent := layout.closesQuotes_indent level
  have hvariant := closesQuotes_renderAt layout (level + 1) variant
  rw [variantRow, Text.glyphs_append_plain (hindent.append hvariant) (by decide),
    Text.glyphs_plain_append (layout.quote_notMem_indent level)]

theorem glyphs_fieldRows (fields : List (Field Shape)) :
    glyphs (fields.flatMap (fieldRow layout level)) =
      fields.flatMap fun field => glyphs (fieldRow layout level field) :=
  Text.glyphs_flatMap fun _ _ => closesQuotes_fieldRow (closesQuotes_renderAt layout _ _)

/-- An object that shows no field is empty braces; any other is its rows between braces. -/
theorem glyphs_arguments_object (fields : List (Field Shape)) :
    glyphs ((object fields).arguments layout level) =
      if (userFields fields).isEmpty then plain ['{', '}']
      else plain ['{', '\n'] ++
        ((userFields fields).flatMap fun field => glyphs (fieldRow layout level field)) ++
        plain (layout.indent (level - 1)).toList ++ plain ['}'] := by
  rw [arguments]
  split
  · rfl
  · have hopen : ClosesQuotes ['{', '\n'] := rfl
    have hrows : ClosesQuotes ((userFields fields).flatMap (fieldRow layout level)) :=
      ClosesQuotes.flatMap fun _ _ => closesQuotes_fieldRow (closesQuotes_renderAt layout _ _)
    have hindent := layout.closesQuotes_indent (level - 1)
    rw [Text.glyphs_append_plain ((hopen.append hrows).append hindent) (by decide),
      Text.glyphs_append_plain (hopen.append hrows) (layout.quote_notMem_indent _),
      Text.glyphs_plain_append (by decide), glyphs_fieldRows]

theorem glyphs_arguments_record (keys values : Shape) (optional : Bool) :
    glyphs ((record keys values optional).arguments layout level) =
      glyphs (keys.renderAt layout level).toList ++ plain [',', ' '] ++
        glyphs (markOptional optional (values.renderAt layout level)).toList := by
  have hkeys := closesQuotes_renderAt layout level keys
  have hcomma : ClosesQuotes [',', ' '] := rfl
  rw [arguments, Text.glyphs_append (hkeys.append hcomma),
    Text.glyphs_append_plain hkeys (by decide)]

/-- A union shows its variants in rows, or between commas. -/
theorem glyphs_arguments_union (variants : List Shape) :
    glyphs ((union variants).arguments layout level) =
      if layout.isMultiline (renderAllAt layout (level + 1) variants) then
        plain ['\n'] ++
          (variants.flatMap fun variant => glyphs (variantRow layout level variant)) ++
          plain (layout.indent (level - 1)).toList
      else (plain [',', ' ']).intercalate
        (variants.map fun variant => glyphs (variant.renderAt layout level).toList) := by
  rw [arguments]
  split
  · have hrows : ∀ variant ∈ variants, ClosesQuotes (variantRow layout level variant) :=
      fun variant _ => closesQuotes_variantRow (closesQuotes_renderAt layout _ _)
    rw [Text.glyphs_cons (by decide), Text.glyphs_append_plain (ClosesQuotes.flatMap hrows)
      (layout.quote_notMem_indent _), Text.glyphs_flatMap hrows]
    rfl
  · rw [Text.glyphs_intercalate (by decide), List.map_map]
    · rfl
    · rw [List.forall_mem_map]
      exact fun variant _ => closesQuotes_renderAt layout level variant

end

end Shape

end DocShape
