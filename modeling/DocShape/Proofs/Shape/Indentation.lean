import DocShape.Proofs.Shape.Glyphs
import DocShape.Proofs.Text.Indentation

/-!
# Declarations are indented

The level of a declaration is one more than the number of blocks around it.  An object
opens a block for its fields, and a union in lines opens one for its variants; these stand
one level deeper.  Whatever else has parts puts them between brackets on one line, at its
own level.

So the induction on the shape is for all open brackets around it at once: they say how
many blocks there are, and which bracket closes the innermost one.

* `Shape.laid_call`: a call with its arguments on one line.
* `Shape.laid_arguments_object`, `Shape.laidOut_union`: blocks.
* `Shape.laidOut`: **a declaration stands right inside any brackets**, at the level that their
  blocks ask for.
* `Shape.indented_render`: **declarations are indented by open blocks**.
-/

namespace DocShape

open Text (Glyph Laid OpenBracket blanks blocks glyphs plain)

theorem Layout.plain_indent (layout : Layout) (level : Nat) :
    plain (layout.indent level).toList = blanks layout.indentWidth level := by
  rw [toList_indent, blanks]

section

variable {width : Nat} {brackets : List OpenBracket}

theorem Literal.laid_text (value : Literal) :
    Laid width brackets brackets (glyphs value.text.toList) := by
  refine Laid.of_isInert ?_
  cases value with
  | string s => exact Text.isInert_of_mem_glyphs_quote s
  | number n =>
    have hquote : '"' ∉ n.declarationText.toList :=
      fun h => absurd (n.mem_declarationText _ h) (by decide)
    have hnumber : ∀ c ∈ n.declarationText.toList, decide (IsNumberChar c) = true :=
      fun c hc => decide_eq_true (n.mem_declarationText c hc)
    rw [text, Text.glyphs_of_notMem hquote]
    exact Text.isInert_of_mem_plain hnumber (by decide)
  | boolean b => cases b <;> decide

namespace Shape

theorem laid_fieldKey (name : String) :
    Laid width brackets brackets (glyphs (fieldKey name).toList) := by
  refine Laid.of_isInert ?_
  unfold fieldKey
  split
  · next h =>
    rw [Text.glyphs_of_notMem (Text.notMem_of_isIdentifier h (by decide))]
    exact Text.isInert_of_mem_plain (Text.isIdentifierRest_of_mem h) (by decide)
  · exact Text.isInert_of_mem_glyphs_quote name

/-! ### Calls -/

/-- A call starts with its name and a parenthesis. -/
theorem callStart_eq (name : String) :
    callStart name = plain ('v' :: '.' :: name.toList) ++ plain ['('] := by
  rw [callStart, plain, plain, ← List.cons_append, ← List.cons_append, List.map_append]
  rfl

theorem laid_callName {name : String} (hname : name.toList.all Char.isAlphanum = true) :
    Laid width brackets brackets (plain ('v' :: '.' :: name.toList)) := by
  have hstart : ∀ glyph ∈ plain ['v', '.'], glyph.isInert := by decide
  exact (Laid.of_isInert hstart).append
    (Laid.of_isInert (Text.isInert_of_mem_plain (List.all_eq_true.1 hname) (by decide)))

/-- **A call with its arguments on one line.** -/
theorem laid_call {name : String} {arguments : List Glyph}
    (hname : name.toList.all Char.isAlphanum = true)
    (h : Laid width (⟨')', false⟩ :: brackets) (⟨')', false⟩ :: brackets) arguments) :
    Laid width brackets brackets (callStart name ++ arguments ++ plain [')']) := by
  have hpair : Text.closing? '(' = some ')' := rfl
  have hcall := (laid_callName hname).append (Laid.enclosed hpair h)
  rw [callStart_eq]
  simpa only [List.append_assoc] using hcall

end Shape

end

namespace Shape

variable {layout : Layout}

/-- Whether the declaration of a shape stands right inside all brackets, at the level that their
blocks ask for. -/
def LaidOut (layout : Layout) (shape : Shape) : Prop :=
  ∀ brackets, Laid layout.indentWidth brackets brackets
    (glyphs (shape.renderAt layout (blocks brackets + 1)).toList)

/-- The arguments of a declaration stand inside its parenthesis, which is no block. -/
theorem LaidOut.of_arguments {shape : Shape}
    (h : ∀ brackets, Laid layout.indentWidth (⟨')', false⟩ :: brackets) (⟨')', false⟩ :: brackets)
      (glyphs (shape.arguments layout (blocks brackets + 1)))) : shape.LaidOut layout := by
  intro brackets
  rw [glyphs_renderAt]
  exact laid_call (isAlphanum_kindText shape) (h brackets)

theorem LaidOut.markOptional {shape : Shape} (h : shape.LaidOut layout) (optional : Bool)
    (brackets : List OpenBracket) : Laid layout.indentWidth brackets brackets
      (glyphs (markOptional optional (shape.renderAt layout (blocks brackets + 1))).toList) := by
  rw [glyphs_markOptional (closesQuotes_renderAt layout _ shape)]
  cases optional with
  | false => exact h brackets
  | true => exact laid_call (by decide) (h (⟨')', false⟩ :: brackets))

/-! ### Blocks -/

/-- What a field shows between its indentation and its comma. -/
def fieldGlyphs (layout : Layout) (level : Nat) (field : Field Shape) : List Glyph :=
  glyphs (fieldKey field.name).toList ++ plain [':', ' '] ++
    glyphs (markOptional field.optional (field.shape.renderAt layout (level + 1))).toList

theorem laid_fieldGlyphs {field : Field Shape} (h : field.shape.LaidOut layout)
    (brackets : List OpenBracket) : Laid layout.indentWidth (⟨'}', true⟩ :: brackets)
      (⟨'}', true⟩ :: brackets) (fieldGlyphs layout (blocks brackets + 1) field) := by
  have hcolon : ∀ glyph ∈ plain [':', ' '], glyph.isInert := by decide
  exact ((laid_fieldKey field.name).append (Laid.of_isInert hcolon)).append
    (h.markOptional field.optional (⟨'}', true⟩ :: brackets))

theorem startsRow_fieldGlyphs (level : Nat) (field : Field Shape) :
    Text.StartsRow '}' (fieldGlyphs layout level field) := by
  obtain ⟨c, rest, hkey, hc⟩ := exists_fieldKey_eq_cons field.name
  refine ⟨c, ?_, hc.ne (by decide), hc.ne (by decide), hc.ne (by decide)⟩
  rw [fieldGlyphs, List.map_append, List.map_append, glyphs, Text.map_char_glyphsFrom, hkey]
  rfl

/-- An object opens a block for its fields. -/
theorem laid_arguments_object {fields : List (Field Shape)}
    (h : ∀ field ∈ fields, field.shape.LaidOut layout) (brackets : List OpenBracket) :
    Laid layout.indentWidth brackets brackets
      (glyphs ((object fields).arguments layout (blocks brackets + 1))) := by
  have hpair : Text.closing? '{' = some '}' := rfl
  rw [glyphs_arguments_object]
  split
  · exact Laid.enclosed hpair Laid.nil
  · have hrows : ∀ field ∈ userFields fields, Laid layout.indentWidth (⟨'}', true⟩ :: brackets)
          (⟨'}', true⟩ :: brackets) (fieldGlyphs layout (blocks brackets + 1) field) ∧
        Text.StartsRow '}' (fieldGlyphs layout (blocks brackets + 1) field) := by
      intro field hfield
      exact ⟨laid_fieldGlyphs (h field (mem_userFields.1 hfield).1) brackets,
        startsRow_fieldGlyphs _ field⟩
    have hblock := Laid.block hpair (by decide) hrows
    simpa only [glyphs_fieldRow, fieldGlyphs, layout.plain_indent, Nat.add_sub_cancel,
      List.append_assoc] using hblock

theorem startsRow_renderAt (level : Nat) (shape : Shape) :
    Text.StartsRow ')' (glyphs (shape.renderAt layout level).toList) := by
  refine ⟨'v', ?_, by decide, by decide, by decide⟩
  rw [glyphs, Text.map_char_glyphsFrom, toList_renderAt]
  rfl

/-- A union in lines opens a block for its variants; on one line, it opens none. -/
theorem laidOut_union {variants : List Shape} (h : ∀ variant ∈ variants, variant.LaidOut layout) :
    (union variants).LaidOut layout := by
  intro brackets
  rw [glyphs_renderAt, glyphs_arguments_union]
  split
  · have hpair : Text.closing? '(' = some ')' := rfl
    have hrows : ∀ variant ∈ variants, Laid layout.indentWidth (⟨')', true⟩ :: brackets)
          (⟨')', true⟩ :: brackets)
          (glyphs (variant.renderAt layout (blocks brackets + 1 + 1)).toList) ∧
        Text.StartsRow ')' (glyphs (variant.renderAt layout (blocks brackets + 1 + 1)).toList) :=
      fun variant hvariant =>
        ⟨h variant hvariant (⟨')', true⟩ :: brackets), startsRow_renderAt _ variant⟩
    have hblock := (laid_callName (isAlphanum_kindText (union variants))).append
      (Laid.block hpair (by decide) hrows)
    simp only [callStart_eq, glyphs_variantRow, layout.plain_indent, Nat.add_sub_cancel,
      List.append_assoc] at hblock ⊢
    exact hblock
  · have hcomma : ∀ glyph ∈ plain [',', ' '], glyph.isInert := by decide
    refine laid_call (isAlphanum_kindText _) (Laid.intercalate (Laid.of_isInert hcomma) ?_)
    rw [List.forall_mem_map]
    exact fun variant hvariant => h variant hvariant (⟨')', false⟩ :: brackets)

/-- **A declaration stands right inside any brackets.** -/
theorem laidOut (layout : Layout) (shape : Shape) : shape.LaidOut layout := by
  induction shape using Shape.ind with
  | literal value => exact LaidOut.of_arguments fun _ => value.laid_text
  | id tableName =>
    exact LaidOut.of_arguments fun _ => Laid.of_isInert (Text.isInert_of_mem_glyphs_quote tableName)
  | array element ih => exact LaidOut.of_arguments fun brackets => ih (⟨')', false⟩ :: brackets)
  | object fields ih =>
    exact LaidOut.of_arguments fun brackets => laid_arguments_object ih (⟨')', false⟩ :: brackets)
  | record keys values optional ihkeys ihvalues =>
    -- Keys and values stand side by side, both at the level of the record.
    refine LaidOut.of_arguments fun brackets => ?_
    have hcomma : ∀ glyph ∈ plain [',', ' '], glyph.isInert := by decide
    rw [glyphs_arguments_record]
    exact ((ihkeys (⟨')', false⟩ :: brackets)).append (Laid.of_isInert hcomma)).append
      (ihvalues.markOptional optional (⟨')', false⟩ :: brackets))
  | union variants ih => exact laidOut_union ih
  | _ => exact LaidOut.of_arguments fun _ => Laid.nil

/-- **Declarations are indented by open blocks.** -/
theorem indented_render (layout : Layout) (shape : Shape) :
    Text.Indented layout.indentWidth (shape.render layout) :=
  (laidOut layout shape []).indented

end Shape

end DocShape
