import DocShape.Proofs.Shape.Glyphs
import DocShape.Proofs.Text.Spacing

/-!
# What the layout of a shape does not change

Two layouts may lay out every union of a shape differently, and then all that is inside
it stands at other levels.  The declarations are still the same but for spacing and the
comma behind the last variant in lines.

This goes by induction on the shape.  Expressions are solid, so what is condensed of a
declaration is put together from what is condensed of its parts, by the same rule for
both ways to lay out a union; and what is condensed of a part does not depend on where
it stands.

* `Shape.solid_renderAt`: declarations are solid.
* `Shape.trimmed_arguments_object`, `Shape.trimmed_arguments_record`,
  `Shape.exists_trimmed_arguments_union`: arguments, put together from their parts.
* `Shape.trimmed_renderAt_congr`: **the same but for spacing**, under any two layouts and at
  any two levels.
-/

namespace DocShape

open Text (ClosesQuotes Glyph Solid close comma glyphs ink inkOf plain trimmed)

theorem Layout.ink_indent (layout : Layout) (level : Nat) :
    ink (plain (layout.indent level).toList) = [] := by
  rw [toList_indent]
  exact Text.ink_plain_replicate _

namespace Shape

/-! ### Calls -/

/-- A call starts with a letter, and its arguments follow a parenthesis. -/
theorem exists_ink_callStart (name : String) : ∃ start,
    ink (callStart name) = ⟨'v', false⟩ :: (start ++ plain ['(']) := by
  refine ⟨ink (plain ('.' :: name.toList)), ?_⟩
  simp [callStart, ink, plain, Glyph.isSpace]

theorem ink_call (name : String) (arguments : List Glyph) :
    ink (callStart name ++ arguments ++ plain [')']) =
      ink (callStart name) ++ (ink arguments ++ [close]) := by
  rw [Text.ink_append, Text.ink_append, List.append_assoc]
  rfl

theorem solid_call (name : String) (arguments : List Glyph) :
    Solid (ink (callStart name ++ arguments ++ plain [')'])) := by
  obtain ⟨start, hstart⟩ := exists_ink_callStart name
  rw [ink_call, hstart]
  refine ⟨?_, ?_, ?_⟩
  · simp
  · simp [close]
  · rw [← List.append_assoc, List.getLast?_concat]
    decide

theorem trimmed_call (name : String) (arguments : List Glyph) :
    trimmed (ink (callStart name ++ arguments ++ plain [')'])) =
      trimmed (ink (callStart name)) ++ trimmed (ink arguments ++ [close]) := by
  obtain ⟨start, hstart⟩ := exists_ink_callStart name
  rw [ink_call, Text.trimmed_append (Or.inl ?_)]
  rw [hstart, plain, List.map_singleton, ← List.cons_append, List.getLast?_concat]
  decide

section

variable (layout : Layout) (level : Nat)

theorem solid_renderAt (shape : Shape) : Solid (inkOf (shape.renderAt layout level)) := by
  rw [inkOf, glyphs_renderAt]
  exact solid_call _ _

theorem trimmed_renderAt (shape : Shape) :
    trimmed (inkOf (shape.renderAt layout level)) = trimmed (ink (callStart shape.kindText)) ++
      trimmed (ink (glyphs (shape.arguments layout level)) ++ [close]) := by
  rw [inkOf, glyphs_renderAt]
  exact trimmed_call _ _

theorem solid_markOptional (optional : Bool) (shape : Shape) :
    Solid (inkOf (markOptional optional (shape.renderAt layout level))) := by
  rw [inkOf, glyphs_markOptional (closesQuotes_renderAt layout level shape)]
  cases optional with
  | false => exact solid_renderAt layout level shape
  | true => exact solid_call _ _

/-! ### Rows -/

/-- No field name starts with a parenthesis. -/
theorem head_inkOf_fieldKey_ne (name : String) : (inkOf (fieldKey name)).head? ≠ some close := by
  obtain ⟨c, rest, hkey, hc⟩ := exists_fieldKey_eq_cons name
  have hspace : Glyph.isSpace ⟨c, decide (c = '"')⟩ = false := by
    simp [Glyph.isSpace, hc.ne (show ¬ StartsKey ' ' by decide),
      hc.ne (show ¬ StartsKey '\n' by decide)]
  have hclose : c ≠ ')' := hc.ne (by decide)
  have hglyph : ∀ quoted, (⟨c, quoted⟩ : Glyph) ≠ close := by
    intro quoted h
    exact hclose (congrArg Glyph.char h)
  rw [inkOf, hkey, glyphs, Text.glyphsFrom, ink]
  simp [hspace, hglyph]

theorem ink_fieldRow (field : Field Shape) :
    ink (glyphs (fieldRow layout level field)) =
      inkOf (fieldKey field.name) ++ plain [':'] ++
        inkOf (markOptional field.optional (field.shape.renderAt layout (level + 1))) ++
        [comma] := by
  rw [glyphs_fieldRow, Text.ink_append, Text.ink_append, Text.ink_append, Text.ink_append,
    layout.ink_indent]
  rfl

theorem trimmed_fieldRow (field : Field Shape) :
    trimmed (ink (glyphs (fieldRow layout level field))) =
      trimmed (inkOf (fieldKey field.name) ++ plain [':']) ++
        trimmed (inkOf (markOptional field.optional (field.shape.renderAt layout (level + 1)))) ++
        [comma] := by
  rw [ink_fieldRow, Text.trimmed_row]

theorem head_fieldRow_ne (field : Field Shape) :
    (ink (glyphs (fieldRow layout level field))).head? ≠ some close := by
  rw [ink_fieldRow, List.append_assoc, List.append_assoc]
  exact Text.head_append_ne (head_inkOf_fieldKey_ne field.name) (by simp [plain, close])

theorem ink_variantRow (variant : Shape) :
    ink (glyphs (variantRow layout level variant)) =
      inkOf (variant.renderAt layout (level + 1)) ++ [comma] := by
  rw [glyphs_variantRow, Text.ink_append, Text.ink_append, layout.ink_indent]
  rfl

/-! ### Arguments -/

theorem trimmed_arguments_object (fields : List (Field Shape)) :
    trimmed (ink (glyphs ((object fields).arguments layout level)) ++ [close]) =
      plain ['{'] ++ ((userFields fields).flatMap fun field =>
        trimmed (ink (glyphs (fieldRow layout level field)))) ++ plain ['}', ')'] := by
  rw [glyphs_arguments_object]
  split
  · next hfields =>
    rw [List.isEmpty_iff.1 hfields]
    rfl
  · have hink : ink (plain ['{', '\n'] ++
          ((userFields fields).flatMap fun field => glyphs (fieldRow layout level field)) ++
          plain (layout.indent (level - 1)).toList ++ plain ['}']) ++ [close] =
        plain ['{'] ++ (((userFields fields).flatMap fun field =>
          ink (glyphs (fieldRow layout level field))) ++ plain ['}', ')']) := by
      rw [Text.ink_append, Text.ink_append, Text.ink_append, layout.ink_indent, Text.ink_flatMap]
      simp [ink, plain, Glyph.isSpace, close]
    rw [hink, Text.trimmed_append (Or.inl (by decide)),
      Text.trimmed_rows (fun field _ => head_fieldRow_ne layout level field) (by decide),
      List.append_assoc]
    rfl

theorem trimmed_arguments_record (keys values : Shape) (optional : Bool) :
    trimmed (ink (glyphs ((record keys values optional).arguments layout level)) ++ [close]) =
      [comma].intercalate [trimmed (inkOf (keys.renderAt layout level)),
        trimmed (inkOf (markOptional optional (values.renderAt layout level)))] ++ [close] := by
  have hsolid : ∀ item ∈ [inkOf (keys.renderAt layout level),
      inkOf (markOptional optional (values.renderAt layout level))], Solid item := by
    simp only [List.forall_mem_cons]
    exact ⟨solid_renderAt layout level keys, solid_markOptional layout level optional values,
      fun _ h => nomatch h⟩
  have hink : ink (glyphs ((record keys values optional).arguments layout level)) =
      [comma].intercalate [inkOf (keys.renderAt layout level),
        inkOf (markOptional optional (values.renderAt layout level))] := by
    rw [glyphs_arguments_record, Text.ink_append, Text.ink_append, List.intercalate_cons_cons,
      List.intercalate_singleton]
    rfl
  rw [hink, Text.trimmed_intercalate hsolid]
  rfl

/-- In rows or between commas, the variants are the same up to spacing, at some level. -/
theorem exists_trimmed_arguments_union (variants : List Shape) : ∃ deeper,
    trimmed (ink (glyphs ((union variants).arguments layout level)) ++ [close]) =
      [comma].intercalate (variants.map fun variant =>
        trimmed (inkOf (variant.renderAt layout deeper))) ++ [close] := by
  have hsolid : ∀ level, ∀ item ∈ variants.map fun variant => inkOf (variant.renderAt layout level),
      Solid item := by
    intro level
    rw [List.forall_mem_map]
    exact fun variant _ => solid_renderAt layout level variant
  rw [glyphs_arguments_union]
  split
  · refine ⟨level + 1, ?_⟩
    have hterminated := Text.trimmed_terminated (hsolid (level + 1))
    rw [List.flatMap_map, List.map_map] at hterminated
    rw [Text.ink_append, Text.ink_append, layout.ink_indent, Text.ink_flatMap, List.append_nil]
    simp only [ink_variantRow]
    exact hterminated
  · refine ⟨level, ?_⟩
    have hseparated := Text.trimmed_intercalate (hsolid level) [close]
    rw [List.map_map] at hseparated
    rw [Text.ink_intercalate, List.map_map]
    exact hseparated

end

/-! ### Two layouts -/

section

variable {layout other : Layout} {level level' : Nat}

/-- An expression as the only argument of a call. -/
theorem trimmed_argument_congr {shape : Shape}
    (h : trimmed (inkOf (shape.renderAt layout level)) =
      trimmed (inkOf (shape.renderAt other level'))) :
    trimmed (inkOf (shape.renderAt layout level) ++ [close]) =
      trimmed (inkOf (shape.renderAt other level') ++ [close]) := by
  rw [(solid_renderAt layout level shape).trimmed_append,
    (solid_renderAt other level' shape).trimmed_append, h]

theorem trimmed_markOptional_congr {shape : Shape} (optional : Bool)
    (h : trimmed (inkOf (shape.renderAt layout level)) =
      trimmed (inkOf (shape.renderAt other level'))) :
    trimmed (inkOf (markOptional optional (shape.renderAt layout level))) =
      trimmed (inkOf (markOptional optional (shape.renderAt other level'))) := by
  cases optional with
  | false => exact h
  | true =>
    rw [inkOf, inkOf, glyphs_markOptional (closesQuotes_renderAt layout level shape),
      glyphs_markOptional (closesQuotes_renderAt other level' shape), if_pos rfl, if_pos rfl,
      trimmed_call, trimmed_call]
    exact congrArg _ (trimmed_argument_congr h)

theorem trimmed_fieldRow_congr {field : Field Shape}
    (h : trimmed (inkOf (field.shape.renderAt layout (level + 1))) =
      trimmed (inkOf (field.shape.renderAt other (level' + 1)))) :
    trimmed (ink (glyphs (fieldRow layout level field))) =
      trimmed (ink (glyphs (fieldRow other level' field))) := by
  rw [trimmed_fieldRow, trimmed_fieldRow, trimmed_markOptional_congr field.optional h]

end

/-- **A layout only changes spacing.**  The declarations of a shape under any two layouts, and at
any two levels, are the same but for spacing. -/
theorem trimmed_renderAt_congr (layout other : Layout) (shape : Shape) : ∀ level level',
    trimmed (inkOf (shape.renderAt layout level)) =
      trimmed (inkOf (shape.renderAt other level')) := by
  induction shape using Shape.ind with
  | array element ih =>
    intro level level'
    rw [trimmed_renderAt, trimmed_renderAt]
    exact congrArg _ (trimmed_argument_congr (ih level level'))
  | object fields ih =>
    intro level level'
    have hrows : ∀ field ∈ userFields fields,
        trimmed (ink (glyphs (fieldRow layout level field))) =
          trimmed (ink (glyphs (fieldRow other level' field))) := by
      intro field hfield
      exact trimmed_fieldRow_congr (ih field (mem_userFields.1 hfield).1 _ _)
    rw [trimmed_renderAt, trimmed_renderAt, trimmed_arguments_object, trimmed_arguments_object,
      List.flatMap_congr hrows]
  | record keys values optional ihkeys ihvalues =>
    intro level level'
    rw [trimmed_renderAt, trimmed_renderAt, trimmed_arguments_record, trimmed_arguments_record,
      ihkeys level level', trimmed_markOptional_congr optional (ihvalues level level')]
  | union variants ih =>
    intro level level'
    -- Where the variants stand depends on the layout, but they are the same wherever they stand.
    obtain ⟨deeper, hunion⟩ := exists_trimmed_arguments_union layout level variants
    obtain ⟨deeper', hunion'⟩ := exists_trimmed_arguments_union other level' variants
    have hvariants := List.map_congr_left fun variant hvariant => ih variant hvariant deeper deeper'
    rw [trimmed_renderAt, trimmed_renderAt, hunion, hunion', hvariants]
  | _ => exact fun _ _ => rfl

end Shape

end DocShape
