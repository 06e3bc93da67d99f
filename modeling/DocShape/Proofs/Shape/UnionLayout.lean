import DocShape.Proofs.Shape.DeclarationText
import Mathlib.Algebra.Order.BigOperators.Group.List
import Mathlib.Algebra.Order.Ring.Nat

/-!
# The layout of unions

A union stands on one line or has a line for each variant.  Which of the two is decided
on the variants as they are in lines of their own, one level below the line that the
union starts on; but variants in a row stand at the level of the union, and may look
different there.  The rule on how long a variant in a row may be is about what is shown,
so it holds only because **a declaration never gets shorter one level deeper**.

That is not plain either, as a union may be in a row at one level and in lines at the
next.  It goes by induction on the shape: what is wide in a row is wider in lines, and
as the variants grow with the level, a union that is in lines stays so.

* `Layout.isMultiline_of_le`: longer texts are not put back into a row.
* `Shape.length_renderAt_le_succ`: **no declaration gets shorter one level deeper**.
* `Shape.renderAt_union_cases`: the two layouts, each with what it says of its texts.
* `Shape.union_layout`: **the rule holds for the texts that are shown**.
-/

namespace DocShape

/-! ### Lengths of texts -/

theorem Text.length_intercalate (separator : String) (texts : List String) :
    (separator.intercalate texts).length =
      (texts.map String.length).sum + separator.length * (texts.length - 1) := by
  rw [← String.length_toList, String.toList_intercalate]
  induction texts with
  | nil => simp
  | cons text rest ih =>
    cases rest with
    | nil => simp [String.length_toList]
    | cons next rest =>
      rw [List.map_cons, List.map_cons, List.intercalate_cons_cons, List.length_append,
        List.length_append, ← List.map_cons, ih]
      simp only [String.length_toList, List.map_cons, List.sum_cons, List.length_cons,
        Nat.add_sub_cancel, Nat.mul_add, Nat.mul_one]
      omega

namespace Layout

theorem length_indent (layout : Layout) (level : Nat) :
    (layout.indent level).length = layout.indentWidth * level := by
  rw [indent, String.length_ofList, List.length_replicate]

theorem length_indent_mono (layout : Layout) {level deeper : Nat} (h : level ≤ deeper) :
    (layout.indent level).length ≤ (layout.indent deeper).length := by
  rw [length_indent, length_indent]
  exact Nat.mul_le_mul_left _ h

/-- Texts are written in lines if they are too many, or if one of them is too long. -/
theorem isMultiline_iff {layout : Layout} {texts : List String} :
    layout.isMultiline texts = true ↔
      layout.maxInlineVariants < texts.length ∨
        ∃ text ∈ texts, layout.maxInlineLength < text.length := by
  rw [isMultiline, Bool.or_eq_true, List.any_eq_true]
  simp only [decide_eq_true_eq]

theorem isMultiline_eq_false_iff {layout : Layout} {texts : List String} :
    layout.isMultiline texts = false ↔
      texts.length ≤ layout.maxInlineVariants ∧
        ∀ text ∈ texts, text.length ≤ layout.maxInlineLength := by
  rw [← Bool.not_eq_true, isMultiline_iff, not_or]
  simp only [not_lt, not_exists, not_and]

/-- **Longer texts are not put back into a row.** -/
theorem isMultiline_of_le {α : Type} {layout : Layout} {items : List α} {f g : α → String}
    (hle : ∀ item ∈ items, (f item).length ≤ (g item).length)
    (h : layout.isMultiline (items.map f) = true) : layout.isMultiline (items.map g) = true := by
  rw [isMultiline_iff, List.length_map] at h ⊢
  rcases h with hmany | ⟨text, htext, hlong⟩
  · exact Or.inl hmany
  · obtain ⟨item, hitem, rfl⟩ := List.mem_map.1 htext
    exact Or.inr ⟨g item, List.mem_map_of_mem hitem, Nat.lt_of_lt_of_le hlong (hle item hitem)⟩

end Layout

namespace Shape

/-! ### Lengths of the parts of a declaration -/

theorem length_markOptional (optional : Bool) (text : String) :
    (markOptional optional text).length = text.length + if optional then 12 else 0 := by
  cases optional with
  | false => rfl
  | true =>
    simp only [markOptional, if_true, String.length_append]
    have hopen : "v.optional(".length = 11 := rfl
    have hclose : ")".length = 1 := rfl
    omega

theorem length_fieldLine (layout : Layout) (level : Nat) (name : String) (optional : Bool)
    (text : String) :
    (fieldLine layout level name optional text).length =
      (layout.indent level).length + (fieldKey name).length + (markOptional optional text).length
        + 3 := by
  simp only [fieldLine, String.length_append]
  have hcolon : ": ".length = 2 := rfl
  have hcomma : ",".length = 1 := rfl
  omega

theorem length_block (layout : Layout) (level : Nat) {lines : List String} (h : lines ≠ []) :
    (block layout level lines).length =
      (lines.map String.length).sum + lines.length + (layout.indent (level - 1)).length + 3 := by
  have hpos : 0 < lines.length := List.length_pos_iff.2 h
  have hempty : lines.isEmpty = false := by simpa using h
  have hopen : "\x7b\n".length = 2 := rfl
  have hbreak : "\n".length = 1 := rfl
  have hclose : "\x7d".length = 1 := rfl
  simp only [block, hempty, Bool.false_eq_true, if_false, String.length_append,
    Text.length_intercalate, hbreak]
  omega

theorem length_inlineUnion (texts : List String) :
    (inlineUnion texts).length = (texts.map String.length).sum + 2 * (texts.length - 1) + 9 := by
  have hopen : "v.union(".length = 8 := rfl
  have hcomma : ", ".length = 2 := rfl
  have hclose : ")".length = 1 := rfl
  simp only [inlineUnion, String.length_append, Text.length_intercalate, hcomma]
  omega

theorem length_multilineUnion (layout : Layout) (level : Nat) (texts : List String) :
    (multilineUnion layout level texts).length =
      (texts.map String.length).sum + texts.length * ((layout.indent level).length + 2)
        + (layout.indent (level - 1)).length + 10 := by
  have hopen : "v.union(\n".length = 9 := rfl
  have hclose : ")".length = 1 := rfl
  have hrows : (texts.map fun text => (layout.indent level ++ text ++ ",\n").length).sum =
      (texts.map String.length).sum + texts.length * ((layout.indent level).length + 2) := by
    induction texts with
    | nil => simp
    | cons text rest ih =>
      have hcomma : ",\n".length = 2 := rfl
      rw [List.map_cons, List.sum_cons, ih, List.map_cons, List.sum_cons, List.length_cons,
        String.length_append, String.length_append, hcomma, Nat.add_mul, Nat.one_mul]
      omega
  simp only [multilineUnion, String.length_append, String.length_join, List.map_map,
    Function.comp_def] at hrows ⊢
  omega

/-! ### One level deeper -/

section

variable {α : Type} {items : List α} {f g : α → String} (layout : Layout) (level : Nat)

theorem sum_length_le (h : ∀ item ∈ items, (f item).length ≤ (g item).length) :
    ((items.map f).map String.length).sum ≤ ((items.map g).map String.length).sum := by
  rw [List.map_map, List.map_map]
  exact List.sum_le_sum h

theorem length_block_le (h : ∀ item ∈ items, (f item).length ≤ (g item).length) :
    (block layout level (items.map f)).length ≤
      (block layout (level + 1) (items.map g)).length := by
  by_cases hitems : items = []
  · subst hitems
    exact Nat.le_refl _
  · have hsum := sum_length_le h
    have hindent := layout.length_indent_mono (show level - 1 ≤ level + 1 - 1 by omega)
    rw [length_block layout level (by simpa using hitems),
      length_block layout (level + 1) (by simpa using hitems), List.length_map, List.length_map]
    omega

theorem length_inlineUnion_le (h : ∀ item ∈ items, (f item).length ≤ (g item).length) :
    (inlineUnion (items.map f)).length ≤ (inlineUnion (items.map g)).length := by
  have hsum := sum_length_le h
  rw [length_inlineUnion, length_inlineUnion, List.length_map, List.length_map]
  omega

theorem length_multilineUnion_le (h : ∀ item ∈ items, (f item).length ≤ (g item).length) :
    (multilineUnion layout level (items.map f)).length ≤
      (multilineUnion layout (level + 1) (items.map g)).length := by
  have hsum := sum_length_le h
  have hindent := layout.length_indent_mono (show level ≤ level + 1 by omega)
  have hclose := layout.length_indent_mono (show level - 1 ≤ level + 1 - 1 by omega)
  have hrows : items.length * ((layout.indent level).length + 2) ≤
      items.length * ((layout.indent (level + 1)).length + 2) :=
    Nat.mul_le_mul_left _ (Nat.add_le_add_right hindent 2)
  rw [length_multilineUnion, length_multilineUnion, List.length_map, List.length_map]
  omega

/-- What is in lines is longer than it would be in a row. -/
theorem length_inlineUnion_le_multilineUnion
    (h : ∀ item ∈ items, (f item).length ≤ (g item).length) :
    (inlineUnion (items.map f)).length ≤ (multilineUnion layout level (items.map g)).length := by
  have hsum := sum_length_le h
  have hrows : items.length * 2 ≤ items.length * ((layout.indent level).length + 2) :=
    Nat.mul_le_mul_left _ (Nat.le_add_left 2 _)
  rw [length_inlineUnion, length_multilineUnion, List.length_map, List.length_map]
  omega

end

theorem renderAt_union (layout : Layout) (level : Nat) (variants : List Shape) :
    (union variants).renderAt layout level =
      if layout.isMultiline (variants.map (renderAt layout (level + 1))) then
        multilineUnion layout level (variants.map (renderAt layout (level + 1)))
      else inlineUnion (variants.map (renderAt layout level)) := by
  simp only [renderAt, renderAllAt_eq]

/-- **No declaration gets shorter one level deeper.** -/
theorem length_renderAt_le_succ (layout : Layout) (shape : Shape) (level : Nat) :
    (shape.renderAt layout level).length ≤ (shape.renderAt layout (level + 1)).length := by
  induction shape using Shape.ind generalizing level with
  | array element ih =>
    have hinner := ih level
    simp only [renderAt, String.length_append]
    omega
  | object fields ih =>
    have hlines : ∀ field ∈ fields.filter fun field => !field.isSystem,
        (fieldLine layout level field.name field.optional
            (field.shape.renderAt layout (level + 1))).length ≤
          (fieldLine layout (level + 1) field.name field.optional
            (field.shape.renderAt layout (level + 1 + 1))).length := by
      intro field hfield
      have hinner := ih field (List.mem_of_mem_filter hfield) (level + 1)
      have hindent := layout.length_indent_mono (show level ≤ level + 1 by omega)
      simp only [length_fieldLine, length_markOptional]
      omega
    have hblock := length_block_le layout level hlines
    simp only [renderAt, String.length_append, fieldLines_eq]
    omega
  | record keys values optional ihkeys ihvalues =>
    have hkeys := ihkeys level
    have hvalues := ihvalues level
    simp only [renderAt, String.length_append, length_markOptional]
    omega
  | union variants ih =>
    -- The layouts at `level` and `level + 1` depend on the variants one and two levels deeper.
    have hnext : ∀ variant ∈ variants, (variant.renderAt layout level).length ≤
        (variant.renderAt layout (level + 1)).length := fun variant hvariant =>
      ih variant hvariant level
    have hrows : ∀ variant ∈ variants, (variant.renderAt layout (level + 1)).length ≤
        (variant.renderAt layout (level + 1 + 1)).length := fun variant hvariant =>
      ih variant hvariant (level + 1)
    rw [renderAt_union, renderAt_union]
    by_cases hlines : layout.isMultiline (variants.map (renderAt layout (level + 1))) = true
    · rw [if_pos hlines, if_pos (Layout.isMultiline_of_le hrows hlines)]
      exact length_multilineUnion_le layout level hrows
    · rw [if_neg hlines]
      split
      · refine length_inlineUnion_le_multilineUnion layout (level + 1) ?_
        intro variant hvariant
        exact Nat.le_trans (hnext variant hvariant) (hrows variant hvariant)
      · exact length_inlineUnion_le hnext
  | _ => exact Nat.le_refl _

/-! ### The rule -/

/-- **The two layouts of a union**, each with what it says of the texts that it shows. -/
theorem renderAt_union_cases (layout : Layout) (level : Nat) (variants : List Shape) :
    ((union variants).renderAt layout level = inlineUnion (variants.map (renderAt layout level)) ∧
      variants.length ≤ layout.maxInlineVariants ∧
      ∀ variant ∈ variants, (variant.renderAt layout level).length ≤ layout.maxInlineLength) ∨
    ((union variants).renderAt layout level =
        multilineUnion layout level (variants.map (renderAt layout (level + 1))) ∧
      (layout.maxInlineVariants < variants.length ∨ ∃ variant ∈ variants,
        layout.maxInlineLength < (variant.renderAt layout (level + 1)).length)) := by
  rw [renderAt_union]
  cases hlines : layout.isMultiline (variants.map (renderAt layout (level + 1))) with
  | false =>
    obtain ⟨hfew, hshort⟩ := Layout.isMultiline_eq_false_iff.1 hlines
    rw [List.length_map] at hfew
    refine Or.inl ⟨rfl, hfew, ?_⟩
    intro variant hvariant
    -- The variant was measured one level deeper than it is shown.
    calc (variant.renderAt layout level).length
        ≤ (variant.renderAt layout (level + 1)).length :=
          length_renderAt_le_succ layout variant level
      _ ≤ layout.maxInlineLength := hshort _ (List.mem_map_of_mem hvariant)
  | true =>
    refine Or.inr ⟨rfl, ?_⟩
    rw [Layout.isMultiline_iff, List.length_map] at hlines
    rcases hlines with hmany | ⟨text, htext, hlong⟩
    · exact Or.inl hmany
    · obtain ⟨variant, hvariant, rfl⟩ := List.mem_map.1 htext
      exact Or.inr ⟨variant, hvariant, hlong⟩

/-- A line break after the opening parenthesis tells the two layouts apart. -/
theorem inlineUnion_ne_multilineUnion (layout : Layout) (level deeper : Nat)
    (variants : List Shape) (texts : List String) :
    inlineUnion (variants.map (renderAt layout level)) ≠ multilineUnion layout deeper texts := by
  intro h
  have hchar := congrArg (fun text => text.toList[8]?) h
  have hlines : (multilineUnion layout deeper texts).toList[8]? = some '\n' := by
    simp [multilineUnion]
  cases variants with
  | nil =>
    have hrow : (inlineUnion ([].map (renderAt layout level))).toList[8]? = some ')' := by
      simp [inlineUnion]
    rw [hrow, hlines] at hchar
    exact absurd hchar (by decide)
  | cons variant rest =>
    have hrow : (inlineUnion ((variant :: rest).map (renderAt layout level))).toList[8]? =
        some 'v' := by
      simp only [inlineUnion, String.toList_append, String.toList_intercalate, List.map_cons,
        toList_renderAt, call]
      cases rest <;> simp
    rw [hrow, hlines] at hchar
    exact absurd hchar (by decide)

/-- **The layout of a union follows the rule for the texts that are shown.**  At every level a union
is either in a row or in lines.  In a row there are not too many variants, and none of them is too
long as it stands there; in lines there are too many, or one of them is too long as it stands
there. -/
theorem union_layout (layout : Layout) (level : Nat) (variants : List Shape) :
    let text := (union variants).renderAt layout level
    let row := variants.map (renderAt layout level)
    let lines := variants.map (renderAt layout (level + 1))
    (text = inlineUnion row ∨ text = multilineUnion layout level lines) ∧
      ¬ (text = inlineUnion row ∧ text = multilineUnion layout level lines) ∧
      (text = inlineUnion row →
        variants.length ≤ layout.maxInlineVariants ∧
          ∀ shown ∈ row, shown.length ≤ layout.maxInlineLength) ∧
      (text = multilineUnion layout level lines →
        layout.maxInlineVariants < variants.length ∨
          ∃ shown ∈ lines, layout.maxInlineLength < shown.length) := by
  intro text row lines
  have hne : inlineUnion row ≠ multilineUnion layout level lines :=
    inlineUnion_ne_multilineUnion layout level level variants lines
  refine ⟨?_, fun h => hne (h.1.symm.trans h.2), ?_⟩
  · exact (renderAt_union_cases layout level variants).imp And.left And.left
  rcases renderAt_union_cases layout level variants with ⟨htext, hfew, hshort⟩ | ⟨htext, hlong⟩
  · refine ⟨fun _ => ⟨hfew, List.forall_mem_map.2 hshort⟩, ?_⟩
    intro hlines
    exact absurd (htext.symm.trans hlines) hne
  · refine ⟨fun hrow => absurd (hrow.symm.trans htext) hne, fun _ => hlong.imp_right ?_⟩
    rintro ⟨variant, hvariant, hlength⟩
    exact ⟨_, List.mem_map_of_mem hvariant, hlength⟩

/-- The same union in a row at one level and in lines at the next: its variant has 30, 34 and 38
characters at the levels `1`, `2` and `3`. -/
example :
    let layout : Layout := { maxInlineLength := 34 }
    let shape : Shape := object [⟨"a", false, string⟩]
    (union [shape]).renderAt layout 1 = inlineUnion [shape.renderAt layout 1] ∧
      (union [shape]).renderAt layout 2 =
        multilineUnion layout 2 [shape.renderAt layout 3] := by
  decide +kernel

end Shape

end DocShape
