import DocShape.Proofs.Shape.SystemFields
import DocShape.Proofs.Shape.Unambiguous
import DocShape.Proofs.Shape.UnionLayout

/-!
# Declarations on one line

The short form of a shape and its declaration are written by two recursions that know
nothing of each other.  The short form hides the fields of objects and never breaks
a line; a declaration breaks one for every field that it shows, and for every variant
of a union that is in lines.  Elsewhere the two write the same, so

    a declaration is the short form ↔ it has no line break.

One direction is that the short form has none.  The other one is by induction on the
shape: if a declaration has no line break, then no part of it has one.

* `Shape.newline_notMem_brief`: the short form is one line.
* `Shape.renderAt_eq_brief`: **what is declared on one line is the short form**, at every
  level.
* `Shape.render_eq_brief_iff`: both together.
-/

namespace DocShape

theorem Literal.newline_notMem_text (value : Literal) : '\n' ∉ value.text.toList := by
  cases value with
  | string s => exact Text.newline_notMem_quote s
  | number n => exact fun h => absurd (n.mem_declarationText _ h) (by decide)
  | boolean b => cases b <;> decide

namespace Shape

/-! ### Parts without a line break -/

theorem newline_notMem_markOptional_iff {optional : Bool} {text : String} :
    '\n' ∉ (markOptional optional text).toList ↔ '\n' ∉ text.toList := by
  rw [toList_markOptional]
  cases optional with
  | false => rfl
  | true => simp [call]

theorem newline_notMem_intercalate_iff {texts : List (List Char)} :
    '\n' ∉ [',', ' '].intercalate texts ↔ ∀ text ∈ texts, '\n' ∉ text := by
  cases texts with
  | nil => simp
  | cons first texts => simp [Text.intercalate_cons]

theorem newline_notMem_renderAt_iff {layout : Layout} {level : Nat} {shape : Shape} :
    '\n' ∉ (shape.renderAt layout level).toList ↔ '\n' ∉ shape.arguments layout level := by
  have hkind : '\n' ∉ shape.kindText.toList := notMem_kindText shape (by decide)
  rw [toList_renderAt, call]
  simp [hkind]

/-! ### Both forms on one line -/

/-- **The short form is one line.** -/
theorem newline_notMem_brief (shape : Shape) : '\n' ∉ shape.brief.toList := by
  induction shape using Shape.ind with
  | literal value => simp [brief, value.newline_notMem_text]
  | id tableName => simp [brief, Text.newline_notMem_quote]
  | array element ih => simp [brief, ih]
  | object fields _ =>
    rw [brief]
    split <;> decide
  | record keys values optional ihkeys ihvalues =>
    simp [brief, ihkeys, newline_notMem_markOptional_iff, ihvalues]
  | union variants ih =>
    have hvariants : '\n' ∉ [',', ' '].intercalate ((variants.map brief).map String.toList) := by
      rw [newline_notMem_intercalate_iff]
      simpa using ih
    simpa [brief, briefAll_eq, inlineUnion, String.toList_intercalate] using hvariants
  | _ => simp [brief, leafText]

/-- An object without a line break shows none of its fields. -/
theorem userFields_eq_nil_of_newline_notMem {layout : Layout} {level : Nat}
    {fields : List (Field Shape)} (h : '\n' ∉ (object fields).arguments layout level) :
    userFields fields = [] := by
  by_contra hfields
  rw [arguments, if_neg (by simpa using hfields)] at h
  simp at h

/-- **What is declared on one line is the short form.** -/
theorem renderAt_eq_brief {layout : Layout} {level : Nat} (shape : Shape)
    (h : '\n' ∉ (shape.renderAt layout level).toList) :
    shape.renderAt layout level = shape.brief := by
  rw [newline_notMem_renderAt_iff] at h
  induction shape using Shape.ind with
  | array element ih =>
    rw [arguments, newline_notMem_renderAt_iff] at h
    rw [renderAt, brief, ih h]
  | object fields _ =>
    have hfields := userFields_eq_nil_of_newline_notMem h
    have hlines : fieldLines layout level fields = [] := by
      rw [fieldLines_eq]
      exact List.map_eq_nil_iff.2 hfields
    rw [renderAt, brief, hlines, if_pos (all_isSystem_iff.2 hfields)]
    rfl
  | record keys values optional ihkeys ihvalues =>
    simp only [arguments, List.mem_append, not_or] at h
    obtain ⟨⟨hkeys, -⟩, hvalues⟩ := h
    rw [newline_notMem_renderAt_iff] at hkeys
    rw [newline_notMem_markOptional_iff, newline_notMem_renderAt_iff] at hvalues
    rw [renderAt, brief, ihkeys hkeys, ihvalues hvalues]
  | union variants ih =>
    rw [arguments, renderAllAt_eq] at h
    rw [renderAt_union, brief, briefAll_eq]
    by_cases hlines : layout.isMultiline (variants.map (renderAt layout (level + 1))) = true
    · rw [if_pos hlines] at h
      exact absurd List.mem_cons_self h
    · rw [if_neg hlines, newline_notMem_intercalate_iff, List.forall_mem_map] at h
      have hvariants : ∀ variant ∈ variants, variant.renderAt layout level = variant.brief :=
        fun variant hmem => ih variant hmem (newline_notMem_renderAt_iff.1 (h variant hmem))
      rw [if_neg hlines, List.map_congr_left hvariants]
  | _ => rfl

/-- **A declaration is the short form exactly if it has no line break**, and the short form has
none: in every layout, and whatever characters the strings and names hold. -/
theorem render_eq_brief_iff (layout : Layout) (shape : Shape) :
    '\n' ∉ shape.brief.toList ∧
      (shape.render layout = shape.brief ↔ '\n' ∉ (shape.render layout).toList) := by
  refine ⟨newline_notMem_brief shape, ?_, renderAt_eq_brief shape⟩
  intro h
  rw [h]
  exact newline_notMem_brief shape

/-- System fields break no line, and any other field does. -/
example : (object [⟨"_id", false, string⟩]).render {} = (object [⟨"_id", false, string⟩]).brief ∧
    (object [⟨"a", false, string⟩]).render {} ≠ (object [⟨"a", false, string⟩]).brief := by
  decide +kernel

end Shape

end DocShape
