import DocShape.Shape.Declaration
import DocShape.Proofs.Shape.Parts
import DocShape.Proofs.Text.Delimited

/-!
# Declarations as calls

Every declaration is a call `v.kind(arguments)`, and the name of the kind says
which arguments to expect.  An object has a block of field lines as its only
argument; a union has lines of variants, or its variants in a row.

* `Shape.arguments`: what stands between the parentheses, character by character.
* `Shape.toList_renderAt`: **a declaration is the call of its kind**.
-/

namespace DocShape

theorem Layout.toList_indent (layout : Layout) (level : Nat) :
    (layout.indent level).toList = List.replicate (layout.indentWidth * level) ' ' :=
  String.toList_ofList

/-- A list with separators, the last item followed by one too. -/
theorem Text.intercalate_append {α : Type} {separator : List α} {items : List (List α)}
    (h : items ≠ []) :
    separator.intercalate items ++ separator = items.flatMap fun item => item ++ separator := by
  induction items with
  | nil => exact absurd rfl h
  | cons item items ih =>
    cases items with
    | nil => rw [List.intercalate_singleton, List.flatMap_singleton]
    | cons next items =>
      rw [List.intercalate_cons_cons, List.append_assoc, ih (List.cons_ne_nil _ _)]
      rfl

namespace Shape

/-- The call `v.name(arguments)`. -/
def call (name : String) (arguments : List Char) : List Char :=
  'v' :: '.' :: (name.toList ++ '(' :: (arguments ++ [')']))

/-- The line of a field in the block of an object, with its line break. -/
def fieldRow (layout : Layout) (level : Nat) (field : Field Shape) : List Char :=
  (layout.indent level).toList ++ (fieldKey field.name).toList ++ [':', ' '] ++
    (markOptional field.optional (field.shape.renderAt layout (level + 1))).toList ++ [',', '\n']

/-- The line of a variant in a union of many lines, with its line break. -/
def variantRow (layout : Layout) (level : Nat) (variant : Shape) : List Char :=
  (layout.indent level).toList ++ (variant.renderAt layout (level + 1)).toList ++ [',', '\n']

/-- What stands between the parentheses of the declaration of a shape. -/
def arguments (layout : Layout) (level : Nat) : Shape → List Char
  | literal value => value.text.toList
  | id tableName => (Text.quote tableName).toList
  | array element => (element.renderAt layout level).toList
  | object fields =>
    if (userFields fields).isEmpty then ['{', '}']
    else ['{', '\n'] ++ (userFields fields).flatMap (fieldRow layout level) ++
      (layout.indent (level - 1)).toList ++ ['}']
  | record keys values optional =>
    (keys.renderAt layout level).toList ++ [',', ' '] ++
      (markOptional optional (values.renderAt layout level)).toList
  | union variants =>
    if layout.isMultiline (renderAllAt layout (level + 1) variants) then
      '\n' :: (variants.flatMap (variantRow layout level) ++ (layout.indent (level - 1)).toList)
    else [',', ' '].intercalate (variants.map fun variant => (variant.renderAt layout level).toList)
  | _ => []

theorem toList_markOptional (optional : Bool) (text : String) :
    (markOptional optional text).toList =
      if optional then call "optional" text.toList else text.toList := by
  cases optional with
  | false => rfl
  | true => simp [markOptional, call]

theorem toList_fieldLine (layout : Layout) (level : Nat) (field : Field Shape) :
    (fieldLine layout level field.name field.optional
      (field.shape.renderAt layout (level + 1))).toList ++ ['\n'] =
        fieldRow layout level field := by
  simp [fieldLine, fieldRow]

theorem toList_block (layout : Layout) (level : Nat) (lines : List String) :
    (block layout level lines).toList =
      if lines.isEmpty then ['{', '}']
      else ['{', '\n'] ++ lines.flatMap (fun line => line.toList ++ ['\n']) ++
        (layout.indent (level - 1)).toList ++ ['}'] := by
  unfold block
  split
  · rfl
  · next h =>
    have hrows : ['\n'].intercalate (lines.map String.toList) ++ ['\n'] =
        (lines.map String.toList).flatMap fun line => line ++ ['\n'] :=
      Text.intercalate_append (by simpa using h)
    rw [List.flatMap_map] at hrows
    rw [← hrows]
    simp [String.toList_intercalate]

/-- **A declaration is the call of its kind.** -/
theorem toList_renderAt (layout : Layout) (level : Nat) (shape : Shape) :
    (shape.renderAt layout level).toList = call shape.kindText (shape.arguments layout level) := by
  cases shape with
  | literal value => simp [renderAt, arguments, call, kindText]
  | id tableName => simp [renderAt, arguments, call, kindText]
  | array element => simp [renderAt, arguments, call, kindText]
  | object fields =>
    have hlines : fieldLines layout level fields = (userFields fields).map fun field =>
        fieldLine layout level field.name field.optional
          (field.shape.renderAt layout (level + 1)) := fieldLines_eq layout level fields
    simp only [renderAt, arguments, String.toList_append, toList_block, hlines, List.flatMap_map,
      toList_fieldLine, List.isEmpty_map]
    simp [call, kindText]
  | record keys values optional => simp [renderAt, arguments, call, kindText]
  | union variants =>
    simp only [renderAt, arguments]
    split
    · have hrow : variantRow layout level = fun variant => (layout.indent level).toList ++
          ((variant.renderAt layout (level + 1)).toList ++ [',', '\n']) := by
        funext variant
        rw [variantRow, List.append_assoc]
      simp [multilineUnion, call, kindText, renderAllAt_eq, hrow, List.flatMap_map]
    · simp [inlineUnion, call, kindText, renderAllAt_eq, Function.comp_def]
  | _ => simp [renderAt, leafText, arguments, call, kindText]

end Shape

end DocShape
