import DocShape.Layout
import DocShape.Shape.Brief

/-!
# Declarations of shapes

The expression that declares a shape, laid out over lines. A **level** is the indentation of the
lines inside a block; the line that closes the block stands one level above. System fields are left
out of every object.

* `Shape.render`: **the declaration of a shape**.
-/

namespace DocShape.Shape

/-- A field name as it stands in a declaration: quoted unless it is an identifier. -/
def fieldKey (name : String) : String :=
  if Text.isIdentifier name then name else Text.quote name

/-- Lines between braces, the closing brace one level above them. -/
def block (layout : Layout) (level : Nat) (lines : List String) : String :=
  if lines.isEmpty then "\x7b\x7d"
  else "\x7b\n" ++ "\n".intercalate lines ++ "\n" ++ layout.indent (level - 1) ++ "\x7d"

/-- The line of a field whose shape has the given declaration. -/
def fieldLine (layout : Layout) (level : Nat) (name : String) (optional : Bool) (text : String) :
    String :=
  layout.indent level ++ fieldKey name ++ ": " ++ markOptional optional text ++ ","

/-- A union with one variant per line, the closing parenthesis one level above them. -/
def multilineUnion (layout : Layout) (level : Nat) (variants : List String) : String :=
  "v.union(\n" ++ String.join (variants.map fun text => layout.indent level ++ text ++ ",\n")
    ++ layout.indent (level - 1) ++ ")"

/-- A union of declared variants, on one line or one variant per line as the layout says. -/
def unionText (layout : Layout) (level : Nat) (variants : List String) : String :=
  if layout.isMultiline variants then multilineUnion layout level variants
  else inlineUnion variants

mutual

/-- The declaration of a shape whose inner lines stand at `level`. A union is laid out by its
variants as they are inside a block; on one line, they stand one level higher. -/
def renderAt (layout : Layout) (level : Nat) : Shape → String
  | literal value => "v.literal(" ++ value.text ++ ")"
  | id tableName => "v.id(" ++ Text.quote tableName ++ ")"
  | array element => "v.array(" ++ element.renderAt layout level ++ ")"
  | object fields => "v.object(" ++ block layout level (fieldLines layout level fields) ++ ")"
  | record keys values optional =>
    "v.record(" ++ keys.renderAt layout level ++ ", "
      ++ markOptional optional (values.renderAt layout level) ++ ")"
  | union variants =>
    let expanded := renderAllAt layout (level + 1) variants
    if layout.isMultiline expanded then multilineUnion layout level expanded
    else inlineUnion (renderAllAt layout level variants)
  | leaf => leaf.leafText

def fieldLines (layout : Layout) (level : Nat) : List (Field Shape) → List String
  | [] => []
  | field :: rest =>
    if field.isSystem then fieldLines layout level rest
    else
      fieldLine layout level field.name field.optional (field.shape.renderAt layout (level + 1))
        :: fieldLines layout level rest

def renderAllAt (layout : Layout) (level : Nat) : List Shape → List String
  | [] => []
  | shape :: rest => shape.renderAt layout level :: renderAllAt layout level rest

end

theorem fieldLines_eq (layout : Layout) (level : Nat) (fields : List (Field Shape)) :
    fieldLines layout level fields =
      (fields.filter fun field => !field.isSystem).map fun field =>
        fieldLine layout level field.name field.optional
          (field.shape.renderAt layout (level + 1)) := by
  induction fields with
  | nil => rfl
  | cons field rest ih =>
    rw [fieldLines, ih, List.filter_cons]
    cases field.isSystem <;> rfl

theorem renderAllAt_eq (layout : Layout) (level : Nat) (shapes : List Shape) :
    renderAllAt layout level shapes = shapes.map (renderAt layout level) := by
  induction shapes with
  | nil => rfl
  | cons shape rest ih => rw [renderAllAt, ih, List.map_cons]

def render (layout : Layout) (shape : Shape) : String := shape.renderAt layout 1

end DocShape.Shape
