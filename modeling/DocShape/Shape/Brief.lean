import DocShape.Shape.Basic

/-!
# Shapes on one line

The short form of a shape in messages, where an object shows none of its fields; and the parts that
it shares with declarations.
-/

namespace DocShape.Shape

/-- The expression of a shape without parts. Shapes with parts have none of their own. -/
def leafText : Shape → String
  | null => "v.null()"
  | string => "v.string()"
  | boolean => "v.boolean()"
  | float64 => "v.float64()"
  | int64 => "v.int64()"
  | bytes => "v.bytes()"
  | _ => "v.any()"

/-- An expression, marked if it is optional. -/
def markOptional (optional : Bool) (text : String) : String :=
  if optional then "v.optional(" ++ text ++ ")" else text

def inlineUnion (variants : List String) : String :=
  "v.union(" ++ ", ".intercalate variants ++ ")"

mutual

/-- The short form of a shape. -/
def brief : Shape → String
  | literal value => "v.literal(" ++ value.text ++ ")"
  | id tableName => "v.id(" ++ Text.quote tableName ++ ")"
  | array element => "v.array(" ++ element.brief ++ ")"
  | object fields =>
    if fields.all (·.isSystem) then "v.object(\x7b\x7d)" else "v.object(\x7b...\x7d)"
  | record keys values optional =>
    "v.record(" ++ keys.brief ++ ", " ++ markOptional optional values.brief ++ ")"
  | union variants => inlineUnion (briefAll variants)
  | leaf => leaf.leafText

def briefAll : List Shape → List String
  | [] => []
  | shape :: rest => shape.brief :: briefAll rest

end

theorem briefAll_eq (shapes : List Shape) : briefAll shapes = shapes.map brief := by
  induction shapes with
  | nil => rfl
  | cons shape rest ih => rw [briefAll, ih, List.map_cons]

end DocShape.Shape
