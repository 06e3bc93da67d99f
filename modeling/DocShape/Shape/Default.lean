import DocShape.Shape.Check

/-!
# Default values

The value that a shape starts with, and the document that a table starts with. System fields are
left out. A default is accepted by its shape, but for references, which are left empty.

* `Shape.default`: the value of a shape.
* `Shape.document`: **the document of a document type**, with its optional fields.
-/

namespace DocShape

/-- The members of an object with the given fields. -/
def Members.ofList (fields : List (String × Json)) : Members :=
  fields.foldl (fun members (name, value) => members.put name value) []

namespace Shape

/-- Of the variants with their defaults, the first default that its variant accepts, else the first,
else `null`. -/
def chooseDefault (variants : List (Shape × Json)) : Json :=
  match variants.find? fun (variant, value) => variant.accepts (some value) with
  | some (_, value) => value
  | none => (variants.head?.map (·.2)).getD .null

mutual

/-- The default value of a shape. -/
def default : Shape → Json
  | null => .null
  | boolean => .bool false
  | float64 => .ofNat 0
  | int64 => .ofNat 0
  | literal value => value.toJson
  | array _ => .array []
  | object fields => .object (Members.ofList (requiredDefaults fields))
  | record _ _ _ => .object []
  | union variants => chooseDefault (defaultEach variants)
  | string => .string ""
  | bytes => .string ""
  | any => .string ""
  | id _ => .string ""

def requiredDefaults : List (Field Shape) → List (String × Json)
  | [] => []
  | field :: rest =>
    if field.optional || field.isSystem then requiredDefaults rest
    else (field.name, field.shape.default) :: requiredDefaults rest

def defaultEach : List Shape → List (Shape × Json)
  | [] => []
  | variant :: rest => (variant, variant.default) :: defaultEach rest

end

theorem requiredDefaults_eq (fields : List (Field Shape)) :
    requiredDefaults fields =
      (fields.filter fun field => !(field.optional || field.isSystem)).map fun field =>
        (field.name, field.shape.default) := by
  induction fields with
  | nil => rfl
  | cons field rest ih =>
    rw [requiredDefaults, ih, List.filter_cons]
    cases field.optional || field.isSystem <;> rfl

theorem defaultEach_eq (variants : List Shape) :
    defaultEach variants = variants.map fun variant => (variant, variant.default) := by
  induction variants with
  | nil => rfl
  | cons variant rest ih => rw [defaultEach, ih, List.map_cons]

/-- The document of an object type: all fields, optional ones included. -/
def documentOf (fields : List (Field Shape)) : Members :=
  let declared := fields.filter fun field => !field.isSystem
  Members.ofList (declared.map fun field => (field.name, field.shape.default))

/-- The document of a document type. A union starts with its first object variant; a shape that
describes no object has the empty document. -/
def document : Shape → Members
  | object fields => documentOf fields
  | union variants => ((variants.findSome? fields?).map documentOf).getD []
  | _ => []

end Shape

end DocShape
