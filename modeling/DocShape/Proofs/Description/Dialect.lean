import DocShape.Description.Layer
import DocShape.Place
import DocShape.Shape.Default

/-!
# The two dialects

Descriptions come in two dialects, which name kinds and parts differently:

```
{"type": "object", "value": {"x": {"fieldType": {"type": "float64"}, "optional": true}}}
{"type": "Object", "fields": [{"fieldName": "x", "shape": {"type": "Float64"}, "optional": true}]}
```

In both, the case of a tag is free, and each node may have its own.

* `Dialect.IsTag`: which tags a shape may have.
* `Shape.description`: **the description of a shape in a dialect**, under a choice of
  its tags.
-/

namespace DocShape

/-- Whether two texts differ at most in the case of ASCII letters. -/
def Text.SameButCase (s t : String) : Prop := s.toList.map Char.toLower = t.toList.map Char.toLower

instance (s t : String) : Decidable (Text.SameButCase s t) :=
  inferInstanceAs (Decidable (s.toList.map Char.toLower = t.toList.map Char.toLower))

/-- A way to write descriptions. -/
inductive Dialect where
  /-- Lowercase tags, and a map of fields. -/
  | validator
  /-- Capitalised tags, and a list of fields. -/
  | shape
deriving DecidableEq

namespace Dialect

/-- What stands in one dialect or in the other. -/
def pick {α : Type} (dialect : Dialect) (inValidator inShape : α) : α :=
  match dialect with
  | validator => inValidator
  | shape => inShape

/-! ### Names -/

/-- The tags of a shape, in the case in which the dialect writes them. -/
def tagNames (dialect : Dialect) : Shape → List String
  | .null => dialect.pick ["null"] ["Null"]
  | .string => dialect.pick ["string"] ["String"]
  | .boolean => dialect.pick ["boolean"] ["Boolean"]
  | .float64 => dialect.pick ["number", "float64"] ["Float64"]
  | .int64 => dialect.pick ["bigint", "int64"] ["Int64"]
  | .bytes => dialect.pick ["bytes"] ["Bytes"]
  | .any => dialect.pick ["any"] ["Unknown"]
  | .literal _ => dialect.pick ["literal"] ["Literal"]
  | .id _ => dialect.pick ["id"] ["Id"]
  | .array _ => dialect.pick ["array"] ["Array"]
  | .object _ => dialect.pick ["object"] ["Object"]
  | .record _ _ _ => dialect.pick ["record"] ["Record"]
  | .union _ => dialect.pick ["union"] ["Union"]

/-- Whether a shape may be tagged `tag`, in whatever case. -/
def IsTag (dialect : Dialect) (shape : Shape) (tag : String) : Prop :=
  ∃ name ∈ dialect.tagNames shape, Text.SameButCase tag name

def elementKey (dialect : Dialect) : String := dialect.pick "value" "shape"

def variantsKey (dialect : Dialect) : String := dialect.pick "value" "shapes"

def keysKey (dialect : Dialect) : String := dialect.pick "keys" "keyShape"

def valuesKey (dialect : Dialect) : String := dialect.pick "values" "valueShape"

/-- Under which name a field, or the values of a record, has its description. -/
def slotKey (dialect : Dialect) : String := dialect.pick "fieldType" "shape"

/-! ### Nodes -/

/-- A description that may stand for something left out. -/
def slot (dialect : Dialect) (node : Json) (optional : Bool) : Members :=
  [(dialect.slotKey, node), ("optional", .bool optional)]

/-- The entry of a field that has its description for a shape. -/
def fieldEntry : Dialect → Field Json → Json
  | validator, field => .object (validator.slot field.shape field.optional)
  | shape, field =>
    .object (("fieldName", .string field.name) :: shape.slot field.shape field.optional)

/-- The member of an object's node that holds its fields. -/
def fieldsMember : Dialect → List (Field Json) → String × Json
  | validator, fields =>
    ("value", .object <| Members.ofList <| fields.map fun field =>
      (field.name, validator.fieldEntry field))
  | shape, fields => ("fields", .array (fields.map shape.fieldEntry))

end Dialect

namespace Shape

section

variable (dialect : Dialect) (tag : List Step → Shape → String)

mutual

/-- The description of a shape in a dialect; the node at a place has the tag that `tag` gives it
there. -/
def description (place : List Step) : Shape → Json
  | array element =>
    .object [("type", .string (tag place (array element))),
      (dialect.elementKey, element.description (place ++ [.element]))]
  | object fields =>
    .object [("type", .string (tag place (object fields))),
      dialect.fieldsMember (descriptionsOfFields place fields)]
  | record keys values optional =>
    .object [("type", .string (tag place (record keys values optional))),
      (dialect.keysKey, keys.description (place ++ [.key])),
      (dialect.valuesKey, .object (dialect.slot (values.description (place ++ [.value])) optional))]
  | union variants =>
    .object [("type", .string (tag place (union variants))),
      (dialect.variantsKey, .array (descriptionsOfAll place 0 variants))]
  | literal value =>
    .object [("type", .string (tag place (literal value))), ("value", value.toJson)]
  | id tableName =>
    .object [("type", .string (tag place (id tableName))), ("tableName", .string tableName)]
  | leaf => .object [("type", .string (tag place leaf))]

def descriptionsOfFields (place : List Step) : List (Field Shape) → List (Field Json)
  | [] => []
  | field :: rest =>
    ⟨field.name, field.optional, field.shape.description (place ++ [.member field.name])⟩ ::
      descriptionsOfFields place rest

/-- Variants, the first of which has the given index. -/
def descriptionsOfAll (place : List Step) (index : Nat) : List Shape → List Json
  | [] => []
  | shape :: rest =>
    shape.description (place ++ [.item index]) :: descriptionsOfAll place (index + 1) rest

end

theorem descriptionsOfFields_eq (place : List Step) (fields : List (Field Shape)) :
    descriptionsOfFields dialect tag place fields = fields.map fun field =>
      ⟨field.name, field.optional,
        field.shape.description dialect tag (place ++ [.member field.name])⟩ := by
  induction fields with
  | nil => rfl
  | cons field rest ih => rw [descriptionsOfFields, ih, List.map_cons]

theorem descriptionsOfAll_eq (place : List Step) (index : Nat) (shapes : List Shape) :
    descriptionsOfAll dialect tag place index shapes = (shapes.zipIdx index).map fun entry =>
      entry.1.description dialect tag (place ++ [.item entry.2]) := by
  induction shapes generalizing index with
  | nil => rfl
  | cons shape rest ih => rw [descriptionsOfAll, ih, List.zipIdx_cons, List.map_cons]

end

example : (object [⟨"name", false, string⟩, ⟨"age", true, float64⟩]).description .validator
    (fun _ shape => (Dialect.validator.tagNames shape).headD "") [] =
    .object [("type", .string "object"), ("value", .object [
      ("name", .object [("fieldType", .object [("type", .string "string")]),
        ("optional", .bool false)]),
      ("age", .object [("fieldType", .object [("type", .string "number")]),
        ("optional", .bool true)])])] := rfl

end Shape

end DocShape
