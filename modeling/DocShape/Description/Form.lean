import DocShape.Description.Layer
import DocShape.Shape.Basic

/-!
# One level of a description

A description is a JSON node with a type tag. Two dialects are read alike: lowercase tags with a map
of fields, and capitalised tags with a list of fields; the case of a tag never matters, and each
part may stand under any of its names.

* `Form.ofJson`: **what one node describes**, the nodes inside it left as they are.
-/

namespace DocShape

/-- What one node describes, with the nodes of its parts. -/
inductive Form where
  | leaf (shape : Shape)
  | array (element : Json)
  /-- The entries of an object; in a list of fields an entry may lack a name. -/
  | object (entries : List (Option String × Json))
  | record (keys values : Json)
  | union (variants : List Json)

namespace Form

/-- An entry in a list of fields: its name stands under `fieldName` or, if that is missing, under
`name`. -/
def listEntry (entry : Json) : Option String × Json :=
  let name? := (entry.get? "fieldName").or (entry.get? "name")
  (name?.bind Json.string?, entry)

def entries? : Json → Option (List (Option String × Json))
  | .object members => some (members.map fun (name, entry) => (some name, entry))
  | .array items => some (items.map listEntry)
  | _ => none

def part {α : Type} (found : Option α) (fault : NodeFault) : Except NodeFault α :=
  match found with
  | some part => .ok part
  | none => .error fault

/-- The form of a node with the given tag, in lower case. -/
def ofTag (tag : String) (members : Members) : Except NodeFault Form :=
  match tag with
  | "null" => .ok (leaf .null)
  | "string" => .ok (leaf .string)
  | "boolean" => .ok (leaf .boolean)
  | "bool" => .ok (leaf .boolean)
  | "number" => .ok (leaf .float64)
  | "float64" => .ok (leaf .float64)
  | "float" => .ok (leaf .float64)
  | "bigint" => .ok (leaf .int64)
  | "int64" => .ok (leaf .int64)
  | "bytes" => .ok (leaf .bytes)
  | "any" => .ok (leaf .any)
  | "unknown" => .ok (leaf .any)
  | "literal" => do
    let value ← part ((members.lookup "value").bind Literal.ofJson?) .literalWithoutScalar
    return leaf (.literal value)
  | "id" => do
    let tableName ← part ((members.lookup "tableName").bind Json.string?) .idWithoutTable
    return leaf (.id tableName)
  | "array" => do
    return array (← part (firstGiven? members ["value", "element", "shape"]) .arrayWithoutElement)
  | "object" => do
    let entries := (firstGiven? members ["value", "fields"]).bind entries?
    return object (← part entries .objectWithoutFields)
  | "record" => do
    let keys ← part (firstGiven? members ["keys", "keyShape"]) .recordIncomplete
    return record keys (← part (firstGiven? members ["values", "valueShape"]) .recordIncomplete)
  | "union" =>
    match (firstGiven? members ["value", "variants", "shapes"]).bind Json.items? with
    | some (first :: rest) => .ok (union (first :: rest))
    | _ => .error .unionWithoutVariants
  | "never" => .error .uninhabited
  | tag => .error (.unknownKind tag)

/-- The form of a node, or why it has none. -/
def ofJson (node : Json) : Except NodeFault Form := do
  let members ← part node.members? .notAnObject
  let tag ← part (typeTag? members) .noTypeTag
  ofTag (lowerTag tag) members

end Form

end DocShape
