import DocShape.Json.Basic
import DocShape.Text.Quoted

/-!
# JSON text

`Json.text` writes a value without blanks, members in their order.
-/

namespace DocShape.Json

mutual

/-- The value as JSON text. -/
def text : Json → String
  | null => "null"
  | bool b => if b then "true" else "false"
  | number n => n.jsonText
  | string s => Text.quote s
  | array items => "[" ++ ",".intercalate (itemTexts items) ++ "]"
  | object members => "\x7b" ++ ",".intercalate (memberTexts members) ++ "\x7d"

def itemTexts : List Json → List String
  | [] => []
  | item :: rest => item.text :: itemTexts rest

def memberTexts : List (String × Json) → List String
  | [] => []
  | (name, value) :: rest => (Text.quote name ++ ":" ++ value.text) :: memberTexts rest

end

theorem itemTexts_eq (items : List Json) : itemTexts items = items.map text := by
  induction items with
  | nil => rfl
  | cons item rest ih => rw [itemTexts, ih, List.map_cons]

theorem memberTexts_eq (members : Members) :
    memberTexts members =
      members.map fun (name, value) => Text.quote name ++ ":" ++ value.text := by
  induction members with
  | nil => rfl
  | cons member rest ih => rw [memberTexts, ih, List.map_cons]

end DocShape.Json
