import DocShape.Place
import DocShape.Shape.Brief
import DocShape.Text.Base64

/-!
# Checking values

Holding a value against a shape. Every mismatch is reported, in the order of the shape; fields that
the shape does not declare are free, and system fields are never checked. A value may be absent,
which is not the same as `null`.

The check does not look at places: it is given how to write a place one step down, and uses it for
any type of places. `Shape.validate` writes them as texts.

* `Shape.check`: the mismatches of a value.
* `Shape.accepts`: whether there is none.
* `Shape.validate`: **the mismatches as messages**.
-/

namespace DocShape

/-- A place where a value is not what its shape expects. For a union, `closest` holds the mismatches
with the variant that comes nearest. -/
structure Mismatch (α : Type) where
  observed : String
  expected : String
  place : α
  closest : List (Mismatch α)

namespace Mismatch

mutual

def message : Mismatch String → String
  | ⟨observed, expected, place, closest⟩ =>
    "Type '" ++ observed ++ "' is not assignable to " ++ expected
      ++ (if place = "" then "" else " for " ++ place)
      ++ (if closest.isEmpty then ""
        else " (closest variant: " ++ "; ".intercalate (messages closest) ++ ")")

def messages : List (Mismatch String) → List String
  | [] => []
  | mismatch :: rest => mismatch.message :: messages rest

end

theorem messages_eq (mismatches : List (Mismatch String)) :
    messages mismatches = mismatches.map message := by
  induction mismatches with
  | nil => rfl
  | cons mismatch rest ih => rw [messages, ih, List.map_cons]

end Mismatch

namespace Shape

/-! ## Observed values -/

def typeName : Option Json → String
  | none => "undefined"
  | some .null => "null"
  | some (.bool _) => "boolean"
  | some (.number _) => "number"
  | some (.string _) => "string"
  | some (.array _) => "array"
  | some (.object _) => "object"

/-- A scalar as JSON text, any other value by its type. -/
def describe : Option Json → String
  | some (.bool b) => (Json.bool b).text
  | some (.number n) => (Json.number n).text
  | some (.string s) => (Json.string s).text
  | value => typeName value

/-- Whether a value is absent or `null`. -/
def isMissing : Option Json → Bool
  | none => true
  | some value => value.isNull

/-- Whether a value is an integer of 64 bits. A whole double is none. -/
def isInt64 : Option Json → Bool
  | some (.number (.integer n)) => Int64.minValue.toInt ≤ n && n ≤ Int64.maxValue.toInt
  | _ => false

/-- Whether a value belongs to a shape without parts. -/
def leafAccepts : Shape → Option Json → Bool
  | null, value => match value with | some .null => true | _ => false
  | string, value => match value with | some (.string _) => true | _ => false
  | boolean, value => match value with | some (.bool _) => true | _ => false
  | float64, value => match value with | some (.number _) => true | _ => false
  | int64, value => isInt64 value
  | bytes, value => match value with | some (.string s) => Text.isBase64 s | _ => false
  | literal expected, value => value.any expected.accepts
  | id _, value => match value with | some (.string s) => Text.isDocumentId s | _ => false
  | _, _ => true

/-! ## Mismatches -/

def typeMismatch {α : Type} (shape : Shape) (value : Option Json) (place : α) : Mismatch α :=
  ⟨typeName value, shape.brief, place, []⟩

def valueMismatch {α : Type} (expected : String) (value : Option Json) (place : α) :
    Mismatch α :=
  ⟨describe value, expected, place, []⟩

/-- The mismatch of a shape without parts. For a literal and an id it shows the value, otherwise its
type. -/
def leafMismatch {α : Type} (shape : Shape) (value : Option Json) (place : α) : Mismatch α :=
  match shape with
  | literal _ => valueMismatch shape.brief value place
  | id _ => valueMismatch shape.brief value place
  | _ => shape.typeMismatch value place

/-- Whether a variant and a value are containers of the same type. -/
def sharesContainer : Shape → Option Json → Bool
  | object _, some (.object _) => true
  | record _ _ _, some (.object _) => true
  | array _, some (.array _) => true
  | _, _ => false

/-- The first of the shortest lists. -/
def shortest? {β : Type} : List (List β) → Option (List β)
  | [] => none
  | list :: rest =>
    match shortest? rest with
    | some other => if other.length < list.length then some other else some list
    | none => some list

def literalText? : Shape → Option String
  | literal value => some value.text
  | _ => none

/-- The mismatch of a union, given each variant with its mismatches. If a variant is a literal, the
literals are what was expected; else the mismatches of the nearest container are shown. -/
def unionMismatch {α : Type} (attempts : List (Shape × List (Mismatch α))) (value : Option Json)
    (place : α) : Mismatch α :=
  let variants := attempts.map (·.1)
  let literals := variants.filterMap literalText?
  if literals.isEmpty then
    let containers := attempts.filter fun attempt => attempt.1.sharesContainer value
    ⟨typeName value, "union " ++ (union variants).brief, place,
      (shortest? (containers.map (·.2))).getD []⟩
  else
    valueMismatch ("one of " ++ " | ".intercalate literals) value place

/-! ## The check -/

section

variable {α : Type} (extend : α → Step → α)

mutual

/-- The mismatches of a value at a place. -/
def check (shape : Shape) (value : Option Json) (place : α) : List (Mismatch α) :=
  match shape with
  | array element =>
    match value with
    | some (.array items) =>
      items.zipIdx.flatMap fun (item, index) =>
        element.check (some item) (extend place (.item index))
    | _ => [typeMismatch (array element) value place]
  | object fields =>
    match value with
    | some (.object members) => checkDeclared fields members place
    | _ => [typeMismatch (object fields) value place]
  | record keys values optional =>
    match value with
    | some (.object members) =>
      members.flatMap fun (name, entry) =>
        keys.check (some (.string name)) (extend place (.member name))
          ++ (if optional && entry.isNull then []
            else values.check (some entry) (extend place (.member name)))
    | _ => [typeMismatch (record keys values optional) value place]
  | union variants =>
    let attempts := checkEach variants value place
    if attempts.any fun attempt => attempt.2.isEmpty then []
    else [unionMismatch attempts value place]
  | leaf =>
    if leaf.leafAccepts value then [] else [leaf.leafMismatch value place]
termination_by structural shape

/-- The mismatches of the members of an object with the declared fields. -/
def checkDeclared (fields : List (Field Shape)) (members : Members) (place : α) :
    List (Mismatch α) :=
  match fields with
  | [] => []
  | field :: rest =>
    let value := members.lookup field.name
    (if field.isSystem || (field.optional && isMissing value) then []
      else field.shape.check value (extend place (.member field.name)))
      ++ checkDeclared rest members place
termination_by structural fields

/-- Each variant with the mismatches of the value. -/
def checkEach (variants : List Shape) (value : Option Json) (place : α) :
    List (Shape × List (Mismatch α)) :=
  match variants with
  | [] => []
  | variant :: rest => (variant, variant.check value place) :: checkEach rest value place
termination_by structural variants

end

theorem checkDeclared_eq (fields : List (Field Shape)) (members : Members) (place : α) :
    checkDeclared extend fields members place =
      (fields.filter fun field => !field.isSystem).flatMap fun field =>
        let value := members.lookup field.name
        if field.optional && isMissing value then []
        else field.shape.check extend value (extend place (.member field.name)) := by
  induction fields with
  | nil => rfl
  | cons field rest ih =>
    rw [checkDeclared, ih, List.filter_cons]
    cases field.isSystem <;> rfl

theorem checkEach_eq (variants : List Shape) (value : Option Json) (place : α) :
    checkEach extend variants value place =
      variants.map fun variant => (variant, variant.check extend value place) := by
  induction variants with
  | nil => rfl
  | cons variant rest ih => rw [checkEach, ih, List.map_cons]

end

/-- Whether a shape accepts a value, which may be absent. -/
def accepts (shape : Shape) (value : Option Json) : Bool :=
  (shape.check Place.extend value "").isEmpty

/-- One message for each mismatch of a value at a place. -/
def validate (shape : Shape) (value : Json) (place : String) : List String :=
  (shape.check Place.extend (some value) place).map Mismatch.message

end Shape

end DocShape
