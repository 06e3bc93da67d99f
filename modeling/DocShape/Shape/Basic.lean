import DocShape.Json.Printer
import DocShape.Text.Name

/-!
# Shapes

A shape describes a set of JSON values. Whether a value may be left out is no shape: it is a flag of
the field, or of the values of the record, that the shape stands in.

* `Shape.describesDocument`: shapes that may describe a whole document.
* `Shape.target?`: the table that a reference field points to.
* `Shape.ind`: induction on a shape, with all its fields or variants at once.
-/

namespace DocShape

/-! ## Literals -/

/-- The one value of a literal shape. -/
inductive Literal where
  | string (s : String)
  | number (n : Number)
  | boolean (b : Bool)
deriving DecidableEq

namespace Literal

/-- The literal of a scalar; `null`, arrays and objects give none. -/
def ofJson? : Json → Option Literal
  | .string s => some (string s)
  | .number n => some (number n)
  | .bool b => some (boolean b)
  | _ => none

def toJson : Literal → Json
  | string s => .string s
  | number n => .number n
  | boolean b => .bool b

/-- Whether a value is the literal's. Types are never mixed; numbers are compared by value. -/
def accepts : Literal → Json → Bool
  | string expected, .string actual => expected == actual
  | boolean expected, .bool actual => expected == actual
  | number expected, .number actual => expected.agrees actual
  | _, _ => false

def text : Literal → String
  | string s => Text.quote s
  | number n => n.declarationText
  | boolean b => toString b

/-- The same literal, integers told from doubles. -/
def same : Literal → Literal → Bool
  | string a, string b => a == b
  | number a, number b => a.same b
  | boolean a, boolean b => a == b
  | _, _ => false

end Literal

/-! ## Shapes -/

/-- A named field whose values are described by a `σ`. -/
structure Field (σ : Type) where
  name : String
  optional : Bool
  shape : σ
deriving DecidableEq

/-- Whether the field belongs to the storage. -/
def Field.isSystem {σ : Type} (field : Field σ) : Bool := Text.isSystemName field.name

/-- A description of values. -/
inductive Shape where
  | null
  | string
  | boolean
  /-- Every number. -/
  | float64
  /-- Integers of 64 bits. -/
  | int64
  /-- Binary data, in base64. -/
  | bytes
  /-- Everything, even nothing at all. -/
  | any
  | literal (value : Literal)
  /-- A reference to a document of a table. -/
  | id (tableName : String)
  | array (element : Shape)
  | object (fields : List (Field Shape))
  /-- A map from texts to values; `optional` says whether a value may be `null`. -/
  | record (keys values : Shape) (optional : Bool)
  /-- What one of the variants describes. -/
  | union (variants : List Shape)

namespace Shape

instance : Inhabited Shape := ⟨any⟩

def kindText : Shape → String
  | null => "null"
  | string => "string"
  | boolean => "boolean"
  | float64 => "float64"
  | int64 => "int64"
  | bytes => "bytes"
  | any => "any"
  | literal _ => "literal"
  | id _ => "id"
  | array _ => "array"
  | object _ => "object"
  | record _ _ _ => "record"
  | union _ => "union"

/-- The declared fields of an object shape; other shapes have none. -/
def fields : Shape → List (Field Shape)
  | object fields => fields
  | _ => []

def fields? : Shape → Option (List (Field Shape))
  | object fields => some fields
  | _ => none

/-- The table that a reference, or an array of references, points to. -/
def target? : Shape → Option String
  | id tableName => some tableName
  | array (id tableName) => some tableName
  | _ => none

mutual

/-- Whether a shape may describe a whole document: an object, or a union of such shapes that is not
empty. -/
def describesDocument : Shape → Bool
  | object _ => true
  | union variants => !variants.isEmpty && allDescribeDocuments variants
  | _ => false

def allDescribeDocuments : List Shape → Bool
  | [] => true
  | shape :: rest => shape.describesDocument && allDescribeDocuments rest

end

theorem allDescribeDocuments_eq (shapes : List Shape) :
    allDescribeDocuments shapes = shapes.all describesDocument := by
  induction shapes with
  | nil => rfl
  | cons shape rest ih => rw [allDescribeDocuments, ih, List.all_cons]

/-- Induction on a shape: a property that passes from the parts of a shape to the shape holds of all
shapes. -/
@[elab_as_elim]
theorem ind {P : Shape → Prop} (null : P null) (string : P string) (boolean : P boolean)
    (float64 : P float64) (int64 : P int64) (bytes : P bytes) (any : P any)
    (literal : ∀ value, P (literal value)) (id : ∀ tableName, P (id tableName))
    (array : ∀ element, P element → P (array element))
    (object : ∀ fields, (∀ field ∈ fields, P field.shape) → P (object fields))
    (record : ∀ keys values optional, P keys → P values → P (record keys values optional))
    (union : ∀ variants, (∀ variant ∈ variants, P variant) → P (union variants))
    (shape : Shape) : P shape :=
  @Shape.rec P (fun fields => ∀ field ∈ fields, P field.shape)
    (fun variants => ∀ variant ∈ variants, P variant) (fun field => P field.shape)
    null string boolean float64 int64 bytes any literal id array object record union
    (fun _ h => nomatch h)
    (fun _ _ h hs => List.forall_mem_cons.2 ⟨h, hs⟩)
    (fun _ h => nomatch h)
    (fun _ _ h hs => List.forall_mem_cons.2 ⟨h, hs⟩)
    (fun _ _ _ h => h) shape

/-! ## Comparison -/

section

variable (compare : Literal → Literal → Bool)

mutual

/-- Whether two shapes are the same, their literals compared by `compare`. -/
def sameBy : Shape → Shape → Bool
  | null, null => true
  | string, string => true
  | boolean, boolean => true
  | float64, float64 => true
  | int64, int64 => true
  | bytes, bytes => true
  | any, any => true
  | literal a, literal b => compare a b
  | id a, id b => a == b
  | array a, array b => a.sameBy b
  | object a, object b => sameFieldsBy a b
  | record k v o, record k' v' o' => k.sameBy k' && v.sameBy v' && o == o'
  | union a, union b => sameAllBy a b
  | _, _ => false

def sameFieldsBy : List (Field Shape) → List (Field Shape) → Bool
  | [], [] => true
  | a :: as, b :: bs =>
    a.name == b.name && a.optional == b.optional && a.shape.sameBy b.shape && sameFieldsBy as bs
  | _, _ => false

def sameAllBy : List Shape → List Shape → Bool
  | [], [] => true
  | a :: as, b :: bs => a.sameBy b && sameAllBy as bs
  | _, _ => false

end

end

/-- Whether two shapes are the same, integers told from doubles. -/
def same (a b : Shape) : Bool := a.sameBy Literal.same b

end Shape

end DocShape
