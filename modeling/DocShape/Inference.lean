import DocShape.Notice.Noted
import DocShape.Shape.Declaration

/-!
# Inferring declarations

A declaration for a table that has none, from sampled documents. Only the types of the top-level
fields are looked at. Samples that are no objects do not count, and neither do system fields.

* `Observation.ofSamples`: what the samples say about each field, in the order of the names.
* `inferDeclaration`: **the declaration that describes the samples**, with a notice.
-/

namespace DocShape

/-- The type of a field in a sample. -/
inductive SampleType where
  | array
  | boolean
  | number
  | object
  | string
deriving DecidableEq

namespace SampleType

def all : List SampleType := [array, boolean, number, object, string]

/-- The type of a value; `null` has none. -/
def ofJson? : Json → Option SampleType
  | .null => none
  | .bool _ => some boolean
  | .number _ => some number
  | .string _ => some string
  | .array _ => some array
  | .object _ => some object

def expression : SampleType → String
  | array => "v.array(v.any())"
  | boolean => "v.boolean()"
  | number => "v.float64()"
  | object => "v.any()"
  | string => "v.string()"

end SampleType

/-- What samples say about a field. -/
structure Observation where
  name : String
  /-- How many samples have the field, even as `null`. -/
  present : Nat
  /-- The types it has in samples, in order. -/
  types : List SampleType
deriving DecidableEq

namespace Observation

/-- The samples that count, as their members. -/
def samples (documents : List Json) : List Members := documents.filterMap Json.members?

/-- The names of all fields in samples, each once and in order. -/
def names (samples : List Members) : List String :=
  let all := samples.flatMap fun members => members.map (·.1)
  (all.filter fun name => !Text.isSystemName name).eraseDups.mergeSort fun a b => decide (a ≤ b)

def ofName (samples : List Members) (name : String) : Observation where
  name := name
  present := samples.countP fun members => members.any fun (key, _) => key == name
  types := SampleType.all.filter fun type =>
    samples.any fun members => members.any fun (key, value) =>
      key == name && SampleType.ofJson? value == some type

/-- What documents say about each field, in the order of the names. -/
def ofSamples (documents : List Json) : List Observation :=
  let samples := samples documents
  (names samples).map (ofName samples)

/-- The expression for the values of a field. A field that held objects, or only `null`, may hold
anything. -/
def expression (layout : Layout) (field : Observation) : String :=
  if field.types = [] ∨ .object ∈ field.types then "v.any()"
  else
    match field.types.map SampleType.expression with
    | [single] => single
    | several => Shape.unionText layout 2 several

end Observation

/-- The declaration that describes documents. A field that some sample lacks is optional. -/
def inferDeclaration (layout : Layout) (documents : List Json) : Noted String :=
  let fields := Observation.ofSamples documents
  let count := (Observation.samples documents).length
  let lines := fields.map fun field =>
    Shape.fieldLine layout 1 field.name (field.present < count) (field.expression layout)
  ⟨"defineTable(" ++ Shape.block layout 1 lines ++ ")", [.tableInferred count lines.length]⟩

end DocShape
