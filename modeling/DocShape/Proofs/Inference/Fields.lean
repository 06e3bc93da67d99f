import DocShape.Proofs.SystemFields
import DocShape.Proofs.Text.ByteOrder
import Mathlib.Data.List.Defs

/-!
# Inferred fields

What samples say about a field is a shape, and what they say about a table is the
list of its fields.  The declaration that is inferred from samples is the declaration
of the table with these fields, in every layout: an inferred table may be stored
and declared again without a change of its text.

* `Observation.shape`, `inferredFields`: the fields that samples have, with shapes.
* `pairwise_names`: the names are in the order of their bytes, each once.
* `expression_eq_renderAt`: the expression of a field is that of its shape.
* `inferDeclaration_eq_render`: **an inferred declaration is that of the table with
  the inferred fields**.
-/

namespace DocShape

/-- The shape of the values of a type. -/
def SampleType.shape : SampleType → Shape
  | array => .array .any
  | boolean => .boolean
  | number => .float64
  | object => .any
  | string => .string

namespace Observation

/-- The shape of the values of a field: that of its one type, or the union of those of several.  A
field that held objects, or only `null`, may hold anything. -/
def shape (field : Observation) : Shape :=
  if field.types = [] ∨ .object ∈ field.types then .any
  else
    match field.types.map SampleType.shape with
    | [single] => single
    | several => .union several

/-- A field as it is declared after `count` samples.  It is optional if some sample lacks it. -/
def field (count : Nat) (observation : Observation) : Field Shape :=
  ⟨observation.name, decide (observation.present < count), observation.shape⟩

end Observation

/-- The fields that are declared for a table with these documents. -/
def inferredFields (documents : List Json) : List (Field Shape) :=
  (Observation.ofSamples documents).map
    (Observation.field (Observation.samples documents).length)

namespace Observation

/-! ### Names -/

theorem mem_samples {documents : List Json} {members : Members} :
    members ∈ samples documents ↔ .object members ∈ documents := by
  rw [samples, List.mem_filterMap]
  constructor
  · rintro ⟨document, hmem, hmembers⟩
    cases document with
    | object _ => exact Option.some.inj hmembers ▸ hmem
    | _ => cases hmembers
  · intro hmem
    exact ⟨_, hmem, rfl⟩

theorem mem_names {samples : List Members} {name : String} :
    name ∈ names samples ↔
      Text.isSystemName name = false ∧ ∃ members ∈ samples, name ∈ members.map (·.1) := by
  rw [names, List.mem_mergeSort, List.mem_eraseDups, List.mem_filter, List.mem_flatMap,
    Bool.not_eq_true', and_comm]

theorem nodup_eraseDups {α : Type} [BEq α] [LawfulBEq α] (xs : List α) : xs.eraseDups.Nodup := by
  match xs with
  | [] => exact List.nodup_nil
  | x :: rest =>
    rw [List.eraseDups_cons, List.nodup_cons]
    exact ⟨by simp, nodup_eraseDups _⟩
termination_by xs.length
decreasing_by exact Nat.lt_succ_of_le (List.length_filter_le _ _)

/-- The names are in the order of their bytes, each once. -/
theorem pairwise_names (samples : List Members) :
    (names samples).Pairwise fun a b => Text.utf8Bytes a < Text.utf8Bytes b := by
  refine Text.pairwise_mergeSort (fun name => name) ?_
  rw [List.map_id']
  exact nodup_eraseDups _

theorem names_inferredFields (documents : List Json) :
    (inferredFields documents).map (·.name) = names (samples documents) := by
  rw [inferredFields, ofSamples, List.map_map, List.map_map]
  exact List.map_id _

/-- The fields are in the order of the bytes of their names, each once. -/
theorem pairwise_inferredFields (documents : List Json) :
    (inferredFields documents).Pairwise fun a b =>
      Text.utf8Bytes a.name < Text.utf8Bytes b.name := by
  have hnames := pairwise_names (samples documents)
  rw [← names_inferredFields, List.pairwise_map] at hnames
  exact hnames

theorem isSystem_of_mem_inferredFields {documents : List Json} {declared : Field Shape}
    (h : declared ∈ inferredFields documents) : declared.isSystem = false := by
  have hname : declared.name ∈ names (samples documents) := by
    rw [← names_inferredFields]
    exact List.mem_map_of_mem h
  exact isSystemName_of_mem_names hname

/-- No inferred field belongs to the storage. -/
theorem userFields_inferredFields (documents : List Json) :
    userFields (inferredFields documents) = inferredFields documents := by
  refine List.filter_eq_self.2 ?_
  intro declared hmem
  rw [isSystem_of_mem_inferredFields hmem, Bool.not_false]

/-! ### Declarations -/

/-- A type has the same declaration at every level. -/
theorem renderAt_shape (layout : Layout) (level : Nat) (type : SampleType) :
    type.shape.renderAt layout level = type.expression := by
  cases type <;> rfl

theorem renderAllAt_shapes (layout : Layout) (level : Nat) (types : List SampleType) :
    Shape.renderAllAt layout level (types.map SampleType.shape) =
      types.map SampleType.expression := by
  rw [Shape.renderAllAt_eq, List.map_map]
  exact List.map_congr_left fun type _ => renderAt_shape layout level type

/-- So the variants of a union of types look the same where they are measured and where they are
shown. -/
theorem renderAt_union_shapes (layout : Layout) (level : Nat) (types : List SampleType) :
    (Shape.union (types.map SampleType.shape)).renderAt layout level =
      Shape.unionText layout level (types.map SampleType.expression) := by
  rw [Shape.renderAt, renderAllAt_shapes, renderAllAt_shapes]
  rfl

/-- **The expression of a field is the declaration of its shape.** -/
theorem expression_eq_renderAt (layout : Layout) (observation : Observation) :
    observation.expression layout = observation.shape.renderAt layout 2 := by
  unfold expression shape
  split
  · rfl
  · match observation.types with
    | [] => exact (renderAt_union_shapes layout 2 []).symm
    | [type] => exact (renderAt_shape layout 2 type).symm
    | first :: second :: rest =>
      exact (renderAt_union_shapes layout 2 (first :: second :: rest)).symm

/-- The lines of the inferred fields in a declaration. -/
theorem fieldLines_inferredFields (layout : Layout) (documents : List Json) :
    Shape.fieldLines layout 1 (inferredFields documents) =
      (ofSamples documents).map fun observation =>
        Shape.fieldLine layout 1 observation.name
          (observation.present < (samples documents).length) (observation.expression layout) := by
  rw [Shape.fieldLines_eq, ← userFields, userFields_inferredFields, inferredFields, List.map_map]
  refine List.map_congr_left ?_
  intro observation _
  rw [expression_eq_renderAt]
  rfl

end Observation

/-- **An inferred declaration is that of the table with the inferred fields**, in every layout.  The
fields are those that some sample has as a member and that do not belong to the storage, in the order
of the bytes of their names, each once. -/
theorem inferDeclaration_eq_render (layout : Layout) (documents : List Json) (name : String) :
    (inferDeclaration layout documents).value =
        (Table.render layout
          { name, documentType := some (.object (inferredFields documents)) }).value ∧
      ((inferredFields documents).Pairwise fun a b =>
        Text.utf8Bytes a.name < Text.utf8Bytes b.name) ∧
      ∀ fieldName, fieldName ∈ (inferredFields documents).map (·.name) ↔
        Text.isSystemName fieldName = false ∧
          ∃ members, .object members ∈ documents ∧ fieldName ∈ members.map (·.1) := by
  refine ⟨?_, ?_, ?_⟩
  · have hlines := Observation.fieldLines_inferredFields layout documents
    simp only [Table.render, Table.renderAt, Table.documentText, hlines, Table.indexCalls,
      List.map_nil, List.append_nil, String.join_nil, String.append_empty]
    rfl
  · exact Observation.pairwise_inferredFields documents
  · intro fieldName
    simp only [Observation.names_inferredFields, Observation.mem_names, Observation.mem_samples]

end DocShape
