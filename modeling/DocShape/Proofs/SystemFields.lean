import DocShape.Inference
import DocShape.Proofs.Shape.SystemFields
import DocShape.Table.Declaration
import DocShape.Table.Document

/-!
# System fields never matter

What the storage owns is no concern of the library.  A shape or the document type
of a table may lose its system fields, and a sampled document the members under
such names, without any change of a result.

* `Table.withoutSystemFields`: a table with the system fields of its document type
  taken out; what it renders, checks, starts with and refers to is the same.
* `inferDeclaration_map_withoutSystemMembers`: the declaration inferred from samples is
  the same without their system members.
* `systemFields_never_matter`: **all operations together**.
-/

namespace DocShape

/-! ### Tables -/

namespace Table

/-- A table with the system fields of its document type taken out. -/
def withoutSystemFields (table : Table) : Table :=
  { table with documentType := table.documentType.map Shape.withoutSystemFields }

theorem documentText_withoutSystemFields (layout : Layout) (level : Nat) (shape? : Option Shape) :
    documentText layout level (shape?.map Shape.withoutSystemFields) =
      documentText layout level shape? := by
  cases shape? with
  | none => rfl
  | some shape =>
    have hrender := Shape.renderAt_withoutSystemFields layout shape level
    cases shape with
    | object fields =>
      -- Inside a declaration an object stands without its call, so the call is taken off.
      rw [Shape.withoutSystemFields_object, Shape.renderAt, Shape.renderAt, String.append_left_inj,
        String.append_right_inj] at hrender
      rw [Option.map_some, Shape.withoutSystemFields_object, documentText, documentText, hrender]
    | _ => exact hrender

theorem render_withoutSystemFields (layout : Layout) (table : Table) :
    table.withoutSystemFields.render layout = table.render layout := by
  have hat : table.withoutSystemFields.renderAt layout 0 = table.renderAt layout 0 := by
    rw [renderAt, withoutSystemFields, documentText_withoutSystemFields]
    rfl
  rw [render, hat]
  rfl

theorem validate_withoutSystemFields (table : Table) (document : Json) :
    table.withoutSystemFields.validate document = table.validate document := by
  rw [validate, validate, withoutSystemFields]
  cases table.documentType with
  | none => rfl
  | some shape => simp only [Option.map_some, Shape.validate_withoutSystemFields]

theorem defaultDocument_withoutSystemFields (table : Table) :
    table.withoutSystemFields.defaultDocument = table.defaultDocument := by
  rw [defaultDocument, defaultDocument, withoutSystemFields]
  cases table.documentType with
  | none => rfl
  | some shape => simp only [Option.map_some, Shape.document_withoutSystemFields]

theorem userFields_withoutSystemFields (table : Table) :
    userFields table.withoutSystemFields.fields =
      (userFields table.fields).map Shape.stripField := by
  rw [fields, fields, withoutSystemFields]
  cases table.documentType with
  | none => rfl
  | some shape =>
    cases shape with
    | object declared =>
      rw [Option.map_some, Shape.withoutSystemFields_object]
      exact Shape.userFields_map_stripField declared
    | _ => rfl

theorem target?_withoutSystemFields (shape : Shape) :
    shape.withoutSystemFields.target? = shape.target? := by
  cases shape with
  | array element => cases element <;> rfl
  | _ => rfl

theorem references_withoutSystemFields (table : Table) :
    table.withoutSystemFields.references = table.references := by
  rw [references, references, ← userFields, ← userFields, userFields_withoutSystemFields,
    List.filterMap_map]
  refine List.filterMap_congr fun field _ => ?_
  simp only [Function.comp_apply, Shape.stripField, target?_withoutSystemFields]

end Table

/-! ### Samples -/

/-- The members that do not belong to the storage. -/
def userMembers (members : Members) : Members :=
  members.filter fun (name, _) => !Text.isSystemName name

/-- A sampled document without the members that belong to the storage. -/
def Json.withoutSystemMembers : Json → Json
  | object members => object (userMembers members)
  | value => value

namespace Observation

theorem samples_withoutSystemMembers (documents : List Json) :
    samples (documents.map Json.withoutSystemMembers) = (samples documents).map userMembers := by
  rw [samples, samples, List.filterMap_map, List.map_filterMap]
  refine List.filterMap_congr fun document _ => ?_
  cases document <;> rfl

/-- What a sample says about a user field does not depend on its system members. -/
theorem any_userMembers {name : String} (hname : Text.isSystemName name = false)
    (p : Json → Bool) (members : Members) :
    ((userMembers members).any fun (key, value) => key == name && p value) =
      members.any fun (key, value) => key == name && p value := by
  rw [userMembers, List.any_filter]
  congr 1
  funext ⟨key, value⟩
  by_cases hkey : key = name
  · simp only [hkey, hname, Bool.not_false, Bool.true_and]
  · simp only [beq_eq_false_iff_ne.2 hkey, Bool.false_and, Bool.and_false]

theorem names_map_userMembers (samples : List Members) :
    names (samples.map userMembers) = names samples := by
  have hnames : ((samples.map userMembers).flatMap fun members => members.map (·.1)).filter
      (fun name => !Text.isSystemName name) =
      (samples.flatMap fun members => members.map (·.1)).filter
        fun name => !Text.isSystemName name := by
    rw [List.flatMap_map, List.filter_flatMap, List.filter_flatMap]
    refine List.flatMap_congr fun members _ => ?_
    rw [userMembers, List.filter_map, List.filter_map, List.filter_filter]
    simp only [Function.comp_def, Bool.and_self]
  rw [names, names, hnames]

theorem isSystemName_of_mem_names {samples : List Members} {name : String}
    (h : name ∈ names samples) : Text.isSystemName name = false := by
  rw [names, List.mem_mergeSort, List.mem_eraseDups, List.mem_filter, Bool.not_eq_true'] at h
  exact h.2

theorem ofName_map_userMembers (samples : List Members) {name : String}
    (hname : Text.isSystemName name = false) :
    ofName (samples.map userMembers) name = ofName samples name := by
  have hpresent := any_userMembers hname fun _ => true
  simp only [Bool.and_true] at hpresent
  have htypes := fun type => any_userMembers hname fun value => SampleType.ofJson? value == some type
  simp only [ofName, List.countP_map, List.any_map, Function.comp_def, hpresent, htypes]

theorem ofSamples_withoutSystemMembers (documents : List Json) :
    ofSamples (documents.map Json.withoutSystemMembers) = ofSamples documents := by
  simp only [ofSamples, samples_withoutSystemMembers, names_map_userMembers]
  exact List.map_congr_left fun name hname =>
    ofName_map_userMembers _ (isSystemName_of_mem_names hname)

end Observation

theorem inferDeclaration_map_withoutSystemMembers (layout : Layout) (documents : List Json) :
    inferDeclaration layout (documents.map Json.withoutSystemMembers) =
      inferDeclaration layout documents := by
  simp only [inferDeclaration, Observation.ofSamples_withoutSystemMembers,
    Observation.samples_withoutSystemMembers, List.length_map]

/-! ### All operations -/

/-- **System fields never matter.**  A shape, a table and a list of samples without their system
fields give the same messages, texts, defaults, references and inferred declarations, and no default
holds a system field. -/
theorem systemFields_never_matter (layout : Layout) :
    (∀ shape : Shape,
      (∀ value place, shape.validate value place = shape.withoutSystemFields.validate value place) ∧
      shape.render layout = shape.withoutSystemFields.render layout ∧
      shape.brief = shape.withoutSystemFields.brief ∧
      shape.default = shape.withoutSystemFields.default ∧
      shape.document = shape.withoutSystemFields.document ∧
      shape.default.HasUserNamesOnly ∧ (Json.object shape.document).HasUserNamesOnly) ∧
    (∀ table : Table,
      table.render layout = table.withoutSystemFields.render layout ∧
      (∀ document, table.validate document = table.withoutSystemFields.validate document) ∧
      table.defaultDocument = table.withoutSystemFields.defaultDocument ∧
      table.references = table.withoutSystemFields.references) ∧
    ∀ documents : List Json, inferDeclaration layout documents =
      inferDeclaration layout (documents.map Json.withoutSystemMembers) := by
  refine ⟨fun shape => ⟨fun value place => ?_, ?_, ?_, ?_, ?_, ?_, ?_⟩,
    fun table => ⟨?_, fun document => ?_, ?_, ?_⟩, fun documents => ?_⟩
  · exact (Shape.validate_withoutSystemFields shape value place).symm
  · exact (Shape.renderAt_withoutSystemFields layout shape 1).symm
  · exact (Shape.brief_withoutSystemFields shape).symm
  · exact (Shape.default_withoutSystemFields shape).symm
  · exact (Shape.document_withoutSystemFields shape).symm
  · exact Shape.hasUserNamesOnly_default shape
  · exact Shape.hasUserNamesOnly_document shape
  · exact (Table.render_withoutSystemFields layout table).symm
  · exact (Table.validate_withoutSystemFields table document).symm
  · exact (Table.defaultDocument_withoutSystemFields table).symm
  · exact (Table.references_withoutSystemFields table).symm
  · exact (inferDeclaration_map_withoutSystemMembers layout documents).symm

end DocShape
