import DocShape.Proofs.Shape.DefaultValue

/-!
# Default documents and the check

A document type is an object or a union of document types, so its values are
those of the objects at the ends of its unions, its **alternatives**.  The default
document is taken from the first variant that is an object itself; where there is
none, it is empty, and then it belongs to the type only if some alternative has
nothing that must be there.

* `Shape.alternatives`: the objects that a document type chooses between.
* `Shape.admits_iff_alternatives`: a document type admits what one of its
  alternatives admits.
* `Shape.StartsValid`: an object, a union with an object among its variants, or a
  union one of whose alternatives may be left empty.
* `Shape.admits_document_iff`: **exactly these document types admit their default
  document**, given that there is no reference inside.
-/

namespace DocShape.Shape

/-! ### Shapes without references -/

/-- No part of the tree is a reference. -/
def NoReference (shape : Shape) : Prop := ∀ part ∈ shape.parts, ∀ tableName, part ≠ id tableName

theorem NoReference.not_forcesReference {shape : Shape} (hunions : shape.NoEmptyUnion)
    (h : shape.NoReference) : ¬ shape.ForcesReference := by
  intro hforces
  induction hforces with
  | id tableName => exact h _ (self_mem_parts _) tableName rfl
  | object hfield _ _ ih =>
    have hmem := (mem_userFields.1 hfield).1
    exact ih (noEmptyUnion_object.1 hunions _ hmem) ((forall_parts_object.1 h).2 _ hmem)
  | @union variants _ ih =>
    obtain ⟨hne, hvariants⟩ := noEmptyUnion_union.1 hunions
    obtain ⟨variant, rest, rfl⟩ := List.exists_cons_of_ne_nil hne
    have hmem : variant ∈ variant :: rest := List.mem_cons_self
    exact ih variant hmem (hvariants variant hmem) ((forall_parts_union.1 h).2 variant hmem)

/-! ### Alternatives -/

mutual

/-- The fields of the objects that a union chooses between, through unions inside it; an object is
its own only alternative. -/
def alternatives : Shape → List (List (Field Shape))
  | object fields => [fields]
  | union variants => alternativesOfAll variants
  | _ => []

def alternativesOfAll : List Shape → List (List (Field Shape))
  | [] => []
  | shape :: rest => shape.alternatives ++ alternativesOfAll rest

end

theorem alternativesOfAll_eq (shapes : List Shape) :
    alternativesOfAll shapes = shapes.flatMap alternatives := by
  induction shapes with
  | nil => rfl
  | cons shape rest ih => rw [alternativesOfAll, ih, List.flatMap_cons]

theorem describesDocument_union {variants : List Shape} :
    (union variants).describesDocument = true ↔
      variants ≠ [] ∧ ∀ variant ∈ variants, variant.describesDocument = true := by
  rw [describesDocument, allDescribeDocuments_eq, Bool.and_eq_true, Bool.not_eq_true',
    List.isEmpty_eq_false_iff, List.all_eq_true]

/-- **A document type admits what one of its alternatives admits.** -/
theorem admits_iff_alternatives (shape : Shape) : shape.describesDocument = true →
    ∀ value, shape.Admits value ↔ ∃ fields ∈ shape.alternatives, (object fields).Admits value := by
  induction shape using Shape.ind with
  | object fields _ =>
    intro _ value
    rw [alternatives]
    simp only [List.mem_singleton, exists_eq_left]
  | union variants ih =>
    intro hdocument value
    have hvariants := (describesDocument_union.1 hdocument).2
    rw [admits_union, alternatives, alternativesOfAll_eq]
    constructor
    · rintro ⟨variant, hmem, hadmits⟩
      obtain ⟨fields, hfields, hobject⟩ :=
        (ih variant hmem (hvariants variant hmem) value).1 hadmits
      exact ⟨fields, List.mem_flatMap.2 ⟨variant, hmem, hfields⟩, hobject⟩
    · rintro ⟨fields, hfields, hobject⟩
      obtain ⟨variant, hmem, hfields⟩ := List.mem_flatMap.1 hfields
      exact ⟨variant, hmem,
        (ih variant hmem (hvariants variant hmem) value).2 ⟨fields, hfields, hobject⟩⟩
  | _ => intro hdocument; cases hdocument

/-! ### The default document -/

/-- The document of an object is admitted if the defaults of all its user fields are. -/
theorem admits_documentOf {fields : List (Field Shape)}
    (hnames : ((userFields fields).map (·.name)).Nodup)
    (h : ∀ field ∈ userFields fields, field.shape.Admits (some field.shape.default)) :
    (object fields).Admits (some (.object (documentOf fields))) := by
  rw [admits_object]
  intro field hfield
  have hlookup := Members.lookup_ofList_filter hnames (fun _ => true)
    (fun field => field.shape.default) hfield
  rw [List.filter_eq_self.2 (fun _ _ => rfl), if_pos rfl] at hlookup
  refine Or.inr ?_
  rw [documentOf, ← userFields, hlookup]
  exact h field hfield

/-- The empty document belongs to an object all of whose user fields may be absent. -/
theorem admits_empty_iff {fields : List (Field Shape)} :
    (object fields).Admits (some (.object [])) ↔
      ∀ field ∈ userFields fields, field.optional = true ∨ field.shape.AdmitsAbsence := by
  rw [admits_object]
  refine forall₂_congr fun field _ => ?_
  rw [List.lookup_nil, admits_none_iff, LeftOut]
  simp only [true_or, and_true]

theorem fields?_eq_some_iff {shape : Shape} {fields : List (Field Shape)} :
    shape.fields? = some fields ↔ shape = object fields := by
  cases shape <;> simp [fields?]

theorem mem_of_findSome?_fields? {variants : List Shape} {fields : List (Field Shape)}
    (h : variants.findSome? fields? = some fields) : object fields ∈ variants := by
  obtain ⟨variant, hmem, hfields⟩ := List.exists_of_findSome?_eq_some h
  rw [fields?_eq_some_iff] at hfields
  exact hfields ▸ hmem

theorem notMem_of_findSome?_fields? {variants : List Shape}
    (h : variants.findSome? fields? = none) (fields : List (Field Shape)) :
    object fields ∉ variants := by
  intro hmem
  have hnone := List.findSome?_eq_none_iff.1 h _ hmem
  rw [fields?_eq_some_iff.2 rfl] at hnone
  cases hnone

/-- The document types whose default document is of the type. -/
def StartsValid (shape : Shape) : Prop :=
  (∃ fields, shape = object fields) ∨
  (∃ variants fields, shape = union variants ∧ object fields ∈ variants) ∨
  ∃ fields ∈ shape.alternatives, ∀ field ∈ userFields fields,
    field.optional = true ∨ field.shape.AdmitsAbsence

theorem admits_documentOf_of_noReference {fields : List (Field Shape)}
    (hunions : (object fields).NoEmptyUnion) (hnames : (object fields).DistinctUserNames)
    (hids : (object fields).NoReference) :
    (object fields).Admits (some (.object (documentOf fields))) := by
  refine admits_documentOf hnames.nodup fun field hfield => ?_
  have hmem := (mem_userFields.1 hfield).1
  have hunion := noEmptyUnion_object.1 hunions field hmem
  have hid : field.shape.NoReference := (forall_parts_object.1 hids).2 field hmem
  exact admits_default field.shape hunion (hnames.field hmem) (hid.not_forcesReference hunion)

/-- **Exactly the document types that start valid admit their default document.** -/
theorem admits_document_iff {shape : Shape} (hdocument : shape.describesDocument = true)
    (hunions : shape.NoEmptyUnion) (hnames : shape.DistinctUserNames) (hids : shape.NoReference) :
    shape.Admits (some (.object shape.document)) ↔ shape.StartsValid := by
  cases shape with
  | object fields =>
    exact iff_of_true (admits_documentOf_of_noReference hunions hnames hids) (Or.inl ⟨fields, rfl⟩)
  | union variants =>
    cases hfirst : variants.findSome? fields? with
    | some fields =>
      have hmem := mem_of_findSome?_fields? hfirst
      refine iff_of_true ?_ (Or.inr (Or.inl ⟨variants, fields, rfl, hmem⟩))
      rw [document, hfirst, admits_union]
      exact ⟨object fields, hmem, admits_documentOf_of_noReference
        ((noEmptyUnion_union.1 hunions).2 _ hmem) (hnames.variant hmem)
        ((forall_parts_union.1 hids).2 _ hmem)⟩
    | none =>
      -- Every variant is a union itself, and the default document is empty.
      rw [document, hfirst, admits_iff_alternatives _ hdocument, StartsValid]
      simp only [Option.map_none, Option.getD_none, admits_empty_iff]
      constructor
      · intro h
        exact Or.inr (Or.inr h)
      · rintro (⟨fields, hobject⟩ | ⟨variants', fields, hunion, hmem⟩ | h)
        · cases hobject
        · cases hunion
          exact absurd hmem (notMem_of_findSome?_fields? hfirst fields)
        · exact h
  | _ => cases hdocument

end DocShape.Shape
