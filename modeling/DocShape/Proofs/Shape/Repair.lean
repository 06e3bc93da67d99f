import DocShape.Proofs.Notice.Repairs
import DocShape.Proofs.Shape.DefaultDocument
import DocShape.Proofs.Shape.Depth
import DocShape.Proofs.Shape.Widening

/-!
# Repaired document types

A union of which only some variants describe documents is reduced to those; the
others are dropped, each with a notice.  The repair looks at the variants alone, not
into them: a union that stands as a variant is kept as a whole or dropped as a whole.

* `Shape.oneOf`: a single shape, or the union of several.
* `Shape.Repaired`: what a repair leaves of a shape, and the variants that it drops.
* `Shape.Repaired.within`, `describesDocument`, `noEmptyUnion`, `depth_le`: **what is
  left accepts nothing new**, describes documents, and has no empty union and no
  deeper nesting than before.
* `Shape.toDocumentType_cases`: **how a document type is made of a shape**, with the
  notices on the way.
-/

namespace DocShape

/-! ### Notices of dropped variants -/

namespace Notice

/-- Whether a log line says that a variant of a document type was dropped: it names the kind of a
shape, and no index. -/
def isVariantDropped (line : Notice) : Bool :=
  line.isShapeDegraded && (line.text? "kind").isSome && (line.text? "index").isNone

theorem holdsOfLoading_not_isVariantDropped :
    HoldsOfLoading fun notice => notice.isVariantDropped = false where
  nodeDegraded _ _ := rfl
  entrySkipped _ := rfl
  markerStripped _ := rfl

end Notice

open Notice

/-! ### Repairs of shapes -/

namespace Shape

/-- A single shape, or the union of several. -/
def oneOf : List Shape → Shape
  | [shape] => shape
  | shapes => union shapes

theorem oneOf_cases (shapes : List Shape) :
    (∃ shape, shapes = [shape] ∧ oneOf shapes = shape) ∨ oneOf shapes = union shapes := by
  rcases shapes with _ | ⟨shape, _ | ⟨other, rest⟩⟩
  · exact Or.inr rfl
  · exact Or.inl ⟨shape, rfl, rfl⟩
  · exact Or.inr rfl

theorem admits_oneOf {shapes : List Shape} {value : Option Json} :
    (oneOf shapes).Admits value ↔ ∃ shape ∈ shapes, shape.Admits value := by
  rcases oneOf_cases shapes with ⟨shape, rfl, hsame⟩ | hsame
  · rw [hsame]
    simp only [List.mem_singleton, exists_eq_left]
  · rw [hsame, admits_union]

theorem describesDocument_oneOf {shapes : List Shape} (hne : shapes ≠ [])
    (h : ∀ shape ∈ shapes, shape.describesDocument = true) :
    (oneOf shapes).describesDocument = true := by
  rcases oneOf_cases shapes with ⟨shape, rfl, hsame⟩ | hsame
  · rw [hsame]
    exact h shape (List.mem_singleton_self _)
  · rw [hsame, describesDocument_union]
    exact ⟨hne, h⟩

theorem noEmptyUnion_oneOf {shapes : List Shape} (hne : shapes ≠ [])
    (h : ∀ shape ∈ shapes, shape.NoEmptyUnion) : (oneOf shapes).NoEmptyUnion := by
  rcases oneOf_cases shapes with ⟨shape, rfl, hsame⟩ | hsame
  · rw [hsame]
    exact h shape (List.mem_singleton_self _)
  · rw [hsame, noEmptyUnion_union]
    exact ⟨hne, h⟩

theorem depth_oneOf_le {shapes : List Shape} {bound : Nat}
    (h : ∀ shape ∈ shapes, shape.depth ≤ bound) : (oneOf shapes).depth ≤ bound + 1 := by
  rcases oneOf_cases shapes with ⟨shape, rfl, hsame⟩ | hsame
  · rw [hsame]
    exact Nat.le_succ_of_le (h shape (List.mem_singleton_self _))
  · rw [hsame]
    exact depth_union_le h

/-- The variants of a union that describe documents. -/
def documentVariants (variants : List Shape) : List Shape := variants.filter describesDocument

/-- The variants of a union that describe no document. -/
def otherVariants (variants : List Shape) : List Shape :=
  variants.filter fun variant => !variant.describesDocument

theorem mem_documentVariants {variants : List Shape} {variant : Shape} :
    variant ∈ documentVariants variants ↔
      variant ∈ variants ∧ variant.describesDocument = true :=
  List.mem_filter

/-- What a repair leaves of a shape, and the variants that it drops: a shape that describes
documents stays as it is, and a union keeps the variants that do. -/
inductive Repaired : Shape → Shape → List Shape → Prop
  | whole {shape : Shape} : shape.describesDocument = true → Repaired shape shape []
  | kept {variants : List Shape} : (union variants).describesDocument = false →
      documentVariants variants ≠ [] →
      Repaired (union variants) (oneOf (documentVariants variants)) (otherVariants variants)

/-- Whether a shape is an object, or a union with a variant that describes documents. -/
def OffersDocuments (shape : Shape) : Prop :=
  (∃ fields, shape = object fields) ∨
    ∃ variants, shape = union variants ∧ ∃ variant ∈ variants, variant.describesDocument = true

variable {shape repaired : Shape} {variants dropped : List Shape}

theorem offersDocuments_union : (union variants).OffersDocuments ↔
    ∃ variant ∈ variants, variant.describesDocument = true := by
  constructor
  · rintro (⟨fields, hobject⟩ | ⟨_, hunion, hvariants⟩)
    · cases hobject
    · cases hunion
      exact hvariants
  · intro h
    exact Or.inr ⟨variants, rfl, h⟩

theorem not_offersDocuments_union : ¬ (union variants).OffersDocuments ↔
    ∀ variant ∈ variants, variant.describesDocument = false := by
  rw [offersDocuments_union]
  simp only [not_exists, not_and, Bool.not_eq_true]

theorem OffersDocuments.of_describesDocument (h : shape.describesDocument = true) :
    shape.OffersDocuments := by
  cases shape with
  | object fields => exact Or.inl ⟨fields, rfl⟩
  | union variants =>
    obtain ⟨hne, hvariants⟩ := describesDocument_union.1 h
    obtain ⟨variant, hvariant⟩ := List.exists_mem_of_ne_nil _ hne
    exact offersDocuments_union.2 ⟨variant, hvariant, hvariants variant hvariant⟩
  | _ => cases h

/-- **A repair invents nothing**: what is left is within the shape. -/
theorem Repaired.within (h : Repaired shape repaired dropped) : repaired.Within shape := by
  cases h with
  | whole => exact .refl _
  | kept =>
    rw [within_iff]
    intro value hvalue
    obtain ⟨variant, hvariant, hadmits⟩ := admits_oneOf.1 hvalue
    exact admits_union.2 ⟨variant, (mem_documentVariants.1 hvariant).1, hadmits⟩

theorem Repaired.offersDocuments (h : Repaired shape repaired dropped) :
    shape.OffersDocuments := by
  cases h with
  | whole hdocument => exact .of_describesDocument hdocument
  | kept _ hkept =>
    obtain ⟨variant, hvariant⟩ := List.exists_mem_of_ne_nil _ hkept
    exact offersDocuments_union.2 ⟨variant, mem_documentVariants.1 hvariant⟩

/-- What is left of a union accepts what its variants that describe documents accept. -/
theorem Repaired.admits_iff (h : Repaired (union variants) repaired dropped)
    {value : Option Json} :
    repaired.Admits value ↔ ∃ variant ∈ documentVariants variants, variant.Admits value := by
  cases h with
  | whole hdocument =>
    have hall := (describesDocument_union.1 hdocument).2
    rw [documentVariants, List.filter_eq_self.2 hall, admits_union]
  | kept => exact admits_oneOf

/-- What is left of a union accepts what the alternatives of those variants accept. -/
theorem Repaired.admits_iff_alternatives (h : Repaired (union variants) repaired dropped)
    {value : Option Json} :
    repaired.Admits value ↔ ∃ variant ∈ variants, variant.describesDocument = true ∧
      ∃ fields ∈ variant.alternatives, (object fields).Admits value := by
  rw [h.admits_iff]
  refine exists_congr fun variant => ?_
  rw [mem_documentVariants, and_assoc]
  refine and_congr_right fun _ => and_congr_right fun hdocument => ?_
  exact Shape.admits_iff_alternatives variant hdocument value

/-- What is left describes documents. -/
theorem Repaired.describesDocument (h : Repaired shape repaired dropped) :
    repaired.describesDocument = true := by
  cases h with
  | whole hdocument => exact hdocument
  | kept _ hkept =>
    exact describesDocument_oneOf hkept fun _ hvariant => (mem_documentVariants.1 hvariant).2

/-- A repair makes no empty union. -/
theorem Repaired.noEmptyUnion (h : Repaired shape repaired dropped) (hshape : shape.NoEmptyUnion) :
    repaired.NoEmptyUnion := by
  cases h with
  | whole => exact hshape
  | kept _ hkept =>
    have hvariants := (noEmptyUnion_union.1 hshape).2
    exact noEmptyUnion_oneOf hkept fun variant hvariant =>
      hvariants variant (mem_documentVariants.1 hvariant).1

/-- A repair does not nest a shape deeper. -/
theorem Repaired.depth_le (h : Repaired shape repaired dropped) : repaired.depth ≤ shape.depth := by
  cases h with
  | whole => exact Nat.le_refl _
  | @kept variants _ hkept =>
    have hvariants : ∀ variant ∈ documentVariants variants,
        variant.depth < (union variants).depth :=
      fun variant hvariant => depth_lt_of_mem_variants (mem_documentVariants.1 hvariant).1
    -- There is a variant, so the union around it has a positive depth.
    obtain ⟨variant, hvariant⟩ := List.exists_mem_of_ne_nil _ hkept
    have hpos := hvariants variant hvariant
    have hbound : (oneOf (documentVariants variants)).depth ≤ (union variants).depth - 1 + 1 :=
      depth_oneOf_le fun variant hvariant => Nat.le_sub_one_of_lt (hvariants variant hvariant)
    omega

/-! ### How a document type is made -/

/-- The notices of the variants that a table drops. -/
def dropNotices (table : String) (dropped : List Shape) : List Notice :=
  dropped.map fun variant => variantDropped table variant.kindText

theorem filter_dropNotices (table : String) (dropped : List Shape) :
    (dropNotices table dropped).filter isVariantDropped = dropNotices table dropped := by
  refine List.filter_eq_self.2 fun notice hnotice => ?_
  obtain ⟨variant, _, rfl⟩ := List.mem_map.1 hnotice
  rfl

/-- The log lines name the table and the kinds of the variants. -/
theorem map_text_dropNotices (table : String) (dropped : List Shape) :
    (dropNotices table dropped).map
        (fun line => (line.text? "event", line.text? "table", line.text? "kind")) =
      dropped.map fun variant => (some "SHAPE_DEGRADED", some table, some variant.kindText) := by
  rw [dropNotices, List.map_map]
  rfl

theorem repairUnion_of_describesDocument (table : String) (h : shape.describesDocument = true) :
    shape.repairUnion table = pure shape := by
  cases shape with
  | union variants =>
    have hnone : variants.filter (fun variant => !variant.describesDocument) = [] := by
      refine List.filter_eq_nil_iff.2 fun variant hvariant => ?_
      simp [(describesDocument_union.1 h).2 variant hvariant]
    rw [repairUnion]
    dsimp only
    rw [hnone]
    rfl
  | _ => rfl

theorem repairUnion_of_kept (table : String) (h : (union variants).describesDocument = false)
    (hkept : documentVariants variants ≠ []) :
    (union variants).repairUnion table =
      ⟨oneOf (documentVariants variants), dropNotices table (otherVariants variants)⟩ := by
  have hdropped : (otherVariants variants).isEmpty = false := by
    rw [List.isEmpty_eq_false_iff]
    intro hnone
    have hall : ∀ variant ∈ variants, variant.describesDocument = true := by
      simpa [otherVariants, List.filter_eq_nil_iff] using hnone
    have hne : variants ≠ [] := by
      rintro rfl
      exact hkept rfl
    rw [describesDocument_union.2 ⟨hne, hall⟩] at h
    cases h
  -- None, one or several kept variants are the three cases of the repair.
  rw [repairUnion]
  dsimp only
  rw [← otherVariants, hdropped, ← documentVariants]
  generalize documentVariants variants = kept at hkept
  rcases kept with _ | ⟨variant, _ | ⟨other, rest⟩⟩
  · exact absurd rfl hkept
  · rfl
  · rfl

theorem repairUnion_of_not_offersDocuments (table : String) (h : ¬ shape.OffersDocuments) :
    shape.repairUnion table = pure shape := by
  cases shape with
  | union variants =>
    have hnone : variants.filter describesDocument = [] := by
      refine List.filter_eq_nil_iff.2 fun variant hvariant hdocument => ?_
      exact h (offersDocuments_union.2 ⟨variant, hvariant, hdocument⟩)
    rw [repairUnion]
    dsimp only
    rw [hnone]
    exact ite_self _
  | _ => rfl

/-- A shape that offers documents is repaired, with a notice for each variant that is dropped. -/
theorem exists_repaired (table : String) (h : shape.OffersDocuments) :
    ∃ repaired dropped, Repaired shape repaired dropped ∧
      shape.repairUnion table = ⟨repaired, dropNotices table dropped⟩ := by
  by_cases hdocument : shape.describesDocument = true
  · exact ⟨shape, [], .whole hdocument, repairUnion_of_describesDocument table hdocument⟩
  · rcases h with ⟨fields, rfl⟩ | ⟨variants, rfl, variant, hvariant, hdescribes⟩
    · exact absurd rfl hdocument
    · rw [Bool.not_eq_true] at hdocument
      have hkept : documentVariants variants ≠ [] :=
        List.ne_nil_of_mem (mem_documentVariants.2 ⟨hvariant, hdescribes⟩)
      exact ⟨_, _, .kept hdocument hkept, repairUnion_of_kept table hdocument hkept⟩

/-- What the repair leaves is the document type, if it describes documents. -/
theorem toDocumentType_of_repairUnion {table : String} {notices : List Notice}
    (h : shape.repairUnion table = ⟨repaired, notices⟩)
    (hdocument : repaired.describesDocument = true) :
    (shape.toDocumentType table).value = some repaired ∧
      (shape.toDocumentType table).notices = notices := by
  rw [toDocumentType, h, Noted.value_bind, Noted.notices_bind]
  dsimp only
  split
  · cases hdocument
  · rw [if_pos hdocument]
    exact ⟨rfl, List.append_nil _⟩

/-- **How a document type is made of a shape.**  What a repair leaves of a shape that offers
documents is its document type; any other shape gives none, and nothing is dropped from it. -/
theorem toDocumentType_cases (table : String) (shape : Shape) :
    (∃ repaired dropped, Repaired shape repaired dropped ∧
      (shape.toDocumentType table).value = some repaired ∧
      (shape.toDocumentType table).notices.filter isVariantDropped = dropNotices table dropped) ∨
    ¬ shape.OffersDocuments ∧ (shape.toDocumentType table).value = none ∧
      (shape.toDocumentType table).notices.filter isVariantDropped = [] := by
  by_cases hoffers : shape.OffersDocuments
  · obtain ⟨repaired, dropped, hrepaired, heq⟩ := exists_repaired table hoffers
    obtain ⟨hvalue, hnotices⟩ := toDocumentType_of_repairUnion heq hrepaired.describesDocument
    refine Or.inl ⟨repaired, dropped, hrepaired, hvalue, ?_⟩
    rw [hnotices, filter_dropNotices]
  · have hdocument : ¬ shape.describesDocument = true := fun hdocument =>
      hoffers (.of_describesDocument hdocument)
    refine Or.inr ⟨hoffers, ?_⟩
    rw [toDocumentType, repairUnion_of_not_offersDocuments table hoffers, Noted.value_bind,
      Noted.notices_bind, Noted.value_pure, Noted.notices_pure]
    split
    · exact ⟨rfl, rfl⟩
    · rw [if_neg hdocument]
      exact ⟨rfl, rfl⟩

end Shape

end DocShape
