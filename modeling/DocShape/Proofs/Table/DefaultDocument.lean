import DocShape.Proofs.Table.DocumentType
import DocShape.Table.Document

/-!
# The document that a table starts with

A new document should be one that its table accepts.  For tables without
references it is, unless the document type is a union of unions only: then the
document is empty whatever the alternatives ask for.

* `Table.validate_defaultDocument_eq_nil_iff`: **when the default document of a
  read table validates**.
* `Table.exists_invalid_defaultDocument`: a table whose default document does not.
-/

namespace DocShape.Table

theorem forall_documentType_iff {P : Shape → Prop} {table : Table} {documentType : Shape}
    (h : table.documentType = some documentType) :
    (∀ documentType ∈ table.documentType, P documentType) ↔ P documentType := by
  rw [h]
  simp only [Option.mem_def, Option.some.injEq, forall_eq']

/-- **When the default document validates.**  A table that was read, whose document type holds no
reference and no object with two fields of one name, accepts the document it starts with exactly
when it has no document type or one that starts valid: an object, a union with an object among its
variants, or a union one of whose alternatives may be left empty. -/
theorem validate_defaultDocument_eq_nil_iff {settings : Settings} {value : Json}
    {table : Noted Table} (hread : Table.ofJson settings value = .ok table)
    (hids : ∀ documentType ∈ table.value.documentType, documentType.NoReference)
    (hnames : ∀ documentType ∈ table.value.documentType, documentType.DistinctNames) :
    (table.value.validate (.object table.value.defaultDocument.value)).value = [] ↔
      ∀ documentType ∈ table.value.documentType, documentType.StartsValid := by
  cases htype : table.value.documentType with
  | none =>
    refine iff_of_true ?_ (fun documentType hmem => nomatch hmem)
    rw [validate, htype]
  | some documentType =>
    obtain ⟨hdocument, hunions⟩ := documentType_of_ofJson hread htype
    have hadmits := Shape.admits_document_iff hdocument hunions
      (hnames documentType htype).distinctUserNames (hids documentType htype)
    rw [← htype, forall_documentType_iff htype, validate, defaultDocument, htype]
    simp only [Option.map_some, Option.getD_some, Shape.validate, List.map_eq_nil_iff,
      Shape.check_eq_nil_iff, hadmits]

/-- The description of a table whose document type has a union, then an object as its variants. -/
def unionThenObject : Json :=
  .object [("tableName", .string "events"), ("documentType", .object [("type", .string "union"),
    ("value", .array [
      .object [("type", .string "union"), ("value", .array [
        .object [("type", .string "object"), ("value", .object [
          ("kind", .object [("type", .string "string")])])]])],
      .object [("type", .string "object"), ("value", .object [
        ("count", .object [("type", .string "int64")])])]])])]

/-- The default document is that of the object, past the union before it. -/
theorem validate_defaultDocument_unionThenObject :
    ∃ table, Table.ofJson {} unionThenObject = .ok table ∧
      (∀ documentType ∈ table.value.documentType, documentType.NoReference) ∧
      (∀ documentType ∈ table.value.documentType, documentType.DistinctNames) ∧
      (table.value.validate (.object table.value.defaultDocument.value)).value = [] := by
  have hread : ∃ table, Table.ofJson {} unionThenObject = .ok table := ⟨_, rfl⟩
  obtain ⟨table, hread⟩ := hread
  have htype : table.value.documentType = some (.union [.union [.object [⟨"kind", false, .string⟩]],
      .object [⟨"count", false, .int64⟩]]) := by
    obtain rfl : _ = table := Except.ok.inj hread
    rfl
  have hids := (forall_documentType_iff (P := Shape.NoReference) htype).2
    (by simp [Shape.NoReference, Shape.parts, Shape.partsOfFields, Shape.partsOfAll])
  have hnames := (forall_documentType_iff (P := Shape.DistinctNames) htype).2
    (by simp [Shape.DistinctNames, Shape.parts, Shape.partsOfFields, Shape.partsOfAll,
      Shape.fields])
  refine ⟨table, hread, hids, hnames, ?_⟩
  apply (validate_defaultDocument_eq_nil_iff hread hids hnames).2
  rw [forall_documentType_iff htype]
  exact Or.inr (Or.inl ⟨_, [⟨"count", false, .int64⟩], rfl, by simp⟩)

/-- **A default document that does not validate.**  The only variant of the document type is a union
itself, of one object with a required field; the default document lacks that field. -/
theorem exists_invalid_defaultDocument :
    ∃ table, Table.ofJson {} (.object [("tableName", .string "t"), ("documentType", .object
      [("type", .string "union"), ("value", .array [
        .object [("type", .string "union"), ("value", .array [
          .object [("type", .string "object"), ("value", .object [
            ("a", .object [("type", .string "string")])])]])]])])]) = .ok table ∧
      (∀ documentType ∈ table.value.documentType, documentType.NoReference) ∧
      (∀ documentType ∈ table.value.documentType, documentType.DistinctNames) ∧
      (table.value.validate (.object table.value.defaultDocument.value)).value ≠ [] := by
  refine ⟨_, rfl, (forall_documentType_iff rfl).2 ?_, (forall_documentType_iff rfl).2 ?_,
    by decide +kernel⟩
  · change Shape.NoReference (.union [.union [.object [⟨"a", false, .string⟩]]])
    simp [Shape.NoReference, Shape.parts, Shape.partsOfFields, Shape.partsOfAll]
  · change Shape.DistinctNames (.union [.union [.object [⟨"a", false, .string⟩]]])
    simp [Shape.DistinctNames, Shape.parts, Shape.partsOfFields, Shape.partsOfAll, Shape.fields]

end DocShape.Table
