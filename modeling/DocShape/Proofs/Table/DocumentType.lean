import DocShape.Proofs.Shape.Repair
import DocShape.Proofs.Table.Record

/-!
# The document type of a read table

The document type of a table is made of what is loaded of its description: variants
that describe no document are dropped, and what still describes none is no type.

* `Table.documentNode?`: the description of the document type of a table.
* `Table.documentType_of_node_eq_none`, `documentType_of_node_eq_some`: the document
  type that a table is read with.
* `Table.documentType_of_ofJson`: **the document type of a read table describes
  documents and has no empty union inside**.
-/

namespace DocShape

open Notice

namespace TableRecord

theorem documentType_of_ofMembers {members : Members} {record : TableRecord}
    (h : ofMembers members = .ok record) :
    record.documentType = (members.lookup "documentType").filter fun node => !node.isNull := by
  have hdocument := (ofMembers_eq_ok_iff.1 h).2.2.1
  cases hlookup : members.lookup "documentType" with
  | none =>
    rw [Decode.Key.orElse_of_lookup_eq_none rfl hlookup] at hdocument
    exact (Except.ok.inj hdocument).symm
  | some node =>
    rw [Decode.Key.orElse_of_lookup_eq_some rfl hlookup] at hdocument
    cases node <;> exact (Except.ok.inj hdocument).symm

/-- Only the document type of a table reports dropped variants. -/
theorem filter_notices_toTable (record : TableRecord) (settings : Settings) (name : String) :
    (record.toTable settings name).notices.filter isVariantDropped =
      (record.documentShape settings name).notices.filter isVariantDropped := by
  obtain ⟨f, hsame, hindexes⟩ := record.exists_toTable_eq settings name
  rw [hsame]
  exact Noted.Every.filter_bind (hindexes fun _ _ _ => rfl)

end TableRecord

namespace Table

/-- A record is that of the members of an object, and its name is not empty. -/
theorem recordOf_eq_ok_iff {value : Json} {record : TableRecord} {name : String} :
    recordOf value = .ok (record, name) ↔
      ∃ members : Members, value.members? = some members ∧
        TableRecord.ofMembers members = .ok record ∧ record.name = some name ∧ name ≠ "" := by
  constructor
  · intro h
    rw [recordOf] at h
    split at h
    · cases h
    · next members hmembers =>
      split at h
      · cases h
      · next found hfound =>
        split at h
        · next hname =>
          split at h
          · cases h
          · next hne =>
            cases h
            exact ⟨members, hmembers, hfound, hname, hne⟩
        · cases h
  · rintro ⟨members, hmembers, hrecord, hname, hne⟩
    simp only [recordOf, hmembers, hrecord, hname, if_neg hne]

/-- A read table is made of the record of its description. -/
theorem exists_recordOf_of_ofJson {settings : Settings} {value : Json} {table : Noted Table}
    (h : Table.ofJson settings value = .ok table) :
    ∃ record name, recordOf value = .ok (record, name) ∧
      table = TableRecord.toTable record settings name := by
  rw [Table.ofJson] at h
  cases hrecord : recordOf value with
  | error error => rw [hrecord] at h; cases h
  | ok found =>
    rw [hrecord] at h
    cases h
    exact ⟨found.1, found.2, rfl, rfl⟩

/-- A read table is made of a record and a name that is not empty. -/
theorem exists_record_of_ofJson {settings : Settings} {value : Json} {table : Noted Table}
    (h : Table.ofJson settings value = .ok table) :
    ∃ record name, name ≠ "" ∧ table = TableRecord.toTable record settings name := by
  obtain ⟨record, name, hrecord, rfl⟩ := exists_recordOf_of_ofJson h
  obtain ⟨_, _, _, _, hname⟩ := recordOf_eq_ok_iff.1 hrecord
  exact ⟨record, name, hname, rfl⟩

/-- The description of the document type of a table, if there is one; null is none. -/
def documentNode? (value : Json) : Option Json :=
  (value.get? "documentType").filter fun node => !node.isNull

variable {settings : Settings} {value : Json} {table : Noted Table}

theorem documentType_of_recordOf {record : TableRecord} {name : String}
    (h : recordOf value = .ok (record, name)) : record.documentType = documentNode? value := by
  obtain ⟨members, hmembers, hrecord, _⟩ := recordOf_eq_ok_iff.1 h
  rw [TableRecord.documentType_of_ofMembers hrecord, documentNode?, Json.get?, hmembers,
    Option.bind_some]

/-- A table without a description of its document type has none, and nothing is dropped. -/
theorem documentType_of_node_eq_none (hread : Table.ofJson settings value = .ok table)
    (hnode : documentNode? value = none) :
    table.value.documentType = none ∧ table.notices.filter isVariantDropped = [] := by
  obtain ⟨record, name, hrecord, rfl⟩ := exists_recordOf_of_ofJson hread
  have hrecordNode := (documentType_of_recordOf hrecord).trans hnode
  rw [TableRecord.filter_notices_toTable]
  change (record.documentShape settings name).value = none ∧ _
  rw [TableRecord.documentShape, hrecordNode]
  exact ⟨rfl, rfl⟩

/-- The document type of a table is made of what is loaded of its description. -/
theorem documentType_of_node_eq_some (hread : Table.ofJson settings value = .ok table)
    {node : Json} (hnode : documentNode? value = some node) :
    table.value.documentType =
        ((Shape.ofJson settings node).value.toDocumentType table.value.name).value ∧
      table.notices.filter isVariantDropped =
        ((Shape.ofJson settings node).value.toDocumentType table.value.name).notices.filter
          isVariantDropped := by
  obtain ⟨record, name, hrecord, rfl⟩ := exists_recordOf_of_ofJson hread
  have hrecordNode := (documentType_of_recordOf hrecord).trans hnode
  have hloading := Shape.every_ofJson holdsOfLoading_not_isVariantDropped settings node
  rw [TableRecord.filter_notices_toTable]
  change (record.documentShape settings name).value =
    ((Shape.ofJson settings node).value.toDocumentType name).value ∧ _ =
    ((Shape.ofJson settings node).value.toDocumentType name).notices.filter isVariantDropped
  rw [TableRecord.documentShape, hrecordNode]
  refine ⟨rfl, ?_⟩
  rw [Noted.notices_bind, List.filter_append, hloading.filter_eq_nil, List.nil_append]

/-- The document type of a table is what a repair leaves of a loaded shape. -/
theorem exists_repaired_of_documentType (hread : Table.ofJson settings value = .ok table)
    {documentType : Shape} (h : table.value.documentType = some documentType) :
    ∃ node dropped, Shape.Repaired (Shape.ofJson settings node).value documentType dropped := by
  cases hnode : documentNode? value with
  | none =>
    rw [(documentType_of_node_eq_none hread hnode).1] at h
    cases h
  | some node =>
    rw [(documentType_of_node_eq_some hread hnode).1] at h
    rcases Shape.toDocumentType_cases table.value.name (Shape.ofJson settings node).value with
      ⟨repaired, dropped, hrepaired, hvalue, -⟩ | ⟨-, hvalue, -⟩
    · rw [hvalue] at h
      cases h
      exact ⟨node, dropped, hrepaired⟩
    · rw [hvalue] at h
      cases h

/-- **The document type of a read table describes documents and has no empty union inside.** -/
theorem documentType_of_ofJson {settings : Settings} {value : Json} {table : Noted Table}
    (hread : Table.ofJson settings value = .ok table) {documentType : Shape}
    (h : table.value.documentType = some documentType) :
    documentType.describesDocument = true ∧ documentType.NoEmptyUnion := by
  obtain ⟨node, dropped, hrepaired⟩ := exists_repaired_of_documentType hread h
  exact ⟨hrepaired.describesDocument,
    hrepaired.noEmptyUnion (Shape.noEmptyUnion_ofJson settings node)⟩

end Table

end DocShape
