import DocShape.Proofs.Description.Depth
import DocShape.Proofs.Table.DocumentType

/-!
# Read tables are well formed

Reading drops what it cannot use, so a table that was read has nothing unusable in
it: a name, a document type that describes documents within the limits, and indexes
that name what they are over.

* `Table.WellFormed`: what is promised of a table under its settings.
* `IndexEntry.fault?_of_mem_ofList`: no index in a read list has a fault.
* `Table.wellFormed_of_ofJson`, `Database.wellFormed_of_ofText`: **read tables are well
  formed**.
-/

namespace DocShape

/-! ### Indexes -/

/-- An index that names itself and has fields. -/
def Index.Usable (index : Index) : Prop := index.name ≠ "" ∧ index.fields ≠ []

/-- A search index that names itself and the field it searches. -/
def SearchIndex.Usable (index : SearchIndex) : Prop := index.name ≠ "" ∧ index.searchField ≠ ""

/-- A vector index that names itself and the field of its vectors, which have dimensions. -/
def VectorIndex.Usable (index : VectorIndex) : Prop :=
  index.name ≠ "" ∧ index.vectorField ≠ "" ∧ 0 < index.dimensions

theorem Index.fault?_eq_none_iff {index : Index} : index.fault? = none ↔ index.Usable := by
  rw [fault?, Usable]
  split
  · simp_all
  · split <;> simp_all

theorem SearchIndex.fault?_eq_none_iff {index : SearchIndex} :
    index.fault? = none ↔ index.Usable := by
  rw [fault?, Usable]
  split
  · simp_all
  · split <;> simp_all

theorem VectorIndex.fault?_eq_none_iff {index : VectorIndex} :
    index.fault? = none ↔ index.Usable := by
  have hpos : index.dimensions ≠ 0 ↔ 0 < index.dimensions := UInt32.pos_iff_ne_zero.symm
  rw [fault?, Usable, ← hpos]
  split
  · simp_all
  · split
    · simp_all
    · split <;> simp_all

theorem IndexEntry.fault?_of_mem_ofList {ι : Type} [IndexEntry ι] {table : String}
    {list : IndexList} {entries : List Json} {index : ι}
    (h : index ∈ (ofList table list entries).value) : fault? index = none := by
  rw [ofList, Noted.value_map, Noted.value_traverse, List.filterMap_map, List.mem_filterMap] at h
  obtain ⟨entry, -, hentry⟩ := h
  have husable : (usable entry : Except (String × IndexFault) ι) = .ok index := by
    rw [Function.comp_apply, id_eq, ofEntry] at hentry
    split at hentry
    · next found hfound =>
      cases hentry
      exact hfound
    · cases hentry
  rw [usable] at husable
  split at husable
  · split at husable
    · next hfault =>
      cases husable
      exact hfault
    · cases husable
  · cases husable

/-! ### Tables -/

namespace Table

/-- What is promised of a table that is read under the settings. -/
structure WellFormed (settings : Settings) (table : Table) : Prop where
  name_ne : table.name ≠ ""
  describesDocument : ∀ shape ∈ table.documentType, shape.describesDocument = true
  noEmptyUnion : ∀ shape ∈ table.documentType, shape.NoEmptyUnion
  depth_le : ∀ shape ∈ table.documentType, shape.depth ≤ settings.maxNestingDepth + 1
  indexes : ∀ index ∈ table.indexes ++ table.stagedIndexes, index.Usable
  searchIndexes : ∀ index ∈ table.searchIndexes ++ table.stagedSearchIndexes, index.Usable
  vectorIndexes : ∀ index ∈ table.vectorIndexes ++ table.stagedVectorIndexes, index.Usable

/-- **A read table is well formed.** -/
theorem wellFormed_of_ofJson {settings : Settings} {value : Json} {table : Noted Table}
    (h : ofJson settings value = .ok table) : table.value.WellFormed settings := by
  have hdocument : ∀ shape ∈ table.value.documentType,
      shape.describesDocument = true ∧ shape.NoEmptyUnion := by
    intro shape hshape
    exact documentType_of_ofJson h hshape
  obtain ⟨record, name, hname, rfl⟩ := exists_record_of_ofJson h
  refine ⟨hname, fun shape hshape => (hdocument shape hshape).1,
    fun shape hshape => (hdocument shape hshape).2, ?_, ?_, ?_, ?_⟩
  · intro shape hshape
    obtain ⟨node, dropped, hrepaired⟩ := exists_repaired_of_documentType h hshape
    exact Nat.le_trans hrepaired.depth_le (Shape.depth_ofJson_le settings node)
  · intro index hindex
    rw [← Index.fault?_eq_none_iff]
    exact (List.mem_append.1 hindex).elim IndexEntry.fault?_of_mem_ofList
      IndexEntry.fault?_of_mem_ofList
  · intro index hindex
    rw [← SearchIndex.fault?_eq_none_iff]
    exact (List.mem_append.1 hindex).elim IndexEntry.fault?_of_mem_ofList
      IndexEntry.fault?_of_mem_ofList
  · intro index hindex
    rw [← VectorIndex.fault?_eq_none_iff]
    exact (List.mem_append.1 hindex).elim IndexEntry.fault?_of_mem_ofList
      IndexEntry.fault?_of_mem_ofList

theorem wellFormed_of_ofText {settings : Settings} {text : String} {table : Noted Table}
    (h : ofText settings text = .ok table) : table.value.WellFormed settings := by
  rw [ofText] at h
  split at h
  · cases h
  · exact wellFormed_of_ofJson h

end Table

/-! ### Databases -/

namespace Database

theorem wellFormed_of_readTables {settings : Settings} {values : List Json} {tables : List Table}
    (h : (readTables settings values).value = .ok tables) :
    ∀ table ∈ tables, table.WellFormed settings := by
  induction values generalizing tables with
  | nil =>
    cases h
    intro table htable
    cases htable
  | cons value rest ih =>
    rw [readTables] at h
    split at h
    · cases h
    · next first hfirst =>
      rw [Noted.value_bind, Noted.value_bind, Noted.value_pure] at h
      cases hrest : (readTables settings rest).value with
      | error error => rw [hrest] at h; cases h
      | ok others =>
        rw [hrest] at h
        cases h
        exact List.forall_mem_cons.2 ⟨Table.wellFormed_of_ofJson hfirst, ih hrest⟩

/-- **All tables of a read database are well formed.** -/
theorem wellFormed_of_ofText {settings : Settings} {text : String} {database : Database}
    (h : (ofText settings text).value = .ok database) :
    ∀ table ∈ database.tables, table.WellFormed settings := by
  rw [ofText] at h
  split at h
  · cases h
  · rw [ofJson] at h
    split at h
    · cases h
    · split at h
      · cases h
      · next values schemaValidation _ =>
        rw [Noted.value_map] at h
        cases htables : (readTables settings values).value with
        | error error => rw [htables] at h; cases h
        | ok tables =>
          rw [htables] at h
          cases h
          exact wellFormed_of_readTables htables

end Database

end DocShape
