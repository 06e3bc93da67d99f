import DocShape.Proofs.Index.Call
import DocShape.Proofs.Shape.Unambiguous

/-!
# A declaration determines its table

The declaration of a table is its document type between parentheses, then the calls of
its indexes, a line each.  The document type ends at its parenthesis, a line at its
call, and every call shows its kind and whether it is staged; so the six lists of
indexes can be told apart although they stand in one row.

* `Table.LooksAlike`: **the same table up to what a declaration leaves out**.
* `Table.documentText_append_eq`: the document type shows where it ends.
* `Table.renderAt_append_eq`: so does the whole declaration, if no other line of an
  index may follow.
* `Table.value_render_eq_iff`: **the same text, exactly for tables that look alike**.
-/

namespace DocShape

namespace DeclaredIndex

/-! ### Indexes of one list -/

/-- The index of fields, if it is one and staged as asked. -/
def index? (staged : Bool) : DeclaredIndex → Option Index
  | index staged' i => if staged' = staged then some i else none
  | _ => none

def search? (staged : Bool) : DeclaredIndex → Option SearchIndex
  | search staged' i => if staged' = staged then some i else none
  | _ => none

def vector? (staged : Bool) : DeclaredIndex → Option VectorIndex
  | vector staged' i => if staged' = staged then some i else none
  | _ => none

end DeclaredIndex

namespace Table

/-- **Looking alike**: document types that look alike, where none is as good as any, and in each
list the same indexes, in order, up to the system fields that they cover. -/
structure LooksAlike (table other : Table) : Prop where
  documentType : (table.documentType.getD .any).LooksAlike (other.documentType.getD .any)
  indexes : table.indexes.map Index.withoutSystemFields =
    other.indexes.map Index.withoutSystemFields
  searchIndexes : table.searchIndexes.map SearchIndex.withoutSystemFields =
    other.searchIndexes.map SearchIndex.withoutSystemFields
  vectorIndexes : table.vectorIndexes.map VectorIndex.withoutSystemFields =
    other.vectorIndexes.map VectorIndex.withoutSystemFields
  stagedIndexes : table.stagedIndexes.map Index.withoutSystemFields =
    other.stagedIndexes.map Index.withoutSystemFields
  stagedSearchIndexes : table.stagedSearchIndexes.map SearchIndex.withoutSystemFields =
    other.stagedSearchIndexes.map SearchIndex.withoutSystemFields
  stagedVectorIndexes : table.stagedVectorIndexes.map VectorIndex.withoutSystemFields =
    other.stagedVectorIndexes.map VectorIndex.withoutSystemFields

/-! ### Document types -/

section

variable {layout : Layout} {level : Nat}

/-- Inside a declaration an object stands without its call. -/
theorem toList_documentText_object (fields : List (Field Shape)) :
    (documentText layout level (some (.object fields))).toList =
      (Shape.object fields).arguments layout level := by
  have hcall := Shape.toList_renderAt layout level (.object fields)
  rw [documentText]
  simpa [Shape.renderAt, Shape.call, Shape.kindText] using hcall

theorem documentText_of_not_object {documentType : Option Shape}
    (h : ∀ fields, documentType ≠ some (.object fields)) :
    documentText layout level documentType = (documentType.getD .any).renderAt layout level := by
  cases documentType with
  | none => rfl
  | some shape =>
    cases shape with
    | object fields => exact absurd rfl (h fields)
    | _ => rfl

/-- A block starts with a brace, and no expression does. -/
theorem documentText_object_append_ne {fields : List (Field Shape)} {documentType : Option Shape}
    {rest rest' : List Char} (h : ∀ fields, documentType ≠ some (.object fields)) :
    (documentText layout level (some (.object fields))).toList ++ rest ≠
      (documentText layout level documentType).toList ++ rest' := by
  intro htexts
  rw [toList_documentText_object, documentText_of_not_object h, Shape.toList_renderAt,
    Shape.arguments] at htexts
  split at htexts
  · exact absurd (List.cons.inj htexts).1 (by decide)
  · exact absurd (List.cons.inj htexts).1 (by decide)

/-- **A document type shows where it ends**: at the parenthesis of the table. -/
theorem documentText_append_eq {documentType other : Option Shape} {rest rest' : List Char}
    (h : (documentText layout level documentType).toList ++ ')' :: rest =
      (documentText layout level other).toList ++ ')' :: rest') :
    (documentType.getD .any).LooksAlike (other.getD .any) ∧ rest = rest' := by
  by_cases hobject : ∃ fields, documentType = some (.object fields)
  · obtain ⟨fields, rfl⟩ := hobject
    by_cases hother : ∃ fields, other = some (.object fields)
    · obtain ⟨fields', rfl⟩ := hother
      rw [toList_documentText_object, toList_documentText_object] at h
      exact Shape.object_arguments_append_eq (fun field _ => Shape.showsEnd layout field.shape) h
    · exact absurd h (documentText_object_append_ne (not_exists.1 hother))
  · by_cases hother : ∃ fields, other = some (.object fields)
    · obtain ⟨fields', rfl⟩ := hother
      exact absurd h.symm (documentText_object_append_ne (not_exists.1 hobject))
    · rw [documentText_of_not_object (not_exists.1 hobject),
        documentText_of_not_object (not_exists.1 hother)] at h
      obtain ⟨halike, hrest⟩ := Shape.showsEnd layout _ level _ _ _ h
      exact ⟨halike, (List.cons.inj hrest).2⟩

theorem exists_object_of_kindText_eq {documentType : Option Shape} {fields : List (Field Shape)}
    (h : (Shape.object fields).kindText = (documentType.getD .any).kindText) :
    ∃ fields', documentType = some (.object fields') := by
  cases documentType with
  | none => simp [Shape.kindText] at h
  | some shape =>
    cases shape with
    | object fields' => exact ⟨fields', rfl⟩
    | _ => simp [Shape.kindText] at h

/-- What a declaration leaves out of a document type does not change it. -/
theorem documentText_eq_of_looksAlike {documentType other : Option Shape}
    (h : (documentType.getD .any).LooksAlike (other.getD .any)) :
    documentText layout level documentType = documentText layout level other := by
  have htexts := Shape.renderAt_eq_of_looksAlike layout _ level _ h
  have hlists : ((documentType.getD .any).renderAt layout level).toList ++ [] =
      ((other.getD .any).renderAt layout level).toList ++ [] := by
    rw [htexts]
  obtain ⟨hkind, harguments⟩ := Shape.renderAt_append_eq hlists
  by_cases hobject : ∃ fields, documentType = some (.object fields)
  · obtain ⟨fields, rfl⟩ := hobject
    obtain ⟨fields', rfl⟩ := exists_object_of_kindText_eq hkind
    rw [← String.toList_inj, toList_documentText_object, toList_documentText_object]
    exact List.append_cancel_right harguments
  · have hother : ¬ ∃ fields, other = some (.object fields) := by
      rintro ⟨fields, rfl⟩
      exact hobject (exists_object_of_kindText_eq hkind.symm)
    rw [documentText_of_not_object (not_exists.1 hobject),
      documentText_of_not_object (not_exists.1 hother), htexts]

end

/-! ### Indexes -/

/-- The indexes of all lists, as they are declared one after the other. -/
def declaredIndexes (table : Table) : List DeclaredIndex :=
  table.indexes.map (.index false) ++ table.searchIndexes.map (.search false)
    ++ table.vectorIndexes.map (.vector false) ++ table.stagedIndexes.map (.index true)
    ++ table.stagedSearchIndexes.map (.search true) ++ table.stagedVectorIndexes.map (.vector true)

theorem indexCalls_eq (table : Table) :
    table.indexCalls = table.declaredIndexes.map DeclaredIndex.call := by
  simp only [indexCalls, declaredIndexes, List.map_append, List.map_map]
  rfl

section

variable (table : Table) (staged : Bool)

theorem filterMap_index?_declaredIndexes :
    (table.declaredIndexes.map DeclaredIndex.withoutSystemFields).filterMap
        (DeclaredIndex.index? staged) =
      (if staged then table.stagedIndexes else table.indexes).map Index.withoutSystemFields := by
  cases staged <;> simp [declaredIndexes, Function.comp_def, DeclaredIndex.index?,
    DeclaredIndex.withoutSystemFields]

theorem filterMap_search?_declaredIndexes :
    (table.declaredIndexes.map DeclaredIndex.withoutSystemFields).filterMap
        (DeclaredIndex.search? staged) =
      (if staged then table.stagedSearchIndexes else table.searchIndexes).map
        SearchIndex.withoutSystemFields := by
  cases staged <;> simp [declaredIndexes, Function.comp_def, DeclaredIndex.search?,
    DeclaredIndex.withoutSystemFields]

theorem filterMap_vector?_declaredIndexes :
    (table.declaredIndexes.map DeclaredIndex.withoutSystemFields).filterMap
        (DeclaredIndex.vector? staged) =
      (if staged then table.stagedVectorIndexes else table.vectorIndexes).map
        VectorIndex.withoutSystemFields := by
  cases staged <;> simp [declaredIndexes, Function.comp_def, DeclaredIndex.vector?,
    DeclaredIndex.withoutSystemFields]

end

/-- The row of all indexes tells the six lists apart. -/
theorem LooksAlike.of_declaredIndexes {table other : Table}
    (hdocument : (table.documentType.getD .any).LooksAlike (other.documentType.getD .any))
    (h : table.declaredIndexes.map DeclaredIndex.withoutSystemFields =
      other.declaredIndexes.map DeclaredIndex.withoutSystemFields) : table.LooksAlike other := by
  have hindexes := fun staged => congrArg (List.filterMap (DeclaredIndex.index? staged)) h
  have hsearch := fun staged => congrArg (List.filterMap (DeclaredIndex.search? staged)) h
  have hvector := fun staged => congrArg (List.filterMap (DeclaredIndex.vector? staged)) h
  simp only [filterMap_index?_declaredIndexes] at hindexes
  simp only [filterMap_search?_declaredIndexes] at hsearch
  simp only [filterMap_vector?_declaredIndexes] at hvector
  exact ⟨hdocument, hindexes false, hsearch false, hvector false, hindexes true, hsearch true,
    hvector true⟩

theorem LooksAlike.map_declaredIndexes {table other : Table} (h : table.LooksAlike other) :
    table.declaredIndexes.map DeclaredIndex.withoutSystemFields =
      other.declaredIndexes.map DeclaredIndex.withoutSystemFields := by
  have hrow : ∀ table : Table, table.declaredIndexes.map DeclaredIndex.withoutSystemFields =
      (table.indexes.map Index.withoutSystemFields).map (.index false)
        ++ (table.searchIndexes.map SearchIndex.withoutSystemFields).map (.search false)
        ++ (table.vectorIndexes.map VectorIndex.withoutSystemFields).map (.vector false)
        ++ (table.stagedIndexes.map Index.withoutSystemFields).map (.index true)
        ++ (table.stagedSearchIndexes.map SearchIndex.withoutSystemFields).map (.search true)
        ++ (table.stagedVectorIndexes.map VectorIndex.withoutSystemFields).map (.vector true) := by
    intro table
    simp only [declaredIndexes, List.map_append, List.map_map]
    rfl
  rw [hrow, hrow, h.indexes, h.searchIndexes, h.vectorIndexes, h.stagedIndexes,
    h.stagedSearchIndexes, h.stagedVectorIndexes]

/-! ### Declarations -/

/-- The line of an index, with the line break before it. -/
def indexRow (layout : Layout) (level : Nat) (declared : DeclaredIndex) : List Char :=
  '\n' :: ((layout.indent (level + 1)).toList ++ declared.call.toList)

section

variable {layout : Layout} {level : Nat}

theorem toList_renderAt (table : Table) :
    (table.renderAt layout level).toList = "defineTable(".toList ++
      (documentText layout (level + 1) table.documentType).toList ++
        ')' :: table.declaredIndexes.flatMap (indexRow layout level) := by
  have hrows : (table.declaredIndexes.flatMap fun declared =>
      ("\n" ++ layout.indent (level + 1) ++ declared.call).toList) =
        table.declaredIndexes.flatMap (indexRow layout level) :=
    List.flatMap_congr fun declared _ => by simp [indexRow]
  rw [renderAt, indexCalls_eq, String.toList_append, String.toList_append, String.toList_append,
    String.toList_join, List.map_map, List.flatMap_map]
  simp only [Function.comp_apply, hrows, List.append_assoc]
  rfl

theorem indexRow_selfDelimiting (declared : DeclaredIndex) :
    Text.SelfDelimiting (fun a b => a.withoutSystemFields = b.withoutSystemFields)
      (indexRow layout level) declared := by
  intro other rest rest' h
  simp only [indexRow, List.cons_append, List.append_assoc, List.cons.injEq, true_and,
    List.append_cancel_left_eq] at h
  exact declared.call_selfDelimiting other rest rest' h

/-- **A declaration shows where it ends**, in every position where no line follows it. -/
theorem renderAt_append_eq {table other : Table} {c : Char} {rest rest' : List Char} (hc : c ≠ '\n')
    (h : (table.renderAt layout level).toList ++ c :: rest =
      (other.renderAt layout level).toList ++ c :: rest') : table.LooksAlike other ∧ rest = rest' := by
  rw [toList_renderAt, toList_renderAt, List.append_assoc, List.append_assoc, List.append_assoc,
    List.append_assoc, List.append_cancel_left_eq] at h
  obtain ⟨hdocument, hrows⟩ := documentText_append_eq h
  have hclose : ∀ (declared : DeclaredIndex) (rest rest' : List Char),
      indexRow layout level declared ++ rest ≠ [c] ++ rest' :=
    fun _ _ _ he => hc (List.cons.inj he).1.symm
  obtain ⟨hindexes, hrest⟩ := Text.forall₂_of_flatMap_append_eq hclose
    (fun declared _ => indexRow_selfDelimiting declared) hrows
  refine ⟨LooksAlike.of_declaredIndexes hdocument ?_, hrest⟩
  exact Shape.map_eq_of_forall₂ hindexes fun _ _ _ hsame => hsame

/-- What a declaration leaves out does not change it. -/
theorem LooksAlike.renderAt_eq {table other : Table} (h : table.LooksAlike other) :
    table.renderAt layout level = other.renderAt layout level := by
  have hcalls : table.indexCalls = other.indexCalls := by
    have hshown : ∀ table : Table, table.indexCalls =
        (table.declaredIndexes.map DeclaredIndex.withoutSystemFields).map DeclaredIndex.call := by
      intro table
      rw [indexCalls_eq, List.map_map]
      exact List.map_congr_left fun declared _ => declared.call_withoutSystemFields.symm
    rw [hshown, hshown, h.map_declaredIndexes]
  rw [renderAt, renderAt, documentText_eq_of_looksAlike h.documentType, hcalls]

end

/-- **A declaration determines its table**, active and staged indexes included: under every layout,
two tables have the same declaration exactly when they look alike. -/
theorem value_render_eq_iff {layout : Layout} {table other : Table} :
    (table.render layout).value = (other.render layout).value ↔ table.LooksAlike other := by
  constructor
  · intro h
    have htexts : (table.renderAt layout 0).toList ++ [';'] =
        (other.renderAt layout 0).toList ++ [';'] := congrArg (fun text => text.toList ++ [';']) h
    exact (renderAt_append_eq (by decide) htexts).1
  · exact LooksAlike.renderAt_eq

end Table

end DocShape
