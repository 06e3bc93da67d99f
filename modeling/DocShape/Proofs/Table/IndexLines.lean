import DocShape.Proofs.Shape.Lines
import DocShape.Proofs.Table.Unambiguous
import DocShape.Proofs.Table.WellFormed

/-!
# Lines of indexes

In the declaration of a table the lines that start with a call are those of its indexes:
no line of the document type does.  So what the declaration says of an index over fields
can be read off such a line alone, in particular whether it lists a field.

A table that is read has no index without fields, but a declaration leaves out system
fields.  Only an index with a field of its own is declared with one.

* `Table.lines_renderAt`: the lines of a declaration.
* `Table.filter_isCallLine_lines`: **which lines declare an index over fields**.
* `Table.indexLines_of_ofJson`: **which of these lines list no field**.
* `Table.exists_emptyIndexLine`: a table that is read and has such a line.
-/

namespace DocShape

open Text (Scans unindented)

/-! ### Calls on a line -/

namespace Index

/-- Whether a line declares an index over fields. -/
def isCallLine (line : List Char) : Bool := ".index(".toList.isPrefixOf (unindented line)

/-- The declaration of an index that lists no field. -/
def emptyCall (staged : Bool) (name : String) : String :=
  if staged then ".index(" ++ Text.quote name ++ ", \x7b fields: [], staged: true \x7d)"
  else ".index(" ++ Text.quote name ++ ", [])"

/-- A line that declares an index and lists no field. -/
def IsEmptyLine (line : List Char) : Prop :=
  ∃ staged name, unindented line = (emptyCall staged name).toList

theorem emptyCall_eq (staged : Bool) (name : String) :
    emptyCall staged name = Index.call staged ⟨name, []⟩ := by
  rw [← String.toList_inj, toList_call]
  cases staged <;> simp [emptyCall, fieldsOptions, toList_listText, withoutSystemNames]

/-- A call lists no field exactly if all fields of the index are system fields. -/
theorem exists_call_eq_emptyCall_iff {staged : Bool} {index : Index} :
    (∃ staged' name, index.call staged = emptyCall staged' name) ↔
      ∀ field ∈ index.fields, Text.isSystemName field = true := by
  have hfields : withoutSystemNames index.fields = [] ↔
      ∀ field ∈ index.fields, Text.isSystemName field = true := by
    simp [withoutSystemNames]
  rw [← hfields]
  constructor
  · rintro ⟨staged', name, hcall⟩
    rw [emptyCall_eq] at hcall
    have htexts := congrArg (fun text => text.toList ++ []) hcall
    obtain ⟨-, hindex, -⟩ := call_append_eq htexts
    exact congrArg fields hindex
  · intro hnone
    refine ⟨staged, index.name, ?_⟩
    rw [emptyCall_eq, ← String.toList_inj, toList_call, toList_call, hnone]
    rfl

/-- A line that lists no field declares an index. -/
theorem isCallLine_of_isEmptyLine {line : List Char} (h : IsEmptyLine line) :
    isCallLine line = true := by
  obtain ⟨staged, name, hline⟩ := h
  rw [isCallLine, hline, emptyCall_eq, toList_call]
  rfl

end Index

theorem newline_notMem_listText (items : List String) : '\n' ∉ (listText items).toList := by
  rw [toList_listText]
  simp [Shape.newline_notMem_intercalate_iff, Text.newline_notMem_quote]

namespace DeclaredIndex

/-- The call of an index is one line. -/
theorem newline_notMem_call (declared : DeclaredIndex) : '\n' ∉ declared.call.toList := by
  have hoptions : ∀ staged, '\n' ∉ (optionsEnd staged).toList := by decide
  cases declared with
  | index staged i =>
    have hfields : '\n' ∉ fieldsOptions staged (withoutSystemNames i.fields) := by
      cases staged <;> simp [fieldsOptions, newline_notMem_listText]
    simp [call, Index.toList_call, Text.newline_notMem_quote, hfields]
  | search staged i =>
    simp [call, SearchIndex.toList_call, Text.newline_notMem_quote, newline_notMem_listText,
      hoptions]
  | vector staged i =>
    have hdimensions : '\n' ∉ Nat.toDigits 10 i.dimensions.toNat :=
      fun h => absurd (isNumberChar_of_mem_toDigits h) (by decide)
    simp [call, VectorIndex.toList_call, Text.newline_notMem_quote, newline_notMem_listText,
      hoptions, hdimensions]

/-- A call starts with its dot. -/
theorem exists_call_eq_cons (declared : DeclaredIndex) :
    ∃ rest, declared.call.toList = '.' :: rest := by
  cases declared with
  | index staged i => exact ⟨_, by rw [call, Index.toList_call]; rfl⟩
  | search staged i => exact ⟨_, by rw [call, SearchIndex.toList_call]; rfl⟩
  | vector staged i => exact ⟨_, by rw [call, VectorIndex.toList_call]; rfl⟩

/-- The line of an index. -/
def line (layout : Layout) (level : Nat) (declared : DeclaredIndex) : List Char :=
  (layout.indent level).toList ++ declared.call.toList

theorem unindented_line (layout : Layout) (level : Nat) (declared : DeclaredIndex) :
    unindented (declared.line layout level) = declared.call.toList := by
  obtain ⟨rest, hcall⟩ := declared.exists_call_eq_cons
  rw [line, Layout.toList_indent, hcall]
  exact Text.unindented_blanks_append _ (by decide) rest

theorem newline_notMem_line (layout : Layout) (level : Nat) (declared : DeclaredIndex) :
    '\n' ∉ declared.line layout level := by
  rw [line, List.mem_append, not_or, Layout.toList_indent]
  exact ⟨fun h => absurd (List.eq_of_mem_replicate h) (by decide), declared.newline_notMem_call⟩

/-- Whether it is an index over fields. -/
def isOverFields : DeclaredIndex → Bool
  | index _ _ => true
  | _ => false

theorem isCallLine_line (layout : Layout) (level : Nat) (declared : DeclaredIndex) :
    Index.isCallLine (declared.line layout level) = declared.isOverFields := by
  rw [Index.isCallLine, unindented_line]
  cases declared with
  | index staged i =>
    rw [call, Index.toList_call]
    rfl
  | search staged i =>
    rw [call, SearchIndex.toList_call]
    rfl
  | vector staged i =>
    rw [call, VectorIndex.toList_call]
    rfl

theorem isEmptyLine_line_iff {layout : Layout} {level : Nat} {staged : Bool} {i : Index} :
    Index.IsEmptyLine ((index staged i).line layout level) ↔
      ∀ field ∈ i.fields, Text.isSystemName field = true := by
  rw [Index.IsEmptyLine, unindented_line, ← Index.exists_call_eq_emptyCall_iff]
  simp only [String.toList_inj]
  rfl

end DeclaredIndex

namespace Table

section

variable (layout : Layout) (level : Nat)

theorem scans_documentText (documentType : Option Shape) :
    Scans false false ((documentText layout level documentType).toList ++ [')']) := by
  by_cases hobject : ∃ fields, documentType = some (.object fields)
  · obtain ⟨fields, rfl⟩ := hobject
    rw [toList_documentText_object]
    exact Shape.scans_arguments layout (.object fields) level
  · rw [documentText_of_not_object (not_exists.1 hobject)]
    exact (Shape.scans_renderAt layout level _).append rfl

/-- The declaration of a table without its indexes. -/
def documentPart (table : Table) : String :=
  "defineTable(" ++ documentText layout (level + 1) table.documentType ++ ")"

theorem toList_documentPart (table : Table) : (table.documentPart layout level).toList =
    "defineTable(".toList ++
      ((documentText layout (level + 1) table.documentType).toList ++ [')']) := by
  rw [documentPart, String.toList_append, String.toList_append, List.append_assoc]
  rfl

/-- **The lines of a declaration**: those of the document type, and one for each index. -/
theorem lines_renderAt (table : Table) :
    Text.lines (table.renderAt layout level) = Text.lines (table.documentPart layout level) ++
      table.declaredIndexes.map (DeclaredIndex.line layout (level + 1)) := by
  have htext : (table.renderAt layout level).toList = (table.documentPart layout level).toList ++
      table.declaredIndexes.flatMap fun declared => '\n' :: declared.line layout (level + 1) := by
    rw [toList_renderAt, toList_documentPart]
    simp only [List.append_assoc, List.singleton_append]
    rfl
  rw [Text.lines, Text.lines, htext]
  exact Text.splitOn_append_rows (fun declared _ => declared.newline_notMem_line _ _) _

/-- No line of the document type starts with a dot. -/
theorem head?_unindented_ne_of_mem_documentPart (table : Table) :
    ∀ line ∈ Text.lines (table.documentPart layout level),
      (unindented line).head? ≠ some '.' := by
  have hopen : Scans true false "defineTable(".toList := rfl
  have hdocument := scans_documentText layout (level + 1) table.documentType
  have hscans := hopen.append hdocument
  rw [← toList_documentPart] at hscans
  exact hscans.head?_unindented_ne

end

/-! ### Indexes over fields -/

section

variable {layout : Layout} {level : Nat}

theorem head?_unindented_of_isCallLine {line : List Char} (h : Index.isCallLine line = true) :
    (unindented line).head? = some '.' := by
  obtain ⟨rest, hrest⟩ := List.isPrefixOf_iff_prefix.1 h
  rw [← hrest]
  rfl

/-- The lines of the indexes over fields, active ones first. -/
def indexLines (layout : Layout) (level : Nat) (table : Table) : List (List Char) :=
  table.indexes.map (fun index => (DeclaredIndex.index false index).line layout level) ++
    table.stagedIndexes.map fun index => (DeclaredIndex.index true index).line layout level

/-- **Which lines declare an index over fields**: a line for each active one, and then a line for
each staged one. -/
theorem filter_isCallLine_lines (table : Table) :
    (Text.lines (table.renderAt layout level)).filter Index.isCallLine =
      table.indexLines layout (level + 1) := by
  have hdocument : (Text.lines (table.documentPart layout level)).filter Index.isCallLine = [] := by
    rw [List.filter_eq_nil_iff]
    intro line hline hcall
    exact table.head?_unindented_ne_of_mem_documentPart layout level line hline
      (head?_unindented_of_isCallLine hcall)
  have hindexes : table.declaredIndexes.filter DeclaredIndex.isOverFields =
      table.indexes.map (.index false) ++ table.stagedIndexes.map (.index true) := by
    simp [declaredIndexes, List.filter_map, Function.comp_def, DeclaredIndex.isOverFields]
  have hlines : (table.declaredIndexes.map
      (DeclaredIndex.line layout (level + 1))).filter Index.isCallLine =
        (table.declaredIndexes.filter DeclaredIndex.isOverFields).map
          (DeclaredIndex.line layout (level + 1)) := by
    rw [List.filter_map]
    congr 1
    exact List.filter_congr fun declared _ => declared.isCallLine_line layout (level + 1)
  rw [lines_renderAt, List.filter_append, hdocument, List.nil_append, hlines, hindexes,
    List.map_append, List.map_map, List.map_map]
  rfl

/-- **Which lines list no field**: those of the indexes that are over system fields only. -/
theorem exists_isEmptyLine_iff (table : Table) :
    (∃ line ∈ Text.lines (table.renderAt layout level), Index.IsEmptyLine line) ↔
      ∃ index ∈ table.indexes ++ table.stagedIndexes,
        ∀ field ∈ index.fields, Text.isSystemName field = true := by
  have hlines : (∃ line ∈ Text.lines (table.renderAt layout level), Index.IsEmptyLine line) ↔
      ∃ line ∈ table.indexLines layout (level + 1), Index.IsEmptyLine line := by
    rw [← filter_isCallLine_lines]
    constructor
    · rintro ⟨line, hline, hempty⟩
      exact ⟨line, List.mem_filter.2 ⟨hline, Index.isCallLine_of_isEmptyLine hempty⟩, hempty⟩
    · rintro ⟨line, hline, hempty⟩
      exact ⟨line, (List.mem_filter.1 hline).1, hempty⟩
  rw [hlines]
  simp only [indexLines, List.mem_append, List.mem_map, or_and_right, exists_or,
    exists_exists_and_eq_and, DeclaredIndex.isEmptyLine_line_iff]

end

/-- **The lines of the indexes of a table that is read.**  Every index has a field, and there is a
line for each, but the line lists a field exactly if the index has one that is no system field. -/
theorem indexLines_of_ofJson {settings : Settings} {value : Json} {table : Noted Table}
    (h : ofJson settings value = .ok table) (layout : Layout) :
    (∀ index ∈ table.value.indexes ++ table.value.stagedIndexes, index.fields ≠ []) ∧
      (Text.lines (table.value.render layout).value).filter Index.isCallLine =
        table.value.indexLines layout 1 ∧
      ((∀ line ∈ Text.lines (table.value.render layout).value, ¬ Index.IsEmptyLine line) ↔
        ∀ index ∈ table.value.indexes ++ table.value.stagedIndexes,
          ∃ field ∈ index.fields, Text.isSystemName field = false) := by
  refine ⟨fun index hindex => ((wellFormed_of_ofJson h).indexes index hindex).2,
    table.value.filter_isCallLine_lines, ?_⟩
  have hempty : (∃ line ∈ Text.lines (table.value.render layout).value, Index.IsEmptyLine line) ↔
      ∃ index ∈ table.value.indexes ++ table.value.stagedIndexes,
        ∀ field ∈ index.fields, Text.isSystemName field = true := exists_isEmptyLine_iff table.value
  simpa using not_congr hempty

/-- The description of a table with one index. -/
def indexedTable (name : String) (fields : List String) : Json :=
  .object [("tableName", .string "posts"), ("indexes", .array
    [.object [("name", .string name), ("fields", .array (fields.map .string))]])]

/-- Next to a field of its own an index may have system fields. -/
theorem indexLines_of_ofJson_byAuthor : ∃ table,
    ofJson {} (indexedTable "by_author" ["author", "_creationTime"]) = .ok table ∧
      ∀ line ∈ Text.lines (table.value.render {}).value, ¬ Index.IsEmptyLine line := by
  have hread : ∃ table, ofJson {} (indexedTable "by_author" ["author", "_creationTime"]) =
      .ok table ∧ table.value.indexes = [⟨"by_author", ["author", "_creationTime"]⟩] ∧
        table.value.stagedIndexes = [] := ⟨_, rfl, rfl, rfl⟩
  obtain ⟨table, hread, hindexes, hstaged⟩ := hread
  refine ⟨table, hread, (indexLines_of_ofJson hread {}).2.2.2 ?_⟩
  rw [hindexes, hstaged]
  decide

/-- **An index that is declared without a field.**  Its only field is a system field, so it is read,
but the field is left out of its line. -/
theorem exists_emptyIndexLine : ∃ table,
    ofJson {} (indexedTable "by_time" ["_creationTime"]) = .ok table ∧
      (table.value.render {}).value = "defineTable(v.any())\n  .index(\"by_time\", [])" ∧
      ∃ line ∈ Text.lines (table.value.render {}).value, Index.IsEmptyLine line := by
  refine ⟨_, rfl, by decide +kernel, ?_⟩
  refine (exists_isEmptyLine_iff _).2 ⟨⟨"by_time", ["_creationTime"]⟩, ?_, by decide⟩
  exact List.mem_singleton_self _

end Table

end DocShape
