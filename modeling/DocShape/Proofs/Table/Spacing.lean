import DocShape.Proofs.Shape.Spacing
import DocShape.Proofs.Table.Unambiguous

/-!
# What a layout changes

Indent width and the two limits for unions on one line only say how a declaration is
laid out.  For shapes this is `Shape.trimmed_renderAt_congr`.  A table puts its document
type between parentheses, where the comma behind it may go, and the lines of its indexes
after that; they only differ in how far they are indented.  A database has one row for
each table, and those differ like the rows of an object.

* `Table.trimmed_renderAt_congr`, `Database.trimmed_render_congr`: tables and databases under
  two layouts.
* `condensed_render_eq`: **declarations under two layouts are the same up to spacing**.
-/

namespace DocShape

open Text (ClosesQuotes Glyph close comma condensed glyphs ink inkOf plain trimmed)

/-! ### Indexes -/

theorem closesQuotes_listText (items : List String) : ClosesQuotes (listText items).toList := by
  have hitems : ClosesQuotes
      ([',', ' '].intercalate (items.map fun item => (Text.quote item).toList)) := by
    refine ClosesQuotes.intercalate (by decide) ?_
    rw [List.forall_mem_map]
    exact fun item _ => Text.closesQuotes_quote item
  have hclose : ClosesQuotes [']'] := rfl
  rw [toList_listText]
  exact ClosesQuotes.cons (by decide) (hitems.append hclose)

theorem closesQuotes_fieldsOptions (staged : Bool) (fields : List String) :
    ClosesQuotes (fieldsOptions staged fields) := by
  cases staged with
  | false => exact closesQuotes_listText fields
  | true =>
    have hopen : ClosesQuotes "\x7b fields: ".toList := rfl
    have hclose : ClosesQuotes ", staged: true \x7d".toList := rfl
    exact (hopen.append (closesQuotes_listText fields)).append hclose

theorem closesQuotes_optionsEnd (staged : Bool) : ClosesQuotes (optionsEnd staged).toList := by
  cases staged <;> rfl

theorem closesQuotes_dimensions (dimensions : UInt32) :
    ClosesQuotes (toString dimensions.toNat).toList := by
  have htext : (toString dimensions.toNat).toList = Nat.toDigits 10 dimensions.toNat :=
    Nat.toList_repr
  rw [htext]
  exact ClosesQuotes.of_notMem fun h => absurd (isNumberChar_of_mem_toDigits h) (by decide)

theorem DeclaredIndex.closesQuotes_call (declared : DeclaredIndex) :
    ClosesQuotes declared.call.toList := by
  cases declared with
  | index staged i =>
    have hopen : ClosesQuotes ".index(".toList := rfl
    have hcomma : ClosesQuotes ", ".toList := rfl
    have hclose : ClosesQuotes [')'] := rfl
    rw [call, Index.toList_call]
    exact (((hopen.append (Text.closesQuotes_quote _)).append hcomma).append
      (closesQuotes_fieldsOptions _ _)).append hclose
  | search staged i =>
    have hopen : ClosesQuotes ".searchIndex(".toList := rfl
    have hfield : ClosesQuotes ", \x7b searchField: ".toList := rfl
    have hfilter : ClosesQuotes ", filterFields: ".toList := rfl
    rw [call, SearchIndex.toList_call]
    exact (((((hopen.append (Text.closesQuotes_quote _)).append hfield).append
      (Text.closesQuotes_quote _)).append hfilter).append (closesQuotes_listText _)).append
        (closesQuotes_optionsEnd _)
  | vector staged i =>
    have hopen : ClosesQuotes ".vectorIndex(".toList := rfl
    have hfield : ClosesQuotes ", \x7b vectorField: ".toList := rfl
    have hdimensions : ClosesQuotes ", dimensions: ".toList := rfl
    have hfilter : ClosesQuotes ", filterFields: ".toList := rfl
    rw [call, VectorIndex.toList_call]
    exact (((((((hopen.append (Text.closesQuotes_quote _)).append hfield).append
      (Text.closesQuotes_quote _)).append hdimensions).append
        (closesQuotes_dimensions _)).append hfilter).append (closesQuotes_listText _)).append
          (closesQuotes_optionsEnd _)

/-! ### Tables -/

namespace Table

section

variable (layout : Layout) (level : Nat)

theorem closesQuotes_documentText (documentType : Option Shape) :
    ClosesQuotes (documentText layout level documentType).toList := by
  by_cases hobject : ∃ fields, documentType = some (.object fields)
  · obtain ⟨fields, rfl⟩ := hobject
    rw [toList_documentText_object]
    exact Shape.closesQuotes_arguments layout (.object fields) level
  · rw [documentText_of_not_object (not_exists.1 hobject)]
    exact Shape.closesQuotes_renderAt layout level _

theorem closesQuotes_indexRow (declared : DeclaredIndex) :
    ClosesQuotes (indexRow layout level declared) :=
  ClosesQuotes.cons (by decide)
    ((layout.closesQuotes_indent (level + 1)).append declared.closesQuotes_call)

theorem closesQuotes_renderAt (table : Table) :
    ClosesQuotes (table.renderAt layout level).toList := by
  have hopen : ClosesQuotes "defineTable(".toList := rfl
  rw [toList_renderAt]
  exact (hopen.append (closesQuotes_documentText layout _ _)).append
    (ClosesQuotes.cons (by decide)
      (ClosesQuotes.flatMap fun declared _ => closesQuotes_indexRow layout level declared))

/-- The line of an index shows its call. -/
theorem ink_indexRow (declared : DeclaredIndex) :
    ink (glyphs (indexRow layout level declared)) = inkOf declared.call := by
  rw [indexRow, Text.glyphs_cons (by decide),
    Text.glyphs_plain_append (layout.quote_notMem_indent (level + 1)), ← List.singleton_append,
    Text.ink_append, Text.ink_append, layout.ink_indent]
  rfl

theorem inkOf_renderAt (table : Table) :
    inkOf (table.renderAt layout level) = inkOf "defineTable(" ++
      ((inkOf (documentText layout (level + 1) table.documentType) ++ [close]) ++
        table.declaredIndexes.flatMap fun declared => inkOf declared.call) := by
  have hopen : ClosesQuotes "defineTable(".toList := rfl
  have hdocument := hopen.append (closesQuotes_documentText layout (level + 1) table.documentType)
  rw [inkOf, toList_renderAt, Text.glyphs_append hdocument, Text.glyphs_append hopen,
    Text.glyphs_cons (by decide),
    Text.glyphs_flatMap fun declared _ => closesQuotes_indexRow layout level declared,
    ← List.singleton_append, Text.ink_append, Text.ink_append, Text.ink_append, Text.ink_flatMap]
  simp only [ink_indexRow, List.append_assoc]
  rfl

theorem trimmed_renderAt (table : Table) :
    trimmed (inkOf (table.renderAt layout level)) = trimmed (inkOf "defineTable(") ++
      (trimmed (inkOf (documentText layout (level + 1) table.documentType) ++ [close]) ++
        trimmed (table.declaredIndexes.flatMap fun declared => inkOf declared.call)) := by
  have hdocument : (inkOf (documentText layout (level + 1) table.documentType) ++
      [close]).getLast? ≠ some comma := by
    rw [List.getLast?_concat]
    decide
  rw [inkOf_renderAt, Text.trimmed_append (Or.inl (by decide)),
    Text.trimmed_append (Or.inl hdocument)]

end

theorem trimmed_documentText_congr (layout other : Layout) (level level' : Nat)
    (documentType : Option Shape) :
    trimmed (inkOf (documentText layout level documentType) ++ [close]) =
      trimmed (inkOf (documentText other level' documentType) ++ [close]) := by
  by_cases hobject : ∃ fields, documentType = some (.object fields)
  · obtain ⟨fields, rfl⟩ := hobject
    have hrows : ∀ field ∈ userFields fields,
        trimmed (ink (glyphs (Shape.fieldRow layout level field))) =
          trimmed (ink (glyphs (Shape.fieldRow other level' field))) :=
      fun field _ => Shape.trimmed_fieldRow_congr (Shape.trimmed_renderAt_congr layout other _ _ _)
    rw [inkOf, inkOf, toList_documentText_object, toList_documentText_object,
      Shape.trimmed_arguments_object, Shape.trimmed_arguments_object, List.flatMap_congr hrows]
  · rw [documentText_of_not_object (not_exists.1 hobject),
      documentText_of_not_object (not_exists.1 hobject)]
    exact Shape.trimmed_argument_congr (Shape.trimmed_renderAt_congr layout other _ _ _)

/-- The declarations of a table under two layouts, at any levels. -/
theorem trimmed_renderAt_congr (layout other : Layout) (level level' : Nat) (table : Table) :
    trimmed (inkOf (table.renderAt layout level)) =
      trimmed (inkOf (table.renderAt other level')) := by
  rw [trimmed_renderAt, trimmed_renderAt, trimmed_documentText_congr layout other]

end Table

/-! ### Databases -/

namespace Database

/-- What a declaration shows after its tables. -/
def ending (schemaValidation : Bool) : String :=
  (if schemaValidation then "" else ", \x7b schemaValidation: false \x7d") ++ ");\n"

theorem render_eq_append (layout : Layout) (database : Database) :
    database.render layout = header ++ (tablesText layout database.sortedTables ++
      ending database.schemaValidation) := by
  rw [render, ending, String.append_assoc, String.append_assoc]

section

variable (layout : Layout)

theorem closesQuotes_tableLine (table : Table) : ClosesQuotes (tableLine layout table).toList := by
  have hcolon : ClosesQuotes ": ".toList := rfl
  have hcomma : ClosesQuotes ",\n".toList := rfl
  simp only [tableLine, String.toList_append]
  exact ((((layout.closesQuotes_indent 1).append (Shape.closesQuotes_fieldKey table.name)).append
    hcolon).append (table.closesQuotes_renderAt layout 1)).append hcomma

theorem inkOf_tableLine (table : Table) :
    inkOf (tableLine layout table) = inkOf (Shape.fieldKey table.name) ++ plain [':'] ++
      inkOf (table.renderAt layout 1) ++ [comma] := by
  have hcolon : '"' ∉ ": ".toList := by decide
  have hcomma : '"' ∉ ",\n".toList := by decide
  have hkey := (layout.closesQuotes_indent 1).append (Shape.closesQuotes_fieldKey table.name)
  have hstart := hkey.append (ClosesQuotes.of_notMem hcolon)
  simp only [inkOf, tableLine, String.toList_append]
  rw [Text.glyphs_append_plain (hstart.append (table.closesQuotes_renderAt layout 1)) hcomma,
    Text.glyphs_append hstart, Text.glyphs_append_plain hkey hcolon,
    Text.glyphs_plain_append (layout.quote_notMem_indent 1), Text.ink_append, Text.ink_append,
    Text.ink_append, Text.ink_append, layout.ink_indent]
  rfl

theorem head_inkOf_tableLine_ne (table : Table) :
    (inkOf (tableLine layout table)).head? ≠ some close := by
  rw [inkOf_tableLine, List.append_assoc, List.append_assoc]
  exact Text.head_append_ne (Shape.head_inkOf_fieldKey_ne table.name) (by simp [plain, close])

theorem trimmed_tableLine_congr (layout other : Layout) (table : Table) :
    trimmed (inkOf (tableLine layout table)) = trimmed (inkOf (tableLine other table)) := by
  rw [inkOf_tableLine, inkOf_tableLine, Text.trimmed_row, Text.trimmed_row,
    Table.trimmed_renderAt_congr layout other]

/-- The tables are rows between braces, and between empty braces there are none. -/
theorem ink_tablesText_append (tables : List Table) (rest : List Char) :
    ink (glyphs ((tablesText layout tables).toList ++ rest)) =
      plain ['{'] ++ ((tables.flatMap fun table => inkOf (tableLine layout table)) ++
        (plain ['}'] ++ ink (glyphs rest))) := by
  unfold tablesText
  split
  · next htables =>
    rw [List.isEmpty_iff.1 htables]
    rfl
  · have hrows : ClosesQuotes (tables.flatMap fun table => (tableLine layout table).toList) :=
      ClosesQuotes.flatMap fun table _ => closesQuotes_tableLine layout table
    have hopen : '"' ∉ "\x7b\n".toList := by decide
    have hclose : '"' ∉ "\x7d".toList := by decide
    simp only [String.toList_append, String.toList_join, List.flatMap_map, List.append_assoc]
    rw [Text.glyphs_plain_append hopen, Text.glyphs_append hrows, Text.glyphs_plain_append hclose,
      Text.glyphs_flatMap fun table _ => closesQuotes_tableLine layout table, Text.ink_append,
      Text.ink_append, Text.ink_append, Text.ink_flatMap]
    rfl

theorem trimmed_render (database : Database) :
    trimmed (inkOf (database.render layout)) = trimmed (inkOf header ++ plain ['{']) ++
      ((database.sortedTables.flatMap fun table => trimmed (inkOf (tableLine layout table))) ++
        trimmed (plain ['}'] ++ inkOf (ending database.schemaValidation))) := by
  have hheader : header.toList.foldl Text.Quotation.next .outside = .outside := by decide +kernel
  have hopen : (inkOf header ++ plain ['{']).getLast? ≠ some comma := by
    rw [plain, List.map_singleton, List.getLast?_concat]
    decide
  rw [inkOf, render_eq_append, String.toList_append, String.toList_append,
    Text.glyphs_append hheader, Text.ink_append, ink_tablesText_append, ← List.append_assoc]
  have hrest : (plain ['}'] ++ ink (glyphs (ending database.schemaValidation).toList)).head? ≠
      some close := by simp [plain, close]
  exact (Text.trimmed_append (Or.inl hopen)).trans (congrArg _
    (Text.trimmed_rows (fun table _ => head_inkOf_tableLine_ne layout table) hrest))

end

theorem trimmed_render_congr (layout other : Layout) (database : Database) :
    trimmed (inkOf (database.render layout)) = trimmed (inkOf (database.render other)) := by
  have hrows : ∀ table ∈ database.sortedTables,
      trimmed (inkOf (tableLine layout table)) = trimmed (inkOf (tableLine other table)) :=
    fun table _ => trimmed_tableLine_congr layout other table
  rw [trimmed_render, trimmed_render, List.flatMap_congr hrows]

end Database

/-! ### Two layouts -/

/-- **A layout only changes spacing.**  The declarations of a shape, of a table or of a database
under any two layouts are the same text once, outside quotes, all blanks and line breaks are deleted
and then every comma directly before a closing parenthesis. -/
theorem condensed_render_eq (layout other : Layout) :
    (∀ shape : Shape, condensed (shape.render layout) = condensed (shape.render other)) ∧
      (∀ table : Table,
        condensed (table.render layout).value = condensed (table.render other).value) ∧
      ∀ database : Database,
        condensed (database.render layout) = condensed (database.render other) := by
  have hcondensed : ∀ text text' : String, trimmed (inkOf text) = trimmed (inkOf text') →
      condensed text = condensed text' := by
    intro text text' h
    rw [condensed, condensed, h]
  refine ⟨?_, ?_, ?_⟩
  · intro shape
    exact hcondensed _ _ (Shape.trimmed_renderAt_congr layout other shape 1 1)
  · intro table
    exact hcondensed _ _ (Table.trimmed_renderAt_congr layout other 0 0 table)
  · intro database
    exact hcondensed _ _ (Database.trimmed_render_congr layout other database)

end DocShape
