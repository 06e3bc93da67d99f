import DocShape.Notice.Noted
import DocShape.Shape.Declaration
import DocShape.Table.Basic

/-!
# Declarations of tables

A table is declared by its document type followed by one line for each index; a database by its
tables in the order of their names.

* `Table.render`: **the declaration of a table**, with a notice.
* `Database.render`: **the declaration of a database**.
-/

namespace DocShape

def listText (items : List String) : String :=
  "[" ++ ", ".intercalate (items.map Text.quote) ++ "]"

/-! ## Indexes -/

/-- The call that declares an index. System fields are left out. -/
def Index.call (staged : Bool) (index : Index) : String :=
  let fields := listText (withoutSystemNames index.fields)
  ".index(" ++ Text.quote index.name ++ ", "
    ++ (if staged then "\x7b fields: " ++ fields ++ ", staged: true \x7d" else fields) ++ ")"

/-- The end of the options of a search or vector index. -/
def optionsEnd (staged : Bool) : String := (if staged then ", staged: true" else "") ++ " \x7d)"

def SearchIndex.call (staged : Bool) (index : SearchIndex) : String :=
  ".searchIndex(" ++ Text.quote index.name ++ ", \x7b searchField: " ++ Text.quote index.searchField
    ++ ", filterFields: " ++ listText (withoutSystemNames index.filterFields) ++ optionsEnd staged

def VectorIndex.call (staged : Bool) (index : VectorIndex) : String :=
  ".vectorIndex(" ++ Text.quote index.name ++ ", \x7b vectorField: " ++ Text.quote index.vectorField
    ++ ", dimensions: " ++ toString index.dimensions.toNat
    ++ ", filterFields: " ++ listText (withoutSystemNames index.filterFields) ++ optionsEnd staged

/-! ## Tables -/

namespace Table

/-- The calls for all indexes, active ones first. -/
def indexCalls (table : Table) : List String :=
  table.indexes.map (Index.call false)
    ++ table.searchIndexes.map (SearchIndex.call false)
    ++ table.vectorIndexes.map (VectorIndex.call false)
    ++ table.stagedIndexes.map (Index.call true)
    ++ table.stagedSearchIndexes.map (SearchIndex.call true)
    ++ table.stagedVectorIndexes.map (VectorIndex.call true)

/-- The document type inside a declaration, where an object stands without its call. -/
def documentText (layout : Layout) (level : Nat) : Option Shape → String
  | none => "v.any()"
  | some (.object fields) => Shape.block layout level (Shape.fieldLines layout level fields)
  | some shape => shape.renderAt layout level

/-- The declaration of a table on a line of the given level. -/
def renderAt (layout : Layout) (level : Nat) (table : Table) : String :=
  "defineTable(" ++ documentText layout (level + 1) table.documentType ++ ")"
    ++ String.join (table.indexCalls.map fun call => "\n" ++ layout.indent (level + 1) ++ call)

def render (layout : Layout) (table : Table) : Noted String :=
  let text := table.renderAt layout 0
  ⟨text, [.tableRendered table.name text.utf8ByteSize]⟩

end Table

/-! ## Databases -/

namespace Database

/-- The tables in the order of their names, equal names in declared order. -/
def sortedTables (database : Database) : List Table :=
  database.tables.mergeSort fun a b => decide (a.name ≤ b.name)

def header : String :=
  "import \x7b defineSchema, defineTable \x7d from \"convex/server\";\n"
    ++ "import \x7b v \x7d from \"convex/values\";\n\nexport default defineSchema("

def tableLine (layout : Layout) (table : Table) : String :=
  layout.indent 1 ++ Shape.fieldKey table.name ++ ": " ++ table.renderAt layout 1 ++ ",\n"

def tablesText (layout : Layout) (tables : List Table) : String :=
  if tables.isEmpty then "\x7b\x7d"
  else "\x7b\n" ++ String.join (tables.map (tableLine layout)) ++ "\x7d"

/-- The declaration of a database. -/
def render (layout : Layout) (database : Database) : String :=
  header ++ tablesText layout database.sortedTables
    ++ (if database.schemaValidation then "" else ", \x7b schemaValidation: false \x7d")
    ++ ");\n"

end Database

end DocShape
