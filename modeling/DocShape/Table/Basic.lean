import DocShape.Index.Basic
import DocShape.Shape.Basic

/-!
# Tables

A table: its name, the shape of its documents if it has one, and its index lists. A **database** is
a list of tables together with whether documents are checked when they are written.
-/

namespace DocShape

/-- The declaration of a table. Without a document type any document is allowed. -/
structure Table where
  name : String
  documentType : Option Shape := none
  indexes : List Index := []
  searchIndexes : List SearchIndex := []
  vectorIndexes : List VectorIndex := []
  stagedIndexes : List Index := []
  stagedSearchIndexes : List SearchIndex := []
  stagedVectorIndexes : List VectorIndex := []

/-- The declared fields of the documents; tables without document type and tables of several
document types have none. -/
def Table.fields (table : Table) : List (Field Shape) :=
  (table.documentType.map Shape.fields).getD []

/-- The fields of users that refer to a table, each with that table. -/
def Table.references (table : Table) : List (String × String) :=
  (table.fields.filter fun field => !field.isSystem).filterMap fun field =>
    field.shape.target?.map fun target => (field.name, target)

/-- The declaration of a database. -/
structure Database where
  tables : List Table
  /-- Whether documents are checked when they are written. -/
  schemaValidation : Bool := true

/-- The first table of that name. -/
def Database.table? (database : Database) (name : String) : Option Table :=
  database.tables.find? fun table => table.name == name

end DocShape
