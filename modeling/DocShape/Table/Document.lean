import DocShape.Notice.Noted
import DocShape.Shape.Default
import DocShape.Table.Basic

/-!
# Documents of tables

Checking a document against the document type of its table, and the document that a table starts
with.
-/

namespace DocShape.Table

/-- One message for each mismatch of a document; a table without document type allows any. -/
def validate (table : Table) (document : Json) : Noted (List String) :=
  let errors :=
    match table.documentType with
    | some shape => shape.validate document ""
    | none => []
  ⟨errors, [.documentValidated table.name errors.length]⟩

/-- The document that the table starts with; without document type it is empty. -/
def defaultDocument (table : Table) : Noted Members :=
  let document := (table.documentType.map Shape.document).getD []
  ⟨document, [.documentSynthesized table.name document.length]⟩

end DocShape.Table
