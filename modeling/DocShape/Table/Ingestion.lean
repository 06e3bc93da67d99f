import DocShape.Description.Loading
import DocShape.Index.Decoding
import DocShape.Table.Basic

/-!
# Reading tables and databases

A table is read from a JSON object. It fails only if the object has no usable name or a member of
the wrong type; whatever is wrong inside the document type or an index list is repaired, with
notices.

* `Table.ofJson`, `Table.ofText`: **the table of a description**.
* `Database.ofText`: **the database of a text**.
-/

namespace DocShape

open Decode (Key checkMembers)

/-! ## Document types -/

/-- Drops the variants of a union that describe no document, so that one bad variant does not cost
the table its type. A single variant that is left stands for itself; a union that would lose all its
variants stays as it is. -/
def Shape.repairUnion (table : String) (shape : Shape) : Noted Shape :=
  match shape with
  | .union variants =>
    let dropped := variants.filter fun variant => !variant.describesDocument
    if dropped.isEmpty then pure shape
    else
      let notices := dropped.map fun variant => Notice.variantDropped table variant.kindText
      match variants.filter describesDocument with
      | [] => pure shape
      | [variant] => ⟨variant, notices⟩
      | kept => ⟨.union kept, notices⟩
  | shape => pure shape

/-- The document type that a shape gives a table. `any` is no type, and neither is a shape that
describes no document. -/
def Shape.toDocumentType (table : String) (shape : Shape) : Noted (Option Shape) := do
  let shape ← shape.repairUnion table
  match shape with
  | .any => return none
  | shape =>
    if shape.describesDocument then return some shape
    else Noted.note (pure none) (.documentTypeRejected table shape.kindText)

/-! ## Tables -/

/-- The members of a table description. `null` counts as absent. -/
structure TableRecord where
  name : Option String
  documentType : Option Json
  indexes : Option (List Json)
  searchIndexes : Option (List Json)
  vectorIndexes : Option (List Json)
  stagedIndexes : Option (List Json)
  stagedSearchIndexes : Option (List Json)
  stagedVectorIndexes : Option (List Json)

namespace TableRecord

def nameKey : Key (Option String) := ⟨"tableName", none, Decode.nullable Decode.string⟩

def documentTypeKey : Key (Option Json) := ⟨"documentType", none, Decode.nullable .ok⟩

def listKey (name : String) (alias? : Option String) : Key (Option (List Json)) :=
  ⟨name, alias?, Decode.nullable Decode.sequence⟩

def indexesKey : Key (Option (List Json)) := listKey "indexes" none

def searchIndexesKey : Key (Option (List Json)) := listKey "searchIndexes" none

def vectorIndexesKey : Key (Option (List Json)) := listKey "vectorIndexes" none

def stagedIndexesKey : Key (Option (List Json)) := listKey "stagedDbIndexes" (some "stagedIndexes")

def stagedSearchIndexesKey : Key (Option (List Json)) := listKey "stagedSearchIndexes" none

def stagedVectorIndexesKey : Key (Option (List Json)) := listKey "stagedVectorIndexes" none

def ofMembers (members : Members) : Except DecodeError TableRecord := do
  checkMembers
    [nameKey.rule, documentTypeKey.rule, indexesKey.rule, searchIndexesKey.rule,
      vectorIndexesKey.rule, stagedIndexesKey.rule, stagedSearchIndexesKey.rule,
      stagedVectorIndexesKey.rule] [] members
  return {
    name := ← nameKey.orElse none members
    documentType := ← documentTypeKey.orElse none members
    indexes := ← indexesKey.orElse none members
    searchIndexes := ← searchIndexesKey.orElse none members
    vectorIndexes := ← vectorIndexesKey.orElse none members
    stagedIndexes := ← stagedIndexesKey.orElse none members
    stagedSearchIndexes := ← stagedSearchIndexesKey.orElse none members
    stagedVectorIndexes := ← stagedVectorIndexesKey.orElse none members }

/-- The document type of a table of that name. -/
def documentShape (record : TableRecord) (settings : Settings) (name : String) :
    Noted (Option Shape) :=
  match record.documentType with
  | none => pure none
  | some node => do (← Shape.ofJson settings node).toDocumentType name

/-- The table of a record, under a name. -/
def toTable (record : TableRecord) (settings : Settings) (name : String) : Noted Table := do
  let documentType ← record.documentShape settings name
  let indexes ← IndexEntry.ofList name .indexes (record.indexes.getD [])
  let searchIndexes ← IndexEntry.ofList name .searchIndexes (record.searchIndexes.getD [])
  let vectorIndexes ← IndexEntry.ofList name .vectorIndexes (record.vectorIndexes.getD [])
  let stagedIndexes ← IndexEntry.ofList name .stagedIndexes (record.stagedIndexes.getD [])
  let stagedSearchIndexes ←
    IndexEntry.ofList name .stagedSearchIndexes (record.stagedSearchIndexes.getD [])
  let stagedVectorIndexes ←
    IndexEntry.ofList name .stagedVectorIndexes (record.stagedVectorIndexes.getD [])
  return ⟨name, documentType, indexes, searchIndexes, vectorIndexes, stagedIndexes,
    stagedSearchIndexes, stagedVectorIndexes⟩

end TableRecord

namespace Table

def context : String := "table schema"

/-- The record of a table description and its name. -/
def recordOf (value : Json) : Except SchemaError (TableRecord × String) :=
  match value.members? with
  | none => .error (.notAnObject context)
  | some members =>
    match TableRecord.ofMembers members with
    | .error reason => .error (.invalidJson context reason.message)
    | .ok record =>
      match record.name with
      | some name => if name = "" then .error .missingTableName else .ok (record, name)
      | none => .error .missingTableName

/-- The table of a description. An error comes before any notice. -/
def ofJson (settings : Settings) (value : Json) : Except SchemaError (Noted Table) :=
  (recordOf value).map fun (record, name) => record.toTable settings name

def ofText (settings : Settings) (text : String) : Except SchemaError (Noted Table) :=
  match Json.ofText? text with
  | none => .error (.notJson context)
  | some value => ofJson settings value

end Table

/-! ## Databases -/

namespace Database

def tablesKey : Key (Option (List Json)) := ⟨"tables", none, Decode.nullable Decode.sequence⟩

def schemaValidationKey : Key (Option Bool) :=
  ⟨"schemaValidation", none, Decode.nullable Decode.boolean⟩

/-- The table descriptions of a database, and whether documents are checked. -/
def ofMembers (members : Members) : Except DecodeError (List Json × Bool) := do
  checkMembers [tablesKey.rule, schemaValidationKey.rule] [] members
  let tables ← tablesKey.orElse none members
  let schemaValidation ← schemaValidationKey.orElse none members
  return (tables.getD [], schemaValidation.getD true)

def context : String := "database schema"

/-- The tables of descriptions, up to the first that cannot be read; the notices of those before it
stay. -/
def readTables (settings : Settings) : List Json → Noted (Except SchemaError (List Table))
  | [] => pure (.ok [])
  | value :: rest =>
    match Table.ofJson settings value with
    | .error error => pure (.error error)
    | .ok table => do
      let table ← table
      return (← readTables settings rest).map (table :: ·)

/-- The database of a description. -/
def ofJson (settings : Settings) (value : Json) : Noted (Except SchemaError Database) :=
  match value.members? with
  | none => pure (.error (.notAnObject context))
  | some members =>
    match ofMembers members with
    | .error reason => pure (.error (.invalidJson context reason.message))
    | .ok (values, schemaValidation) =>
      (·.map fun tables => ⟨tables, schemaValidation⟩) <$> readTables settings values

def ofText (settings : Settings) (text : String) : Noted (Except SchemaError Database) :=
  match Json.ofText? text with
  | none => pure (.error (.notJson context))
  | some value => ofJson settings value

end Database

end DocShape
