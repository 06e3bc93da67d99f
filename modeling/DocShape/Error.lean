import DocShape.Text.Position

/-!
# Ingestion errors

Reading a schema fails only when it is unusable as a whole. The codes are stable; the messages are
for people.
-/

namespace DocShape

/-- Why settings or a schema cannot be read. `context` says what was being read. -/
inductive SchemaError where
  | notJson (context : String)
  /-- The value is JSON, but not of the form asked for. -/
  | invalidJson (context reason : String)
  | notAnObject (context : String)
  | missingTableName
deriving DecidableEq

namespace SchemaError

/-- The stable code of an error. -/
def code : SchemaError → String
  | notJson _ => "SHAPE_INVALID_JSON"
  | invalidJson _ _ => "SHAPE_INVALID_JSON"
  | notAnObject _ => "SHAPE_NOT_AN_OBJECT"
  | missingTableName => "SHAPE_MISSING_TABLE_NAME"

def message : SchemaError → String
  | notJson context => "Invalid JSON in " ++ context
  | invalidJson context reason => "Invalid JSON in " ++ context ++ ": " ++ reason
  | notAnObject context => "Expected a JSON object for " ++ context
  | missingTableName => "Table schema is missing 'tableName'"

/-- The error in words, without the position that its reason may end in. -/
def report (error : SchemaError) : String :=
  match error with
  | invalidJson context reason => message (invalidJson context (Text.withoutPosition reason))
  | error => message error

end SchemaError

end DocShape
