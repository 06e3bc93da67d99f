import DocShape.Inference
import DocShape.Proofs.Shape.Indentation
import DocShape.Proofs.Shape.Levels
import DocShape.Table.Declaration

/-!
# Levels of declarations

Four declarations are written from outside: of a shape, of a table, of a database, and the
one that is inferred from samples.  Each fixes the levels of what stands inside, and all
of these are above zero, also for a table that itself stands at level zero.

* `Table.renderAt?_eq`, `Database.render?_eq`, `inferDeclaration?_eq`: written with the
  subtraction that fails at level zero, the declarations are the same.
* `indented_and_levels`: **indentation follows the open blocks**, and no declaration needs
  a level above level zero.
-/

namespace DocShape

/-! ### Tables -/

namespace Table

def documentText? (layout : Layout) (level : Nat) : Option Shape → Option String
  | none => some "v.any()"
  | some (.object fields) => do Shape.block? layout level (← Shape.fieldLines? layout level fields)
  | some shape => shape.renderAt? layout level

/-- The declaration of a table, if every block in it has a level above. -/
def renderAt? (layout : Layout) (level : Nat) (table : Table) : Option String := do
  let text ← documentText? layout (level + 1) table.documentType
  return "defineTable(" ++ text ++ ")"
    ++ String.join (table.indexCalls.map fun call => "\n" ++ layout.indent (level + 1) ++ call)

def render? (layout : Layout) (table : Table) : Option String := table.renderAt? layout 0

theorem documentText?_succ (layout : Layout) (level : Nat) (documentType : Option Shape) :
    documentText? layout (level + 1) documentType =
      some (documentText layout (level + 1) documentType) := by
  cases documentType with
  | none => rfl
  | some shape =>
    cases shape with
    | object fields =>
      have hlines : Shape.fieldLines? layout (level + 1) fields =
          some (Shape.fieldLines layout (level + 1) fields) :=
        Shape.fieldLines?_eq fun field _ => field.shape.renderAt?_eq layout (level + 1)
      rw [documentText?, documentText, hlines, Option.bind_eq_bind, Option.bind_some,
        Shape.block?_succ]
    | _ => exact Shape.renderAt?_eq layout _ level

/-- A table may stand at level zero. -/
theorem renderAt?_eq (layout : Layout) (level : Nat) (table : Table) :
    table.renderAt? layout level = some (table.renderAt layout level) := by
  rw [renderAt?, documentText?_succ]
  rfl

end Table

/-! ### Databases -/

namespace Database

def tableLine? (layout : Layout) (table : Table) : Option String := do
  let text ← table.renderAt? layout 1
  return layout.indent 1 ++ Shape.fieldKey table.name ++ ": " ++ text ++ ",\n"

def tablesText? (layout : Layout) (tables : List Table) : Option String :=
  if tables.isEmpty then some "\x7b\x7d"
  else do return "\x7b\n" ++ String.join (← tables.mapM (tableLine? layout)) ++ "\x7d"

/-- The declaration of a database, if every block in it has a level above. -/
def render? (layout : Layout) (database : Database) : Option String := do
  let text ← tablesText? layout database.sortedTables
  return header ++ text
    ++ (if database.schemaValidation then "" else ", \x7b schemaValidation: false \x7d")
    ++ ");\n"

theorem tableLine?_eq (layout : Layout) (table : Table) :
    tableLine? layout table = some (tableLine layout table) := by
  rw [tableLine?, Table.renderAt?_eq]
  rfl

theorem render?_eq (layout : Layout) (database : Database) :
    database.render? layout = some (database.render layout) := by
  have hlines : database.sortedTables.mapM (tableLine? layout) =
      some (database.sortedTables.map (tableLine layout)) := by
    rw [funext (tableLine?_eq layout)]
    exact List.mapM_pure
  rw [render?, render, tablesText?, tablesText, hlines]
  split <;> rfl

end Database

/-! ### Samples -/

def Observation.expression? (layout : Layout) (field : Observation) : Option String :=
  if field.types = [] ∨ .object ∈ field.types then some "v.any()"
  else
    match field.types.map SampleType.expression with
    | [single] => some single
    | several => Shape.unionText? layout 2 several

/-- The line of a field that a number of samples may have. -/
def Observation.line? (layout : Layout) (count : Nat) (field : Observation) : Option String := do
  return Shape.fieldLine layout 1 field.name (field.present < count) (← field.expression? layout)

/-- The declaration that describes documents, if every block in it has a level above. -/
def inferDeclaration? (layout : Layout) (documents : List Json) : Option String := do
  let count := (Observation.samples documents).length
  let lines ← (Observation.ofSamples documents).mapM (Observation.line? layout count)
  return "defineTable(" ++ (← Shape.block? layout 1 lines) ++ ")"

theorem Observation.expression?_eq (layout : Layout) (field : Observation) :
    field.expression? layout = some (field.expression layout) := by
  unfold expression? expression
  split
  · rfl
  · rcases field.types.map SampleType.expression with _ | ⟨first, _ | ⟨second, rest⟩⟩
    · exact Shape.unionText?_succ layout 1 _
    · rfl
    · exact Shape.unionText?_succ layout 1 _

theorem Observation.line?_eq (layout : Layout) (count : Nat) (field : Observation) :
    field.line? layout count = some (Shape.fieldLine layout 1 field.name (field.present < count)
      (field.expression layout)) := by
  rw [line?, expression?_eq]
  rfl

theorem inferDeclaration?_eq (layout : Layout) (documents : List Json) :
    inferDeclaration? layout documents = some (inferDeclaration layout documents).value := by
  have hlines : ∀ count, (Observation.ofSamples documents).mapM (Observation.line? layout count) =
      some ((Observation.ofSamples documents).map fun field => Shape.fieldLine layout 1 field.name
        (field.present < count) (field.expression layout)) := by
    intro count
    rw [funext (Observation.line?_eq layout count)]
    exact List.mapM_pure
  simp only [inferDeclaration?, hlines, Option.bind_eq_bind, Option.bind_some, Shape.block?_succ]
  rfl

/-! ### Indentation -/

/-- **Indentation follows the open blocks.**  In the declaration of a shape each line after the
first starts with the blanks for the blocks that are open there, each line but the last ends with an
opening bracket or a comma, and at the end all brackets are closed.  And neither there nor in the
declaration of a table, of a database or from samples is a level needed above level zero. -/
theorem indented_and_levels (layout : Layout) :
    (∀ shape : Shape, Text.Indented layout.indentWidth (shape.render layout)) ∧
      (∀ shape : Shape, shape.render? layout = some (shape.render layout)) ∧
      (∀ table : Table, table.render? layout = some (table.render layout).value) ∧
      (∀ database : Database, database.render? layout = some (database.render layout)) ∧
      ∀ documents,
        inferDeclaration? layout documents = some (inferDeclaration layout documents).value :=
  ⟨Shape.indented_render layout, fun shape => shape.renderAt?_eq layout 0,
    Table.renderAt?_eq layout 0, Database.render?_eq layout, inferDeclaration?_eq layout⟩

end DocShape
