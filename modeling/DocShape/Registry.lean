import DocShape.Table.Declaration
import DocShape.Table.Document
import DocShape.Table.Ingestion
import Std.Data.TreeMap

/-!
# Registry

The tables of one deployment, each under its name. Tables are replaced as a whole, one by one or all
at once. An operation that fails gives no new registry, so the old one stays.

* `Registry.register`, `Registry.readTable`, `Registry.readDatabase`, `Registry.remove`.
* `Registry.database`: **the tables in the order of their names**.
-/

namespace DocShape

/-- The registered tables, under the settings they are read with. -/
structure Registry where
  settings : Settings := {}
  /-- Whether documents are checked, as the last loaded database says. -/
  schemaValidation : Bool := true
  tables : Std.TreeMap String Table := {}

namespace Registry

def get? (registry : Registry) (name : String) : Option Table := registry.tables[name]?

def names (registry : Registry) : List String := registry.tables.keys

def size (registry : Registry) : Nat := registry.tables.size

/-- The registered tables as a database, in the order of their names. -/
def database (registry : Registry) : Database :=
  ⟨registry.tables.values, registry.schemaValidation⟩

/-- Puts a table under its name, in place of one that was there. -/
def register (registry : Registry) (table : Table) : Noted Registry :=
  let notice :=
    if registry.tables.contains table.name then Notice.tableReplaced table.name
    else Notice.tableLoaded table.name
  ⟨{ registry with tables := registry.tables.insert table.name table }, [notice]⟩

/-- Registers tables one after the other. -/
def registerAll (registry : Registry) : List Table → Noted Registry
  | [] => pure registry
  | table :: rest => do (← registry.register table).registerAll rest

def remove (registry : Registry) (name : String) : Registry :=
  { registry with tables := registry.tables.erase name }

/-- Reads a table and registers it. -/
def readTable (registry : Registry) (text : String) :
    Except SchemaError (Noted (Table × Registry)) :=
  (Table.ofText registry.settings text).map fun table => do
    let table ← table
    return (table, ← registry.register table)

/-- Reads a database and puts its tables in place of all that are registered; also returns how many
it has. -/
def readDatabase (registry : Registry) (text : String) :
    Noted (Except SchemaError (Nat × Registry)) := do
  match ← Database.ofText registry.settings text with
  | .error error => return .error error
  | .ok database =>
    let empty : Registry := { registry with
      schemaValidation := database.schemaValidation, tables := {} }
    return .ok (database.tables.length, ← empty.registerAll database.tables)

end Registry

end DocShape
