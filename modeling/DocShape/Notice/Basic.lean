import DocShape.Description.Fault
import DocShape.Index.Basic
import DocShape.Json.Basic
import DocShape.Notice.Event
import DocShape.Place

/-!
# Notices

What the library reports besides its results: every repair of an input, and routine operations on
tables. A notice is data; `Notice.toJson` writes it as a log line.
-/

namespace DocShape

/-- A reported event. -/
inductive Notice where
  /-- A node of a description is read as `any`. -/
  | nodeDegraded (place : String) (fault : NodeFault)
  /-- An entry in a list of fields has no name and is skipped. -/
  | entrySkipped (place : String)
  /-- An optional marker outside a field is ignored. -/
  | markerStripped (place : String)
  /-- A variant of a document type describes no document and is dropped. -/
  | variantDropped (table kind : String)
  /-- A document type describes no document; the table has none. -/
  | documentTypeRejected (table kind : String)
  /-- An entry of an index list is unusable and is skipped. -/
  | indexSkipped (table : String) (list : IndexList) (index : String) (fault : IndexFault)
  | tableLoaded (table : String)
  | tableReplaced (table : String)
  | documentValidated (table : String) (errors : Nat)
  | documentSynthesized (table : String) (fields : Nat)
  | tableRendered (table : String) (bytes : Nat)
  | tableInferred (samples fields : Nat)
deriving DecidableEq

namespace Notice

def event : Notice → Event
  | nodeDegraded _ _ => .shapeDegraded
  | entrySkipped _ => .shapeDegraded
  | markerStripped _ => .optionalMarkerStripped
  | variantDropped _ _ => .shapeDegraded
  | documentTypeRejected _ _ => .documentTypeRejected
  | indexSkipped _ _ _ _ => .shapeDegraded
  | tableLoaded _ => .schemaLoaded
  | tableReplaced _ => .schemaReplaced
  | documentValidated _ _ => .documentValidated
  | documentSynthesized _ _ => .documentSynthesized
  | tableRendered _ _ => .tableRendered
  | tableInferred _ _ => .tableInferred

def message : Notice → String
  | nodeDegraded _ _ => "Malformed shape node treated as v.any()"
  | entrySkipped _ => "Object field entry without a name skipped"
  | markerStripped _ => "Optional marker outside a field position ignored"
  | variantDropped _ _ => "Document type variant is not an object; variant dropped"
  | documentTypeRejected _ _ =>
    "Document type is not an object or union of objects; treating table as schemaless"
  | indexSkipped _ _ _ _ => "Malformed index definition skipped"
  | tableLoaded _ => "Table schema loaded"
  | tableReplaced _ => "Table schema replaced"
  | documentValidated _ _ => "Document validated"
  | documentSynthesized _ _ => "Default document synthesized"
  | tableRendered _ _ => "Table rendered"
  | tableInferred _ _ => "Table inferred from samples"

def details : Notice → Members
  | nodeDegraded place fault =>
    [("path", .string (Place.display place)), ("reason", .string fault.message)]
  | entrySkipped place => [("path", .string (Place.display place))]
  | markerStripped place => [("path", .string (Place.display place))]
  | variantDropped table kind => [("table", .string table), ("kind", .string kind)]
  | documentTypeRejected table kind => [("table", .string table), ("kind", .string kind)]
  | indexSkipped table list index fault =>
    [("table", .string table), ("kind", .string list.entryName), ("index", .string index),
      ("reason", .string fault.message)]
  | tableLoaded table => [("table", .string table)]
  | tableReplaced table => [("table", .string table)]
  | documentValidated table errors => [("table", .string table), ("errors", .ofNat errors)]
  | documentSynthesized table fields => [("table", .string table), ("fields", .ofNat fields)]
  | tableRendered table bytes => [("table", .string table), ("bytes", .ofNat bytes)]
  | tableInferred samples fields => [("samples", .ofNat samples), ("fields", .ofNat fields)]

def toJson (notice : Notice) : Json :=
  .object <| [("level", .string notice.event.level.name), ("message", .string notice.message),
    ("event", .string notice.event.name)] ++ notice.details

end Notice

end DocShape
