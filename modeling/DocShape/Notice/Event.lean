/-!
# Events

The stable names under which notices are found.
-/

namespace DocShape

/-- What a notice is about. -/
inductive Event where
  /-- A part of a description was replaced or dropped. -/
  | shapeDegraded
  /-- An optional marker stood where nothing can be left out. -/
  | optionalMarkerStripped
  /-- A document type was no object and no union of objects. -/
  | documentTypeRejected
  | schemaLoaded
  | schemaReplaced
  | documentValidated
  | documentSynthesized
  | tableRendered
  | tableInferred
deriving DecidableEq

inductive Level where
  | warning
  | debug
deriving DecidableEq

namespace Event

def name : Event → String
  | shapeDegraded => "SHAPE_DEGRADED"
  | optionalMarkerStripped => "OPTIONAL_MARKER_STRIPPED"
  | documentTypeRejected => "DOCUMENT_TYPE_REJECTED"
  | schemaLoaded => "SCHEMA_LOADED"
  | schemaReplaced => "SCHEMA_REPLACED"
  | documentValidated => "DOCUMENT_VALIDATED"
  | documentSynthesized => "DOCUMENT_SYNTHESIZED"
  | tableRendered => "TABLE_RENDERED"
  | tableInferred => "TABLE_INFERRED"

/-- Whether the event reports a repaired input. -/
def isDegradation : Event → Bool
  | shapeDegraded => true
  | optionalMarkerStripped => true
  | documentTypeRejected => true
  | _ => false

/-- Repairs are warnings, all else is routine. -/
def level (event : Event) : Level := if event.isDegradation then .warning else .debug

end Event

def Level.name : Level → String
  | warning => "WARN"
  | debug => "DEBUG"

end DocShape
