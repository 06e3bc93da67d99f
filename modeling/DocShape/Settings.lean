import DocShape.Decoding.Record
import DocShape.Error
import DocShape.Json.Reader
import DocShape.Layout

/-!
# Settings

The limits under which descriptions are read and the layout in which declarations are written. They
come as JSON text. Members under unknown names are never given a value, so all that counts there is
the grammar.

* `Settings.ofText`: **the settings of a text**, or why there are none.
-/

namespace DocShape

/-- The settings of ingestion and layout. -/
structure Settings where
  layout : Layout := {}
  /-- How many optional markers may be stacked on one node. -/
  maxOptionalDepth : Nat := 8
  /-- How deep shapes may be nested. -/
  maxNestingDepth : Nat := 64
deriving DecidableEq

namespace Layout

def indentWidthKey : Decode.Key Nat := ⟨"indentWidth", none, Decode.count⟩

def maxInlineVariantsKey : Decode.Key Nat := ⟨"unionInlineMaxVariants", none, Decode.count⟩

def maxInlineLengthKey : Decode.Key Nat := ⟨"unionInlineMaxLen", none, Decode.count⟩

def rules : List Decode.Rule :=
  [indentWidthKey.rule, maxInlineVariantsKey.rule, maxInlineLengthKey.rule]

/-- A layout from the members of an object; what is not given has its default. -/
def ofMembers (members : Members) : Except DecodeError Layout := do
  Decode.checkMembers rules [] members
  let default : Layout := {}
  return ⟨← indentWidthKey.orElse default.indentWidth members,
    ← maxInlineVariantsKey.orElse default.maxInlineVariants members,
    ← maxInlineLengthKey.orElse default.maxInlineLength members⟩

def ofItems (items : List Json) : Except DecodeError Layout := do
  let default : Layout := {}
  let indentWidth ← indentWidthKey.elementOr default.indentWidth 0 items
  let maxInlineVariants ← maxInlineVariantsKey.elementOr default.maxInlineVariants 1 items
  let maxInlineLength ← maxInlineLengthKey.elementOr default.maxInlineLength 2 items
  Decode.checkLength .layout items .trailing
  return ⟨indentWidth, maxInlineVariants, maxInlineLength⟩

def ofJson : Json → Except DecodeError Layout := Decode.record .layout ofMembers ofItems

end Layout

namespace Settings

def layoutKey : Decode.Key Layout := ⟨"render", none, Layout.ofJson⟩

def maxOptionalDepthKey : Decode.Key Nat := ⟨"maxOptionalDepth", none, Decode.count⟩

def maxNestingDepthKey : Decode.Key Nat := ⟨"maxNestingDepth", none, Decode.count⟩

def rules : List Decode.Rule :=
  [layoutKey.rule, maxOptionalDepthKey.rule, maxNestingDepthKey.rule]

/-- Settings from the members of an object; what is not given has its default. -/
def ofMembers (members : Members) : Except DecodeError Settings := do
  Decode.checkMembers rules [] members
  let default : Settings := {}
  return ⟨← layoutKey.orElse default.layout members,
    ← maxOptionalDepthKey.orElse default.maxOptionalDepth members,
    ← maxNestingDepthKey.orElse default.maxNestingDepth members⟩

def ofItems (items : List Json) : Except DecodeError Settings := do
  let default : Settings := {}
  let layout ← layoutKey.elementOr default.layout 0 items
  let maxOptionalDepth ← maxOptionalDepthKey.elementOr default.maxOptionalDepth 1 items
  let maxNestingDepth ← maxNestingDepthKey.elementOr default.maxNestingDepth 2 items
  Decode.checkLength .settings items .trailing
  return ⟨layout, maxOptionalDepth, maxNestingDepth⟩

def ofJson : Json → Except DecodeError Settings := Decode.record .settings ofMembers ofItems

/-! ## Reading -/

def valueOf? (written : Written) : Option Json := written.toJson? Json.maxNesting

/-- The members that give a field, each with the value that `value?` reads for that name; repeated
ones are kept. -/
def knownMembers? (rules : List Decode.Rule) (value? : String → Written → Option Json) :
    List (List Piece × Written) → Option Members
  | [] => some []
  | (name, written) :: rest => do
    let name ← Piece.text? name
    if rules.any (·.covers name) then
      return (name, ← value? name written) :: (← knownMembers? rules value? rest)
    else
      knownMembers? rules value? rest

/-- The part of a written layout that is read. -/
def knownLayout? : Written → Option Json
  | .object members =>
    (knownMembers? Layout.rules (fun _ => valueOf?) members).map .object
  | written => valueOf? written

/-- The part of written settings that is read. -/
def known? : Written → Option Json
  | .object members =>
    let value? (name : String) := if layoutKey.covers name then knownLayout? else valueOf?
    (knownMembers? rules value? members).map .object
  | .array (layout :: rest) => do
    return .array ((← knownLayout? layout) :: (← rest.mapM valueOf?))
  | written => valueOf? written

/-- The settings of a text. A text that is not JSON as a whole has no reason of its own. -/
def ofText (text : String) : Except SchemaError Settings :=
  let context := "engine config"
  match Written.ofText? text with
  | none => .error (.notJson context)
  | some written =>
    match (known? written).map ofJson with
    | some (.ok settings) => .ok settings
    | some (.error reason) =>
      if (valueOf? written).isSome then .error (.invalidJson context reason.message)
      else .error (.notJson context)
    | none => .error (.notJson context)

end Settings

end DocShape
