/-!
# Faults of descriptions

Why a node of a description is read as `any`.
-/

namespace DocShape

/-- Why a node describes no shape. -/
inductive NodeFault where
  | nestingTooDeep
  | optionalWithoutShape
  | optionalTooDeep
  | notAnObject
  | noTypeTag
  | literalWithoutScalar
  | idWithoutTable
  | arrayWithoutElement
  | objectWithoutFields
  | recordIncomplete
  | unionWithoutVariants
  | uninhabited
  | unknownKind (tag : String)
deriving DecidableEq

def NodeFault.message : NodeFault → String
  | nestingTooDeep => "nesting too deep"
  | optionalWithoutShape => "optional marker without inner shape"
  | optionalTooDeep => "optional markers nested too deeply"
  | notAnObject => "shape is not a JSON object"
  | noTypeTag => "shape has no type tag"
  | literalWithoutScalar => "literal without a scalar value"
  | idWithoutTable => "id without tableName"
  | arrayWithoutElement => "array without element shape"
  | objectWithoutFields => "object without fields"
  | recordIncomplete => "record without keys or values"
  | unionWithoutVariants => "union without variants"
  | uninhabited => "uninhabited shape"
  | unknownKind tag => "unknown shape kind '" ++ tag ++ "'"

end DocShape
